import Bracket.Proofs.Double.Numerals
import Bracket.Proofs.Target.Chunks
import Bracket.Proofs.Text.Quoting
import Bracket.Proofs.Tree.Nodes
import Bracket.Text.Identifier

/-!
# Comments in Lua code

Two minus signs outside of string literals begin a comment, which would hide the code behind
them.  A scanner reads a text from left to right and knows whether it is inside of a string
literal and whether a minus sign stands right before; once it has seen a comment it says so to
the end.  String literals are those between quotes; no others are written.

The only minus signs of code are those of negations, subtractions and negative numbers, and
subtractions have spaces around them.  The main statement is that a program with plain names has
a comment in its code exactly if it negates an expression whose own code begins with a minus.
-/

namespace Bracket

/-- The code of the expression begins with a minus sign. -/
def Expr.leadsMinus : Expr → Bool
  | .literal (.number d) => d.isNegative
  | .unary .neg _ => true
  | .assign t _ => t.leadsMinus
  | .await e => e.leadsMinus
  | _ => false

/-- The node puts a minus sign in front of another one. -/
def Node.doublesMinus : Node → Bool
  | .expr (.unary .neg e) => e.leadsMinus
  | _ => false

namespace Lua

open Text (Doc commaSeparated isPlainIdentifier)

/-! ## The scanner -/

/-- What a scanner knows about the text before it. -/
inductive Mode where
  /-- It is outside of string literals and not behind a minus sign. -/
  | code
  | minus
  /-- It is in a string literal that ends with the given quote. -/
  | quoted (quote : Char)
  /-- It is behind a backslash in a string literal. -/
  | escaped (quote : Char)
  /-- There was a comment. -/
  | comment
  deriving DecidableEq, Repr

def isQuote (c : Char) : Bool := c == '"' || c == '\''

namespace Mode

/-- The scanner reads a character. -/
def next : Mode → Char → Mode
  | .code, c => if c = '-' then .minus else if isQuote c then .quoted c else .code
  | .minus, c => if c = '-' then .comment else if isQuote c then .quoted c else .code
  | .quoted q, c => if c = '\\' then .escaped q else if c = q then .code else .quoted q
  | .escaped q, _ => .quoted q
  | .comment, _ => .comment

def scan (m : Mode) (text : List Char) : Mode := text.foldl next m

/-- The scanner is outside of string literals, behind a comment or not. -/
def after (commented : Bool) : Mode := if commented then .comment else .code

@[simp] theorem scan_nil (m : Mode) : m.scan [] = m := rfl

@[simp] theorem scan_cons (m : Mode) (c : Char) (t : List Char) :
    m.scan (c :: t) = (m.next c).scan t := rfl

@[simp] theorem scan_append (m : Mode) (t u : List Char) :
    m.scan (t ++ u) = (m.scan t).scan u := List.foldl_append

/-- A comment has no end. -/
@[simp] theorem scan_comment (t : List Char) : comment.scan t = .comment := by
  induction t with
  | nil => rfl
  | cons c t ih => exact ih

end Mode

/-- No two minus signs stand side by side outside of string literals. -/
def CommentFree (text : String) : Prop := Mode.code.scan text.toList ≠ .comment

/-! ## Texts that are read as a whole -/

/-- Read from code on, the text ends in code, or there was a comment in it. -/
def Passes (commented : Bool) (t : List Char) : Prop := Mode.code.scan t = .after commented

/-- Also a minus sign may stand before the text; `lead` says whether it begins with one. -/
structure Reads (lead commented : Bool) (t : List Char) : Prop where
  passes : Passes commented t
  behindMinus : Mode.minus.scan t = .after (lead || commented)

instance (commented : Bool) (t : List Char) : Decidable (Passes commented t) :=
  inferInstanceAs (Decidable (_ = _))

instance (lead commented : Bool) (t : List Char) : Decidable (Reads lead commented t) :=
  decidable_of_iff (Passes commented t ∧ Mode.minus.scan t = .after (lead || commented))
    ⟨fun h => ⟨h.1, h.2⟩, fun h => ⟨h.1, h.2⟩⟩

section Texts

variable {lead a b : Bool} {t u : List Char}

theorem Passes.nil : Passes false [] := rfl

theorem scan_after (h : Passes b u) : (Mode.after a).scan u = .after (a || b) := by
  cases a with
  | false => exact h
  | true => exact Mode.scan_comment u

theorem Passes.append (h : Passes a t) (h' : Passes b u) : Passes (a || b) (t ++ u) := by
  rw [Passes, Mode.scan_append, h, scan_after h']

theorem Reads.append (h : Reads lead a t) (h' : Passes b u) : Reads lead (a || b) (t ++ u) := by
  refine ⟨h.passes.append h', ?_⟩
  rw [Mode.scan_append, h.behindMinus, scan_after h', Bool.or_assoc]

/-- Behind a minus sign it shows with what a text begins. -/
theorem Reads.negated (h : Reads lead a t) : Reads true (lead || a) ('-' :: t) :=
  ⟨h.behindMinus, Mode.scan_comment t⟩

/-- The character is neither a minus sign nor a quote. -/
def isNeutral (c : Char) : Bool := c != '-' && !isQuote c

theorem next_of_isNeutral
    {c : Char} (h : isNeutral c = true) : Mode.code.next c = .code ∧ Mode.minus.next c = .code := by
  rw [isNeutral, Bool.and_eq_true, bne_iff_ne, Bool.not_eq_true'] at h
  simp [Mode.next, h.1, h.2]

/-- A class of characters without a minus sign and without quotes. -/
theorem isNeutral_of
    {p : Char → Bool} {c : Char} (h : p c = true) (hminus : p '-' = false) (hdouble : p '"' = false)
    (hsingle : p '\'' = false) : isNeutral c = true := by
  have hne {c' : Char} (h' : p c' = false) : c ≠ c' := by
    rintro rfl
    exact absurd h (by simp [h'])
  simp [isNeutral, isQuote, hne hminus, hne hdouble, hne hsingle]

theorem passes_of_isNeutral (h : ∀ c ∈ t, isNeutral c = true) : Passes false t := by
  induction t with
  | nil => exact .nil
  | cons c t ih =>
      obtain ⟨hc, ht⟩ := List.forall_mem_cons.mp h
      rw [Passes, Mode.scan_cons, (next_of_isNeutral hc).1]
      exact ih ht

theorem reads_of_isNeutral
    (hne : t ≠ []) (h : ∀ c ∈ t, isNeutral c = true) : Reads false false t := by
  refine ⟨passes_of_isNeutral h, ?_⟩
  cases t with
  | nil => exact absurd rfl hne
  | cons c t =>
      obtain ⟨hc, ht⟩ := List.forall_mem_cons.mp h
      rw [Mode.scan_cons, (next_of_isNeutral hc).2]
      exact passes_of_isNeutral ht

end Texts

/-! ## Names, numbers and strings -/

theorem passes_append
    {s t : String} (hs : Passes false s.toList) (ht : Passes false t.toList) :
    Passes false (s ++ t).toList := by
  rw [String.toList_append]
  exact hs.append ht

theorem reads_name {x : String} (h : isPlainIdentifier x = true) : Reads false false x.toList := by
  have hneutral {c : Char} (hc : (c.isAlphanum || c == '_') = true) : isNeutral c = true :=
    isNeutral_of (p := fun c => c.isAlphanum || c == '_') hc (by decide) (by decide) (by decide)
  obtain ⟨first, rest, hchars, hfirst, hrest⟩ := Text.exists_of_isSpelled h
  rw [hchars]
  refine reads_of_isNeutral (List.cons_ne_nil _ _)
    (List.forall_mem_cons.mpr ⟨hneutral ?_, fun c hc => hneutral (hrest c hc)⟩)
  rw [Bool.or_eq_true] at hfirst ⊢
  exact hfirst.imp_left fun halpha => by simp [Char.isAlphanum, halpha]

theorem passes_commaSeparated
    {texts : List String} (h : ∀ t ∈ texts, Passes false t.toList) :
    Passes false (commaSeparated texts).toList := by
  rw [commaSeparated, String.toList_intercalate]
  induction texts with
  | nil => exact .nil
  | cons text texts ih =>
      obtain ⟨htext, htexts⟩ := List.forall_mem_cons.mp h
      cases texts with
      | nil => simpa using htext
      | cons next texts =>
          have hrest := ih htexts
          rw [List.map_cons, List.map_cons, List.intercalate_cons_cons, ← List.map_cons]
          exact (htext.append (by decide : Passes false ", ".toList)).append hrest

theorem reads_number (d : Double) :
    Reads d.isNegative false (d.text (.below (Nat.pow 10 15))).toList := by
  obtain ⟨body, htext, hne, hbody⟩ := d.toList_text (.below (Nat.pow 10 15)) (by decide)
  have hreads : Reads false false body := reads_of_isNeutral hne fun c hc =>
    isNeutral_of (hbody c hc) (by decide) (by decide) (by decide)
  rw [htext]
  cases d.isNegative with
  | false => exact hreads
  | true => exact hreads.negated

theorem reads_quoted (s : String) : Reads false false (Text.quotedInStages s).toList := by
  have hescape : (Mode.quoted '"').scan (Text.escape s.toList) = .quoted '"' := by
    refine Text.foldl_escape (fun c hslash hquote _ => ?_) rfl (fun _ => rfl) s.toList
    simp [Mode.next, hslash, hquote]
  have hchars : (Text.quotedInStages s).toList = '"' :: (Text.escape s.toList ++ ['"']) := by
    rw [Text.quotedInStages_eq_quoted]
    exact String.toList_ofList
  rw [hchars]
  constructor
  · rw [Passes, Mode.scan_cons, show Mode.code.next '"' = .quoted '"' from rfl, Mode.scan_append,
      hescape]
    rfl
  · rw [Mode.scan_cons, show Mode.minus.next '"' = .quoted '"' from rfl, Mode.scan_append, hescape]
    rfl

theorem reads_literal
    (l : Literal) : Reads (Expr.literal l).leadsMinus false (literal l).toList := by
  cases l with
  | null => exact (by decide : Reads false false "nil".toList)
  | bool value => cases value <;> exact (by decide)
  | number d => exact reads_number d
  | string s => exact reads_quoted s

theorem passes_key (k : String) : Passes false (key k).toList := by
  unfold key
  split
  · rename_i h
    exact (reads_name h).passes
  · exact passes_append (passes_append (by decide) (reads_quoted k).passes) (by decide)

theorem passes_repr (n : Nat) : Passes false n.repr.toList := by
  refine passes_of_isNeutral fun c hc => ?_
  have hdigit : c.isDigit = true := by
    rw [Nat.repr, String.toList_ofList] at hc
    exact Nat.isDigit_of_mem_toDigits (by decide) (by decide) hc
  exact isNeutral_of hdigit (by decide) (by decide) (by decide)

/-! ## Documents -/

/-- At every width, the text of the document passes. -/
def DocPasses (commented : Bool) (doc : Doc) : Prop := ∀ w, Passes commented (doc.render w)

namespace DocPasses

variable {a b : Bool} {doc doc' : Doc}

theorem nil : DocPasses false [] := fun _ => .nil

theorem append
    (h : DocPasses a doc) (h' : DocPasses b doc') : DocPasses (a || b) (doc ++ doc') := by
  intro w
  rw [Doc.render_append]
  exact (h w).append (h' w)

theorem text
    {s : String} (hs : Passes false s.toList) (h : DocPasses b doc) :
    DocPasses b (.text s :: doc) :=
  fun w => hs.append (h w)

theorem lineBreak (depth : Nat) (h : DocPasses b doc) : DocPasses b (.lineBreak depth :: doc) := by
  intro w
  have hspaces : Passes false (List.replicate (depth * w) ' ') :=
    passes_of_isNeutral fun c hc => by rw [List.eq_of_mem_replicate hc]; decide
  exact hspaces.append (h w)

end DocPasses

/-- The end of a block. -/
theorem docPasses_end (d : Nat) : DocPasses false [.lineBreak d, .text "end"] :=
  .lineBreak d (.text (by decide) .nil)

/-! ## Parts and statements -/

/-- The text of the parts passes at every depth. -/
def PartsPass (commented : Bool) (parts : List Part) : Prop :=
  ∀ d, DocPasses commented (Part.docs d parts)

def PartsRead (lead commented : Bool) (parts : List Part) : Prop :=
  ∀ d w, Reads lead commented ((Part.docs d parts).render w)

/-- The text of the statements passes at every depth. -/
def CodePasses (commented : Bool) (cs : List Code) : Prop :=
  ∀ d, DocPasses commented (Code.docs d cs)

def RestPasses (commented : Bool) (rest : Rest) : Prop := ∀ d, DocPasses commented (rest.doc d)

theorem leadsMinus_of_isPrefixForm
    {e : Expr} (h : isPrefixForm e = true) : e.leadsMinus = false := by
  induction e using isPrefixForm.induct with
  | _ => simp_all [isPrefixForm, Expr.leadsMinus]

section Rules

variable {lead a b c : Bool} {parts parts' : List Part} {cs cs' : List Code} {rest : Rest}

theorem PartsRead.passes (h : PartsRead lead a parts) : PartsPass a parts :=
  fun d w => (h d w).passes

namespace PartsPass

theorem nil : PartsPass false [] := fun d => by simpa using DocPasses.nil

theorem text
    {s : String} (hs : Passes false s.toList) (h : PartsPass a parts) :
    PartsPass a (.text s :: parts) :=
  fun d => by simpa using (h d).text hs

theorem append
    (h : PartsPass a parts) (h' : PartsPass b parts') : PartsPass (a || b) (parts ++ parts') :=
  fun d => by simpa using (h d).append (h' d)

end PartsPass

namespace PartsRead

theorem text
    {s : String} (hs : Reads lead false s.toList) (h : PartsPass a parts) :
    PartsRead lead a (.text s :: parts) :=
  fun d w => by simpa using hs.append (h d w)

theorem append
    (h : PartsRead lead a parts) (h' : PartsPass b parts') :
    PartsRead lead (a || b) (parts ++ parts') :=
  fun d w => by simpa using (h d w).append (h' d w)

/-- An expression that can stand before a call does not begin with a minus, and every other one
gets parentheses there. -/
theorem grouped
    {e : Expr} (h : PartsRead e.leadsMinus a parts) :
    PartsRead false a (groupedParts (isPrefixForm e) parts) := by
  unfold groupedParts
  split
  · rename_i hform
    rwa [leadsMinus_of_isPrefixForm hform] at h
  · simpa using (text (by decide : Reads false false "(".toList) h.passes).append
      (.text (by decide : Passes false ")".toList) .nil)

theorem table
    {isEmpty : Bool} (h : PartsPass a parts) (hempty : isEmpty = true → a = false) :
    PartsRead false a (tableParts isEmpty parts) := by
  cases isEmpty with
  | true =>
      rw [hempty rfl]
      exact text (by decide) .nil
  | false =>
      simpa [tableParts] using (text (by decide : Reads false false "\x7b ".toList) h).append
        (.text (by decide : Passes false " \x7d".toList) .nil)

theorem function
    {signature : String} (hs : Passes false signature.toList) (hbody : CodePasses a cs) :
    PartsRead false a [.function signature cs] := by
  intro d w
  have hrest : DocPasses a (.text signature :: (Code.docs (d + 1) cs ++
      [.lineBreak d, .text "end"])) := by
    simpa using ((hbody (d + 1)).append (docPasses_end d)).text hs
  simpa using (by decide : Reads false false "function".toList).append (hrest w)

end PartsRead

namespace CodePasses

theorem nil : CodePasses false [] := fun d => by simpa using DocPasses.nil

theorem append
    (h : CodePasses a cs) (h' : CodePasses b cs') : CodePasses (a || b) (cs ++ cs') :=
  fun d => by simpa using (h d).append (h' d)

theorem line (h : PartsPass a parts) : CodePasses a [.line parts] :=
  fun d => by simpa using (h d).lineBreak d

theorem ret (h : PartsPass a parts) : CodePasses a [.ret parts] :=
  fun d => by simpa using ((h d).text (by decide : Passes false "return".toList)).lineBreak d

theorem goto : CodePasses false [.goto] := fun d => by
  simpa using DocPasses.lineBreak d (.text (by decide : Passes false "goto continue".toList) .nil)

theorem label : CodePasses false [.label] := fun d => by
  simpa using DocPasses.lineBreak d (.text (by decide : Passes false "::continue::".toList) .nil)

theorem region (h : CodePasses a cs) : CodePasses a [.region cs] := by
  intro d
  simpa using DocPasses.lineBreak d
    (((h (d + 1)).append (docPasses_end d)).text (by decide : Passes false "do".toList))

theorem loop (hhead : PartsPass a parts) (hbody : CodePasses b cs) :
    CodePasses (a || b) [.loop parts cs] := by
  intro d
  have hdo : Passes false " do".toList := by decide
  simpa using DocPasses.lineBreak d
    ((hhead d).append (((hbody (d + 1)).append (docPasses_end d)).text hdo))

theorem branch
    (htest : PartsPass a parts) (hbody : CodePasses b cs) (hrest : RestPasses c rest) :
    CodePasses (a || (b || c)) [.branch parts cs rest] := by
  intro d
  have hif : Passes false "if ".toList := by decide
  have hthen : Passes false " then".toList := by decide
  simpa using DocPasses.lineBreak d (((htest d).append
    (((hbody (d + 1)).append ((hrest d).append (docPasses_end d))).text hthen)).text hif)

end CodePasses

namespace RestPasses

theorem done : RestPasses false .done := fun d => by simpa using DocPasses.nil

theorem otherwise (h : CodePasses a cs) : RestPasses a (.otherwise cs) := by
  intro d
  simpa using DocPasses.lineBreak d ((h (d + 1)).text (by decide : Passes false "else".toList))

theorem branch
    (htest : PartsPass a parts) (hbody : CodePasses b cs) (hrest : RestPasses c rest) :
    RestPasses (a || (b || c)) (.branch parts cs rest) := by
  intro d
  have hif : Passes false "elseif ".toList := by decide
  have hthen : Passes false " then".toList := by decide
  simpa using DocPasses.lineBreak d (((htest d).append
    (((hbody (d + 1)).append (hrest d)).text hthen)).text hif)

end RestPasses

end Rules

/-! ## The code of a program -/

/-- Some node puts a minus sign in front of another one. -/
def doubled (nodes : List Node) : Bool := nodes.any Node.doublesMinus

@[simp] theorem doubled_cons
    (n : Node) (ns : List Node) : doubled (n :: ns) = (n.doublesMinus || doubled ns) := rfl

@[simp] theorem doubled_append
    (ns ns' : List Node) : doubled (ns ++ ns') = (doubled ns || doubled ns') := List.any_append

attribute [simp] Node.doublesMinus

theorem passes_binaryOp (op : BinaryOp) : Passes false (" " ++ binaryOp op ++ " ").toList := by
  cases op <;> decide

theorem passes_params
    {before after : String} {params : List String} (hbefore : Passes false before.toList)
    (h : ∀ x ∈ params, isPlainIdentifier x = true) (hafter : Passes false after.toList) :
    Passes false (before ++ commaSeparated params ++ after).toList :=
  passes_append
    (passes_append hbefore (passes_commaSeparated fun x hx => (reads_name (h x hx)).passes)) hafter

theorem passes_entry (k : String) : Passes false (key k ++ " = ").toList :=
  passes_append (passes_key k) (by decide)

theorem passes_accessParts
    {computed : Bool} {property : Expr} {parts : List Part}
    (h : PartsPass (doubled property.nodes) parts) :
    PartsPass (doubled property.nodes) (accessParts (pointName? computed property) parts) := by
  cases hname : pointName? computed property with
  | none =>
      simpa [accessParts] using (PartsPass.text (by decide : Passes false "[".toList) h).append
        (.text (by decide : Passes false "]".toList) .nil)
  | some s =>
      obtain ⟨rfl, hplain⟩ := pointName?_eq_some hname
      have hname : Passes false ("." ++ s).toList :=
        passes_append (by decide) (reads_name hplain).passes
      rw [Expr.nodes]
      exact .text hname .nil

theorem passes_loopCode
    {a b label : Bool} {body : List Code} (update : Option (List Part)) (hbody : CodePasses a body)
    (hupdate : PartsPass b (update.getD [])) :
    CodePasses (a || b) (loopCode label body update) := by
  cases update with
  | none =>
      have hb : b = false := by
        cases b with
        | false => rfl
        | true => exact absurd (hupdate 0 0) (by simp [Passes, Mode.after])
      rw [hb, Bool.or_false]
      cases label with
      | false => exact hbody
      | true => simpa [loopCode] using hbody.append .label
  | some update =>
      cases label with
      | false => simpa [loopCode] using hbody.append (.line hupdate)
      | true => simpa [loopCode] using hbody.region.append (CodePasses.label.append (.line hupdate))

/-- A made-up local variable. -/
theorem passes_numbered
    {role : String} (hrole : Passes false role.toList) (n : Nat) :
    Passes false (role ++ n.repr).toList := passes_append hrole (passes_repr n)

theorem passes_slotNames :
    (ps : List Pattern) → (first : Nat) →
      (∀ x ∈ Pattern.namesList ps, isPlainIdentifier x = true) →
      ∀ x ∈ slotNames first ps, Passes false x.toList
  | [], _, _ => fun _ h => absurd h List.not_mem_nil
  | .name x :: ps, first, h => by
      rw [Pattern.namesList, Pattern.names, List.forall_mem_append] at h
      rw [slotNames]
      exact List.forall_mem_cons.mpr
        ⟨(reads_name (h.1 x List.mem_cons_self)).passes, passes_slotNames ps first h.2⟩
  | .tuple slots :: ps, first, h => by
      rw [Pattern.namesList, List.forall_mem_append] at h
      rw [slotNames]
      exact List.forall_mem_cons.mpr
        ⟨passes_numbered (by decide) first, passes_slotNames ps (first + 1) h.2⟩

theorem passes_protectedCall
    {a : Bool} {results signature args : String} {body : List Code}
    (hresults : Passes false results.toList) (hsignature : Passes false signature.toList)
    (hbody : CodePasses a body) (hargs : Passes false args.toList) :
    CodePasses a [protectedCall results signature body args] := by
  have hcall : Passes false (results ++ " = pcall(").toList := passes_append hresults (by decide)
  have hclose : Passes false (args ++ ")").toList := passes_append hargs (by decide)
  simpa [protectedCall] using CodePasses.line
    ((PartsPass.text hcall .nil).append
      ((PartsRead.function hsignature hbody).passes.append (.text hclose .nil)))

theorem passes_onFailed
    {a : Bool} {ok : String} {c : Code} (hok : Passes false ok.toList) (h : CodePasses a [c]) :
    CodePasses a [onFailed ok c] := by
  have hnot : Passes false ("not " ++ ok).toList := passes_append (by decide) hok
  simpa [onFailed] using CodePasses.branch (.text hnot .nil) h .done

mutual

/-- The declarations that take a value apart have its text in one place. -/
theorem passes_declarations
    {initial : List Part} :
    (p : Pattern) → (first next : Nat) → (source : Source) → {a : Bool} →
      (∀ x ∈ p.names, isPlainIdentifier x = true) → PartsPass a (source.parts initial) →
      CodePasses a
        ((declarations first next source p).1.map fun line => .line (line.parts initial))
  | .name x, first, next, source, a, hnames, hsource => by
      have hname : Passes false x.toList := (reads_name (hnames x (by simp [Pattern.names]))).passes
      have hx : Passes false ("local " ++ x ++ " = ").toList :=
        passes_append (passes_append (by decide) hname) (by decide)
      rw [declarations]
      exact .line (.text hx hsource)
  | .tuple slots, first, next, source, a, hnames, hsource => by
      rw [Pattern.names] at hnames
      have hslots : Passes false
          ("local " ++ commaSeparated (slotNames first slots) ++ " = table.unpack(").toList :=
        passes_append (passes_append (by decide)
          (passes_commaSeparated (passes_slotNames slots first hnames))) (by decide)
      have hunpack := (PartsPass.text hslots hsource).append
        (.text (by decide : Passes false ")".toList) .nil)
      rw [declarations]
      simpa [Declaration.parts] using
        (CodePasses.line hunpack).append (passes_nestedDeclarations slots first next hnames)

theorem passes_nestedDeclarations
    {initial : List Part} :
    (ps : List Pattern) → (first next : Nat) →
      (∀ x ∈ Pattern.namesList ps, isPlainIdentifier x = true) →
      CodePasses false
        ((nestedDeclarations first next ps).1.map fun line => .line (line.parts initial))
  | [], first, next, _ => by
      rw [nestedDeclarations]
      exact .nil
  | .name x :: ps, first, next, h => by
      rw [Pattern.namesList, List.forall_mem_append] at h
      rw [nestedDeclarations]
      exact passes_nestedDeclarations ps first next h.2
  | .tuple slots :: ps, first, next, h => by
      rw [Pattern.namesList, List.forall_mem_append] at h
      have hsource : PartsPass false (Source.parts initial (.named (slotName first))) :=
        .text (passes_numbered (by decide) first) .nil
      rw [nestedDeclarations, List.map_append]
      exact (passes_declarations (.tuple slots) _ _ _ h.1 hsource).append
        (passes_nestedDeclarations ps _ _ h.2)

end

mutual

/-- What is written for an expression reads as its tree says. -/
theorem reads_exprParts :
    (e : Expr) → PlainNames e.nodes →
      Gives (PartsRead e.leadsMinus (doubled e.nodes)) (exprParts e)
  | .literal l, _ => by
      rw [exprParts, Expr.nodes]
      exact .pure (.text (reads_literal l) .nil)
  | .ident x, h => by
      rw [Expr.nodes, plainNames_cons] at h
      rw [exprParts, Expr.nodes]
      exact .pure (.text (reads_name (h.1 x List.mem_cons_self)) .nil)
  | .binary l op r, h => by
      rw [Expr.nodes, plainNames_cons, plainNames_append] at h
      rw [exprParts, Expr.nodes]
      exact (reads_exprParts l h.2.1).bind fun _ hl => (reads_exprParts r h.2.2).map fun _ hr => by
        simpa [Expr.leadsMinus] using ((PartsRead.text (by decide) hl.passes).append
          (.text (passes_binaryOp op) hr.passes)).append (.text (by decide) .nil)
  | .unary op e, h => by
      rw [Expr.nodes, plainNames_cons] at h
      rw [exprParts, Expr.nodes]
      refine (reads_exprParts e h.2).map fun _ he => ?_
      cases op with
      | neg =>
          intro d w
          simpa [unaryOp, Expr.leadsMinus] using (he d w).negated
      | not =>
          simpa [unaryOp, Expr.leadsMinus] using PartsRead.text
            (by decide : Reads false false "not ".toList) he.passes
  | .call f args, h => by
      rw [Expr.nodes, plainNames_cons, plainNames_append] at h
      rw [exprParts, Expr.nodes]
      exact (reads_exprParts f h.2.1).bind fun _ hf =>
        (passes_exprsParts args h.2.2).map fun _ hargs => by
          simpa [Expr.leadsMinus] using (hf.grouped.append (.text (by decide) hargs)).append
            (.text (by decide) .nil)
  | .methodCall r m args, h => by
      rw [Expr.nodes, plainNames_cons, plainNames_append] at h
      have hm : Passes false (":" ++ m).toList :=
        passes_append (by decide) (reads_name (h.1 m List.mem_cons_self)).passes
      rw [exprParts, Expr.nodes]
      exact (reads_exprParts r h.2.1).bind fun _ hr =>
        (passes_exprsParts args h.2.2).map fun _ hargs => by
          simpa [Expr.leadsMinus] using
            (hr.grouped.append (.text hm (.text (by decide) hargs))).append (.text (by decide) .nil)
  | .member o p computed, h => by
      rw [Expr.nodes, plainNames_cons, plainNames_append] at h
      rw [exprParts, Expr.nodes]
      exact (reads_exprParts o h.2.1).bind fun _ ho => (reads_exprParts p h.2.2).map fun _ hp => by
        simpa [Expr.leadsMinus] using ho.grouped.append (passes_accessParts hp.passes)
  | .array es, h => by
      rw [Expr.nodes, plainNames_cons] at h
      rw [exprParts, Expr.nodes]
      exact (passes_exprsParts es h.2).map fun _ hes => by
        simpa [Expr.leadsMinus] using PartsRead.table hes fun hempty => by
          rw [List.isEmpty_iff.mp hempty, Expr.nodesList]
          rfl
  | .object ps, h => by
      rw [Expr.nodes, plainNames_cons] at h
      rw [exprParts, Expr.nodes]
      exact (passes_pairsParts ps h.2).map fun _ hps => by
        simpa [Expr.leadsMinus] using PartsRead.table hps fun hempty => by
          rw [List.isEmpty_iff.mp hempty, Expr.nodesPairs]
          rfl
  | .function ⟨name, params, body, isAsync⟩, h => by
      rw [Expr.nodes, plainNames_cons, Func.nodes] at h
      rw [exprParts, Expr.nodes, Func.nodes]
      have hparams : Passes false ("(" ++ commaSeparated params ++ ")").toList :=
        passes_params (by decide) h.1 (by decide)
      exact (passes_stmtsCode body h.2).map fun _ hbody => by
        simpa [Expr.leadsMinus] using PartsRead.function hparams hbody
  | .conditional t c a, h => by
      rw [Expr.nodes, plainNames_cons, plainNames_append, plainNames_append] at h
      rw [exprParts, Expr.nodes]
      exact (reads_exprParts t h.2.1).bind fun _ ht =>
        (reads_exprParts c h.2.2.1).bind fun _ hc =>
        (reads_exprParts a h.2.2.2).map fun _ ha => by
          simpa [Expr.leadsMinus, Bool.or_assoc] using
            (((PartsRead.text (by decide) ht.passes).append (.text (by decide) hc.passes)).append
              (.text (by decide) ha.passes)).append (.text (by decide) .nil)
  | .assign t v, h => by
      rw [Expr.nodes, plainNames_cons, plainNames_append] at h
      rw [exprParts, Expr.nodes]
      exact (reads_exprParts t h.2.1).bind fun _ ht => (reads_exprParts v h.2.2).map fun _ hv => by
        simpa [Expr.leadsMinus] using ht.append (.text (by decide) hv.passes)
  | .await e, h => by
      rw [Expr.nodes, plainNames_cons] at h
      rw [exprParts, Expr.nodes, Expr.leadsMinus]
      simpa using reads_exprParts e h.2

theorem passes_exprsParts :
    (es : List Expr) → PlainNames (Expr.nodesList es) →
      Gives (PartsPass (doubled (Expr.nodesList es))) (exprsParts es)
  | [], _ => by
      rw [exprsParts, Expr.nodesList]
      exact .pure .nil
  | [e], h => by
      rw [Expr.nodesList, Expr.nodesList, List.append_nil] at h ⊢
      rw [exprsParts]
      exact fun n => (reads_exprParts e h n).passes
  | e :: e' :: es, h => by
      rw [Expr.nodesList, plainNames_append] at h
      rw [exprsParts, Expr.nodesList]
      exact (reads_exprParts e h.1).bind fun _ he =>
        (passes_exprsParts (e' :: es) h.2).map fun _ hes => by
          simpa using he.passes.append (.text (by decide) hes)

theorem passes_pairsParts :
    (ps : List (String × Expr)) → PlainNames (Expr.nodesPairs ps) →
      Gives (PartsPass (doubled (Expr.nodesPairs ps))) (pairsParts ps)
  | [], _ => by
      rw [pairsParts, Expr.nodesPairs]
      exact .pure .nil
  | [(k, e)], h => by
      rw [Expr.nodesPairs, Expr.nodesPairs, List.append_nil] at h ⊢
      rw [pairsParts]
      exact (reads_exprParts e h).map fun _ he => .text (passes_entry k) he.passes
  | (k, e) :: (k', e') :: ps, h => by
      rw [Expr.nodesPairs, plainNames_append] at h
      rw [pairsParts, Expr.nodesPairs]
      exact (reads_exprParts e h.1).bind fun _ he =>
        (passes_pairsParts ((k', e') :: ps) h.2).map fun _ hps => by
          simpa using (PartsPass.text (passes_entry k) he.passes).append (.text (by decide) hps)

theorem passes_partsBehind
    {mark : String} (hmark : Passes false mark.toList) :
    (e : Option Expr) → PlainNames (Expr.nodesOption e) →
      Gives (PartsPass (doubled (Expr.nodesOption e))) (partsBehind mark e)
  | none, _ => by
      rw [partsBehind, Expr.nodesOption]
      exact .pure .nil
  | some e, h => by
      rw [Expr.nodesOption] at h
      rw [partsBehind, Expr.nodesOption]
      exact (reads_exprParts e h).map fun _ he => .text hmark he.passes

theorem passes_testParts :
    (e : Option Expr) → PlainNames (Expr.nodesOption e) →
      Gives (PartsPass (doubled (Expr.nodesOption e))) (testParts e)
  | none, _ => by
      rw [testParts, Expr.nodesOption]
      exact .pure (.text (by decide) .nil)
  | some e, h => by
      rw [Expr.nodesOption] at h
      rw [testParts, Expr.nodesOption]
      exact fun n => (reads_exprParts e h n).passes

theorem passes_updateParts :
    (e : Option Expr) → PlainNames (Expr.nodesOption e) →
      Gives (fun update => PartsPass (doubled (Expr.nodesOption e)) (update.getD []))
        (updateParts e)
  | none, _ => by
      rw [updateParts, Expr.nodesOption]
      exact .pure .nil
  | some e, h => by
      rw [Expr.nodesOption] at h
      rw [updateParts, Expr.nodesOption]
      exact (reads_exprParts e h).map fun _ he => he.passes

/-- What is written for a statement reads as its tree says. -/
theorem passes_stmtCode :
    (s : Stmt) → (bare : Bool) → PlainNames s.nodes →
      Gives (CodePasses (doubled s.nodes)) (stmtCode bare s)
  | .expr e, bare, h => by
      rw [Stmt.nodes, plainNames_cons] at h
      rw [stmtCode, Stmt.nodes]
      exact (reads_exprParts e h.2).map fun _ he => by simpa using CodePasses.line he.passes
  | .declare x i m, bare, h => by
      rw [Stmt.nodes, plainNames_cons] at h
      have hx : Passes false ("local " ++ x).toList :=
        passes_append (by decide) (reads_name (h.1 x List.mem_cons_self)).passes
      rw [stmtCode, Stmt.nodes]
      exact (passes_partsBehind (by decide) i h.2).map fun _ hi => by
        simpa using CodePasses.line (.text hx hi)
  | .destructure p i, bare, h => by
      rw [Stmt.nodes, plainNames_cons] at h
      rw [stmtCode, Stmt.nodes]
      exact .of_rest fun _ => (reads_exprParts i h.2).bind fun _ hi => .of_rest fun _ =>
        .of_rest fun _ => .pure (by
          simpa using passes_declarations p _ _ .initial h.1 hi.passes)
  | .block b, bare, h => by
      rw [Stmt.nodes, plainNames_cons] at h
      rw [stmtCode, Stmt.nodes]
      cases bare with
      | true => simpa using passes_stmtsCode b h.2
      | false =>
          exact (passes_stmtsCode b h.2).map fun _ hb => by simpa using CodePasses.region hb
  | .ifElse t s a, bare, h => by
      rw [Stmt.nodes, plainNames_cons, plainNames_append, plainNames_append] at h
      rw [stmtCode, Stmt.nodes]
      exact (reads_exprParts t h.2.1).bind fun _ ht =>
        (passes_stmtCode s true h.2.2.1).bind fun _ hs =>
        (passes_elseCode a h.2.2.2).map fun _ ha => by
          simpa using CodePasses.branch ht.passes hs ha
  | .whileLoop t b, bare, h => by
      rw [Stmt.nodes, plainNames_cons, plainNames_append] at h
      rw [stmtCode, Stmt.nodes]
      exact (reads_exprParts t h.2.1).bind fun _ ht =>
        (passes_stmtCode b true h.2.2).map fun _ hb => by
          simpa using CodePasses.loop (.text (by decide) ht.passes) (passes_loopCode none hb .nil)
  | .forLoop i t u b, bare, h => by
      rw [Stmt.nodes, plainNames_cons, plainNames_append, plainNames_append, plainNames_append] at h
      rw [stmtCode, Stmt.nodes]
      exact (passes_optionCode i false h.2.1).bind fun _ hi =>
        (passes_testParts t h.2.2.1).bind fun _ ht =>
        (passes_stmtCode b true h.2.2.2.1).bind fun _ hb =>
        (passes_updateParts u h.2.2.2.2).map fun u hu => by
          simpa [Bool.or_assoc] using CodePasses.region
            (hi.append (.loop (.text (by decide) ht) (passes_loopCode u hb hu)))
  | .forEach x i b, bare, h => by
      rw [Stmt.nodes, plainNames_cons, plainNames_append] at h
      have hx : Passes false ("for _, " ++ x ++ " in ipairs(").toList :=
        passes_append (passes_append (by decide) (reads_name (h.1 x List.mem_cons_self)).passes)
          (by decide)
      rw [stmtCode, Stmt.nodes]
      exact (reads_exprParts i h.2.1).bind fun _ hi =>
        (passes_stmtCode b true h.2.2).map fun _ hb => by
          have hhead := (PartsPass.text hx hi.passes).append
            (.text (by decide : Passes false ")".toList) .nil)
          simpa using CodePasses.loop hhead (passes_loopCode none hb .nil)
  | .ret v, bare, h => by
      rw [Stmt.nodes, plainNames_cons] at h
      rw [stmtCode, Stmt.nodes]
      exact (passes_partsBehind (by decide) v h.2).map fun _ hv => by simpa using CodePasses.ret hv
  | .breakLoop, bare, _ => by
      rw [stmtCode, Stmt.nodes]
      exact .pure (.line (.text (by decide) .nil))
  | .continueLoop, bare, _ => by
      rw [stmtCode, Stmt.nodes]
      exact .pure .goto
  | .throw e, bare, h => by
      rw [Stmt.nodes, plainNames_cons] at h
      rw [stmtCode, Stmt.nodes]
      exact (reads_exprParts e h.2).map fun _ he => by
        simpa using CodePasses.line
          ((PartsPass.text (by decide) he.passes).append (.text (by decide) .nil))
  | .tryCatch b p c f, bare, h => by
      rw [Stmt.nodes, plainNames_cons, plainNames_append, plainNames_append] at h
      rw [stmtCode, Stmt.nodes]
      refine .of_rest fun n => (passes_stmtCode b true h.2.1).bind fun _ hb => ?_
      have hok : Passes false ("__ok" ++ n.repr).toList := passes_numbered (by decide) n
      have herr : Passes false ("__err" ++ (n + 1).repr).toList := passes_numbered (by decide) _
      have hparam : Passes false (p.getD "_").toList := by
        cases p with
        | none => exact (by decide)
        | some x => exact (reads_name (h.1 x List.mem_cons_self)).passes
      have hresults : Passes false
          ("local " ++ ("__ok" ++ n.repr) ++ ", " ++ ("__err" ++ (n + 1).repr)).toList :=
        passes_append (passes_append (passes_append (by decide) hok) (by decide)) herr
      have herror : Passes false ("error(" ++ ("__err" ++ (n + 1).repr) ++ ", 0)").toList :=
        passes_append (passes_append (by decide) herr) (by decide)
      exact (passes_handlerCode hok herr hparam c h.2.2.1).bind fun _ hc =>
        (passes_optionCode f true h.2.2.2).map fun _ hf => by
          have hcall := passes_protectedCall hresults (by decide : Passes false "()".toList) hb
            (by decide : Passes false "".toList)
          simpa [Bool.or_assoc] using ((hcall.append hc).append hf).append
            (passes_onFailed hok (.line (.text herror .nil)))
  | .function ⟨name, params, body, isAsync⟩, bare, h => by
      rw [Stmt.nodes, plainNames_cons, Func.nodes] at h
      rw [Node.names, List.forall_mem_cons] at h
      have hsignature : Passes false
          (" " ++ name ++ "(" ++ commaSeparated params ++ ")").toList :=
        passes_params (passes_append (passes_append (by decide) (reads_name h.1.1).passes)
          (by decide)) h.1.2 (by decide)
      rw [stmtCode, Stmt.nodes, Func.nodes]
      exact (passes_stmtsCode body h.2).map fun _ hbody => by
        simpa using CodePasses.line
          (.text (by decide) (PartsRead.function hsignature hbody).passes)
  | .holding s, bare, _ => by
      rw [stmtCode, Stmt.nodes]
      exact .pure (.line (.text (by decide) .nil))

theorem passes_stmtsCode :
    (ss : List Stmt) → PlainNames (Stmt.nodesList ss) →
      Gives (CodePasses (doubled (Stmt.nodesList ss))) (stmtsCode ss)
  | [], _ => by
      rw [stmtsCode, Stmt.nodesList]
      exact .pure .nil
  | s :: ss, h => by
      rw [Stmt.nodesList, plainNames_append] at h
      rw [stmtsCode, Stmt.nodesList]
      exact (passes_stmtCode s false h.1).bind fun _ hs =>
        (passes_stmtsCode ss h.2).map fun _ hss => by simpa using hs.append hss

theorem passes_optionCode :
    (s : Option Stmt) → (bare : Bool) → PlainNames (Stmt.nodesOption s) →
      Gives (CodePasses (doubled (Stmt.nodesOption s))) (optionCode bare s)
  | none, bare, _ => by
      rw [optionCode, Stmt.nodesOption]
      exact .pure .nil
  | some s, bare, h => by
      rw [Stmt.nodesOption] at h
      rw [optionCode, Stmt.nodesOption]
      exact passes_stmtCode s bare h

theorem passes_handlerCode
    {ok err param : String} (hok : Passes false ok.toList) (herr : Passes false err.toList)
    (hparam : Passes false param.toList) :
    (c : Option Stmt) → PlainNames (Stmt.nodesOption c) →
      Gives (CodePasses (doubled (Stmt.nodesOption c))) (handlerCode ok err param c)
  | none, _ => by
      rw [handlerCode, Stmt.nodesOption]
      exact .pure .nil
  | some c, h => by
      rw [Stmt.nodesOption] at h
      have hresults : Passes false (ok ++ ", " ++ err).toList :=
        passes_append (passes_append hok (by decide)) herr
      have hsignature : Passes false ("(" ++ param ++ ")").toList :=
        passes_append (passes_append (by decide) hparam) (by decide)
      have hargs : Passes false (", " ++ err).toList := passes_append (by decide) herr
      rw [handlerCode, Stmt.nodesOption]
      exact (passes_stmtCode c true h).map fun _ hc =>
        passes_onFailed hok (passes_protectedCall hresults hsignature hc hargs)

theorem passes_elseCode :
    (a : Option Stmt) → PlainNames (Stmt.nodesOption a) →
      Gives (RestPasses (doubled (Stmt.nodesOption a))) (elseCode a)
  | none, _ => by
      rw [elseCode, Stmt.nodesOption]
      exact .pure .done
  | some (.ifElse t s a), h => by
      rw [Stmt.nodesOption, Stmt.nodes, plainNames_cons, plainNames_append, plainNames_append] at h
      rw [elseCode, Stmt.nodesOption, Stmt.nodes]
      exact (reads_exprParts t h.2.1).bind fun _ ht =>
        (passes_stmtCode s true h.2.2.1).bind fun _ hs =>
        (passes_elseCode a h.2.2.2).map fun _ ha => by
          simpa using RestPasses.branch ht.passes hs ha
  | some (.expr _), h | some (.declare ..), h | some (.destructure ..), h | some (.block _), h
  | some (.whileLoop ..), h | some (.forLoop ..), h | some (.forEach ..), h | some (.ret _), h
  | some .breakLoop, h | some .continueLoop, h | some (.throw _), h | some (.tryCatch ..), h
  | some (.function _), h | some (.holding _), h =>
      (passes_stmtCode _ true h).map fun _ hs => .otherwise hs

end

/-- The line feed before the first line is read like the one behind the last. -/
theorem passes_write
    {p : Program} (h : PlainNames p.nodes) (w : Nat) :
    Passes (doubled p.nodes) (write p w).toList := by
  have hcode : Passes (doubled p.nodes) ((Code.docs 0 (code p)).render w) :=
    passes_stmtsCode p.body h 0 0 w
  have hlines := (Code.opensLines_docs 0 (code p)).render_newline w []
  rw [List.append_nil] at hlines
  have hclosed : Passes (doubled p.nodes) ('\n' :: (Code.docs 0 (code p)).close w) := by
    rw [← hlines]
    simpa using hcode.append (by decide : Passes false ['\n'])
  rw [← text_code]
  exact hclosed

theorem doubled_eq_false_iff
    (nodes : List Node) :
    doubled nodes = false ↔ ∀ e, .expr (.unary .neg e) ∈ nodes → e.leadsMinus = false := by
  rw [doubled, List.any_eq_false]
  constructor
  · intro h e he
    simpa using h _ he
  · intro h n hn
    unfold Node.doublesMinus
    split
    · simpa using h _ hn
    · simp

/-- The code of a program with plain names has no comment in it exactly if no expression that
begins with a minus sign is negated. -/
theorem write_commentFree_iff
    (p : Program) (w : Nat) (hnames : PlainNames p.nodes) :
    CommentFree (write p w) ↔
      ∀ e, .expr (.unary .neg e) ∈ p.nodes → e.leadsMinus = false := by
  rw [← doubled_eq_false_iff, CommentFree, passes_write hnames w]
  cases doubled p.nodes <;> decide

/-- The number minus one. -/
def minusOne : Expr := .number ⟨0xBFF0000000000000⟩

/-- Minus signs side by side only in a string, with a space or with a bracket between them. -/
def separateMinuses : Program :=
  ⟨[.declare "x" (some (.binary (.unary .neg (.ident "a")) .sub minusOne)) true,
    .expr (.call (.ident "print") [.string "--\"--", .unary .neg (.call minusOne []),
      .unary .neg (.binary minusOne .sub (.unary .neg (.ident "a")))]),
    .destructure (.tuple [.name "y", .tuple [.name "z"]]) (.unary .neg (.unary .not minusOne))]⟩

theorem write_commentFree_of_separateMinuses : CommentFree (write separateMinuses 2) := by
  refine (write_commentFree_iff separateMinuses 2 ?_).mpr ((doubled_eq_false_iff _).mp ?_)
  · unfold PlainNames
    decide +kernel
  · decide +kernel

/-- A negative number is negated. -/
def negatedMinusOne : Program := ⟨[.expr (.unary .neg minusOne)]⟩

theorem write_not_commentFree_of_negatedMinusOne :
    PlainNames negatedMinusOne.nodes ∧ write negatedMinusOne 2 = "--1\n" ∧
      ¬CommentFree (write negatedMinusOne 2) := by
  have htext : write negatedMinusOne 2 = "--1\n" := by decide +kernel
  refine ⟨?_, htext, ?_⟩
  · unfold PlainNames
    decide +kernel
  · rw [htext, CommentFree]
    decide

end Lua

end Bracket
