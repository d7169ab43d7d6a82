import Bracket.Proofs.Lowering.Hygiene
import Bracket.Proofs.Tree.Scope

/-!
# Names that expansions rely on

The expansion of a resource by a protected call uses two names that it does not
introduce: the function that makes the call, and the table functions if a return has to
be resumed.  Bindings of resources may have the same names, since only those with the
prefix of generated names are refused.  A use is then captured: it stands in the scope
of such a binding.

The main statement says exactly when that happens.  The protected call of some resource
is captured if and only if, in the source, a resource stands in the scope of a binding
of that name by another resource; and no other use that an expansion adds is captured
without such a binding of its name.
-/

namespace Bracket

/-! ## Captured uses -/

namespace Mark

/-- The mark introduces the name, and it belongs to the binding of a resource. -/
def Binds (x : String) (m : Mark) : Prop :=
  m.origin = .binding ∧ m.token.introduced? = some x

/-- The mark uses the name, and the expansion of a resource adds it. -/
def Relies (x : String) (m : Mark) : Prop :=
  m = ⟨.use x, .expansion⟩

/-- A use of the name that an expansion adds stands in the scope of a binding. -/
def Captured (x : String) (marks : List Mark) : Prop :=
  Token.Covers token (Binds x) (Relies x) marks

end Mark

/-- A resource stands in the scope of a name that another resource binds. -/
def Token.Shadowed (x : String) (source : List Token) : Prop :=
  Token.Covers id (· = .bound x) (· = .resource) source

/-! ## Bindings introduce their names -/

mutual

theorem Pattern.declare_mem_indexedBindings
    {base : UInt64} {x : String} :
    (p : Pattern) → (source : Expr) → x ∈ p.names →
      .declare x ∈ Stmt.tokensList (p.indexedBindings base source)
  | .name y, source, hx => by
      have heq : x = y := by simpa [Pattern.names] using hx
      simp [heq, Pattern.indexedBindings, Stmt.letVar, Stmt.tokensList, Stmt.tokens]
  | .tuple slots, source, hx => by
      rw [Pattern.names] at hx
      rw [Pattern.indexedBindings]
      exact Pattern.declare_mem_indexedSlots slots source 0 hx

theorem Pattern.declare_mem_indexedSlots
    {base : UInt64} {x : String} :
    (ps : List Pattern) → (source : Expr) → (i : Nat) → x ∈ Pattern.namesList ps →
      .declare x ∈ Stmt.tokensList (Pattern.indexedSlots base source i ps)
  | [], source, i, hx => by simp [Pattern.namesList] at hx
  | p :: ps, source, i, hx => by
      rw [Pattern.namesList] at hx
      rw [Pattern.indexedSlots, Stmt.tokensList_append]
      rcases List.mem_append.mp hx with hx | hx
      · exact List.mem_append_left _ (Pattern.declare_mem_indexedBindings p _ hx)
      · exact List.mem_append_right _ (Pattern.declare_mem_indexedSlots ps source (i + 1) hx)

end

namespace Context

variable {c : Context} {n : Nat} {x : String}

/-- The binding of a resource introduces the names that the resource binds, and no
others. -/
theorem introduced_bindEntryValue
    (item : Item) :
    (∃ t ∈ Stmt.tokensList (c.bindEntryValue n item.binding), t.introduced? = some x) ↔
      x ∈ item.boundNames := by
  constructor
  · rintro ⟨t, ht, hintroduced⟩
    rcases c.bindEntryValue_binds n item t ht with ⟨-, rfl⟩ | ⟨y, hy, rfl | rfl⟩
    · exact nomatch hintroduced
    · exact Option.some.inj hintroduced ▸ hy
    · exact Option.some.inj hintroduced ▸ hy
  · intro hx
    unfold Item.boundNames at hx
    unfold bindEntryValue
    split
    · rename_i hbinding
      simp [hbinding] at hx
    · rename_i y hbinding
      have heq : x = y := by simpa [hbinding, Pattern.names] using hx
      refine ⟨.declare x, ?_, rfl⟩
      simp [heq, Stmt.letVar, Stmt.tokensList, Stmt.tokens]
    · rename_i p _ hbinding
      replace hx : x ∈ p.names := by simpa [hbinding] using hx
      dsimp only
      split
      · refine ⟨.binder x, ?_, rfl⟩
        simpa [Stmt.tokensList, Stmt.tokens, Expr.tokens] using hx
      · exact ⟨.declare x, Pattern.declare_mem_indexedBindings p _ hx, rfl⟩

end Context

/-! ## Captured uses, part by part -/

namespace Mark

variable {x : String} {o : Origin} {ts : List Token} {marks : List Mark}

theorem mem_mark
    {m : Mark} : m ∈ o.mark ts ↔ m.token ∈ ts ∧ m.origin = o := by
  rw [Origin.mark, List.mem_map]
  constructor
  · rintro ⟨t, ht, rfl⟩
    exact ⟨ht, rfl⟩
  · rintro ⟨ht, rfl⟩
    exact ⟨m.token, ht, rfl⟩

/-- Only bindings bind. -/
theorem not_binds_of_mem_mark
    (ho : o ≠ .binding) : ∀ m ∈ o.mark ts, ¬m.Binds x :=
  fun _ hm hbinds => ho ((mem_mark.mp hm).2.symm.trans hbinds.1)

/-- Only expansions rely on names. -/
theorem not_relies_of_mem_mark
    (ho : o ≠ .expansion) : ∀ m ∈ o.mark ts, ¬m.Relies x := by
  rintro m hm rfl
  exact ho (mem_mark.mp hm).2.symm

theorem not_lasting_block
    (h : Token.Balanced (tokens marks)) :
    ¬Token.Lasting token (Binds x) (o.block marks) := by
  refine Token.Lasting.not_block (l := ⟨.opens, o⟩) (r := ⟨.closes, o⟩) h ?_ ?_ rfl
  · exact fun hbinds => nomatch hbinds.2
  · exact fun hbinds => nomatch hbinds.2

theorem relies_block : (∃ m ∈ o.block marks, m.Relies x) ↔ ∃ m ∈ marks, m.Relies x := by
  simp [Origin.block, Origin.mark, Relies]

theorem captured_block : Captured x (o.block marks) ↔ Captured x marks :=
  Token.Covers.block_iff (fun hbinds => nomatch hbinds.2) (fun hrelies => nomatch hrelies)

end Mark

namespace Context

section

variable {c : Context} {n : Nat} {x : String} {resumes : Bool} {item : Item}
  {acquire rest : List Mark}

theorem balanced_region
    (hrest : Token.Balanced (Mark.tokens rest)) :
    Token.Balanced (Mark.tokens (Origin.expansion.block
      (Origin.binding.mark (Stmt.tokensList (c.bindEntryValue n item.binding)) ++ rest))) := by
  rw [Mark.tokens_block, Mark.tokens_append, Mark.tokens_mark]
  exact ((c.bindEntryValue_binds n item).balanced.append hrest).block

/-- The scopes of bindings end with the region that the resource guards. -/
theorem not_lasting_heldMarks
    (hrest : Token.Balanced (Mark.tokens rest)) :
    ¬Token.Lasting Mark.token (Mark.Binds x) (c.heldMarks n item.binding resumes rest) := by
  intro h
  have hexpansion {ts : List Token} : ¬∃ m ∈ Origin.expansion.mark ts, m.Binds x :=
    fun ⟨m, hm, hbinds⟩ => Mark.not_binds_of_mem_mark (by decide) m hm hbinds
  rcases h.of_append with h | h
  · rcases h.of_append with h | h
    · exact hexpansion h.exists_mem
    · exact Mark.not_lasting_block (balanced_region hrest) h
  · exact hexpansion h.exists_mem

/-- What a binding adds to the captured uses of the code behind it. -/
theorem captured_binds_append
    (hrest : Token.StaysOpen (Mark.tokens rest)) :
    Mark.Captured x
        (Origin.binding.mark (Stmt.tokensList (c.bindEntryValue n item.binding)) ++ rest) ↔
      Mark.Captured x rest ∨ x ∈ item.boundNames ∧ ∃ m ∈ rest, m.Relies x := by
  rw [← introduced_bindEntryValue (c := c) (n := n) item]
  constructor
  · intro h
    rcases Token.Covers.of_append h with h | h | ⟨hlasting, hrelies⟩
    · obtain ⟨m, hm, hrelies⟩ := h.exists_mem_right
      exact absurd hrelies (Mark.not_relies_of_mem_mark (by decide) m hm)
    · exact .inl h
    · obtain ⟨m, hm, -, hx⟩ := hlasting.exists_mem
      exact .inr ⟨⟨m.token, (Mark.mem_mark.mp hm).1, hx⟩, hrelies⟩
  · rintro (h | ⟨⟨t, ht, hx⟩, m, hm, hrelies⟩)
    · exact Token.Covers.append_left h
    · have hmark := Mark.mem_mark (m := ⟨t, .binding⟩).mpr ⟨ht, rfl⟩
      have hcloses : .closes ∉ Stmt.tokensList (c.bindEntryValue n item.binding) := by
        intro hmem
        rcases c.bindEntryValue_binds n item _ hmem with ⟨-, heq⟩ | ⟨y, -, heq | heq⟩ <;>
          exact nomatch heq
      rw [← Mark.tokens_mark .binding (Stmt.tokensList _)] at hcloses
      exact Token.Covers.of_lasting (.of_mem hmark ⟨rfl, hx⟩ hcloses) hrest hm hrelies

/-- What one resource captures: uses that are captured in its acquisition or in the code
that it holds, and uses in this code of the names that it binds. -/
theorem captured_resource
    (hacquire : ¬Token.Lasting Mark.token (Mark.Binds x) acquire)
    (hrest : Token.Balanced (Mark.tokens rest)) :
    Mark.Captured x (acquire ++ c.heldMarks n item.binding resumes rest) ↔
      Mark.Captured x acquire ∨ Mark.Captured x rest ∨
        x ∈ item.boundNames ∧ ∃ m ∈ rest, m.Relies x := by
  let inner :=
    Origin.binding.mark (Stmt.tokensList (c.bindEntryValue n item.binding)) ++ rest
  have hregion :
      Mark.Captured x (Origin.expansion.block (Origin.expansion.block inner)) ↔
        Mark.Captured x rest ∨ x ∈ item.boundNames ∧ ∃ m ∈ rest, m.Relies x :=
    Mark.captured_block.trans (Mark.captured_block.trans (captured_binds_append hrest.staysOpen))
  rw [← hregion]
  constructor
  · intro h
    rcases Token.Covers.of_append h with h | h | ⟨h, -⟩
    · exact .inl h
    · refine .inr (Token.Covers.of_enclosed ?_ ?_ ?_ h)
      · exact Mark.not_binds_of_mem_mark (by decide)
      · exact Mark.not_binds_of_mem_mark (by decide)
      · exact Mark.not_lasting_block (balanced_region hrest)
    · exact absurd h hacquire
  · rintro (h | h)
    · exact Token.Covers.append_right h
    · exact Token.Covers.append_left (Token.Covers.append_right (Token.Covers.append_left h))

end

end Context

/-! ## Shadowed resources, part by part -/

namespace Token

variable {x : String} {ts rest : List Token} {item : Item}

theorem shadowed_block : Shadowed x (block ts) ↔ Shadowed x ts :=
  Covers.block_iff (by simp) (by simp)

theorem not_lasting_bound_block
    (h : Balanced ts) : ¬Lasting id (· = .bound x) (block ts) :=
  Lasting.not_block (by simpa using h) (by simp) (by simp) rfl

theorem Balanced.item_tokens
    (h : Balanced item.acquire.tokens) : Balanced item.tokens := by
  have hresource : Balanced [.resource] := .of_no_blocks (by simp) (by simp)
  have hbound : Balanced (item.boundNames.map .bound) := .of_no_blocks (by simp) (by simp)
  rw [item.tokens_eq]
  exact hresource.append (h.append hbound)

/-- The names that a resource binds are in scope behind it, and nothing that its
acquisition binds. -/
theorem lasting_bound_item
    (hacquire : ¬Lasting id (· = .bound x) item.acquire.tokens) :
    Lasting id (· = .bound x) item.tokens ↔ x ∈ item.boundNames := by
  rw [item.tokens_eq]
  constructor
  · intro h
    rcases Lasting.of_append (a := [Token.resource]) h with h | h
    · obtain ⟨t, ht, hbound⟩ := h.exists_mem
      rw [hbound] at ht
      simp at ht
    · rcases h.of_append with h | h
      · exact absurd h hacquire
      · obtain ⟨t, ht, rfl⟩ := h.exists_mem
        simpa using ht
  · intro hx
    have hbound : Lasting id (· = .bound x) (item.boundNames.map .bound) :=
      .of_mem (List.mem_map_of_mem hx) rfl (by simp)
    exact Lasting.append_left (a := [Token.resource]) hbound.append_left

/-- Where one resource shadows: in its acquisition, in what follows it, and in what
follows it by the names that it binds. -/
theorem shadowed_resource
    (hacquire : ¬Lasting id (· = .bound x) item.acquire.tokens) (hrest : StaysOpen rest) :
    Shadowed x (item.tokens ++ rest) ↔
      Shadowed x item.acquire.tokens ∨ Shadowed x rest ∨
        x ∈ item.boundNames ∧ .resource ∈ rest := by
  rw [← lasting_bound_item hacquire]
  constructor
  · intro h
    rcases Covers.of_append h with h | h | ⟨hlasting, t, ht, rfl⟩
    · -- Behind its acquisition, the resource only binds names.
      rw [item.tokens_eq] at h
      have hresource : ¬∃ t ∈ [Token.resource], t = .bound x := by simp
      have hbound : ¬∃ t ∈ item.boundNames.map Token.bound, t = .resource := by simp
      rcases Covers.of_append (a := [Token.resource]) h with h | h | ⟨h, -⟩
      · exact absurd h.exists_mem_left hresource
      · rcases h.of_append with h | h | ⟨-, h⟩
        · exact .inl h
        · exact absurd h.exists_mem_right hbound
        · exact absurd h hbound
      · exact absurd h.exists_mem hresource
    · exact .inr (.inl h)
    · exact .inr (.inr ⟨hlasting, ht⟩)
  · rintro (h | h | ⟨hlasting, hmem⟩)
    · rw [item.tokens_eq]
      have hacquired : Shadowed x (item.acquire.tokens ++ item.boundNames.map .bound) :=
        Covers.append_right h
      exact (Covers.append_left (a := [Token.resource]) hacquired).append_right
    · exact Covers.append_left h
    · exact Covers.of_lasting hlasting (by simpa using hrest) hmem rfl

end Token

/-! ## Captured uses and shadowed resources -/

namespace Context.Traces

variable {c : Context} {held : Bool} {ns : List Nat} {source : List Token} {marks : List Mark}
  {x : String}

theorem balanced
    (h : c.Traces held ns source marks) :
    Token.Balanced source ∧ Token.Balanced (Mark.tokens marks) := by
  induction h with
  | keep hts =>
      rw [Mark.tokens_mark]
      exact ⟨.of_ownNames hts, .of_ownNames hts⟩
  | append _ _ iha ihb =>
      rw [Mark.tokens_append]
      exact ⟨iha.1.append ihb.1, iha.2.append ihb.2⟩
  | block _ ih =>
      rw [Mark.tokens_block]
      exact ⟨ih.1.block, ih.2.block⟩
  | enclose _ ih =>
      rw [Mark.tokens_block]
      exact ⟨ih.1, ih.2.block⟩
  | holding _ ih =>
      have hholding : Token.Balanced [.holding] := .of_no_blocks (by simp) (by simp)
      exact ⟨hholding.append ih.1.block, ih.2⟩
  | body _ ih => exact ih
  | @resource n _ _ _ item _ _ _ _ _ _ ihacquire ihrest =>
      rw [Mark.tokens_append, tokens_heldMarks]
      have hinner := (c.bindEntryValue_binds n item).balanced.append ihrest.2
      exact ⟨ihacquire.1.item_tokens.append ihrest.1,
        ihacquire.2.append (heldTokens_balanced hinner)⟩

/-- No binding is in scope behind lowered code. -/
theorem not_lasting_binds
    (h : c.Traces held ns source marks) : ¬Token.Lasting Mark.token (Mark.Binds x) marks := by
  induction h with
  | keep hts =>
      intro h
      obtain ⟨m, hm, hbinds⟩ := h.exists_mem
      exact Mark.not_binds_of_mem_mark (by decide) m hm hbinds
  | append _ _ iha ihb => exact fun h => h.of_append.elim iha ihb
  | block h _ => exact Mark.not_lasting_block h.balanced.2
  | enclose h _ => exact Mark.not_lasting_block h.balanced.2
  | holding _ ih => exact ih
  | body _ ih => exact ih
  | resource _ hrest _ ihacquire _ =>
      exact fun h => h.of_append.elim ihacquire (not_lasting_heldMarks hrest.balanced.2)

/-- No binding of a resource is in scope behind code. -/
theorem not_lasting_bound
    (h : c.Traces false ns source marks) : ¬Token.Lasting id (· = .bound x) source := by
  -- The flag is an index: the rules for what is inside of a scoped statement drop out.
  generalize hheld : false = held at h
  induction h with
  | keep hts =>
      intro h
      obtain ⟨t, ht, rfl⟩ := h.exists_mem
      exact nomatch hts _ ht
  | append _ _ iha ihb => exact fun h => h.of_append.elim (iha hheld) (ihb hheld)
  | block h _ => exact Token.not_lasting_bound_block h.balanced.1
  | enclose _ ih => exact ih hheld
  | holding h _ =>
      intro hlasting
      rcases Token.Lasting.of_append (a := [Token.holding]) hlasting with hlasting | hlasting
      · obtain ⟨t, ht, rfl⟩ := hlasting.exists_mem
        simp at ht
      · exact Token.not_lasting_bound_block h.balanced.1 hlasting
  | body _ _ => exact nomatch hheld
  | resource _ _ _ _ _ => exact nomatch hheld

/-- Expansions are of resources. -/
theorem resource_mem
    (h : c.Traces held ns source marks) (hrelies : ∃ m ∈ marks, m.Relies x) :
    .resource ∈ source := by
  induction h with
  | keep hts =>
      obtain ⟨m, hm, hrelies⟩ := hrelies
      exact absurd hrelies (Mark.not_relies_of_mem_mark (by decide) m hm)
  | append _ _ iha ihb =>
      obtain ⟨m, hm, hrelies⟩ := hrelies
      rcases List.mem_append.mp hm with hm | hm
      · exact List.mem_append_left _ (iha ⟨m, hm, hrelies⟩)
      · exact List.mem_append_right _ (ihb ⟨m, hm, hrelies⟩)
  | block _ ih => exact Token.mem_block.mpr (.inr (.inl (ih (Mark.relies_block.mp hrelies))))
  | enclose _ ih => exact ih (Mark.relies_block.mp hrelies)
  | holding _ ih =>
      exact List.mem_cons_of_mem _ (Token.mem_block.mpr (.inr (.inl (ih hrelies))))
  | body _ ih => exact ih hrelies
  | @resource _ _ _ _ item _ _ _ _ _ _ _ _ =>
      rw [item.tokens_eq]
      exact List.mem_cons_self

/-- Every resource is held by a protected call. -/
theorem relies_pcall
    (hstyle : c.conventions.expansion = .protectedCall) (h : c.Traces held ns source marks)
    (hresource : .resource ∈ source) : ∃ m ∈ marks, m.Relies "pcall" := by
  induction h with
  | keep hts => exact nomatch hts _ hresource
  | append _ _ iha ihb =>
      rcases List.mem_append.mp hresource with hresource | hresource
      · obtain ⟨m, hm, hrelies⟩ := iha hresource
        exact ⟨m, List.mem_append_left _ hm, hrelies⟩
      · obtain ⟨m, hm, hrelies⟩ := ihb hresource
        exact ⟨m, List.mem_append_right _ hm, hrelies⟩
  | block _ ih =>
      exact Mark.relies_block.mpr (ih (by simpa using hresource))
  | enclose _ ih => exact Mark.relies_block.mpr (ih hresource)
  | holding _ ih => exact ih (by simpa using hresource)
  | body _ ih => exact ih hresource
  | resource _ _ _ _ _ =>
      refine ⟨⟨.use "pcall", .expansion⟩, ?_, rfl⟩
      simp [heldMarks, guardToken, hstyle, Mark.mem_mark]

/-- Only where a resource is shadowed, a use that an expansion adds is captured. -/
theorem shadowed_of_captured
    (h : c.Traces held ns source marks) (hcaptured : Mark.Captured x marks) :
    Token.Shadowed x source := by
  induction h with
  | keep hts =>
      obtain ⟨m, hm, hbinds⟩ := hcaptured.exists_mem_left
      exact absurd hbinds (Mark.not_binds_of_mem_mark (by decide) m hm)
  | append ha _ iha ihb =>
      rcases Token.Covers.of_append hcaptured with h | h | ⟨h, -⟩
      · exact Token.Covers.append_right (iha h)
      · exact Token.Covers.append_left (ihb h)
      · exact absurd h ha.not_lasting_binds
  | block _ ih => exact Token.shadowed_block.mpr (ih (Mark.captured_block.mp hcaptured))
  | enclose _ ih => exact ih (Mark.captured_block.mp hcaptured)
  | holding _ ih =>
      have hbody := Token.shadowed_block.mpr (ih hcaptured)
      exact Token.Covers.append_left (a := [Token.holding]) hbody
  | body _ ih => exact ih hcaptured
  | resource hacquire hrest _ ihacquire ihrest =>
      rw [Token.shadowed_resource hacquire.not_lasting_bound hrest.balanced.1.staysOpen]
      rw [captured_resource hacquire.not_lasting_binds hrest.balanced.2] at hcaptured
      rcases hcaptured with h | h | ⟨hx, hrelies⟩
      · exact .inl (ihacquire h)
      · exact .inr (.inl (ihrest h))
      · exact .inr (.inr ⟨hx, hrest.resource_mem hrelies⟩)

/-- Where a resource is shadowed by the name of the function that makes protected calls,
the call is captured. -/
theorem captured_of_shadowed
    (hstyle : c.conventions.expansion = .protectedCall) (h : c.Traces held ns source marks)
    (hshadowed : Token.Shadowed "pcall" source) : Mark.Captured "pcall" marks := by
  induction h with
  | keep hts =>
      obtain ⟨t, ht, rfl⟩ := hshadowed.exists_mem_left
      exact nomatch hts _ ht
  | append ha _ iha ihb =>
      rcases Token.Covers.of_append hshadowed with h | h | ⟨h, -⟩
      · exact Token.Covers.append_right (iha h)
      · exact Token.Covers.append_left (ihb h)
      · exact absurd h ha.not_lasting_bound
  | block _ ih => exact Mark.captured_block.mpr (ih (Token.shadowed_block.mp hshadowed))
  | enclose _ ih => exact Mark.captured_block.mpr (ih hshadowed)
  | holding _ ih =>
      have hholding : ¬∃ t ∈ [Token.holding], t = .bound "pcall" := by simp
      rcases Token.Covers.of_append (a := [Token.holding]) hshadowed with h | h | ⟨h, -⟩
      · exact absurd h.exists_mem_left hholding
      · exact ih (Token.shadowed_block.mp h)
      · exact absurd h.exists_mem hholding
  | body _ ih => exact ih hshadowed
  | resource hacquire hrest _ ihacquire ihrest =>
      rw [Token.shadowed_resource hacquire.not_lasting_bound hrest.balanced.1.staysOpen]
        at hshadowed
      rw [captured_resource hacquire.not_lasting_binds hrest.balanced.2]
      rcases hshadowed with h | h | ⟨hx, hresource⟩
      · exact .inl (ihacquire h)
      · exact .inr (.inl (ihrest h))
      · exact .inr (.inr ⟨hx, hrest.relies_pcall hstyle hresource⟩)

end Context.Traces

/-- The tokens of lowered code are marked with their origins. -/
def Context.Marked
    (c : Context) (source target : List Token) (marks : List Mark) : Prop :=
  (∃ ns, c.Traces false ns source marks) ∧ Mark.tokens marks = target

theorem Scoped.exists_marked
    {c : Context} {inAsync : Bool} {stmt : Scoped} {code : List Stmt}
    (hstyle : c.conventions.expansion = .protectedCall)
    (h : stmt.lowerAlone c inAsync = .ok code) :
    ∃ marks, c.Marked stmt.tokens (Stmt.tokensList code) marks := by
  have hnative : c.conventions.expansion ≠ .native := by simp [hstyle]
  obtain ⟨j, -, ns, marks, -, htraces, hmarks⟩ := Scoped.traced_of_lowerAlone hnative h
  exact ⟨marks, ⟨ns, htraces⟩, hmarks⟩

/-- Under protected calls, lowered code has origins, and with whatever origins: the
protected call of a resource is captured by a binding if and only if in the source a
resource stands in the scope of a binding of its name, and no use that an expansion adds
is captured where no resource stands in the scope of a binding of the name. -/
theorem Scoped.protectedCall_captured_iff_shadowed
    (s : Settings) (c : Conventions) (stmt : Scoped) (code : List Stmt)
    (hstyle : c.expansion = .protectedCall) (h : stmt.lowerWith s c = .ok code) :
    (∃ marks, (s.context c).Marked stmt.tokens (Stmt.tokensList code) marks) ∧
      ∀ marks, (s.context c).Marked stmt.tokens (Stmt.tokensList code) marks →
        (Mark.Captured "pcall" marks ↔ Token.Shadowed "pcall" stmt.tokens) ∧
          ∀ x, Mark.Captured x marks → Token.Shadowed x stmt.tokens := by
  refine ⟨Scoped.exists_marked hstyle h, ?_⟩
  rintro marks ⟨⟨ns, htraces⟩, -⟩
  refine ⟨⟨?_, ?_⟩, ?_⟩
  · intro hcaptured
    exact htraces.shadowed_of_captured hcaptured
  · intro hshadowed
    exact htraces.captured_of_shadowed hstyle hshadowed
  · intro x hcaptured
    exact htraces.shadowed_of_captured hcaptured

/-- Two resources of which the last binds the names that expansions rely on. -/
def Scoped.bindingLast : Scoped :=
  ⟨[⟨.ident "first", some (.name "x"), none⟩,
      ⟨.ident "second", some (.tuple [.name "pcall", .name "table"]), none⟩],
    [.ret (some (.call (.ident "work") [.ident "x"]))], false⟩

/-- Names that the last resource binds capture nothing. -/
theorem Scoped.protectedCall_captured_iff_shadowed_of_last :
    ∃ code, Scoped.bindingLast.lowerWith {} .lua = .ok code ∧
      (∃ marks, (Settings.context {} .lua).Marked Scoped.bindingLast.tokens
        (Stmt.tokensList code) marks) ∧
      ∀ marks, (Settings.context {} .lua).Marked Scoped.bindingLast.tokens
          (Stmt.tokensList code) marks →
        ¬Mark.Captured "pcall" marks ∧ ¬Mark.Captured "table" marks := by
  obtain ⟨code, hcode⟩ : ∃ code, Scoped.bindingLast.lowerWith {} .lua = .ok code := ⟨_, rfl⟩
  obtain ⟨hexists, hmarks⟩ :=
    Scoped.protectedCall_captured_iff_shadowed {} .lua Scoped.bindingLast code rfl hcode
  have hsplit : Scoped.bindingLast.tokens =
      ([.holding, .opens, .resource, .use "first", .bound "x", .resource, .use "second"] ++
        [.bound "pcall", .bound "table", .use "work", .use "x", .closes] : List Token) := rfl
  have hnot {x : String} (hx : x ≠ "x") : ¬Token.Shadowed x Scoped.bindingLast.tokens := by
    rw [hsplit]
    refine Token.Covers.not_append ?_ ?_
    · simpa using hx.symm
    · simp
  refine ⟨code, hcode, hexists, fun marks hmarked => ⟨?_, ?_⟩⟩
  · exact fun hcaptured => hnot (by decide) ((hmarks marks hmarked).2 "pcall" hcaptured)
  · exact fun hcaptured => hnot (by decide) ((hmarks marks hmarked).2 "table" hcaptured)

/-- Two resources of which the first binds the name of the function that makes protected
calls. -/
def Scoped.bindingFirst : Scoped :=
  ⟨[⟨.ident "first", some (.name "pcall"), none⟩, ⟨.ident "second", none, none⟩],
    [.expr (.call (.ident "work") [])], false⟩

/-- Lowering accepts a binding that captures the protected call of the next resource. -/
theorem Scoped.lower_accepts_captured_pcall :
    ∃ code marks, Scoped.bindingFirst.lowerWith {} .lua = .ok code ∧
      (Settings.context {} .lua).Marked Scoped.bindingFirst.tokens (Stmt.tokensList code) marks ∧
      Mark.Captured "pcall" marks := by
  obtain ⟨code, hcode⟩ : ∃ code, Scoped.bindingFirst.lowerWith {} .lua = .ok code := ⟨_, rfl⟩
  obtain ⟨marks, ⟨ns, htraces⟩, hmarks⟩ :=
    Scoped.exists_marked (c := Settings.context {} .lua) rfl hcode
  have hshadowed : Token.Shadowed "pcall" Scoped.bindingFirst.tokens := by
    refine ⟨[.holding, .opens, .resource, .use "first", .bound "pcall"], .resource,
      [.use "second", .use "work", .closes], rfl, rfl, ?_⟩
    exact ⟨[.holding, .opens, .resource, .use "first"], .bound "pcall", [], rfl, rfl,
      .of_not_closes (by simp)⟩
  exact ⟨code, marks, hcode, ⟨⟨ns, htraces⟩, hmarks⟩, htraces.captured_of_shadowed rfl hshadowed⟩

end Bracket
