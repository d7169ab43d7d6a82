import Bracket.Proofs.Lowering.Expansion

/-!
# Lowered code read from left to right

What lowering does to code is said once, about its tokens: it keeps them, lowers
parts one after the other, puts blocks around statements, and writes the expansion
of a resource around all that follows the resource.  The relation `Context.Traces`
has one rule for each of these.  It marks every token with its origin, and it also
lists the numbers of the resources in the order in which they are met.  Where origins
do not matter, `Context.Lowers` says the same without them.

The main statement is that the tokens of what a program becomes are related in
this way to its own, and that the numbers are those from where the computation
starts to where it ends, each of them once.
-/

namespace Bracket

/-! ## Origins -/

/-- Where a token of lowered code comes from. -/
inductive Origin where
  /-- It stands in the source, or it belongs to a block around statements of the source. -/
  | source
  /-- It belongs to the binding of a resource. -/
  | binding
  /-- The expansion of a resource adds it. -/
  | expansion
  deriving DecidableEq, Repr

/-- A token of lowered code with its origin. -/
structure Mark where
  token : Token
  origin : Origin
  deriving DecidableEq, Repr

/-- The tokens of marks. -/
def Mark.tokens (marks : List Mark) : List Token := marks.map Mark.token

namespace Origin

/-- Tokens of one origin. -/
def mark (o : Origin) (ts : List Token) : List Mark := ts.map (Mark.mk · o)

/-- Marks with a block around them. -/
def block (o : Origin) (marks : List Mark) : List Mark :=
  o.mark [.opens] ++ marks ++ o.mark [.closes]

end Origin

namespace Mark

@[simp] theorem tokens_append (a b : List Mark) : tokens (a ++ b) = tokens a ++ tokens b :=
  List.map_append

@[simp] theorem tokens_mark (o : Origin) (ts : List Token) : tokens (o.mark ts) = ts := by
  simp [tokens, Origin.mark, Function.comp_def]

@[simp] theorem tokens_block
    (o : Origin) (marks : List Mark) : tokens (o.block marks) = Token.block (tokens marks) := by
  simp [Origin.block, Token.block]

end Mark

namespace Context

variable (c : Context) (n : Nat)

/-- The last token before the region that resource `n` guards. -/
def guardToken : Token :=
  if c.conventions.expansion = .protectedCall then .use "pcall" else .declare (c.temp .failed n)

/-- The tokens behind the region that resource `n` guards. -/
def releaseTokens (resumes : Bool) : List Token :=
  if c.conventions.expansion = .protectedCall then
    [.declare (c.temp .outcome n), .use (c.temp .outcome n)]
      ++ Token.block (c.onSuccessTokens n resumes) ++ Token.block (c.onFailureTokens n)
  else
    Token.block (.caught (c.temp .error n) :: c.onErrorTokens n)
      ++ Token.block (c.onLeaveTokens n)

/-- The marks of resource `n` around code, from its entry to its release. -/
def heldMarks (binding : Option Pattern) (resumes : Bool) (rest : List Mark) : List Mark :=
  let binds := Origin.binding.mark (Stmt.tokensList (c.bindEntryValue n binding))
  Origin.expansion.mark (c.enterTokens n binding.isSome ++ [c.guardToken n])
    ++ Origin.expansion.block (Origin.expansion.block (binds ++ rest))
    ++ Origin.expansion.mark (c.releaseTokens n resumes)

@[simp] theorem tokens_heldMarks
    (binding : Option Pattern) (resumes : Bool) (rest : List Mark) :
    Mark.tokens (c.heldMarks n binding resumes rest) =
      c.heldTokens n binding.isSome resumes
        (Stmt.tokensList (c.bindEntryValue n binding) ++ Mark.tokens rest) := by
  unfold heldMarks heldTokens regionTokens guardToken releaseTokens
  split <;> simp

end Context

/-! ## What lowering does to tokens -/

/-- What lowering does to the tokens of code, with the origin of each token.  The list
holds the numbers of the resources in the order in which they are met.  The flag says
that the tokens are those inside of a scoped statement: resources and the body that they
hold. -/
inductive Context.Traces (c : Context) : Bool → List Nat → List Token → List Mark → Prop
  | keep
      {ts : List Token} (hts : ∀ t ∈ ts, t.ownName?.isSome) :
      Traces c false [] ts (Origin.source.mark ts)
  | append
      {ns ms : List Nat} {a b : List Token} {a' b' : List Mark}
      (ha : Traces c false ns a a') (hb : Traces c false ms b b') :
      Traces c false (ns ++ ms) (a ++ b) (a' ++ b')
  | block
      {ns : List Nat} {a : List Token} {b : List Mark}
      (h : Traces c false ns a b) : Traces c false ns (Token.block a) (Origin.source.block b)
  /-- Several statements in the place of one become a block. -/
  | enclose
      {ns : List Nat} {a : List Token} {b : List Mark}
      (h : Traces c false ns a b) : Traces c false ns a (Origin.source.block b)
  /-- A scoped statement becomes what its resources and its body become. -/
  | holding
      {ns : List Nat} {a : List Token} {b : List Mark}
      (h : Traces c true ns a b) : Traces c false ns (.holding :: Token.block a) b
  | body
      {ns : List Nat} {a : List Token} {b : List Mark}
      (h : Traces c false ns a b) : Traces c true ns a b
  /-- Resource `n` is acquired, and it is held around what all that follows becomes. -/
  | resource
      {n : Nat} {ns ms : List Nat} {resumes : Bool} {item : Item} {rest : List Token}
      {acquire' rest' : List Mark}
      (hacquire : Traces c false ns item.acquire.tokens acquire')
      (hrest : Traces c true ms rest rest') (hnames : ∀ x ∈ item.boundNames, ¬c.isReserved x) :
      Traces c true (n :: (ns ++ ms)) (item.tokens ++ rest)
        (acquire' ++ c.heldMarks n item.binding resumes rest')

/-- What lowering does to the tokens of code, without their origins.  The list holds the
numbers of the resources in the order in which they are met. -/
inductive Context.Lowers (c : Context) : List Nat → List Token → List Token → Prop
  | keep {ts : List Token} (hts : ∀ t ∈ ts, t.ownName?.isSome) : Lowers c [] ts ts
  | append
      {ns ms : List Nat} {a a' b b' : List Token}
      (ha : Lowers c ns a a') (hb : Lowers c ms b b') : Lowers c (ns ++ ms) (a ++ b) (a' ++ b')
  | block
      {ns : List Nat} {a b : List Token}
      (h : Lowers c ns a b) : Lowers c ns (Token.block a) (Token.block b)
  /-- Several statements in the place of one become a block. -/
  | enclose
      {ns : List Nat} {a b : List Token}
      (h : Lowers c ns a b) : Lowers c ns a (Token.block b)
  /-- A scoped statement becomes what its resources and its body become. -/
  | holding
      {ns : List Nat} {a b : List Token}
      (h : Lowers c ns a b) : Lowers c ns (.holding :: Token.block a) b
  /-- Resource `n` is acquired, and it is held around what all that follows becomes. -/
  | resource
      {n : Nat} {ns ms : List Nat} {kept resumes : Bool} {names : List String}
      {acquire acquire' binds rest rest' : List Token}
      (hacquire : Lowers c ns acquire acquire') (hrest : Lowers c ms rest rest')
      (hnames : ∀ x ∈ names, ¬c.isReserved x) (hbinds : c.Binds n kept names binds) :
      Lowers c (n :: (ns ++ ms)) (.resource :: (acquire ++ names.map .bound) ++ rest)
        (acquire' ++ c.heldTokens n kept resumes (binds ++ rest'))

/-- Origins may be forgotten. -/
theorem Context.Traces.lowers
    {c : Context} {held : Bool} {ns : List Nat} {source : List Token} {target : List Mark}
    (h : c.Traces held ns source target) : c.Lowers ns source (Mark.tokens target) := by
  induction h with
  | keep hts =>
      rw [Mark.tokens_mark]
      exact .keep hts
  | append _ _ iha ihb =>
      rw [Mark.tokens_append]
      exact iha.append ihb
  | block _ ih =>
      rw [Mark.tokens_block]
      exact ih.block
  | enclose _ ih =>
      rw [Mark.tokens_block]
      exact ih.enclose
  | holding _ ih => exact ih.holding
  | body _ ih => exact ih
  | @resource n _ _ _ item _ _ _ _ _ hnames ihacquire ihrest =>
      rw [Mark.tokens_append, Context.tokens_heldMarks, item.tokens_eq]
      exact .resource ihacquire ihrest hnames (c.bindEntryValue_binds n item)

/-- Lowered code consists of blocks and of variables. -/
theorem Context.Lowers.mem_target
    {c : Context} {ns : List Nat} {source target : List Token} {t : Token}
    (h : c.Lowers ns source target) (ht : t ∈ target) :
    t.ownName?.isSome ∨ t = .opens ∨ t = .closes := by
  induction h with
  | keep hts => exact .inl (hts t ht)
  | append _ _ iha ihb =>
      rcases List.mem_append.mp ht with ht | ht
      · exact iha ht
      · exact ihb ht
  | block _ ih | enclose _ ih =>
      rcases Token.mem_block.mp ht with ht | ht | ht
      · exact .inr (.inl ht)
      · exact ih ht
      · exact .inr (.inr ht)
  | holding _ ih => exact ih ht
  | @resource n _ _ kept resumes _ _ _ _ _ _ _ _ _ hbinds ihacquire ihrest =>
      obtain ⟨before, after, heq, hbefore, hafter⟩ := c.heldTokens_eq_append n kept resumes
      rw [heq] at ht
      simp only [List.mem_append] at ht
      have hscaffold (h : c.Scaffold n t) : t.ownName?.isSome ∨ t = .opens ∨ t = .closes := by
        cases h <;> simp [Token.ownName?]
      rcases ht with ht | (ht | ht | ht) | ht
      · exact ihacquire ht
      · exact hscaffold (hbefore t ht)
      · rcases hbinds t ht with ⟨-, rfl⟩ | ⟨x, -, rfl | rfl⟩ <;> exact .inl rfl
      · exact ihrest ht
      · exact hscaffold (hafter t ht)

/-- The tokens are lowered with the numbers from `k` on, `j` excluded. -/
def Context.Lowered (c : Context) (k j : Nat) (source target : List Token) : Prop :=
  k ≤ j ∧ ∃ ns, ns.Perm (List.range' k (j - k)) ∧ c.Lowers ns source target

/-- The tokens are lowered with the numbers from `k` on, `j` excluded, and their origins
are known. -/
def Context.Traced (c : Context) (k j : Nat) (source target : List Token) : Prop :=
  k ≤ j ∧ ∃ ns marks,
    ns.Perm (List.range' k (j - k)) ∧ c.Traces false ns source marks ∧ Mark.tokens marks = target

/-- Numbers up to `i` and from `i` on. -/
theorem Lowering.range_append
    {i j k : Nat} (hki : k ≤ i) (hij : i ≤ j) :
    List.range' k (j - k) = List.range' k (i - k) ++ List.range' i (j - i) := by
  have hsum : j - k = (i - k) + (j - i) := by omega
  have hstart : k + (i - k) = i := by omega
  rw [hsum, ← List.range'_append_1, hstart]

namespace Context.Traced

variable {c : Context} {i j k : Nat} {a a' b b' : List Token}

theorem keep
    (hts : ∀ t ∈ a, t.ownName?.isSome) : c.Traced k k a a :=
  ⟨Nat.le_refl k, [], _, by simp, .keep hts, Mark.tokens_mark _ a⟩

theorem nil : c.Traced k k [] [] := keep (by simp)

theorem append
    (ha : c.Traced k i a a') (hb : c.Traced i j b b') : c.Traced k j (a ++ b) (a' ++ b') := by
  obtain ⟨hki, ns, a', hns, ha, rfl⟩ := ha
  obtain ⟨hij, ms, b', hms, hb, rfl⟩ := hb
  refine ⟨Nat.le_trans hki hij, ns ++ ms, a' ++ b', ?_, ha.append hb, Mark.tokens_append a' b'⟩
  rw [Lowering.range_append hki hij]
  exact hns.append hms

theorem block
    (h : c.Traced k j a b) : c.Traced k j (Token.block a) (Token.block b) := by
  obtain ⟨hkj, ns, b, hns, h, rfl⟩ := h
  exact ⟨hkj, ns, _, hns, h.block, Mark.tokens_block _ b⟩

theorem ofList
    {ss : List Stmt} (h : c.Traced k j a (Stmt.tokensList ss)) :
    c.Traced k j a (Stmt.ofList ss).tokens := by
  rcases Stmt.tokens_ofList ss with htokens | htokens
  · rw [htokens]
    exact h
  · obtain ⟨hkj, ns, marks, hns, h, hmarks⟩ := h
    rw [htokens, ← hmarks]
    exact ⟨hkj, ns, _, hns, h.enclose, Mark.tokens_block _ marks⟩

theorem lowered (h : c.Traced k j a b) : c.Lowered k j a b := by
  obtain ⟨hkj, ns, marks, hns, h, rfl⟩ := h
  exact ⟨hkj, ns, hns, h.lowers⟩

end Context.Traced

/-! ## Resources -/

/-- Resources are lowered: their acquisitions one after the other, and no binding has a
reserved name. -/
inductive Context.TracesItems (c : Context) : List Nat → List Item → List Item → Prop
  | nil : TracesItems c [] [] []
  | cons
      {ns ms : List Nat} {item item' : Item} {items items' : List Item} {acquire : List Mark}
      (hacquire : c.Traces false ns item.acquire.tokens acquire)
      (htokens : Mark.tokens acquire = item'.acquire.tokens)
      (hbinding : item'.binding = item.binding)
      (hnames : ∀ x ∈ item.boundNames, ¬c.isReserved x)
      (hitems : TracesItems c ms items items') :
      TracesItems c (ns ++ ms) (item :: items) (item' :: items')

namespace Context

variable {c : Context} {ns ms : List Nat}

/-- The tokens of one resource around code. -/
theorem tokens_expandItems_singleton
    {isAsync : Bool} {n : Nat} {item : Item} {inner code : List Stmt}
    (hcode : c.expandItems isAsync n [item] inner = .ok code) :
    ∃ resumes,
      Stmt.tokensList code =
        item.acquire.tokens ++ c.heldTokens n item.binding.isSome resumes
          (Stmt.tokensList (c.bindEntryValue n item.binding) ++ Stmt.tokensList inner) := by
  by_cases hstyle : c.conventions.expansion = .protectedCall
  · rw [expandItems, expandItems] at hcode
    simp only [if_pos hstyle] at hcode
    exact tokens_expandProtected hstyle hcode
  · rw [expandItems, expandItems] at hcode
    simp only [if_neg hstyle] at hcode
    cases hcode
    exact ⟨false, tokens_expandGuarded isAsync hstyle⟩

/-- Resources with consecutive numbers around code. -/
theorem TracesItems.expand
    {isAsync : Bool} {n : Nat} {items items' : List Item} {rest : List Token}
    {rest' : List Mark} {inner code : List Stmt} (hitems : c.TracesItems ns items items')
    (hrest : c.Traces true ms rest rest') (hinner : Mark.tokens rest' = Stmt.tokensList inner)
    (hcode : c.expandItems isAsync n items' inner = .ok code) :
    ∃ os marks, os.Perm (List.range' n items.length ++ (ns ++ ms)) ∧
      c.Traces true os (Item.tokensList items ++ rest) marks ∧
      Mark.tokens marks = Stmt.tokensList code := by
  induction hitems generalizing n code with
  | nil =>
      cases hcode
      exact ⟨ms, rest', .refl _, by simpa [Item.tokensList] using hrest, hinner⟩
  | @cons ns ns' item item' items items' acquire hacquire htokens hbinding hnames _ ih =>
      obtain ⟨code', hcode', hcode⟩ := Except.bind_eq_ok.mp hcode
      obtain ⟨os, marks, hos, htraces, hmarks⟩ := ih hcode'
      have hfirst : c.expandItems isAsync n [item'] code' = .ok code := hcode
      obtain ⟨resumes, hheld⟩ := tokens_expandItems_singleton hfirst
      refine ⟨n :: (ns ++ os), acquire ++ c.heldMarks n item.binding resumes marks, ?_, ?_, ?_⟩
      · rw [List.length_cons, List.range'_succ, List.cons_append]
        refine .cons n ?_
        calc
          (ns ++ os).Perm (ns ++ (List.range' (n + 1) items.length ++ (ns' ++ ms))) :=
            hos.append_left ns
          _ = ns ++ List.range' (n + 1) items.length ++ (ns' ++ ms) := by
            rw [List.append_assoc]
          List.Perm _ (List.range' (n + 1) items.length ++ ns ++ (ns' ++ ms)) :=
            List.perm_append_comm.append_right _
          _ = List.range' (n + 1) items.length ++ (ns ++ ns' ++ ms) := by
            simp only [List.append_assoc]
      · rw [Item.tokensList, List.append_assoc]
        exact .resource hacquire htraces hnames
      · rw [Mark.tokens_append, tokens_heldMarks, hmarks, htokens, hheld, hbinding]

end Context

/-! ## Lowered code -/

section Lowering

open Lowering

variable {c : Context}

/-- What a computation yields has the tokens of its source, lowered with the numbers
that it takes. -/
def Lowering.Renders
    {α : Type} (c : Context) (source : List Token) (tokens : α → List Token)
    (m : Lowering α) : Prop :=
  ∀ ⦃k a j⦄, m.run k = .ok (a, j) → c.Traced k j source (tokens a)

theorem Func.name_lower
    {k j : Nat} {f f' : Func} (h : (f.lower c).run k = .ok (f', j)) : f'.name = f.name := by
  obtain ⟨name, params, body, isAsync⟩ := f
  rw [Func.lower] at h
  obtain ⟨body', _, -, h⟩ := bind_eq_ok.mp h
  cases pure_eq_ok.mp h
  rfl

/-! Statements with several parts, given that what their parts become is known. -/

namespace Stmt

variable {inAsync : Bool} {test : Expr} {body : Stmt}

theorem lower_renders_ifElse
    {other : Option Stmt}
    (htest : Lowering.Renders c test.tokens Expr.tokens (test.lower c inAsync))
    (hbody : Lowering.Renders c body.tokens tokensList (body.lower c inAsync))
    (hother : Lowering.Renders c (tokensOption other) tokensOption (lowerOption c inAsync other)) :
    Lowering.Renders c (ifElse test body other).tokens tokensList
      ((ifElse test body other).lower c inAsync) := by
  intro k result j h
  rw [lower] at h
  obtain ⟨test', _, ht, h⟩ := bind_eq_ok.mp h
  obtain ⟨body', _, hb, h⟩ := bind_eq_ok.mp h
  obtain ⟨other', _, ho, h⟩ := bind_eq_ok.mp h
  cases pure_eq_ok.mp h
  rw [tokensList_singleton, tokens, tokens]
  exact ((htest ht).append (hbody hb).ofList.block).append (hother ho).block

theorem lower_renders_whileLoop
    (htest : Lowering.Renders c test.tokens Expr.tokens (test.lower c inAsync))
    (hbody : Lowering.Renders c body.tokens tokensList (body.lower c inAsync)) :
    Lowering.Renders c (whileLoop test body).tokens tokensList
      ((whileLoop test body).lower c inAsync) := by
  intro k result j h
  rw [lower] at h
  obtain ⟨test', _, ht, h⟩ := bind_eq_ok.mp h
  obtain ⟨body', _, hb, h⟩ := bind_eq_ok.mp h
  cases pure_eq_ok.mp h
  rw [tokensList_singleton, tokens, tokens]
  exact (htest ht).append (hbody hb).ofList.block

theorem lower_renders_forLoop
    {init : Option Stmt} {test update : Option Expr}
    (hinit : Lowering.Renders c (tokensOption init) tokensOption (lowerOption c inAsync init))
    (htest :
      Lowering.Renders c (Expr.tokensOption test) Expr.tokensOption
        (Expr.lowerOption c inAsync test))
    (hupdate :
      Lowering.Renders c (Expr.tokensOption update) Expr.tokensOption
        (Expr.lowerOption c inAsync update))
    (hbody : Lowering.Renders c body.tokens tokensList (body.lower c inAsync)) :
    Lowering.Renders c (forLoop init test update body).tokens tokensList
      ((forLoop init test update body).lower c inAsync) := by
  intro k result j h
  rw [lower] at h
  obtain ⟨init', _, hi, h⟩ := bind_eq_ok.mp h
  obtain ⟨test', _, ht, h⟩ := bind_eq_ok.mp h
  obtain ⟨update', _, hu, h⟩ := bind_eq_ok.mp h
  obtain ⟨body', _, hb, h⟩ := bind_eq_ok.mp h
  cases pure_eq_ok.mp h
  rw [tokensList_singleton, tokens, tokens]
  exact ((((hinit hi).append (htest ht)).append (hupdate hu)).append (hbody hb).ofList.block).block

theorem lower_renders_forEach
    {x : String} {iterable : Expr}
    (hiterable : Lowering.Renders c iterable.tokens Expr.tokens (iterable.lower c inAsync))
    (hbody : Lowering.Renders c body.tokens tokensList (body.lower c inAsync)) :
    Lowering.Renders c (forEach x iterable body).tokens tokensList
      ((forEach x iterable body).lower c inAsync) := by
  intro k result j h
  rw [lower] at h
  obtain ⟨iterable', _, hi, h⟩ := bind_eq_ok.mp h
  obtain ⟨body', _, hb, h⟩ := bind_eq_ok.mp h
  cases pure_eq_ok.mp h
  rw [tokensList_singleton, tokens, tokens]
  have hvariable : ∀ t ∈ [Token.binder x], t.ownName?.isSome := by
    simp [Token.ownName?]
  exact (hiterable hi).append ((Context.Traced.keep hvariable).append (hbody hb).ofList).block

theorem lower_renders_tryCatch
    {param : Option String} {handler final : Option Stmt}
    (hbody : Lowering.Renders c body.tokens tokensList (body.lower c inAsync))
    (hhandler :
      Lowering.Renders c (tokensOption handler) tokensOption (lowerOption c inAsync handler))
    (hfinal : Lowering.Renders c (tokensOption final) tokensOption (lowerOption c inAsync final)) :
    Lowering.Renders c (tryCatch body param handler final).tokens tokensList
      ((tryCatch body param handler final).lower c inAsync) := by
  intro k result j h
  rw [lower] at h
  obtain ⟨body', _, hb, h⟩ := bind_eq_ok.mp h
  obtain ⟨handler', _, hg, h⟩ := bind_eq_ok.mp h
  obtain ⟨final', _, hf, h⟩ := bind_eq_ok.mp h
  cases pure_eq_ok.mp h
  rw [tokensList_singleton, tokens, tokens]
  have hparam : ∀ t ∈ param.toList.map Token.caught, t.ownName?.isSome := by
    simp [Token.ownName?]
  have hcaught := (Context.Traced.keep hparam).append (hhandler hg)
  exact ((hbody hb).ofList.block.append hcaught.block).append (hfinal hf).block

end Stmt

mutual

/-- Lowered expressions are related to their source. -/
theorem Expr.lower_renders
    (hstyle : c.conventions.expansion ≠ .native) (inAsync : Bool) :
    (e : Expr) → Lowering.Renders c e.tokens Expr.tokens (e.lower c inAsync)
  | .literal l => by
      intro k result j h
      rw [Expr.lower] at h
      cases pure_eq_ok.mp h
      exact .nil
  | .ident x => by
      intro k result j h
      rw [Expr.lower] at h
      cases pure_eq_ok.mp h
      exact .keep (by simp [Expr.tokens, Token.ownName?])
  | .binary l op r => by
      intro k result j h
      rw [Expr.lower] at h
      obtain ⟨l', _, hl, h⟩ := bind_eq_ok.mp h
      obtain ⟨r', _, hr, h⟩ := bind_eq_ok.mp h
      cases pure_eq_ok.mp h
      rw [Expr.tokens, Expr.tokens]
      have hl := Expr.lower_renders hstyle inAsync l hl
      have hr := Expr.lower_renders hstyle inAsync r hr
      exact hl.append hr
  | .unary op e => by
      intro k result j h
      rw [Expr.lower] at h
      obtain ⟨e', _, he, h⟩ := bind_eq_ok.mp h
      cases pure_eq_ok.mp h
      rw [Expr.tokens, Expr.tokens]
      exact Expr.lower_renders hstyle inAsync e he
  | .call f args => by
      intro k result j h
      rw [Expr.lower] at h
      obtain ⟨f', _, hf, h⟩ := bind_eq_ok.mp h
      obtain ⟨args', _, hargs, h⟩ := bind_eq_ok.mp h
      cases pure_eq_ok.mp h
      rw [Expr.tokens, Expr.tokens]
      have hf := Expr.lower_renders hstyle inAsync f hf
      have hargs := Expr.lowerList_renders hstyle inAsync args hargs
      exact hf.append hargs
  | .methodCall r m args => by
      intro k result j h
      rw [Expr.lower] at h
      obtain ⟨r', _, hr, h⟩ := bind_eq_ok.mp h
      obtain ⟨args', _, hargs, h⟩ := bind_eq_ok.mp h
      cases pure_eq_ok.mp h
      rw [Expr.tokens, Expr.tokens]
      have hr := Expr.lower_renders hstyle inAsync r hr
      have hargs := Expr.lowerList_renders hstyle inAsync args hargs
      exact hr.append hargs
  | .member o p computed => by
      intro k result j h
      rw [Expr.lower] at h
      obtain ⟨o', _, ho, h⟩ := bind_eq_ok.mp h
      obtain ⟨p', _, hp, h⟩ := bind_eq_ok.mp h
      cases pure_eq_ok.mp h
      rw [Expr.tokens, Expr.tokens]
      have ho := Expr.lower_renders hstyle inAsync o ho
      have hp := Expr.lower_renders hstyle inAsync p hp
      exact ho.append hp
  | .array es => by
      intro k result j h
      rw [Expr.lower] at h
      obtain ⟨es', _, hes, h⟩ := bind_eq_ok.mp h
      cases pure_eq_ok.mp h
      rw [Expr.tokens, Expr.tokens]
      exact Expr.lowerList_renders hstyle inAsync es hes
  | .object ps => by
      intro k result j h
      rw [Expr.lower] at h
      obtain ⟨ps', _, hps, h⟩ := bind_eq_ok.mp h
      cases pure_eq_ok.mp h
      rw [Expr.tokens, Expr.tokens]
      exact Expr.lowerPairs_renders hstyle inAsync ps hps
  | .function f => by
      intro k result j h
      rw [Expr.lower] at h
      obtain ⟨f', _, hf, h⟩ := bind_eq_ok.mp h
      cases pure_eq_ok.mp h
      have hname : ∀ t ∈ Token.ofLiteralName f.name, t.ownName?.isSome := by
        simp [Token.ownName?]
      rw [Expr.tokens, Expr.tokens, Func.name_lower hf]
      exact ((Context.Traced.keep hname).append (Func.lower_renders hstyle f hf)).block
  | .conditional t a b => by
      intro k result j h
      rw [Expr.lower] at h
      obtain ⟨t', _, ht, h⟩ := bind_eq_ok.mp h
      obtain ⟨a', _, ha, h⟩ := bind_eq_ok.mp h
      obtain ⟨b', _, hb, h⟩ := bind_eq_ok.mp h
      cases pure_eq_ok.mp h
      rw [Expr.tokens, Expr.tokens]
      have ht := Expr.lower_renders hstyle inAsync t ht
      have ha := Expr.lower_renders hstyle inAsync a ha
      have hb := Expr.lower_renders hstyle inAsync b hb
      exact (ht.append ha).append hb
  | .assign t v => by
      intro k result j h
      rw [Expr.lower] at h
      obtain ⟨t', _, ht, h⟩ := bind_eq_ok.mp h
      obtain ⟨v', _, hv, h⟩ := bind_eq_ok.mp h
      cases pure_eq_ok.mp h
      rw [Expr.tokens, Expr.tokens]
      have ht := Expr.lower_renders hstyle inAsync t ht
      have hv := Expr.lower_renders hstyle inAsync v hv
      exact ht.append hv
  | .await e => by
      intro k result j h
      rw [Expr.lower] at h
      obtain ⟨e', _, he, h⟩ := bind_eq_ok.mp h
      cases pure_eq_ok.mp h
      rw [Expr.tokens, Expr.tokens]
      exact Expr.lower_renders hstyle inAsync e he

theorem Expr.lowerList_renders
    (hstyle : c.conventions.expansion ≠ .native) (inAsync : Bool) :
    (es : List Expr) →
      Lowering.Renders c (Expr.tokensList es) Expr.tokensList (Expr.lowerList c inAsync es)
  | [] => by
      intro k result j h
      rw [Expr.lowerList] at h
      cases pure_eq_ok.mp h
      exact .nil
  | e :: es => by
      intro k result j h
      rw [Expr.lowerList] at h
      obtain ⟨e', _, he, h⟩ := bind_eq_ok.mp h
      obtain ⟨es', _, hes, h⟩ := bind_eq_ok.mp h
      cases pure_eq_ok.mp h
      rw [Expr.tokensList, Expr.tokensList]
      have he := Expr.lower_renders hstyle inAsync e he
      have hes := Expr.lowerList_renders hstyle inAsync es hes
      exact he.append hes

theorem Expr.lowerOption_renders
    (hstyle : c.conventions.expansion ≠ .native) (inAsync : Bool) :
    (e : Option Expr) →
      Lowering.Renders c (Expr.tokensOption e) Expr.tokensOption (Expr.lowerOption c inAsync e)
  | none => by
      intro k result j h
      rw [Expr.lowerOption] at h
      cases pure_eq_ok.mp h
      exact .nil
  | some e => by
      intro k result j h
      rw [Expr.lowerOption] at h
      obtain ⟨e', _, he, h⟩ := bind_eq_ok.mp h
      cases pure_eq_ok.mp h
      rw [Expr.tokensOption, Expr.tokensOption]
      exact Expr.lower_renders hstyle inAsync e he

theorem Expr.lowerPairs_renders
    (hstyle : c.conventions.expansion ≠ .native) (inAsync : Bool) :
    (ps : List (String × Expr)) →
      Lowering.Renders c (Expr.tokensPairs ps) Expr.tokensPairs (Expr.lowerPairs c inAsync ps)
  | [] => by
      intro k result j h
      rw [Expr.lowerPairs] at h
      cases pure_eq_ok.mp h
      exact .nil
  | (key, e) :: ps => by
      intro k result j h
      rw [Expr.lowerPairs] at h
      obtain ⟨e', _, he, h⟩ := bind_eq_ok.mp h
      obtain ⟨ps', _, hps, h⟩ := bind_eq_ok.mp h
      cases pure_eq_ok.mp h
      rw [Expr.tokensPairs, Expr.tokensPairs]
      have he := Expr.lower_renders hstyle inAsync e he
      have hps := Expr.lowerPairs_renders hstyle inAsync ps hps
      exact he.append hps

theorem Func.lower_renders
    (hstyle : c.conventions.expansion ≠ .native) :
    (f : Func) → Lowering.Renders c f.tokens Func.tokens (f.lower c)
  | ⟨name, params, body, isAsync⟩ => by
      intro k result j h
      rw [Func.lower] at h
      obtain ⟨body', _, hbody, h⟩ := bind_eq_ok.mp h
      cases pure_eq_ok.mp h
      have hparams : ∀ t ∈ params.map Token.binder, t.ownName?.isSome := by
        simp [Token.ownName?]
      rw [Func.tokens, Func.tokens]
      exact ((Context.Traced.keep hparams).append
        (Stmt.lowerList_renders hstyle isAsync body hbody)).block

/-- Lowered statements are related to their source. -/
theorem Stmt.lower_renders
    (hstyle : c.conventions.expansion ≠ .native) (inAsync : Bool) :
    (s : Stmt) → Lowering.Renders c s.tokens Stmt.tokensList (s.lower c inAsync)
  | .expr e => by
      intro k result j h
      rw [Stmt.lower] at h
      obtain ⟨e', _, he, h⟩ := bind_eq_ok.mp h
      cases pure_eq_ok.mp h
      rw [Stmt.tokensList_singleton, Stmt.tokens, Stmt.tokens]
      exact Expr.lower_renders hstyle inAsync e he
  | .declare x i m => by
      intro k result j h
      rw [Stmt.lower] at h
      obtain ⟨i', _, hi, h⟩ := bind_eq_ok.mp h
      cases pure_eq_ok.mp h
      rw [Stmt.tokensList_singleton, Stmt.tokens, Stmt.tokens]
      exact (Expr.lowerOption_renders hstyle inAsync i hi).append (.keep (by simp [Token.ownName?]))
  | .destructure p i => by
      intro k result j h
      rw [Stmt.lower] at h
      obtain ⟨i', _, hi, h⟩ := bind_eq_ok.mp h
      cases pure_eq_ok.mp h
      rw [Stmt.tokensList_singleton, Stmt.tokens, Stmt.tokens]
      exact (Expr.lower_renders hstyle inAsync i hi).append (.keep (by simp [Token.ownName?]))
  | .block b => by
      intro k result j h
      rw [Stmt.lower] at h
      obtain ⟨b', _, hb, h⟩ := bind_eq_ok.mp h
      cases pure_eq_ok.mp h
      rw [Stmt.tokensList_singleton, Stmt.tokens, Stmt.tokens]
      exact (Stmt.lowerList_renders hstyle inAsync b hb).block
  | .ifElse t a b =>
      Stmt.lower_renders_ifElse (Expr.lower_renders hstyle inAsync t)
        (Stmt.lower_renders hstyle inAsync a) (Stmt.lowerOption_renders hstyle inAsync b)
  | .whileLoop t b =>
      Stmt.lower_renders_whileLoop (Expr.lower_renders hstyle inAsync t)
        (Stmt.lower_renders hstyle inAsync b)
  | .forLoop i t u b =>
      Stmt.lower_renders_forLoop (Stmt.lowerOption_renders hstyle inAsync i)
        (Expr.lowerOption_renders hstyle inAsync t) (Expr.lowerOption_renders hstyle inAsync u)
        (Stmt.lower_renders hstyle inAsync b)
  | .forEach x i b =>
      Stmt.lower_renders_forEach (Expr.lower_renders hstyle inAsync i)
        (Stmt.lower_renders hstyle inAsync b)
  | .ret v => by
      intro k result j h
      rw [Stmt.lower] at h
      obtain ⟨v', _, hv, h⟩ := bind_eq_ok.mp h
      cases pure_eq_ok.mp h
      rw [Stmt.tokensList_singleton, Stmt.tokens, Stmt.tokens]
      exact Expr.lowerOption_renders hstyle inAsync v hv
  | .breakLoop => by
      intro k result j h
      rw [Stmt.lower] at h
      cases pure_eq_ok.mp h
      exact .nil
  | .continueLoop => by
      intro k result j h
      rw [Stmt.lower] at h
      cases pure_eq_ok.mp h
      exact .nil
  | .throw e => by
      intro k result j h
      rw [Stmt.lower] at h
      obtain ⟨e', _, he, h⟩ := bind_eq_ok.mp h
      cases pure_eq_ok.mp h
      rw [Stmt.tokensList_singleton, Stmt.tokens, Stmt.tokens]
      exact Expr.lower_renders hstyle inAsync e he
  | .tryCatch b p g f =>
      Stmt.lower_renders_tryCatch (Stmt.lower_renders hstyle inAsync b)
        (Stmt.lowerOption_renders hstyle inAsync g) (Stmt.lowerOption_renders hstyle inAsync f)
  | .function f => by
      intro k result j h
      rw [Stmt.lower] at h
      obtain ⟨f', _, hf, h⟩ := bind_eq_ok.mp h
      cases pure_eq_ok.mp h
      have hname : ∀ t ∈ [Token.binder f.name], t.ownName?.isSome := by
        simp [Token.ownName?]
      rw [Stmt.tokensList_singleton, Stmt.tokens, Stmt.tokens, Func.name_lower hf]
      exact (Context.Traced.keep hname).append (Func.lower_renders hstyle f hf)
  | .holding s => by
      intro k result j h
      rw [Stmt.lower] at h
      rw [Stmt.tokens]
      exact Scoped.lower_renders hstyle inAsync s h

theorem Stmt.lowerList_renders
    (hstyle : c.conventions.expansion ≠ .native) (inAsync : Bool) :
    (ss : List Stmt) →
      Lowering.Renders c (Stmt.tokensList ss) Stmt.tokensList (Stmt.lowerList c inAsync ss)
  | [] => by
      intro k result j h
      rw [Stmt.lowerList] at h
      cases pure_eq_ok.mp h
      exact .nil
  | s :: ss => by
      intro k result j h
      rw [Stmt.lowerList] at h
      obtain ⟨s', _, hs, h⟩ := bind_eq_ok.mp h
      obtain ⟨ss', _, hss, h⟩ := bind_eq_ok.mp h
      cases pure_eq_ok.mp h
      rw [Stmt.tokensList, Stmt.tokensList_append]
      have hs := Stmt.lower_renders hstyle inAsync s hs
      have hss := Stmt.lowerList_renders hstyle inAsync ss hss
      exact hs.append hss

theorem Stmt.lowerOption_renders
    (hstyle : c.conventions.expansion ≠ .native) (inAsync : Bool) :
    (s : Option Stmt) →
      Lowering.Renders c (Stmt.tokensOption s) Stmt.tokensOption (Stmt.lowerOption c inAsync s)
  | none => by
      intro k result j h
      rw [Stmt.lowerOption] at h
      cases pure_eq_ok.mp h
      exact .nil
  | some s => by
      intro k result j h
      rw [Stmt.lowerOption] at h
      obtain ⟨s', _, hs, h⟩ := bind_eq_ok.mp h
      cases pure_eq_ok.mp h
      rw [Stmt.tokensOption, Stmt.tokensOption]
      exact (Stmt.lower_renders hstyle inAsync s hs).ofList

theorem Item.lowerList_tracesItems
    (hstyle : c.conventions.expansion ≠ .native) (inAsync : Bool) :
    (items : List Item) → ∀ ⦃k items' j⦄,
      (Item.lowerList c inAsync items).run k = .ok (items', j) →
        k ≤ j ∧ ∃ ns, ns.Perm (List.range' k (j - k)) ∧ c.TracesItems ns items items'
  | [] => by
      intro k result j h
      rw [Item.lowerList] at h
      cases pure_eq_ok.mp h
      exact ⟨Nat.le_refl _, [], by simp, .nil⟩
  | ⟨acquire, binding, arity⟩ :: items => by
      intro k result j h
      rw [Item.lowerList] at h
      obtain ⟨item', i, hitem, h⟩ := bind_eq_ok.mp h
      obtain ⟨items', i', hitems, h⟩ := bind_eq_ok.mp h
      cases pure_eq_ok.mp h
      rw [Item.lower] at hitem
      obtain ⟨_, _, hlift, hitem⟩ := bind_eq_ok.mp hitem
      obtain ⟨_, hcheck, hr⟩ := lift_eq_ok.mp hlift
      cases hr
      obtain ⟨acquire', _, hacquire, hitem⟩ := bind_eq_ok.mp hitem
      cases pure_eq_ok.mp hitem
      obtain ⟨hki, ns, marks, hns, htraces, hmarks⟩ :=
        Expr.lower_renders hstyle inAsync acquire hacquire
      obtain ⟨hij, ms, hms, hrest⟩ := Item.lowerList_tracesItems hstyle inAsync items hitems
      refine ⟨Nat.le_trans hki hij, ns ++ ms, ?_, .cons htraces hmarks rfl ?_ hrest⟩
      · rw [Lowering.range_append hki hij]
        exact hns.append hms
      · exact fun x hx => Context.not_isReserved_of_checkBinding hstyle hcheck hx

/-- A lowered scoped statement is related to its source. -/
theorem Scoped.lower_renders
    (hstyle : c.conventions.expansion ≠ .native) (inAsync : Bool) :
    (s : Scoped) → Lowering.Renders c s.tokens Stmt.tokensList (s.lower c inAsync)
  | ⟨items, body, isAsync⟩ => by
      intro k result j h
      obtain ⟨-, -, items', body', i, hitems, hbody, hcode⟩ := Scoped.lower_eq_ok.mp h
      rw [Context.expandScoped, if_neg hstyle] at hcode
      obtain ⟨hki, ns, hns, hitems⟩ := Item.lowerList_tracesItems hstyle inAsync items hitems
      obtain ⟨hij, ms, _, hms, hbody, hinner⟩ := Stmt.lowerList_renders hstyle inAsync body hbody
      obtain ⟨os, marks, hos, htraces, hmarks⟩ := hitems.expand hbody.body hinner hcode
      have hk : k ≤ k + items.length := Nat.le_add_right k items.length
      refine ⟨Nat.le_trans hk (Nat.le_trans hki hij), os, marks, ?_, ?_, hmarks⟩
      · -- The statement takes its own numbers before those of its parts.
        rw [Lowering.range_append hk (Nat.le_trans hki hij), Lowering.range_append hki hij,
          Nat.add_sub_cancel_left]
        exact hos.trans ((hns.append hms).append_left _)
      · rw [Scoped.tokens]
        exact .holding htraces

end

end Lowering

/-- A lowered program is related to its source. -/
theorem Program.lowered_of_lower
    {c : Context} {inAsync : Bool} {p q : Program} (hstyle : c.conventions.expansion ≠ .native)
    (h : p.lower c inAsync = .ok q) : ∃ j, c.Lowered 0 j p.tokens q.tokens := by
  obtain ⟨⟨body, j⟩, hbody, h⟩ := Except.bind_eq_ok.mp h
  cases h
  exact ⟨j, (Stmt.lowerList_renders hstyle inAsync p.body hbody).lowered⟩

/-- A scoped statement that is lowered on its own is related to its source, and origins
are known. -/
theorem Scoped.traced_of_lowerAlone
    {c : Context} {inAsync : Bool} {s : Scoped} {code : List Stmt}
    (hstyle : c.conventions.expansion ≠ .native) (h : s.lowerAlone c inAsync = .ok code) :
    ∃ j, c.Traced 0 j s.tokens (Stmt.tokensList code) := by
  obtain ⟨⟨code, j⟩, hcode, h⟩ := Except.bind_eq_ok.mp h
  cases h
  exact ⟨j, Scoped.lower_renders hstyle _ s hcode⟩

theorem Scoped.lowered_of_lowerAlone
    {c : Context} {inAsync : Bool} {s : Scoped} {code : List Stmt}
    (hstyle : c.conventions.expansion ≠ .native) (h : s.lowerAlone c inAsync = .ok code) :
    ∃ j, c.Lowered 0 j s.tokens (Stmt.tokensList code) := by
  obtain ⟨j, htraced⟩ := Scoped.traced_of_lowerAlone hstyle h
  exact ⟨j, htraced.lowered⟩

end Bracket
