import Bracket.Proofs.Lowering.Names
import Bracket.Proofs.Tree.Tokens

/-!
# Expansions read from left to right

The tokens of the code by which one resource is held around other code.  Both
expansions acquire and enter the resource first and bind its entry value inside of
the region that they guard.  All other tokens that they add are a scaffold: blocks,
variables that are generated for this resource, and the functions that protected
calls need.
-/

namespace Bracket

/-! ## Returns and bindings -/

mutual

/-- Packing returns changes no tokens. -/
theorem Stmt.tokens_packReturns
    {depth : Nat} {s' : Stmt} {found : Bool} :
    (s : Stmt) → Stmt.packReturns depth s = .ok (s', found) → s'.tokens = s.tokens
  | .ret none, h => by
      cases h
      rfl
  | .ret (some e), h => by
      cases h
      simp [Stmt.tokens, Expr.tokensOption, Expr.tokens, Expr.tokensList]
  | .breakLoop, h => by
      rw [Stmt.packReturns] at h
      split at h <;> cases h
      rfl
  | .continueLoop, h => by
      rw [Stmt.packReturns] at h
      split at h <;> cases h
      rfl
  | .block body, h => by
      obtain ⟨⟨body', _⟩, hbody, h⟩ := Except.bind_eq_ok.mp h
      cases h
      rw [Stmt.tokens, Stmt.tokens, Stmt.tokens_packReturnsList body hbody]
  | .ifElse test a b, h => by
      obtain ⟨⟨a', _⟩, ha, h⟩ := Except.bind_eq_ok.mp h
      obtain ⟨⟨b', _⟩, hb, h⟩ := Except.bind_eq_ok.mp h
      cases h
      rw [Stmt.tokens, Stmt.tokens, Stmt.tokens_packReturns a ha,
        Stmt.tokens_packReturnsOption b hb]
  | .whileLoop test body, h => by
      obtain ⟨⟨body', _⟩, hbody, h⟩ := Except.bind_eq_ok.mp h
      cases h
      rw [Stmt.tokens, Stmt.tokens, Stmt.tokens_packReturns body hbody]
  | .forLoop init test update body, h => by
      obtain ⟨⟨body', _⟩, hbody, h⟩ := Except.bind_eq_ok.mp h
      cases h
      rw [Stmt.tokens, Stmt.tokens, Stmt.tokens_packReturns body hbody]
  | .forEach x iterable body, h => by
      obtain ⟨⟨body', _⟩, hbody, h⟩ := Except.bind_eq_ok.mp h
      cases h
      rw [Stmt.tokens, Stmt.tokens, Stmt.tokens_packReturns body hbody]
  | .tryCatch body x handler final, h => by
      obtain ⟨⟨body', _⟩, hbody, h⟩ := Except.bind_eq_ok.mp h
      obtain ⟨⟨handler', _⟩, hhandler, h⟩ := Except.bind_eq_ok.mp h
      obtain ⟨⟨final', _⟩, hfinal, h⟩ := Except.bind_eq_ok.mp h
      cases h
      rw [Stmt.tokens, Stmt.tokens, Stmt.tokens_packReturns body hbody,
        Stmt.tokens_packReturnsOption handler hhandler,
        Stmt.tokens_packReturnsOption final hfinal]
  | .holding ⟨items, body, isAsync⟩, h => by
      obtain ⟨⟨body', _⟩, hbody, h⟩ := Except.bind_eq_ok.mp h
      cases h
      rw [Stmt.tokens, Stmt.tokens, Scoped.tokens, Scoped.tokens,
        Stmt.tokens_packReturnsList body hbody]
  | .expr _, h | .declare .., h | .destructure .., h | .throw _, h | .function _, h => by
      cases h
      rfl

theorem Stmt.tokens_packReturnsList
    {depth : Nat} {ss' : List Stmt} {found : Bool} :
    (ss : List Stmt) → Stmt.packReturnsList depth ss = .ok (ss', found) →
      Stmt.tokensList ss' = Stmt.tokensList ss
  | [], h => by
      cases h
      rfl
  | s :: ss, h => by
      obtain ⟨⟨s', _⟩, hs, h⟩ := Except.bind_eq_ok.mp h
      obtain ⟨⟨ss', _⟩, hss, h⟩ := Except.bind_eq_ok.mp h
      cases h
      rw [Stmt.tokensList, Stmt.tokensList, Stmt.tokens_packReturns s hs,
        Stmt.tokens_packReturnsList ss hss]

theorem Stmt.tokens_packReturnsOption
    {depth : Nat} {s' : Option Stmt} {found : Bool} :
    (s : Option Stmt) → Stmt.packReturnsOption depth s = .ok (s', found) →
      Stmt.tokensOption s' = Stmt.tokensOption s
  | none, h => by
      cases h
      rfl
  | some s, h => by
      obtain ⟨⟨s', _⟩, hs, h⟩ := Except.bind_eq_ok.mp h
      cases h
      rw [Stmt.tokensOption, Stmt.tokensOption, Stmt.tokens_packReturns s hs]

end

mutual

theorem Pattern.mem_tokens_indexedBindings
    {base : UInt64} {t : Token} :
    (p : Pattern) → (source : Expr) →
      t ∈ Stmt.tokensList (p.indexedBindings base source) →
        t ∈ source.tokens ∨ ∃ x ∈ p.names, t = .declare x
  | .name x, source, h => by
      simpa [Pattern.indexedBindings, Stmt.letVar, Stmt.tokensList, Stmt.tokens,
        Expr.tokensOption, Pattern.names] using h
  | .tuple slots, source, h => by
      rw [Pattern.indexedBindings] at h
      rw [Pattern.names]
      exact Pattern.mem_tokens_indexedSlots slots source 0 h

theorem Pattern.mem_tokens_indexedSlots
    {base : UInt64} {t : Token} :
    (ps : List Pattern) → (source : Expr) → (i : Nat) →
      t ∈ Stmt.tokensList (Pattern.indexedSlots base source i ps) →
        t ∈ source.tokens ∨ ∃ x ∈ Pattern.namesList ps, t = .declare x
  | [], source, i, h => by simp [Pattern.indexedSlots, Stmt.tokensList] at h
  | p :: ps, source, i, h => by
      rw [Pattern.indexedSlots, Stmt.tokensList_append, List.mem_append] at h
      rw [Pattern.namesList]
      rcases h with h | h
      · rcases Pattern.mem_tokens_indexedBindings p _ h with hsource | ⟨x, hx, ht⟩
        · left
          simpa [Expr.index, Expr.tokens, Expr.number] using hsource
        · exact .inr ⟨x, List.mem_append_left _ hx, ht⟩
      · rcases Pattern.mem_tokens_indexedSlots ps source (i + 1) h with hsource | ⟨x, hx, ht⟩
        · exact .inl hsource
        · exact .inr ⟨x, List.mem_append_right _ hx, ht⟩

end

namespace Context

variable (c : Context)

/-- Tokens that bind names to parts of the entry value of resource `n`, which is only
there if it is kept. -/
def Binds (n : Nat) (kept : Bool) (names : List String) (binds : List Token) : Prop :=
  ∀ t ∈ binds,
    kept = true ∧ t = .use (c.temp .value n) ∨ ∃ x ∈ names, t = .declare x ∨ t = .binder x

theorem bindEntryValue_binds
    (n : Nat) (item : Item) :
    c.Binds n item.binding.isSome item.boundNames
      (Stmt.tokensList (c.bindEntryValue n item.binding)) := by
  intro t ht
  unfold bindEntryValue at ht
  unfold Item.boundNames
  split at ht
  · simp [Stmt.tokensList] at ht
  · rename_i x hbinding
    rw [hbinding]
    simp only [Stmt.tokensList, Stmt.letVar, Stmt.tokens, Expr.tokensOption, Expr.tokens,
      List.append_nil, List.mem_append, List.mem_singleton] at ht
    rcases ht with rfl | rfl
    · exact .inl ⟨rfl, rfl⟩
    · exact .inr ⟨x, List.mem_singleton_self x, .inl rfl⟩
  · rename_i p _ hbinding
    rw [hbinding]
    dsimp only at ht ⊢
    split at ht
    · simp only [Stmt.tokensList, Stmt.tokens, Expr.tokens, List.append_nil, List.mem_append,
        List.mem_singleton, List.mem_map] at ht
      rcases ht with rfl | ⟨x, hx, rfl⟩
      · exact .inl ⟨rfl, rfl⟩
      · exact .inr ⟨x, hx, .inr rfl⟩
    · rcases Pattern.mem_tokens_indexedBindings p _ ht with hsource | ⟨x, hx, rfl⟩
      · rw [Expr.tokens, List.mem_singleton] at hsource
        exact .inl ⟨rfl, hsource⟩
      · exact .inr ⟨x, hx, .inl rfl⟩

/-! ## Expansions -/

/-- The tokens by which resource `n` is entered once it is acquired. -/
def enterTokens (n : Nat) (kept : Bool) : List Token :=
  [.declare (c.temp .manager n), .use (c.temp .manager n)] ++
    if kept then [.declare (c.temp .value n)] else []

/-- The tokens of the catch clause of resource `n`. -/
def onErrorTokens (n : Nat) : List Token :=
  Token.block
    ([.use (c.temp .failed n), .use (c.temp .manager n), .use (c.temp .error n)]
      ++ Token.block (Token.block [.use (c.temp .error n)]) ++ Token.block [])

/-- The tokens of the finally clause of resource `n`. -/
def onLeaveTokens (n : Nat) : List Token :=
  Token.block
    ([.use (c.temp .failed n)] ++ Token.block (Token.block [.use (c.temp .manager n)])
      ++ Token.block [])

/-- The tokens behind a successful protected call of resource `n`. -/
def onSuccessTokens (n : Nat) (resumes : Bool) : List Token :=
  Token.block
    (.use (c.temp .manager n) ::
      if resumes then
        [.use (c.temp .outcome n)]
          ++ Token.block (Token.block [.use "table", .use (c.temp .outcome n)])
          ++ Token.block []
      else [])

/-- The tokens behind a failed protected call of resource `n`. -/
def onFailureTokens (n : Nat) : List Token :=
  [.use (c.temp .manager n), .use (c.temp .outcome n)]
    ++ Token.block (Token.block [.use (c.temp .outcome n)]) ++ Token.block []

/-- The tokens by which resource `n` is held around code and released. -/
def regionTokens (n : Nat) (resumes : Bool) (inner : List Token) : List Token :=
  if c.conventions.expansion = .protectedCall then
    [.use "pcall"] ++ Token.block (Token.block inner)
      ++ [.declare (c.temp .outcome n), .use (c.temp .outcome n)]
      ++ Token.block (c.onSuccessTokens n resumes) ++ Token.block (c.onFailureTokens n)
  else
    [.declare (c.temp .failed n)] ++ Token.block (Token.block inner)
      ++ Token.block (.caught (c.temp .error n) :: c.onErrorTokens n)
      ++ Token.block (c.onLeaveTokens n)

/-- The tokens of resource `n` around code, from its entry to its release. -/
def heldTokens (n : Nat) (kept resumes : Bool) (inner : List Token) : List Token :=
  c.enterTokens n kept ++ c.regionTokens n resumes inner

@[simp] theorem tokens_suspendIf
    (isAsync : Bool) (e : Expr) : (e.suspendIf isAsync).tokens = e.tokens := by
  cases isAsync <;> simp [Expr.suspendIf, Expr.tokens]

variable {c} {n : Nat} {item : Item} {inner code : List Stmt}

@[simp] theorem tokens_enterCall : (c.enterCall n).tokens = [.use (c.temp .manager n)] := by
  simp [enterCall, Expr.tokens, Expr.tokensList]

@[simp] theorem tokens_exitCall
    (argument : Expr) :
    (c.exitCall n argument).tokens = .use (c.temp .manager n) :: argument.tokens := by
  simp [exitCall, Expr.tokens, Expr.tokensList]

@[simp] theorem tokens_outcomeAt
    (i : Nat) : (c.outcomeAt n i).tokens = [.use (c.temp .outcome n)] := by
  simp [outcomeAt, Expr.index, Expr.number, Expr.tokens]

theorem tokens_enterStatements
    {enter : Expr} (henter : enter.tokens = [.use (c.temp .manager n)]) :
    Stmt.tokensList (c.enterStatements n item enter) =
      item.acquire.tokens ++ c.enterTokens n item.binding.isSome := by
  unfold enterStatements enterTokens
  cases item.binding <;>
    simp [Stmt.tokensList, Stmt.letConst, Stmt.tokens, Expr.tokensOption, henter]

theorem tokens_onError (isAsync : Bool) : (c.onError isAsync n).tokens = c.onErrorTokens n := by
  simp [onError, onErrorTokens, Stmt.tokens, Stmt.tokensList, Stmt.tokensOption, Expr.tokens,
    Expr.bool, Expr.negate]

theorem tokens_onLeave (isAsync : Bool) : (c.onLeave isAsync n).tokens = c.onLeaveTokens n := by
  simp [onLeave, onLeaveTokens, Stmt.tokens, Stmt.tokensList, Stmt.tokensOption, Expr.tokens,
    Expr.null, Expr.negate]

theorem tokens_onSuccess
    (resumes : Bool) : (c.onSuccess n resumes).tokens = c.onSuccessTokens n resumes := by
  cases resumes <;>
    simp [onSuccess, onSuccessTokens, resumeReturn, Stmt.tokens, Stmt.tokensList,
      Stmt.tokensOption, Expr.tokens, Expr.tokensOption, Expr.tokensList, Expr.null, Expr.field,
      Expr.string]

theorem tokens_onFailure : (c.onFailure n).tokens = c.onFailureTokens n := by
  simp [onFailure, onFailureTokens, Stmt.tokens, Stmt.tokensList, Stmt.tokensOption, Expr.tokens,
    Expr.negate]

/-- The expansion of a resource with catch and finally, by its tokens. -/
theorem tokens_expandGuarded
    (isAsync : Bool) (hstyle : c.conventions.expansion ≠ .protectedCall) :
    Stmt.tokensList (c.expandGuarded isAsync n item inner) =
      item.acquire.tokens ++
        c.heldTokens n item.binding.isSome false
          (Stmt.tokensList (c.bindEntryValue n item.binding) ++ Stmt.tokensList inner) := by
  have henter : (Expr.suspendIf isAsync (c.enterCall n)).tokens = [.use (c.temp .manager n)] := by
    simp
  rw [expandGuarded, Stmt.tokensList_append, tokens_enterStatements henter, heldTokens,
    regionTokens, if_neg hstyle]
  simp [Stmt.tokensList, Stmt.tokens, Stmt.letVar, Stmt.tokensOption, Expr.tokensOption,
    Expr.tokens, Expr.bool, tokens_onError, tokens_onLeave]

/-- The expansion of a resource with a protected call, by its tokens. -/
theorem tokens_expandProtected
    (hstyle : c.conventions.expansion = .protectedCall)
    (hcode : c.expandProtected n item inner = .ok code) :
    ∃ resumes,
      Stmt.tokensList code =
        item.acquire.tokens ++
          c.heldTokens n item.binding.isSome resumes
            (Stmt.tokensList (c.bindEntryValue n item.binding) ++ Stmt.tokensList inner) := by
  unfold expandProtected at hcode
  split at hcode
  · cases hcode
  · rename_i guarded returns hpack
    cases hcode
    have hguarded := Stmt.tokens_packReturnsList _ hpack
    rw [Stmt.tokensList_append] at hguarded
    refine ⟨returns, ?_⟩
    rw [Stmt.tokensList_append, tokens_enterStatements tokens_enterCall, heldTokens,
      regionTokens, if_pos hstyle, ← hguarded]
    simp [Stmt.tokensList, Stmt.tokens, Stmt.letConst, Stmt.tokensOption, Expr.tokensOption,
      Expr.tokens, Expr.tokensList, Func.anonymous, Func.tokens, Token.ofLiteralName,
      tokens_onSuccess, tokens_onFailure]

/-! ## The scaffold of a resource -/

/-- A token that the expansion of resource `n` adds. -/
inductive Scaffold (c : Context) (n : Nat) : Token → Prop
  | opens : Scaffold c n .opens
  | closes : Scaffold c n .closes
  | use (role : Role) : Scaffold c n (.use (c.temp role n))
  | declare (role : Role) : Scaffold c n (.declare (c.temp role n))
  | caught (role : Role) : Scaffold c n (.caught (c.temp role n))
  | protect : Scaffold c n (.use "pcall")
  | unpack : Scaffold c n (.use "table")

attribute [local simp] Scaffold.opens Scaffold.closes Scaffold.use Scaffold.declare
  Scaffold.caught Scaffold.protect Scaffold.unpack

/-- The expansion of a resource adds a scaffold before and behind the code that it
holds. -/
theorem heldTokens_eq_append
    (c : Context) (n : Nat) (kept resumes : Bool) :
    ∃ before after,
      (∀ inner, c.heldTokens n kept resumes inner = before ++ inner ++ after) ∧
        (∀ t ∈ before, c.Scaffold n t) ∧ ∀ t ∈ after, c.Scaffold n t := by
  have henter : ∀ t ∈ c.enterTokens n kept, c.Scaffold n t := by
    cases kept <;> simp [enterTokens]
  by_cases hstyle : c.conventions.expansion = .protectedCall
  · refine ⟨c.enterTokens n kept ++ [.use "pcall", .opens, .opens],
      [.closes, .closes, .declare (c.temp .outcome n), .use (c.temp .outcome n)]
        ++ Token.block (c.onSuccessTokens n resumes) ++ Token.block (c.onFailureTokens n),
      ?_, ?_, ?_⟩
    · intro inner
      simp [heldTokens, regionTokens, hstyle, Token.block]
    · simpa [or_imp, forall_and] using henter
    · cases resumes <;> simp [Token.block, onSuccessTokens, onFailureTokens]
  · refine ⟨c.enterTokens n kept ++ [.declare (c.temp .failed n), .opens, .opens],
      [.closes, .closes] ++ Token.block (.caught (c.temp .error n) :: c.onErrorTokens n)
        ++ Token.block (c.onLeaveTokens n),
      ?_, ?_, ?_⟩
    · intro inner
      simp [heldTokens, regionTokens, hstyle, Token.block]
    · simpa [or_imp, forall_and] using henter
    · simp [Token.block, onErrorTokens, onLeaveTokens]

end Context

end Bracket
