import Bracket.Proofs.Lowering.Nesting
import Bracket.Proofs.Lowering.Tokens
import Bracket.Proofs.Lowering.Violations

/-!
# What lowering removes and what it keeps

Lowering for a language without scoped statements leaves none of them, at any depth,
and code without scoped statements is a fixed point of lowering for every language.
Where a language has scoped statements of its own, lowering changes nothing.

In every case the code of the source is kept: apart from generated names and the
functions that protected calls need, the same variables are used in the same order.
-/

namespace Bracket

/-- The program contains a scoped statement. -/
def Program.hasScoped (p : Program) : Bool := Stmt.hasScopedList p.body

/-! ## Scoped statements by their tokens -/

mutual

theorem Expr.hasScoped_iff : (e : Expr) → (e.hasScoped = true ↔ .holding ∈ e.tokens)
  | .literal _ | .ident _ => by simp [Expr.hasScoped, Expr.tokens]
  | .binary l _ r => by
      simp [Expr.hasScoped, Expr.tokens, Expr.hasScoped_iff l, Expr.hasScoped_iff r]
  | .unary _ e => by simp [Expr.hasScoped, Expr.tokens, Expr.hasScoped_iff e]
  | .call f args => by
      simp [Expr.hasScoped, Expr.tokens, Expr.hasScoped_iff f, Expr.hasScopedList_iff args]
  | .methodCall r _ args => by
      simp [Expr.hasScoped, Expr.tokens, Expr.hasScoped_iff r, Expr.hasScopedList_iff args]
  | .member o p _ => by
      simp [Expr.hasScoped, Expr.tokens, Expr.hasScoped_iff o, Expr.hasScoped_iff p]
  | .array es => by simp [Expr.hasScoped, Expr.tokens, Expr.hasScopedList_iff es]
  | .object ps => by simp [Expr.hasScoped, Expr.tokens, Expr.hasScopedPairs_iff ps]
  | .function f => by simp [Expr.hasScoped, Expr.tokens, Func.hasScoped_iff f]
  | .conditional t a b => by
      simp [Expr.hasScoped, Expr.tokens, Expr.hasScoped_iff t, Expr.hasScoped_iff a,
        Expr.hasScoped_iff b, or_assoc]
  | .assign t v => by
      simp [Expr.hasScoped, Expr.tokens, Expr.hasScoped_iff t, Expr.hasScoped_iff v]
  | .await e => by simp [Expr.hasScoped, Expr.tokens, Expr.hasScoped_iff e]

theorem Expr.hasScopedList_iff :
    (es : List Expr) → (Expr.hasScopedList es = true ↔ .holding ∈ Expr.tokensList es)
  | [] => by simp [Expr.hasScopedList, Expr.tokensList]
  | e :: es => by
      simp [Expr.hasScopedList, Expr.tokensList, Expr.hasScoped_iff e, Expr.hasScopedList_iff es]

theorem Expr.hasScopedOption_iff :
    (e : Option Expr) → (Expr.hasScopedOption e = true ↔ .holding ∈ Expr.tokensOption e)
  | none => by simp [Expr.hasScopedOption, Expr.tokensOption]
  | some e => by simp [Expr.hasScopedOption, Expr.tokensOption, Expr.hasScoped_iff e]

theorem Expr.hasScopedPairs_iff :
    (ps : List (String × Expr)) →
      (Expr.hasScopedPairs ps = true ↔ .holding ∈ Expr.tokensPairs ps)
  | [] => by simp [Expr.hasScopedPairs, Expr.tokensPairs]
  | (_, e) :: ps => by
      simp [Expr.hasScopedPairs, Expr.tokensPairs, Expr.hasScoped_iff e,
        Expr.hasScopedPairs_iff ps]

theorem Func.hasScoped_iff : (f : Func) → (f.hasScoped = true ↔ .holding ∈ f.tokens)
  | ⟨_, params, body, _⟩ => by
      simp [Func.hasScoped, Func.tokens, Stmt.hasScopedList_iff body]

theorem Stmt.hasScoped_iff : (s : Stmt) → (s.hasScoped = true ↔ .holding ∈ s.tokens)
  | .expr e => by simp [Stmt.hasScoped, Stmt.tokens, Expr.hasScoped_iff e]
  | .declare _ i _ => by simp [Stmt.hasScoped, Stmt.tokens, Expr.hasScopedOption_iff i]
  | .destructure _ i => by simp [Stmt.hasScoped, Stmt.tokens, Expr.hasScoped_iff i]
  | .block b => by simp [Stmt.hasScoped, Stmt.tokens, Stmt.hasScopedList_iff b]
  | .ifElse t a b => by
      simp [Stmt.hasScoped, Stmt.tokens, Expr.hasScoped_iff t, Stmt.hasScoped_iff a,
        Stmt.hasScopedOption_iff b, or_assoc]
  | .whileLoop t b => by
      simp [Stmt.hasScoped, Stmt.tokens, Expr.hasScoped_iff t, Stmt.hasScoped_iff b]
  | .forLoop i t u b => by
      simp [Stmt.hasScoped, Stmt.tokens, Stmt.hasScopedOption_iff i, Expr.hasScopedOption_iff t,
        Expr.hasScopedOption_iff u, Stmt.hasScoped_iff b, or_assoc]
  | .forEach _ i b => by
      simp [Stmt.hasScoped, Stmt.tokens, Expr.hasScoped_iff i, Stmt.hasScoped_iff b]
  | .ret v => by simp [Stmt.hasScoped, Stmt.tokens, Expr.hasScopedOption_iff v]
  | .breakLoop | .continueLoop => by simp [Stmt.hasScoped, Stmt.tokens]
  | .throw e => by simp [Stmt.hasScoped, Stmt.tokens, Expr.hasScoped_iff e]
  | .tryCatch b _ h f => by
      simp [Stmt.hasScoped, Stmt.tokens, Stmt.hasScoped_iff b, Stmt.hasScopedOption_iff h,
        Stmt.hasScopedOption_iff f, or_assoc]
  | .function f => by simp [Stmt.hasScoped, Stmt.tokens, Func.hasScoped_iff f]
  | .holding ⟨_, _, _⟩ => by simp [Stmt.hasScoped, Stmt.tokens, Scoped.tokens]

theorem Stmt.hasScopedList_iff :
    (ss : List Stmt) → (Stmt.hasScopedList ss = true ↔ .holding ∈ Stmt.tokensList ss)
  | [] => by simp [Stmt.hasScopedList, Stmt.tokensList]
  | s :: ss => by
      simp [Stmt.hasScopedList, Stmt.tokensList, Stmt.hasScoped_iff s, Stmt.hasScopedList_iff ss]

theorem Stmt.hasScopedOption_iff :
    (s : Option Stmt) → (Stmt.hasScopedOption s = true ↔ .holding ∈ Stmt.tokensOption s)
  | none => by simp [Stmt.hasScopedOption, Stmt.tokensOption]
  | some s => by simp [Stmt.hasScopedOption, Stmt.tokensOption, Stmt.hasScoped_iff s]

end

/-! ## Scoped statements are removed -/

theorem Context.Lowers.holding_not_mem
    {c : Context} {ns : List Nat} {source target : List Token} (h : c.Lowers ns source target) :
    .holding ∉ target := by
  intro hmem
  rcases h.mem_target hmem with hname | hbracket | hbracket
  · exact nomatch hname
  · exact nomatch hbracket
  · exact nomatch hbracket

theorem Stmt.hasScopedList_of_lowered
    {c : Context} {k j : Nat} {source : List Token} {code : List Stmt}
    (h : c.Lowered k j source (Stmt.tokensList code)) : Stmt.hasScopedList code = false := by
  obtain ⟨-, ns, -, h⟩ := h
  exact Bool.eq_false_iff.mpr fun hscoped =>
    h.holding_not_mem ((Stmt.hasScopedList_iff code).mp hscoped)

namespace Program

variable {s : Settings} {c : Conventions} {p q : Program}

theorem hasScoped_of_lowerWith
    (hstyle : c.expansion ≠ .native) (h : p.lowerWith s c = .ok q) : q.hasScoped = false := by
  obtain ⟨j, hlowered⟩ := lowered_of_lower (c := s.context c) hstyle h
  exact Stmt.hasScopedList_of_lowered hlowered

/-- Code without scoped statements is a fixed point for every language. -/
theorem lowerWith_of_not_hasScoped
    (s : Settings) (c : Conventions) (h : p.hasScoped = false) : p.lowerWith s c = .ok p := by
  have hpure := Stmt.lowerList_eq_pure (s.context c) s.allowTopLevelAwait p.body h
  rw [lowerWith, lower, hpure]
  rfl

/-- A language with scoped statements of its own keeps the program. -/
theorem eq_of_lowerWith_native
    (hstyle : c.expansion = .native) (h : p.lowerWith s c = .ok q) : q = p := by
  have hprotected : c.expansion ≠ .protectedCall := by simp [hstyle]
  cases hviolations : p.violations s c with
  | nil =>
      obtain ⟨q', hq', hsame⟩ := lowerWith_of_violations_nil hprotected hviolations
      rw [hq'] at h
      cases h
      exact hsame hstyle
  | cons e rest =>
      rw [lowerWith_of_violations_cons hprotected hviolations] at h
      exact nomatch h

end Program

/-- What is printed for a language without scoped statements has none. -/
theorem Program.transpile_eq_ok
    {s : Settings} {l : Language} {p : Program} {text : String}
    (hstyle : l.conventions.expansion ≠ .native) (h : p.transpile s l = .ok text) :
    ∃ q, p.lowerWith s l.conventions = .ok q ∧ q.hasScoped = false ∧ text = s.render l q := by
  obtain ⟨q, hq, h⟩ := Except.bind_eq_ok.mp h
  cases h
  exact ⟨q, hq, hasScoped_of_lowerWith hstyle hq, rfl⟩

theorem Scoped.transpile_eq_ok
    {s : Settings} {l : Language} {stmt : Scoped} {text : String}
    (hstyle : l.conventions.expansion ≠ .native) (h : stmt.transpile s l = .ok text) :
    ∃ code, stmt.lowerWith s l.conventions = .ok code ∧ Stmt.hasScopedList code = false ∧
      text = s.render l ⟨code⟩ := by
  obtain ⟨code, hcode, h⟩ := Except.bind_eq_ok.mp h
  cases h
  obtain ⟨j, hlowered⟩ := Scoped.lowered_of_lowerAlone (c := s.context l.conventions) hstyle hcode
  exact ⟨code, hcode, Stmt.hasScopedList_of_lowered hlowered, rfl⟩

/-- Lowering removes every scoped statement where the language has none and keeps the
program where it has; code without scoped statements is a fixed point; and for a
language without scoped statements no other code is ever printed. -/
theorem Program.lower_removes_scoped
    (s : Settings) (c : Conventions) (p : Program) :
    (∀ q, p.lowerWith s c = .ok q →
      (c.expansion ≠ .native →
        q.hasScoped = false ∧
          ∀ (s' : Settings) (c' : Conventions), q.lowerWith s' c' = .ok q) ∧
      (c.expansion = .native → q = p)) ∧
    (p.hasScoped = false → p.lowerWith s c = .ok p) ∧
    ∀ l : Language, l.conventions.expansion ≠ .native →
      (∀ text, p.transpile s l = .ok text →
        ∃ q, p.lowerWith s l.conventions = .ok q ∧ q.hasScoped = false ∧
          text = s.render l q) ∧
      (∀ (stmt : Scoped) text, stmt.transpile s l = .ok text →
        ∃ code, stmt.lowerWith s l.conventions = .ok code ∧
          Stmt.hasScopedList code = false ∧ text = s.render l ⟨code⟩) ∧
      ∀ (stmts : List Scoped) text, .ok text ∈ Scoped.transpileBatch s l stmts →
        ∃ stmt ∈ stmts, ∃ code, stmt.lowerWith s l.conventions = .ok code ∧
          Stmt.hasScopedList code = false ∧ text = s.render l ⟨code⟩ := by
  refine ⟨fun q hq => ⟨fun hstyle => ?_, fun hstyle => eq_of_lowerWith_native hstyle hq⟩,
    lowerWith_of_not_hasScoped s c, fun l hstyle => ⟨?_, ?_, ?_⟩⟩
  · have hscoped := hasScoped_of_lowerWith hstyle hq
    exact ⟨hscoped, fun s' c' => lowerWith_of_not_hasScoped s' c' hscoped⟩
  · intro text htext
    exact transpile_eq_ok hstyle htext
  · intro stmt text htext
    exact Scoped.transpile_eq_ok hstyle htext
  · intro stmts text htext
    obtain ⟨stmt, hmem, hstmt⟩ := List.mem_map.mp htext
    exact ⟨stmt, hmem, Scoped.transpile_eq_ok hstyle hstmt⟩

/-- A scoped statement in the initialisation of a loop, which acquires what a function
with a scoped statement of its own makes. -/
def Program.sampleInAcquire : Program :=
  let inner : Stmt :=
    .holding ⟨[.bind (.new (.ident "first")) (.name "x")], [.ret (some (.ident "x"))], false⟩
  let outer : Stmt :=
    .holding
      ⟨[.new (.call (.ident "make") [.function (.anonymous ["y"] [inner])])],
        [.expr (.call (.ident "work") [])], false⟩
  ⟨[.forLoop (some outer) none none (.block [.breakLoop])]⟩

theorem Program.lower_removes_scoped_in_acquire :
    ∃ q, sampleInAcquire.hasScoped = true ∧
      sampleInAcquire.lowerWith {} .typescript = .ok q ∧ q.hasScoped = false ∧
        q.lowerWith {} .lua = .ok q := by
  obtain ⟨q, hq⟩ : ∃ q, sampleInAcquire.lowerWith {} .typescript = .ok q := ⟨_, rfl⟩
  obtain ⟨hresult, -, -⟩ := lower_removes_scoped {} .typescript sampleInAcquire
  obtain ⟨hscoped, hfixed⟩ := (hresult q hq).1 (by decide)
  exact ⟨q, rfl, hq, hscoped, hfixed {} .lua⟩

/-! ## The code of the source is kept -/

namespace Context

variable (c : Context)

/-- The name is not generated and not that of a function that protected calls need. -/
def isUserName (x : String) : Bool := !c.isReserved x && x != "pcall" && x != "table"

/-- The variables of the user that are used, from left to right. -/
def userUses (ts : List Token) : List String := (Token.uses ts).filter c.isUserName

@[simp] theorem userUses_append
    (a b : List Token) : c.userUses (a ++ b) = c.userUses a ++ c.userUses b := by
  simp [userUses]

@[simp] theorem userUses_block (ts : List Token) : c.userUses (Token.block ts) = c.userUses ts := by
  simp [userUses]

@[simp] theorem userUses_holding
    (ts : List Token) : c.userUses (.holding :: ts) = c.userUses ts :=
  rfl

@[simp] theorem userUses_resource
    (ts : List Token) : c.userUses (.resource :: ts) = c.userUses ts :=
  rfl

theorem userUses_eq_nil
    {ts : List Token} (h : ∀ t ∈ ts, ∀ x, t.used? = some x → c.isUserName x = false) :
    c.userUses ts = [] := by
  rw [userUses, List.filter_eq_nil_iff]
  intro x hx
  obtain ⟨t, ht, hused⟩ := List.mem_filterMap.mp hx
  simp [h t ht x hused]

@[simp] theorem isUserName_temp (role : Role) (n : Nat) : c.isUserName (c.temp role n) = false := by
  simp [isUserName, isReserved_temp]

variable {c}

theorem Scaffold.isUserName
    {n : Nat} {t : Token} {x : String} (ht : c.Scaffold n t) (hx : t.used? = some x) :
    c.isUserName x = false := by
  cases ht with
  | opens | closes | declare | caught => exact nomatch hx
  | use role =>
      cases hx
      exact c.isUserName_temp role n
  | protect | unpack =>
      cases hx
      simp [Context.isUserName]

theorem Binds.isUserName
    {n : Nat} {kept : Bool} {names : List String} {binds : List Token} {t : Token} {x : String}
    (hbinds : c.Binds n kept names binds) (ht : t ∈ binds) (hx : t.used? = some x) :
    c.isUserName x = false := by
  rcases hbinds t ht with ⟨-, rfl⟩ | ⟨y, -, rfl | rfl⟩
  · cases hx
    exact c.isUserName_temp .value n
  · exact nomatch hx
  · exact nomatch hx

/-- Lowering neither loses nor adds nor moves a use of a variable of the user. -/
theorem Lowers.userUses_eq
    {ns : List Nat} {source target : List Token} (h : c.Lowers ns source target) :
    c.userUses target = c.userUses source := by
  induction h with
  | keep => rfl
  | append _ _ iha ihb => rw [userUses_append, userUses_append, iha, ihb]
  | block _ ih => rw [userUses_block, userUses_block, ih]
  | enclose _ ih => rw [userUses_block, ih]
  | holding _ ih => rw [userUses_holding, userUses_block, ih]
  | @resource n _ _ kept resumes names acquire acquire' binds rest rest' _ _ _ hbinds
      ihacquire ihrest =>
      obtain ⟨before, after, heq, hbefore, hafter⟩ := c.heldTokens_eq_append n kept resumes
      have hbefore : c.userUses before = [] :=
        c.userUses_eq_nil fun t ht x hx => (hbefore t ht).isUserName hx
      have hafter : c.userUses after = [] :=
        c.userUses_eq_nil fun t ht x hx => (hafter t ht).isUserName hx
      have hbinds : c.userUses binds = [] :=
        c.userUses_eq_nil fun t ht x hx => hbinds.isUserName ht hx
      have hbound : c.userUses (names.map .bound) = [] :=
        c.userUses_eq_nil (by simp [Token.used?])
      calc
        c.userUses (acquire' ++ c.heldTokens n kept resumes (binds ++ rest'))
            = c.userUses acquire ++ c.userUses rest := by
          simp [heq, hbefore, hafter, hbinds, ihacquire, ihrest]
        _ = c.userUses (.resource :: (acquire ++ names.map .bound) ++ rest) := by
          simp [hbound]

end Context

/-- Lowering for a language without scoped statements loses no code of the user, doubles
none and keeps its order: the same variables are used from left to right, apart from
those that are generated and from `pcall` and `table`. -/
theorem Program.lower_keeps_uses
    (s : Settings) (c : Conventions) (p q : Program) (hstyle : c.expansion ≠ .native)
    (h : p.lowerWith s c = .ok q) :
    (s.context c).userUses q.tokens = (s.context c).userUses p.tokens := by
  obtain ⟨j, -, ns, -, hlowers⟩ := lowered_of_lower (c := s.context c) hstyle h
  exact hlowers.userUses_eq

theorem Program.lower_keeps_uses_in_acquire :
    ∃ q, sampleInAcquire.lowerWith {} .lua = .ok q ∧
      (Settings.context {} .lua).userUses q.tokens = ["make", "first", "x", "work"] := by
  obtain ⟨q, hq⟩ : ∃ q, sampleInAcquire.lowerWith {} .lua = .ok q := ⟨_, rfl⟩
  refine ⟨q, hq, ?_⟩
  rw [lower_keeps_uses {} .lua sampleInAcquire q (by decide) hq]
  decide

end Bracket
