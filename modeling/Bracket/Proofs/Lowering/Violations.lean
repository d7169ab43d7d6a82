import Bracket.Proofs.Lowering.Names
import Bracket.Target.Language

/-!
# The first violation

Whether code can be lowered is decided by its scoped statements alone.  The
violations of a piece of code are listed from left to right: a statement without
resources, a statement that suspends where it cannot, a flawed binding, a binding
with a reserved name.

The main statement is that lowering succeeds where there are no violations and
fails with the first one otherwise, unless the statements become protected calls,
which cannot be left by every jump.  Where a language has scoped statements of its
own, code without violations stays as it is.
-/

namespace Bracket

/-! ## Violations -/

namespace Context

/-- What is wrong with the suspension of a scoped statement. -/
def suspensionViolations (c : Context) (isAsync inAsync : Bool) : List LoweringError :=
  if !isAsync then []
  else if !c.conventions.supportsSuspension then
    [.unsupported c.conventions.language .suspension]
  else if !inAsync then [.unsupported c.conventions.language .suspensionOutsideAsync]
  else []

/-- What is wrong with the binding of a resource: its flaw and, where names are
generated, its first name that begins like a generated one. -/
def bindingViolations (c : Context) (item : Item) : List LoweringError :=
  (match item.resolve with
    | .error flaw => [.malformedBinding flaw]
    | .ok _ => []) ++
  (if c.conventions.expansion = .native then []
    else (item.boundNames.find? c.isReserved).toList.map fun x =>
      .malformedBinding (.reservedName x c.tempPrefix))

end Context

mutual

/-- The violations in the functions inside an expression. -/
def Expr.violations (c : Context) (inAsync : Bool) : Expr → List LoweringError
  | .literal _ => []
  | .ident _ => []
  | .binary l _ r => l.violations c inAsync ++ r.violations c inAsync
  | .unary _ e => e.violations c inAsync
  | .call f args => f.violations c inAsync ++ Expr.violationsList c inAsync args
  | .methodCall r _ args => r.violations c inAsync ++ Expr.violationsList c inAsync args
  | .member o p _ => o.violations c inAsync ++ p.violations c inAsync
  | .array es => Expr.violationsList c inAsync es
  | .object ps => Expr.violationsPairs c inAsync ps
  | .function f => f.violations c
  | .conditional t a b =>
      t.violations c inAsync ++ (a.violations c inAsync ++ b.violations c inAsync)
  | .assign t v => t.violations c inAsync ++ v.violations c inAsync
  | .await e => e.violations c inAsync

def Expr.violationsList (c : Context) (inAsync : Bool) : List Expr → List LoweringError
  | [] => []
  | e :: es => e.violations c inAsync ++ Expr.violationsList c inAsync es

def Expr.violationsOption (c : Context) (inAsync : Bool) : Option Expr → List LoweringError
  | none => []
  | some e => e.violations c inAsync

def Expr.violationsPairs (c : Context) (inAsync : Bool) :
    List (String × Expr) → List LoweringError
  | [] => []
  | (_, e) :: ps => e.violations c inAsync ++ Expr.violationsPairs c inAsync ps

/-- The violations in the body of a function, which decides by itself whether it may
suspend. -/
def Func.violations (c : Context) : Func → List LoweringError
  | ⟨_, _, body, isAsync⟩ => Stmt.violationsList c isAsync body

/-- The violations in a statement. -/
def Stmt.violations (c : Context) (inAsync : Bool) : Stmt → List LoweringError
  | .expr e => e.violations c inAsync
  | .declare _ i _ => Expr.violationsOption c inAsync i
  | .destructure _ i => i.violations c inAsync
  | .block b => Stmt.violationsList c inAsync b
  | .ifElse t a b =>
      t.violations c inAsync ++ (a.violations c inAsync ++ Stmt.violationsOption c inAsync b)
  | .whileLoop t b => t.violations c inAsync ++ b.violations c inAsync
  | .forLoop i t u b =>
      Stmt.violationsOption c inAsync i ++ (Expr.violationsOption c inAsync t
        ++ (Expr.violationsOption c inAsync u ++ b.violations c inAsync))
  | .forEach _ i b => i.violations c inAsync ++ b.violations c inAsync
  | .ret v => Expr.violationsOption c inAsync v
  | .breakLoop => []
  | .continueLoop => []
  | .throw e => e.violations c inAsync
  | .tryCatch b _ h f =>
      b.violations c inAsync
        ++ (Stmt.violationsOption c inAsync h ++ Stmt.violationsOption c inAsync f)
  | .function f => f.violations c
  | .holding s => s.violations c inAsync

def Stmt.violationsList (c : Context) (inAsync : Bool) : List Stmt → List LoweringError
  | [] => []
  | s :: ss => s.violations c inAsync ++ Stmt.violationsList c inAsync ss

def Stmt.violationsOption (c : Context) (inAsync : Bool) : Option Stmt → List LoweringError
  | none => []
  | some s => s.violations c inAsync

/-- The violations in the binding and in the acquisition of a resource. -/
def Item.violations (c : Context) (inAsync : Bool) : Item → List LoweringError
  | ⟨acquire, binding, arity⟩ =>
      c.bindingViolations ⟨acquire, binding, arity⟩ ++ acquire.violations c inAsync

def Item.violationsList (c : Context) (inAsync : Bool) : List Item → List LoweringError
  | [] => []
  | i :: is => i.violations c inAsync ++ Item.violationsList c inAsync is

/-- The violations of a scoped statement and in its parts. -/
def Scoped.violations (c : Context) (inAsync : Bool) : Scoped → List LoweringError
  | ⟨items, body, isAsync⟩ =>
      if items.isEmpty then [.emptyStatement]
      else
        c.suspensionViolations isAsync inAsync
          ++ (Item.violationsList c inAsync items ++ Stmt.violationsList c inAsync body)

end

/-- The violations in a program whose top level may suspend if settings say so. -/
def Program.violations (s : Settings) (c : Conventions) (p : Program) : List LoweringError :=
  Stmt.violationsList (s.context c) s.allowTopLevelAwait p.body

/-! ## Computations that report errors -/

/-- A computation fails with the first of the errors; if there are none, it yields
something with the given property. -/
def Lowering.Reports {α : Type} : List LoweringError → (α → Prop) → Lowering α → Prop
  | [], post, m => ∀ k, ∃ a j, m.run k = .ok (a, j) ∧ post a
  | e :: _, _, m => ∀ k, m.run k = .error e

namespace Lowering.Reports

variable {α β : Type} {errors errors' : List LoweringError}
  {post : α → Prop} {post' : β → Prop} {m : Lowering α} {f : α → Lowering β}

theorem pure
    {a : α} (h : post a) : Reports [] post (Pure.pure a) :=
  fun k => ⟨a, k, rfl, h⟩

/-- The errors of the rest come behind those of the first step. -/
theorem bind
    (hm : Reports errors post m) (hf : ∀ a, post a → Reports errors' post' (f a)) :
    Reports (errors ++ errors') post' (m >>= f) := by
  cases errors with
  | nil =>
      have hrest (k : Nat) : ∃ a j, (m >>= f).run k = (f a).run j ∧ post a := by
        obtain ⟨a, j, hrun, ha⟩ := hm k
        refine ⟨a, j, ?_, ha⟩
        rw [StateT.run_bind, hrun]
        rfl
      cases errors' with
      | nil =>
          intro k
          obtain ⟨a, j, hrun, ha⟩ := hrest k
          rw [hrun]
          exact hf a ha j
      | cons e errors' =>
          intro k
          obtain ⟨a, j, hrun, ha⟩ := hrest k
          rw [hrun]
          exact hf a ha j
  | cons e errors =>
      intro k
      have hrun : m.run k = .error e := hm k
      rw [StateT.run_bind, hrun]
      rfl

/-- The rest reports no errors of its own. -/
theorem last
    (hm : Reports errors post m) (hf : ∀ a, post a → Reports [] post' (f a)) :
    Reports errors post' (m >>= f) := by
  simpa using hm.bind hf

theorem reserve
    {n : Nat} {f : Nat → Lowering β} (hf : ∀ i, Reports errors post' (f i)) :
    Reports errors post' (Lowering.reserve n >>= f) := by
  have hreserve : Reports [] (fun _ => True) (Lowering.reserve n) :=
    fun k => ⟨k, k + n, rfl, trivial⟩
  exact hreserve.bind fun i _ => hf i

theorem lift_ok
    {x : Except LoweringError α} {a : α} (hx : x = .ok a) (ha : post a) :
    Reports [] post (liftM x : Lowering α) := by
  intro k
  rw [hx]
  exact ⟨a, k, rfl, ha⟩

theorem lift_error
    {x : Except LoweringError α} {e : LoweringError} (hx : x = .error e) :
    Reports (e :: errors) post (liftM x : Lowering α) := by
  intro k
  rw [hx]
  rfl

end Lowering.Reports

namespace Context

variable (c : Context)

theorem checkSuspension_reports
    (isAsync inAsync : Bool) :
    Lowering.Reports (c.suspensionViolations isAsync inAsync) (fun _ => True)
      (liftM (c.checkSuspension isAsync inAsync)) := by
  unfold suspensionViolations checkSuspension
  cases isAsync with
  | false => exact .lift_ok rfl trivial
  | true =>
      cases c.conventions.supportsSuspension with
      | false => exact .lift_error rfl
      | true =>
          cases inAsync with
          | false => exact .lift_error rfl
          | true => exact .lift_ok rfl trivial

theorem checkBinding_reports
    (item : Item) :
    Lowering.Reports (c.bindingViolations item) (fun _ => True) (liftM (c.checkBinding item)) := by
  unfold bindingViolations checkBinding
  cases hresolve : item.resolve with
  | error flaw => exact .lift_error rfl
  | ok binding =>
      simp only [List.nil_append, Item.names_of_resolve hresolve]
      by_cases hstyle : c.conventions.expansion = .native
      · simp only [if_pos hstyle]
        exact .lift_ok rfl trivial
      · simp only [if_neg hstyle]
        cases item.boundNames.find? c.isReserved with
        | none => exact .lift_ok rfl trivial
        | some x => exact .lift_error rfl

/-- Where a language has scoped statements of its own, the code stays as it was. -/
def Unchanged {α : Type} (source target : α) : Prop :=
  c.conventions.expansion = .native → target = source

variable {c}

theorem expandItems_eq_ok
    (hstyle : c.conventions.expansion ≠ .protectedCall) (isAsync : Bool) (n : Nat)
    (items : List Item) (inner : List Stmt) :
    ∃ code, c.expandItems isAsync n items inner = .ok code := by
  induction items generalizing n with
  | nil => exact ⟨inner, rfl⟩
  | cons item items ih =>
      obtain ⟨held, hheld⟩ := ih (n + 1)
      refine ⟨c.expandGuarded isAsync n item held, ?_⟩
      rw [expandItems, hheld]
      exact if_neg hstyle

/-- Expansions with catch and finally cannot fail. -/
theorem expandScoped_reports
    {s s' : Scoped} (hstyle : c.conventions.expansion ≠ .protectedCall) (hs : c.Unchanged s s')
    (n : Nat) :
    Lowering.Reports [] (c.Unchanged [.holding s]) (liftM (c.expandScoped n s')) := by
  by_cases hnative : c.conventions.expansion = .native
  · exact .lift_ok (if_pos hnative) fun _ => by rw [hs hnative]
  · obtain ⟨code, hcode⟩ := expandItems_eq_ok hstyle s'.isAsync n s'.items s'.body
    exact .lift_ok ((if_neg hnative).trans hcode) fun h => absurd h hnative

end Context

/-! ## Lowering -/

section Lowering

open Lowering

variable {c : Context}

mutual

/-- Lowering an expression reports its violations. -/
theorem Expr.lower_reports
    (hstyle : c.conventions.expansion ≠ .protectedCall) (inAsync : Bool) :
    (e : Expr) → Reports (e.violations c inAsync) (c.Unchanged e) (e.lower c inAsync)
  | .literal l => by
      rw [Expr.lower, Expr.violations]
      exact .pure fun _ => rfl
  | .ident x => by
      rw [Expr.lower, Expr.violations]
      exact .pure fun _ => rfl
  | .binary l op r => by
      rw [Expr.lower, Expr.violations]
      refine .bind (Expr.lower_reports hstyle inAsync l) fun l' hl => ?_
      refine .last (Expr.lower_reports hstyle inAsync r) fun r' hr => ?_
      exact .pure fun hnative => by rw [hl hnative, hr hnative]
  | .unary op e => by
      rw [Expr.lower, Expr.violations]
      refine .last (Expr.lower_reports hstyle inAsync e) fun e' he => ?_
      exact .pure fun hnative => by rw [he hnative]
  | .call f args => by
      rw [Expr.lower, Expr.violations]
      refine .bind (Expr.lower_reports hstyle inAsync f) fun f' hf => ?_
      refine .last (Expr.lowerList_reports hstyle inAsync args) fun args' hargs => ?_
      exact .pure fun hnative => by rw [hf hnative, hargs hnative]
  | .methodCall r m args => by
      rw [Expr.lower, Expr.violations]
      refine .bind (Expr.lower_reports hstyle inAsync r) fun r' hr => ?_
      refine .last (Expr.lowerList_reports hstyle inAsync args) fun args' hargs => ?_
      exact .pure fun hnative => by rw [hr hnative, hargs hnative]
  | .member o p computed => by
      rw [Expr.lower, Expr.violations]
      refine .bind (Expr.lower_reports hstyle inAsync o) fun o' ho => ?_
      refine .last (Expr.lower_reports hstyle inAsync p) fun p' hp => ?_
      exact .pure fun hnative => by rw [ho hnative, hp hnative]
  | .array es => by
      rw [Expr.lower, Expr.violations]
      refine .last (Expr.lowerList_reports hstyle inAsync es) fun es' hes => ?_
      exact .pure fun hnative => by rw [hes hnative]
  | .object ps => by
      rw [Expr.lower, Expr.violations]
      refine .last (Expr.lowerPairs_reports hstyle inAsync ps) fun ps' hps => ?_
      exact .pure fun hnative => by rw [hps hnative]
  | .function f => by
      rw [Expr.lower, Expr.violations]
      refine .last (Func.lower_reports hstyle f) fun f' hf => ?_
      exact .pure fun hnative => by rw [hf hnative]
  | .conditional t a b => by
      rw [Expr.lower, Expr.violations]
      refine .bind (Expr.lower_reports hstyle inAsync t) fun t' ht => ?_
      refine .bind (Expr.lower_reports hstyle inAsync a) fun a' ha => ?_
      refine .last (Expr.lower_reports hstyle inAsync b) fun b' hb => ?_
      exact .pure fun hnative => by rw [ht hnative, ha hnative, hb hnative]
  | .assign t v => by
      rw [Expr.lower, Expr.violations]
      refine .bind (Expr.lower_reports hstyle inAsync t) fun t' ht => ?_
      refine .last (Expr.lower_reports hstyle inAsync v) fun v' hv => ?_
      exact .pure fun hnative => by rw [ht hnative, hv hnative]
  | .await e => by
      rw [Expr.lower, Expr.violations]
      refine .last (Expr.lower_reports hstyle inAsync e) fun e' he => ?_
      exact .pure fun hnative => by rw [he hnative]

theorem Expr.lowerList_reports
    (hstyle : c.conventions.expansion ≠ .protectedCall) (inAsync : Bool) :
    (es : List Expr) →
      Reports (Expr.violationsList c inAsync es) (c.Unchanged es) (Expr.lowerList c inAsync es)
  | [] => by
      rw [Expr.lowerList, Expr.violationsList]
      exact .pure fun _ => rfl
  | e :: es => by
      rw [Expr.lowerList, Expr.violationsList]
      refine .bind (Expr.lower_reports hstyle inAsync e) fun e' he => ?_
      refine .last (Expr.lowerList_reports hstyle inAsync es) fun es' hes => ?_
      exact .pure fun hnative => by rw [he hnative, hes hnative]

theorem Expr.lowerOption_reports
    (hstyle : c.conventions.expansion ≠ .protectedCall) (inAsync : Bool) :
    (e : Option Expr) →
      Reports (Expr.violationsOption c inAsync e) (c.Unchanged e) (Expr.lowerOption c inAsync e)
  | none => by
      rw [Expr.lowerOption, Expr.violationsOption]
      exact .pure fun _ => rfl
  | some e => by
      rw [Expr.lowerOption, Expr.violationsOption]
      refine .last (Expr.lower_reports hstyle inAsync e) fun e' he => ?_
      exact .pure fun hnative => by rw [he hnative]

theorem Expr.lowerPairs_reports
    (hstyle : c.conventions.expansion ≠ .protectedCall) (inAsync : Bool) :
    (ps : List (String × Expr)) →
      Reports (Expr.violationsPairs c inAsync ps) (c.Unchanged ps) (Expr.lowerPairs c inAsync ps)
  | [] => by
      rw [Expr.lowerPairs, Expr.violationsPairs]
      exact .pure fun _ => rfl
  | (key, e) :: ps => by
      rw [Expr.lowerPairs, Expr.violationsPairs]
      refine .bind (Expr.lower_reports hstyle inAsync e) fun e' he => ?_
      refine .last (Expr.lowerPairs_reports hstyle inAsync ps) fun ps' hps => ?_
      exact .pure fun hnative => by rw [he hnative, hps hnative]

theorem Func.lower_reports
    (hstyle : c.conventions.expansion ≠ .protectedCall) :
    (f : Func) → Reports (f.violations c) (c.Unchanged f) (f.lower c)
  | ⟨name, params, body, isAsync⟩ => by
      rw [Func.lower, Func.violations]
      refine .last (Stmt.lowerList_reports hstyle isAsync body) fun body' hbody => ?_
      exact .pure fun hnative => by rw [hbody hnative]

/-- Lowering a statement reports its violations. -/
theorem Stmt.lower_reports
    (hstyle : c.conventions.expansion ≠ .protectedCall) (inAsync : Bool) :
    (s : Stmt) → Reports (s.violations c inAsync) (c.Unchanged [s]) (s.lower c inAsync)
  | .expr e => by
      rw [Stmt.lower, Stmt.violations]
      refine .last (Expr.lower_reports hstyle inAsync e) fun e' he => ?_
      exact .pure fun hnative => by rw [he hnative]
  | .declare x i m => by
      rw [Stmt.lower, Stmt.violations]
      refine .last (Expr.lowerOption_reports hstyle inAsync i) fun i' hi => ?_
      exact .pure fun hnative => by rw [hi hnative]
  | .destructure p i => by
      rw [Stmt.lower, Stmt.violations]
      refine .last (Expr.lower_reports hstyle inAsync i) fun i' hi => ?_
      exact .pure fun hnative => by rw [hi hnative]
  | .block b => by
      rw [Stmt.lower, Stmt.violations]
      refine .last (Stmt.lowerList_reports hstyle inAsync b) fun b' hb => ?_
      exact .pure fun hnative => by rw [hb hnative]
  | .ifElse t a b => by
      rw [Stmt.lower, Stmt.violations]
      refine .bind (Expr.lower_reports hstyle inAsync t) fun t' ht => ?_
      refine .bind (Stmt.lower_reports hstyle inAsync a) fun a' ha => ?_
      refine .last (Stmt.lowerOption_reports hstyle inAsync b) fun b' hb => ?_
      exact .pure fun hnative => by rw [ht hnative, ha hnative, hb hnative, Stmt.ofList]
  | .whileLoop t b => by
      rw [Stmt.lower, Stmt.violations]
      refine .bind (Expr.lower_reports hstyle inAsync t) fun t' ht => ?_
      refine .last (Stmt.lower_reports hstyle inAsync b) fun b' hb => ?_
      exact .pure fun hnative => by rw [ht hnative, hb hnative, Stmt.ofList]
  | .forLoop i t u b => by
      rw [Stmt.lower, Stmt.violations]
      refine .bind (Stmt.lowerOption_reports hstyle inAsync i) fun i' hi => ?_
      refine .bind (Expr.lowerOption_reports hstyle inAsync t) fun t' ht => ?_
      refine .bind (Expr.lowerOption_reports hstyle inAsync u) fun u' hu => ?_
      refine .last (Stmt.lower_reports hstyle inAsync b) fun b' hb => ?_
      exact .pure fun hnative => by
        rw [hi hnative, ht hnative, hu hnative, hb hnative, Stmt.ofList]
  | .forEach x i b => by
      rw [Stmt.lower, Stmt.violations]
      refine .bind (Expr.lower_reports hstyle inAsync i) fun i' hi => ?_
      refine .last (Stmt.lower_reports hstyle inAsync b) fun b' hb => ?_
      exact .pure fun hnative => by rw [hi hnative, hb hnative, Stmt.ofList]
  | .ret v => by
      rw [Stmt.lower, Stmt.violations]
      refine .last (Expr.lowerOption_reports hstyle inAsync v) fun v' hv => ?_
      exact .pure fun hnative => by rw [hv hnative]
  | .breakLoop => by
      rw [Stmt.lower, Stmt.violations]
      exact .pure fun _ => rfl
  | .continueLoop => by
      rw [Stmt.lower, Stmt.violations]
      exact .pure fun _ => rfl
  | .throw e => by
      rw [Stmt.lower, Stmt.violations]
      refine .last (Expr.lower_reports hstyle inAsync e) fun e' he => ?_
      exact .pure fun hnative => by rw [he hnative]
  | .tryCatch b p g f => by
      rw [Stmt.lower, Stmt.violations]
      refine .bind (Stmt.lower_reports hstyle inAsync b) fun b' hb => ?_
      refine .bind (Stmt.lowerOption_reports hstyle inAsync g) fun g' hg => ?_
      refine .last (Stmt.lowerOption_reports hstyle inAsync f) fun f' hf => ?_
      exact .pure fun hnative => by rw [hb hnative, hg hnative, hf hnative, Stmt.ofList]
  | .function f => by
      rw [Stmt.lower, Stmt.violations]
      refine .last (Func.lower_reports hstyle f) fun f' hf => ?_
      exact .pure fun hnative => by rw [hf hnative]
  | .holding s => by
      rw [Stmt.lower, Stmt.violations]
      exact Scoped.lower_reports hstyle inAsync s

theorem Stmt.lowerList_reports
    (hstyle : c.conventions.expansion ≠ .protectedCall) (inAsync : Bool) :
    (ss : List Stmt) →
      Reports (Stmt.violationsList c inAsync ss) (c.Unchanged ss) (Stmt.lowerList c inAsync ss)
  | [] => by
      rw [Stmt.lowerList, Stmt.violationsList]
      exact .pure fun _ => rfl
  | s :: ss => by
      rw [Stmt.lowerList, Stmt.violationsList]
      refine .bind (Stmt.lower_reports hstyle inAsync s) fun s' hs => ?_
      refine .last (Stmt.lowerList_reports hstyle inAsync ss) fun ss' hss => ?_
      exact .pure fun hnative => by rw [hs hnative, hss hnative, List.singleton_append]

theorem Stmt.lowerOption_reports
    (hstyle : c.conventions.expansion ≠ .protectedCall) (inAsync : Bool) :
    (s : Option Stmt) →
      Reports (Stmt.violationsOption c inAsync s) (c.Unchanged s) (Stmt.lowerOption c inAsync s)
  | none => by
      rw [Stmt.lowerOption, Stmt.violationsOption]
      exact .pure fun _ => rfl
  | some s => by
      rw [Stmt.lowerOption, Stmt.violationsOption]
      refine .last (Stmt.lower_reports hstyle inAsync s) fun s' hs => ?_
      exact .pure fun hnative => by rw [hs hnative, Stmt.ofList]

theorem Item.lower_reports
    (hstyle : c.conventions.expansion ≠ .protectedCall) (inAsync : Bool) :
    (i : Item) → Reports (i.violations c inAsync) (c.Unchanged i) (i.lower c inAsync)
  | ⟨acquire, binding, arity⟩ => by
      rw [Item.lower, Item.violations]
      refine .bind (c.checkBinding_reports ⟨acquire, binding, arity⟩) fun _ _ => ?_
      refine .last (Expr.lower_reports hstyle inAsync acquire) fun acquire' hacquire => ?_
      exact .pure fun hnative => by rw [hacquire hnative]

theorem Item.lowerList_reports
    (hstyle : c.conventions.expansion ≠ .protectedCall) (inAsync : Bool) :
    (is : List Item) →
      Reports (Item.violationsList c inAsync is) (c.Unchanged is) (Item.lowerList c inAsync is)
  | [] => by
      rw [Item.lowerList, Item.violationsList]
      exact .pure fun _ => rfl
  | i :: is => by
      rw [Item.lowerList, Item.violationsList]
      refine .bind (Item.lower_reports hstyle inAsync i) fun i' hi => ?_
      refine .last (Item.lowerList_reports hstyle inAsync is) fun is' his => ?_
      exact .pure fun hnative => by rw [hi hnative, his hnative]

/-- Lowering a scoped statement reports its violations. -/
theorem Scoped.lower_reports
    (hstyle : c.conventions.expansion ≠ .protectedCall) (inAsync : Bool) :
    (s : Scoped) →
      Reports (s.violations c inAsync) (c.Unchanged [.holding s]) (s.lower c inAsync)
  | ⟨items, body, isAsync⟩ => by
      rw [Scoped.lower, Scoped.violations]
      by_cases hempty : items.isEmpty
      · rw [if_pos hempty, if_pos hempty]
        exact fun k => rfl
      · rw [if_neg hempty, if_neg hempty]
        refine .bind (c.checkSuspension_reports isAsync inAsync) fun _ _ => ?_
        refine .reserve fun n => ?_
        refine .bind (Item.lowerList_reports hstyle inAsync items) fun items' hitems => ?_
        refine .last (Stmt.lowerList_reports hstyle inAsync body) fun body' hbody => ?_
        refine c.expandScoped_reports hstyle (fun hnative => ?_) n
        rw [hitems hnative, hbody hnative]

end

end Lowering

namespace Program

variable {s : Settings} {c : Conventions} {p : Program}

/-- A program without violations can be lowered, and it stays as it is where the language
has scoped statements of its own. -/
theorem lowerWith_of_violations_nil
    (hstyle : c.expansion ≠ .protectedCall) (h : p.violations s c = []) :
    ∃ q, p.lowerWith s c = .ok q ∧ (c.expansion = .native → q = p) := by
  have hreports :=
    Stmt.lowerList_reports (c := s.context c) hstyle s.allowTopLevelAwait p.body
  rw [show Stmt.violationsList (s.context c) s.allowTopLevelAwait p.body = [] from h] at hreports
  obtain ⟨body, j, hrun, hsame⟩ := hreports 0
  refine ⟨⟨body⟩, ?_, fun hnative => by rw [hsame hnative]⟩
  rw [lowerWith, lower, hrun]
  rfl

theorem lowerWith_of_violations_cons
    {e : LoweringError} {rest : List LoweringError} (hstyle : c.expansion ≠ .protectedCall)
    (h : p.violations s c = e :: rest) : p.lowerWith s c = .error e := by
  have hreports :=
    Stmt.lowerList_reports (c := s.context c) hstyle s.allowTopLevelAwait p.body
  rw [show Stmt.violationsList (s.context c) s.allowTopLevelAwait p.body = e :: rest from h]
    at hreports
  have hrun := hreports 0
  rw [lowerWith, lower, hrun]
  rfl

end Program

/-- A program without violations can be lowered; otherwise the error is the first
violation. -/
theorem Program.lower_eq_first_violation
    (s : Settings) (c : Conventions) (p : Program)
    (hstyle : c.expansion = .native ∨ c.expansion = .tryCatchFinally) :
    match p.violations s c with
    | [] => ∃ q, p.lowerWith s c = .ok q
    | e :: _ => p.lowerWith s c = .error e := by
  have hprotected : c.expansion ≠ .protectedCall := by
    rcases hstyle with hstyle | hstyle <;> simp [hstyle]
  cases hviolations : p.violations s c with
  | nil =>
      obtain ⟨q, hq, -⟩ := lowerWith_of_violations_nil hprotected hviolations
      exact ⟨q, hq⟩
  | cons e rest => exact lowerWith_of_violations_cons hprotected hviolations

/-- A statement that suspends in a function that does not, whose binding repeats a name
and whose body has a statement without resources. -/
def Program.sampleOfThree : Program :=
  ⟨[.function ⟨"run", [],
    [.holding ⟨[.bind (.new (.ident "open")) (.ofNames ["x", "x"])],
      [.holding ⟨[], [], false⟩], true⟩], false⟩]⟩

/-- Of three violations the first is reported. -/
theorem Program.lower_eq_first_violation_of_three :
    sampleOfThree.violations {} .typescript =
        [.unsupported "typescript" .suspensionOutsideAsync,
          .malformedBinding (.repeatedName (.ofNames ["x", "x"]) "x"), .emptyStatement] ∧
      sampleOfThree.lowerWith {} .typescript =
        .error (.unsupported "typescript" .suspensionOutsideAsync) := by
  constructor
  · rfl
  · exact Program.lower_eq_first_violation {} .typescript sampleOfThree (.inr rfl)

end Bracket
