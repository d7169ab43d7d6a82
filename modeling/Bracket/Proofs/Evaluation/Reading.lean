import Bracket.Proofs.Evaluation.Basic
import Bracket.Proofs.Tree.Names

/-!
# What expressions and declarations read

The value of an expression that changes nothing, by the variables that occur free in it.  What
operators, calls and functions mean is a parameter, the `Meaning`, which also says where the
positions of a sequence start to count.

Declarations bind their names one after the other, so a later one may read what an earlier one
has bound.
-/

namespace Bracket

/-! ## Free names -/

/-- The names that a statement declares in the block around it. -/
def Stmt.declares : Stmt → List String
  | .declare x _ _ => [x]
  | .destructure p _ => p.names
  | .function f => [f.name]
  | _ => []

def Stmt.declaresOption : Option Stmt → List String
  | none => []
  | some s => s.declares

/-- The names that the body of a function sees as its own: its parameters, and its name if it
has one. -/
def Func.ownNames (name : String) (params : List String) : List String :=
  if name.isEmpty then params else name :: params

mutual

/-- The variables that occur free in an expression. -/
def Expr.free : Expr → List String
  | .literal _ => []
  | .ident x => [x]
  | .binary l _ r => l.free ++ r.free
  | .unary _ e => e.free
  | .call f args => f.free ++ Expr.freeList args
  | .methodCall r _ args => r.free ++ Expr.freeList args
  | .member o p _ => o.free ++ p.free
  | .array es => Expr.freeList es
  | .object ps => Expr.freePairs ps
  | .function f => f.free
  | .conditional t a b => t.free ++ a.free ++ b.free
  | .assign t v => t.free ++ v.free
  | .await e => e.free

def Expr.freeList : List Expr → List String
  | [] => []
  | e :: es => e.free ++ Expr.freeList es

def Expr.freeOption : Option Expr → List String
  | none => []
  | some e => e.free

def Expr.freePairs : List (String × Expr) → List String
  | [] => []
  | (_, e) :: ps => e.free ++ Expr.freePairs ps

/-- The variables of a body that a function does not introduce itself. -/
def Func.free : Func → List String
  | ⟨name, params, body, _⟩ =>
      (Stmt.freeList body).filter (· ∉ Func.ownNames name params)

/-- The variables that occur free in a statement. -/
def Stmt.free : Stmt → List String
  | .expr e => e.free
  | .declare _ i _ => Expr.freeOption i
  | .destructure _ i => i.free
  | .block b => Stmt.freeList b
  | .ifElse t a b => t.free ++ a.free ++ Stmt.freeOption b
  | .whileLoop t b => t.free ++ b.free
  | .forLoop i t u b =>
      Stmt.freeOption i ++
        (Expr.freeOption t ++ Expr.freeOption u ++ b.free).filter (· ∉ Stmt.declaresOption i)
  | .forEach x i b => i.free ++ b.free.filter (· ≠ x)
  | .ret v => Expr.freeOption v
  | .breakLoop => []
  | .continueLoop => []
  | .throw e => e.free
  | .tryCatch b p h f =>
      b.free ++ (Stmt.freeOption h).filter (· ∉ p.toList) ++ Stmt.freeOption f
  | .function f => f.free
  | .holding s => s.free

/-- A name that a statement declares is not free in the statements behind it. -/
def Stmt.freeList : List Stmt → List String
  | [] => []
  | s :: ss => s.free ++ (Stmt.freeList ss).filter (· ∉ s.declares)

def Stmt.freeOption : Option Stmt → List String
  | none => []
  | some s => s.free

/-- The variables that occur free in resources around code with the given free variables. -/
def Item.freeAround (inner : List String) : List Item → List String
  | [] => inner
  | ⟨acquire, binding, arity⟩ :: items =>
      acquire.free ++
        (Item.freeAround inner items).filter (· ∉ Item.boundNames ⟨acquire, binding, arity⟩)

def Scoped.free : Scoped → List String
  | ⟨items, body, _⟩ => Item.freeAround (Stmt.freeList body) items

end

/-! ## Values -/

/-- What the value of an expression depends on besides its variables. -/
structure Meaning (α : Type) where
  literal : Literal → α
  /-- The number that an atom is, if it is one. -/
  number? : α → Option Double
  number?_literal : ∀ d, number? (literal (.number d)) = some d
  truthy : Component α → Bool
  unary : UnaryOp → Component α → Option (Component α)
  binary : BinaryOp → Component α → Component α → Option (Component α)
  apply : Component α → List (Component α) → Option (Component α)
  invoke : Component α → String → List (Component α) → Option (Component α)
  record : List (String × Component α) → Component α
  /-- A function with the variables that occur free in it. -/
  closure : Func → Variables α → Component α
  /-- The members of a value other than the elements of a sequence. -/
  member : Component α → Component α → Option (Component α)
  /-- The position of the first element of a sequence. -/
  firstIndex : Nat

/-- The variables of the names in a list. -/
def Variables.restrict {α : Type} (vars : Variables α) (names : List String) : Variables α :=
  fun x => if x ∈ names then vars x else none

namespace Meaning

variable {α : Type} (m : Meaning α)

/-- The element of a sequence at a number: element `i` has the number `i + firstIndex`. -/
def elementAt (vs : List (Component α)) (d : Double) : Option (Component α) :=
  if d.isWhole && !d.negative && decide (m.firstIndex ≤ d.wholeSize) then
    vs[d.wholeSize - m.firstIndex]?
  else none

/-- The member of a value. -/
def memberOf (object property : Component α) : Option (Component α) :=
  match object, property with
  | .sequence vs, .atom a =>
      match m.number? a with
      | some d => m.elementAt vs d
      | none => m.member object property
  | _, _ => m.member object property

/-- Combine a value with a right operand that is read only if it is needed. -/
def combine
    (op : BinaryOp) (a : Component α) (right : Option (Component α)) : Option (Component α) :=
  match op with
  | .and => if m.truthy a then right else some a
  | .or => if m.truthy a then some a else right
  | _ => do
      let b ← right
      m.binary op a b

end Meaning

variable {α : Type} {m : Meaning α}

mutual

/-- The value of an expression.  An assignment has none, since it changes a variable. -/
def Expr.value? (m : Meaning α) (vars : Variables α) : Expr → Option (Component α)
  | .literal l => some (.atom (m.literal l))
  | .ident x => vars x
  | .binary l op r => do
      let a ← l.value? m vars
      m.combine op a (r.value? m vars)
  | .unary op e => do
      let a ← e.value? m vars
      m.unary op a
  | .call f args => do
      let g ← f.value? m vars
      let vs ← Expr.values? m vars args
      m.apply g vs
  | .methodCall r name args => do
      let o ← r.value? m vars
      let vs ← Expr.values? m vars args
      m.invoke o name vs
  | .member o p _ => do
      let a ← o.value? m vars
      let b ← p.value? m vars
      m.memberOf a b
  | .array es => do
      let vs ← Expr.values? m vars es
      some (.sequence vs)
  | .object ps => do
      let fs ← Expr.fields? m vars ps
      some (m.record fs)
  | .function f => some (m.closure f (vars.restrict f.free))
  | .conditional t a b => do
      let c ← t.value? m vars
      if m.truthy c then a.value? m vars else b.value? m vars
  | .assign _ _ => none
  | .await e => e.value? m vars

def Expr.values? (m : Meaning α) (vars : Variables α) : List Expr → Option (List (Component α))
  | [] => some []
  | e :: es => do
      let v ← e.value? m vars
      let vs ← Expr.values? m vars es
      some (v :: vs)

def Expr.fields? (m : Meaning α) (vars : Variables α) :
    List (String × Expr) → Option (List (String × Component α))
  | [] => some []
  | (k, e) :: ps => do
      let v ← e.value? m vars
      let fs ← Expr.fields? m vars ps
      some ((k, v) :: fs)

end

theorem Variables.restrict_congr
    {vars vars' : Variables α} {names : List String} (h : ∀ x ∈ names, vars x = vars' x) :
    vars.restrict names = vars'.restrict names := by
  funext x
  by_cases hx : x ∈ names
  · simp [Variables.restrict, hx, h x hx]
  · simp [Variables.restrict, hx]

mutual

/-- The value of an expression depends only on the variables that occur free in it. -/
theorem Expr.value?_congr
    {vars vars' : Variables α} :
    (e : Expr) → (∀ x ∈ e.free, vars x = vars' x) → e.value? m vars = e.value? m vars'
  | .literal l, _ => by rw [Expr.value?, Expr.value?]
  | .ident x, h => by
      rw [Expr.value?, Expr.value?]
      exact h x (by simp [Expr.free])
  | .binary l op r, h => by
      rw [Expr.free, List.forall_mem_append] at h
      rw [Expr.value?, Expr.value?, Expr.value?_congr l h.1, Expr.value?_congr r h.2]
  | .unary op e, h => by
      rw [Expr.free] at h
      rw [Expr.value?, Expr.value?, Expr.value?_congr e h]
  | .call f args, h => by
      rw [Expr.free, List.forall_mem_append] at h
      rw [Expr.value?, Expr.value?, Expr.value?_congr f h.1, Expr.values?_congr args h.2]
  | .methodCall r name args, h => by
      rw [Expr.free, List.forall_mem_append] at h
      rw [Expr.value?, Expr.value?, Expr.value?_congr r h.1, Expr.values?_congr args h.2]
  | .member o p c, h => by
      rw [Expr.free, List.forall_mem_append] at h
      rw [Expr.value?, Expr.value?, Expr.value?_congr o h.1, Expr.value?_congr p h.2]
  | .array es, h => by
      rw [Expr.free] at h
      rw [Expr.value?, Expr.value?, Expr.values?_congr es h]
  | .object ps, h => by
      rw [Expr.free] at h
      rw [Expr.value?, Expr.value?, Expr.fields?_congr ps h]
  | .function f, h => by
      rw [Expr.free] at h
      rw [Expr.value?, Expr.value?, Variables.restrict_congr h]
  | .conditional t a b, h => by
      rw [Expr.free, List.forall_mem_append, List.forall_mem_append] at h
      rw [Expr.value?, Expr.value?, Expr.value?_congr t h.1.1, Expr.value?_congr a h.1.2,
        Expr.value?_congr b h.2]
  | .assign t v, _ => by rw [Expr.value?, Expr.value?]
  | .await e, h => by
      rw [Expr.free] at h
      rw [Expr.value?, Expr.value?, Expr.value?_congr e h]

theorem Expr.values?_congr
    {vars vars' : Variables α} :
    (es : List Expr) → (∀ x ∈ Expr.freeList es, vars x = vars' x) →
      Expr.values? m vars es = Expr.values? m vars' es
  | [], _ => by rw [Expr.values?, Expr.values?]
  | e :: es, h => by
      rw [Expr.freeList, List.forall_mem_append] at h
      rw [Expr.values?, Expr.values?, Expr.value?_congr e h.1, Expr.values?_congr es h.2]

theorem Expr.fields?_congr
    {vars vars' : Variables α} :
    (ps : List (String × Expr)) → (∀ x ∈ Expr.freePairs ps, vars x = vars' x) →
      Expr.fields? m vars ps = Expr.fields? m vars' ps
  | [], _ => by rw [Expr.fields?, Expr.fields?]
  | (k, e) :: ps, h => by
      rw [Expr.freePairs, List.forall_mem_append] at h
      rw [Expr.fields?, Expr.fields?, Expr.value?_congr e h.1, Expr.fields?_congr ps h.2]

end

/-- Bindings of names that do not occur free leave the value of an expression alone. -/
theorem Expr.value?_bind
    {e : Expr} {bs : Bindings α} (vars : Variables α)
    (hfresh : ∀ x ∈ bs.map Prod.fst, x ∉ e.free) :
    e.value? m (vars.bind bs) = e.value? m vars :=
  Expr.value?_congr e fun x hx => Variables.bind_of_not_mem vars fun hmem => hfresh x hmem hx

/-! ## Declarations -/

/-- What declarations bind, one after the other, if all of them have a value. -/
def Stmt.bindings? (m : Meaning α) (vars : Variables α) : List Stmt → Option (Bindings α)
  | [] => some []
  | .declare x (some e) _ :: ss => do
      let v ← e.value? m vars
      let bs ← Stmt.bindings? m (vars.set x v) ss
      some ((x, v) :: bs)
  | _ :: _ => none

theorem Stmt.bindings?_append
    {vars : Variables α} {a b : List Stmt} {bs bs' : Bindings α}
    (ha : Stmt.bindings? m vars a = some bs) (hb : Stmt.bindings? m (vars.bind bs) b = some bs') :
    Stmt.bindings? m vars (a ++ b) = some (bs ++ bs') := by
  fun_induction Stmt.bindings? m vars a generalizing bs with
  | case1 vars =>
      cases ha
      exact hb
  | case2 vars x e _ ss ih =>
      obtain ⟨v, hv, ha⟩ := Option.bind_eq_some_iff.mp ha
      obtain ⟨rest, hrest, ha⟩ := Option.bind_eq_some_iff.mp ha
      cases ha
      rw [List.cons_append, Stmt.bindings?, hv, Option.bind_eq_bind, Option.bind_some,
        ih v hrest hb]
      rfl
  | case3 => exact nomatch ha

end Bracket
