import Bracket.Proofs.Tree.Equality

/-!
# Likeness is equality of normal forms

A tree is normalised by fixing its hints: every declaration may be assigned again, and
no member access by a literal name has brackets.  Nothing else changes.

The main statement is that two trees of any kind are alike exactly when their normal
forms are the same.  Since sameness is an equation between trees without a NaN, likeness
is symmetric and transitive, follows from sameness, and holds between a tree and itself
exactly when there is no NaN in it.
-/

namespace Bracket

mutual

/-- The expression with its hints fixed. -/
def Expr.normalize : Expr → Expr
  | .literal l => .literal l
  | .ident x => .ident x
  | .binary l op r => .binary l.normalize op r.normalize
  | .unary op e => .unary op e.normalize
  | .call f args => .call f.normalize (Expr.normalizeList args)
  | .methodCall r m args => .methodCall r.normalize m (Expr.normalizeList args)
  | .member o p computed =>
      .member o.normalize p.normalize (if p.isString then false else computed)
  | .array es => .array (Expr.normalizeList es)
  | .object ps => .object (Expr.normalizePairs ps)
  | .function f => .function f.normalize
  | .conditional t a b => .conditional t.normalize a.normalize b.normalize
  | .assign t v => .assign t.normalize v.normalize
  | .await e => .await e.normalize

def Expr.normalizeList : List Expr → List Expr
  | [] => []
  | e :: es => e.normalize :: Expr.normalizeList es

def Expr.normalizeOption : Option Expr → Option Expr
  | none => none
  | some e => some e.normalize

def Expr.normalizePairs : List (String × Expr) → List (String × Expr)
  | [] => []
  | (key, e) :: ps => (key, e.normalize) :: Expr.normalizePairs ps

/-- The function with the hints in its body fixed. -/
def Func.normalize : Func → Func
  | ⟨name, params, body, isAsync⟩ => ⟨name, params, Stmt.normalizeList body, isAsync⟩

/-- The statement with its hints fixed. -/
def Stmt.normalize : Stmt → Stmt
  | .expr e => .expr e.normalize
  | .declare x i _ => .declare x (Expr.normalizeOption i) true
  | .destructure p i => .destructure p i.normalize
  | .block b => .block (Stmt.normalizeList b)
  | .ifElse t a b => .ifElse t.normalize a.normalize (Stmt.normalizeOption b)
  | .whileLoop t b => .whileLoop t.normalize b.normalize
  | .forLoop i t u b =>
      .forLoop (Stmt.normalizeOption i) (Expr.normalizeOption t) (Expr.normalizeOption u)
        b.normalize
  | .forEach x i b => .forEach x i.normalize b.normalize
  | .ret v => .ret (Expr.normalizeOption v)
  | .breakLoop => .breakLoop
  | .continueLoop => .continueLoop
  | .throw e => .throw e.normalize
  | .tryCatch b p h f =>
      .tryCatch b.normalize p (Stmt.normalizeOption h) (Stmt.normalizeOption f)
  | .function f => .function f.normalize
  | .holding s => .holding s.normalize

def Stmt.normalizeList : List Stmt → List Stmt
  | [] => []
  | s :: ss => s.normalize :: Stmt.normalizeList ss

def Stmt.normalizeOption : Option Stmt → Option Stmt
  | none => none
  | some s => some s.normalize

/-- The resource with the hints in its acquisition fixed. -/
def Item.normalize : Item → Item
  | ⟨acquire, binding, arity⟩ => ⟨acquire.normalize, binding, arity⟩

def Item.normalizeList : List Item → List Item
  | [] => []
  | i :: is => i.normalize :: Item.normalizeList is

/-- The scoped statement with its hints fixed. -/
def Scoped.normalize : Scoped → Scoped
  | ⟨items, body, isAsync⟩ => ⟨Item.normalizeList items, Stmt.normalizeList body, isAsync⟩

end

/-- The program with its hints fixed. -/
def Program.normalize (p : Program) : Program := ⟨Stmt.normalizeList p.body⟩

section Comparison

attribute [local simp] Expr.alike Expr.alikeList Expr.alikeOption Expr.alikePairs Func.alike
  Stmt.alike Stmt.alikeList Stmt.alikeOption Item.alike Item.alikeList Scoped.alike
  Expr.same Expr.sameList Expr.sameOption Expr.samePairs Func.same Stmt.same Stmt.sameList
  Stmt.sameOption Item.same Item.sameList Scoped.same
  Expr.normalize Expr.normalizeList Expr.normalizeOption
  Expr.normalizePairs Func.normalize Stmt.normalize Stmt.normalizeList Stmt.normalizeOption
  Item.normalize Item.normalizeList Scoped.normalize

/-! ## The comparison -/

/-- Brackets count unless they are around a literal name. -/
theorem Expr.normalBrackets_eq (computed literal : Bool) :
    (computed && !literal) = if literal then false else computed := by
  cases literal <;> simp

mutual

/-- Expressions are alike if their normal forms are the same. -/
theorem Expr.alike_eq_same_normalize :
    (a b : Expr) → a.alike b = a.normalize.same b.normalize
  | .literal l, b => by cases b <;> rfl
  | .ident x, b => by cases b <;> rfl
  | .binary l op r, b => by
      cases b with
      | binary l' op' r' =>
          simp [Expr.alike_eq_same_normalize l l', Expr.alike_eq_same_normalize r r']
      | _ => rfl
  | .unary op e, b => by
      cases b with
      | unary op' e' => simp [Expr.alike_eq_same_normalize e e']
      | _ => rfl
  | .call f args, b => by
      cases b with
      | call f' args' =>
          simp [Expr.alike_eq_same_normalize f f', Expr.alikeList_eq_same_normalize args args']
      | _ => rfl
  | .methodCall r m args, b => by
      cases b with
      | methodCall r' m' args' =>
          simp [Expr.alike_eq_same_normalize r r', Expr.alikeList_eq_same_normalize args args']
      | _ => rfl
  | .member o p computed, b => by
      cases b with
      | member o' p' computed' =>
          simp only [Expr.alike, Expr.normalize, Expr.same, Expr.normalBrackets_eq,
            Expr.alike_eq_same_normalize o o', Expr.alike_eq_same_normalize p p']
          rw [Bool.and_comm, Bool.and_assoc]
      | _ => rfl
  | .array es, b => by
      cases b with
      | array es' => exact Expr.alikeList_eq_same_normalize es es'
      | _ => rfl
  | .object ps, b => by
      cases b with
      | object ps' => exact Expr.alikePairs_eq_same_normalize ps ps'
      | _ => rfl
  | .function f, b => by
      cases b with
      | function f' => exact Func.alike_eq_same_normalize f f'
      | _ => rfl
  | .conditional t c a, b => by
      cases b with
      | conditional t' c' a' =>
          simp [Expr.alike_eq_same_normalize t t', Expr.alike_eq_same_normalize c c',
            Expr.alike_eq_same_normalize a a']
      | _ => rfl
  | .assign t v, b => by
      cases b with
      | assign t' v' =>
          simp [Expr.alike_eq_same_normalize t t', Expr.alike_eq_same_normalize v v']
      | _ => rfl
  | .await e, b => by
      cases b with
      | await e' => exact Expr.alike_eq_same_normalize e e'
      | _ => rfl
termination_by structural a => a

theorem Expr.alikeList_eq_same_normalize :
    (as bs : List Expr) →
      Expr.alikeList as bs = Expr.sameList (Expr.normalizeList as) (Expr.normalizeList bs)
  | [], bs => by cases bs <;> rfl
  | a :: as, bs => by
      cases bs with
      | nil => rfl
      | cons b bs =>
          simp [Expr.alike_eq_same_normalize a b, Expr.alikeList_eq_same_normalize as bs]
termination_by structural a => a

theorem Expr.alikeOption_eq_same_normalize :
    (a b : Option Expr) →
      Expr.alikeOption a b = Expr.sameOption (Expr.normalizeOption a) (Expr.normalizeOption b)
  | none, b => by cases b <;> rfl
  | some a, b => by
      cases b with
      | none => rfl
      | some b => exact Expr.alike_eq_same_normalize a b
termination_by structural a => a

theorem Expr.alikePairs_eq_same_normalize :
    (as bs : List (String × Expr)) →
      Expr.alikePairs as bs = Expr.samePairs (Expr.normalizePairs as) (Expr.normalizePairs bs)
  | [], bs => by cases bs <;> rfl
  | (k, a) :: as, bs => by
      cases bs with
      | nil => rfl
      | cons b bs =>
          simp [Expr.alike_eq_same_normalize a b.2, Expr.alikePairs_eq_same_normalize as bs]
termination_by structural a => a

theorem Func.alike_eq_same_normalize :
    (f g : Func) → f.alike g = f.normalize.same g.normalize
  | ⟨name, params, body, isAsync⟩, ⟨name', params', body', isAsync'⟩ => by
      simp [Stmt.alikeList_eq_same_normalize body body', Bool.and_right_comm]
termination_by structural a => a

/-- Statements are alike if their normal forms are the same. -/
theorem Stmt.alike_eq_same_normalize :
    (a b : Stmt) → a.alike b = a.normalize.same b.normalize
  | .expr e, b => by
      cases b with
      | expr e' => exact Expr.alike_eq_same_normalize e e'
      | _ => rfl
  | .declare x i m, b => by
      cases b with
      | declare x' i' m' => simp [Expr.alikeOption_eq_same_normalize i i']
      | _ => rfl
  | .destructure p i, b => by
      cases b with
      | destructure p' i' => simp [Expr.alike_eq_same_normalize i i']
      | _ => rfl
  | .block body, b => by
      cases b with
      | block body' => exact Stmt.alikeList_eq_same_normalize body body'
      | _ => rfl
  | .ifElse t c a, b => by
      cases b with
      | ifElse t' c' a' =>
          simp [Expr.alike_eq_same_normalize t t', Stmt.alike_eq_same_normalize c c',
            Stmt.alikeOption_eq_same_normalize a a']
      | _ => rfl
  | .whileLoop t body, b => by
      cases b with
      | whileLoop t' body' =>
          simp [Expr.alike_eq_same_normalize t t', Stmt.alike_eq_same_normalize body body']
      | _ => rfl
  | .forLoop i t u body, b => by
      cases b with
      | forLoop i' t' u' body' =>
          simp [Stmt.alikeOption_eq_same_normalize i i', Expr.alikeOption_eq_same_normalize t t',
            Expr.alikeOption_eq_same_normalize u u', Stmt.alike_eq_same_normalize body body']
      | _ => rfl
  | .forEach x i body, b => by
      cases b with
      | forEach x' i' body' =>
          simp [Expr.alike_eq_same_normalize i i', Stmt.alike_eq_same_normalize body body']
      | _ => rfl
  | .ret v, b => by
      cases b with
      | ret v' => exact Expr.alikeOption_eq_same_normalize v v'
      | _ => rfl
  | .breakLoop, b => by cases b <;> rfl
  | .continueLoop, b => by cases b <;> rfl
  | .throw e, b => by
      cases b with
      | throw e' => exact Expr.alike_eq_same_normalize e e'
      | _ => rfl
  | .tryCatch body p h f, b => by
      cases b with
      | tryCatch body' p' h' f' =>
          simp [Stmt.alike_eq_same_normalize body body', Stmt.alikeOption_eq_same_normalize h h',
            Stmt.alikeOption_eq_same_normalize f f']
      | _ => rfl
  | .function f, b => by
      cases b with
      | function f' => exact Func.alike_eq_same_normalize f f'
      | _ => rfl
  | .holding s, b => by
      cases b with
      | holding s' => exact Scoped.alike_eq_same_normalize s s'
      | _ => rfl
termination_by structural a => a

theorem Stmt.alikeList_eq_same_normalize :
    (as bs : List Stmt) →
      Stmt.alikeList as bs = Stmt.sameList (Stmt.normalizeList as) (Stmt.normalizeList bs)
  | [], bs => by cases bs <;> rfl
  | a :: as, bs => by
      cases bs with
      | nil => rfl
      | cons b bs =>
          simp [Stmt.alike_eq_same_normalize a b, Stmt.alikeList_eq_same_normalize as bs]
termination_by structural a => a

theorem Stmt.alikeOption_eq_same_normalize :
    (a b : Option Stmt) →
      Stmt.alikeOption a b = Stmt.sameOption (Stmt.normalizeOption a) (Stmt.normalizeOption b)
  | none, b => by cases b <;> rfl
  | some a, b => by
      cases b with
      | none => rfl
      | some b => exact Stmt.alike_eq_same_normalize a b
termination_by structural a => a

theorem Item.alike_eq_same_normalize :
    (i j : Item) → i.alike j = i.normalize.same j.normalize
  | ⟨acquire, binding, arity⟩, ⟨acquire', binding', arity'⟩ => by
      simp [Expr.alike_eq_same_normalize acquire acquire']
termination_by structural a => a

theorem Item.alikeList_eq_same_normalize :
    (is js : List Item) →
      Item.alikeList is js = Item.sameList (Item.normalizeList is) (Item.normalizeList js)
  | [], js => by cases js <;> rfl
  | i :: is, js => by
      cases js with
      | nil => rfl
      | cons j js =>
          simp [Item.alike_eq_same_normalize i j, Item.alikeList_eq_same_normalize is js]
termination_by structural a => a

theorem Scoped.alike_eq_same_normalize :
    (s t : Scoped) → s.alike t = s.normalize.same t.normalize
  | ⟨items, body, isAsync⟩, ⟨items', body', isAsync'⟩ => by
      simp [Item.alikeList_eq_same_normalize items items',
        Stmt.alikeList_eq_same_normalize body body']
termination_by structural a => a

end

/-! ## What normal forms keep -/

attribute [local simp] Expr.hasNaN Expr.hasNaNList Expr.hasNaNOption Expr.hasNaNPairs Func.hasNaN
  Stmt.hasNaN Stmt.hasNaNList Stmt.hasNaNOption Item.hasNaN Item.hasNaNList Scoped.hasNaN

mutual

/-- Normalising adds and removes no numbers. -/
theorem Expr.hasNaN_normalize : (e : Expr) → e.normalize.hasNaN = e.hasNaN
  | .literal _ | .ident _ => by simp
  | .binary l _ r => by simp [Expr.hasNaN_normalize l, Expr.hasNaN_normalize r]
  | .unary _ e | .await e => by simp [Expr.hasNaN_normalize e]
  | .call f args => by simp [Expr.hasNaN_normalize f, Expr.hasNaNList_normalize args]
  | .methodCall r _ args => by simp [Expr.hasNaN_normalize r, Expr.hasNaNList_normalize args]
  | .member o p _ => by simp [Expr.hasNaN_normalize o, Expr.hasNaN_normalize p]
  | .array es => by simp [Expr.hasNaNList_normalize es]
  | .object ps => by simp [Expr.hasNaNPairs_normalize ps]
  | .function f => by simp [Func.hasNaN_normalize f]
  | .conditional t a b => by
      simp [Expr.hasNaN_normalize t, Expr.hasNaN_normalize a, Expr.hasNaN_normalize b]
  | .assign t v => by simp [Expr.hasNaN_normalize t, Expr.hasNaN_normalize v]

theorem Expr.hasNaNList_normalize :
    (es : List Expr) → Expr.hasNaNList (Expr.normalizeList es) = Expr.hasNaNList es
  | [] => rfl
  | e :: es => by simp [Expr.hasNaN_normalize e, Expr.hasNaNList_normalize es]

theorem Expr.hasNaNOption_normalize :
    (e : Option Expr) → Expr.hasNaNOption (Expr.normalizeOption e) = Expr.hasNaNOption e
  | none => rfl
  | some e => by simp [Expr.hasNaN_normalize e]

theorem Expr.hasNaNPairs_normalize :
    (ps : List (String × Expr)) →
      Expr.hasNaNPairs (Expr.normalizePairs ps) = Expr.hasNaNPairs ps
  | [] => rfl
  | (_, e) :: ps => by simp [Expr.hasNaN_normalize e, Expr.hasNaNPairs_normalize ps]

theorem Func.hasNaN_normalize : (f : Func) → f.normalize.hasNaN = f.hasNaN
  | ⟨_, _, body, _⟩ => by simp [Stmt.hasNaNList_normalize body]

theorem Stmt.hasNaN_normalize : (s : Stmt) → s.normalize.hasNaN = s.hasNaN
  | .expr e | .throw e => by simp [Expr.hasNaN_normalize e]
  | .declare _ i _ => by simp [Expr.hasNaNOption_normalize i]
  | .destructure _ i => by simp [Expr.hasNaN_normalize i]
  | .block b => by simp [Stmt.hasNaNList_normalize b]
  | .ifElse t a b => by
      simp [Expr.hasNaN_normalize t, Stmt.hasNaN_normalize a, Stmt.hasNaNOption_normalize b]
  | .whileLoop t b => by simp [Expr.hasNaN_normalize t, Stmt.hasNaN_normalize b]
  | .forLoop i t u b => by
      simp [Stmt.hasNaNOption_normalize i, Expr.hasNaNOption_normalize t,
        Expr.hasNaNOption_normalize u, Stmt.hasNaN_normalize b]
  | .forEach _ i b => by simp [Expr.hasNaN_normalize i, Stmt.hasNaN_normalize b]
  | .ret v => by simp [Expr.hasNaNOption_normalize v]
  | .breakLoop | .continueLoop => rfl
  | .tryCatch b _ h f => by
      simp [Stmt.hasNaN_normalize b, Stmt.hasNaNOption_normalize h,
        Stmt.hasNaNOption_normalize f]
  | .function f => by simp [Func.hasNaN_normalize f]
  | .holding s => by simp [Scoped.hasNaN_normalize s]

theorem Stmt.hasNaNList_normalize :
    (ss : List Stmt) → Stmt.hasNaNList (Stmt.normalizeList ss) = Stmt.hasNaNList ss
  | [] => rfl
  | s :: ss => by simp [Stmt.hasNaN_normalize s, Stmt.hasNaNList_normalize ss]

theorem Stmt.hasNaNOption_normalize :
    (s : Option Stmt) → Stmt.hasNaNOption (Stmt.normalizeOption s) = Stmt.hasNaNOption s
  | none => rfl
  | some s => by simp [Stmt.hasNaN_normalize s]

theorem Item.hasNaN_normalize : (i : Item) → i.normalize.hasNaN = i.hasNaN
  | ⟨acquire, _, _⟩ => by simp [Expr.hasNaN_normalize acquire]

theorem Item.hasNaNList_normalize :
    (is : List Item) → Item.hasNaNList (Item.normalizeList is) = Item.hasNaNList is
  | [] => rfl
  | i :: is => by simp [Item.hasNaN_normalize i, Item.hasNaNList_normalize is]

theorem Scoped.hasNaN_normalize : (s : Scoped) → s.normalize.hasNaN = s.hasNaN
  | ⟨items, body, _⟩ => by
      simp [Item.hasNaNList_normalize items, Stmt.hasNaNList_normalize body]

end

attribute [local simp] Expr.unsignZeros Expr.unsignZerosList Expr.unsignZerosOption
  Expr.unsignZerosPairs Func.unsignZeros Stmt.unsignZeros Stmt.unsignZerosList
  Stmt.unsignZerosOption Item.unsignZeros Item.unsignZerosList Scoped.unsignZeros

theorem Expr.isString_unsignZeros (e : Expr) : e.unsignZeros.isString = e.isString := by
  cases e with
  | literal l => cases l <;> rfl
  | _ => rfl

mutual

/-- It does not matter whether hints are fixed or zeros lose their signs first. -/
theorem Expr.unsignZeros_normalize :
    (e : Expr) → e.normalize.unsignZeros = e.unsignZeros.normalize
  | .literal _ | .ident _ => by simp
  | .binary l _ r => by simp [Expr.unsignZeros_normalize l, Expr.unsignZeros_normalize r]
  | .unary _ e | .await e => by simp [Expr.unsignZeros_normalize e]
  | .call f args => by simp [Expr.unsignZeros_normalize f, Expr.unsignZerosList_normalize args]
  | .methodCall r _ args => by
      simp [Expr.unsignZeros_normalize r, Expr.unsignZerosList_normalize args]
  | .member o p _ => by
      simp [Expr.unsignZeros_normalize o, Expr.unsignZeros_normalize p,
        Expr.isString_unsignZeros]
  | .array es => by simp [Expr.unsignZerosList_normalize es]
  | .object ps => by simp [Expr.unsignZerosPairs_normalize ps]
  | .function f => by simp [Func.unsignZeros_normalize f]
  | .conditional t a b => by
      simp [Expr.unsignZeros_normalize t, Expr.unsignZeros_normalize a,
        Expr.unsignZeros_normalize b]
  | .assign t v => by simp [Expr.unsignZeros_normalize t, Expr.unsignZeros_normalize v]

theorem Expr.unsignZerosList_normalize :
    (es : List Expr) →
      Expr.unsignZerosList (Expr.normalizeList es) = Expr.normalizeList (Expr.unsignZerosList es)
  | [] => rfl
  | e :: es => by simp [Expr.unsignZeros_normalize e, Expr.unsignZerosList_normalize es]

theorem Expr.unsignZerosOption_normalize :
    (e : Option Expr) →
      Expr.unsignZerosOption (Expr.normalizeOption e) =
        Expr.normalizeOption (Expr.unsignZerosOption e)
  | none => rfl
  | some e => by simp [Expr.unsignZeros_normalize e]

theorem Expr.unsignZerosPairs_normalize :
    (ps : List (String × Expr)) →
      Expr.unsignZerosPairs (Expr.normalizePairs ps) =
        Expr.normalizePairs (Expr.unsignZerosPairs ps)
  | [] => rfl
  | (_, e) :: ps => by simp [Expr.unsignZeros_normalize e, Expr.unsignZerosPairs_normalize ps]

theorem Func.unsignZeros_normalize :
    (f : Func) → f.normalize.unsignZeros = f.unsignZeros.normalize
  | ⟨_, _, body, _⟩ => by simp [Stmt.unsignZerosList_normalize body]

theorem Stmt.unsignZeros_normalize :
    (s : Stmt) → s.normalize.unsignZeros = s.unsignZeros.normalize
  | .expr e | .throw e => by simp [Expr.unsignZeros_normalize e]
  | .declare _ i _ => by simp [Expr.unsignZerosOption_normalize i]
  | .destructure _ i => by simp [Expr.unsignZeros_normalize i]
  | .block b => by simp [Stmt.unsignZerosList_normalize b]
  | .ifElse t a b => by
      simp [Expr.unsignZeros_normalize t, Stmt.unsignZeros_normalize a,
        Stmt.unsignZerosOption_normalize b]
  | .whileLoop t b => by simp [Expr.unsignZeros_normalize t, Stmt.unsignZeros_normalize b]
  | .forLoop i t u b => by
      simp [Stmt.unsignZerosOption_normalize i, Expr.unsignZerosOption_normalize t,
        Expr.unsignZerosOption_normalize u, Stmt.unsignZeros_normalize b]
  | .forEach _ i b => by simp [Expr.unsignZeros_normalize i, Stmt.unsignZeros_normalize b]
  | .ret v => by simp [Expr.unsignZerosOption_normalize v]
  | .breakLoop | .continueLoop => rfl
  | .tryCatch b _ h f => by
      simp [Stmt.unsignZeros_normalize b, Stmt.unsignZerosOption_normalize h,
        Stmt.unsignZerosOption_normalize f]
  | .function f => by simp [Func.unsignZeros_normalize f]
  | .holding s => by simp [Scoped.unsignZeros_normalize s]

theorem Stmt.unsignZerosList_normalize :
    (ss : List Stmt) →
      Stmt.unsignZerosList (Stmt.normalizeList ss) = Stmt.normalizeList (Stmt.unsignZerosList ss)
  | [] => rfl
  | s :: ss => by simp [Stmt.unsignZeros_normalize s, Stmt.unsignZerosList_normalize ss]

theorem Stmt.unsignZerosOption_normalize :
    (s : Option Stmt) →
      Stmt.unsignZerosOption (Stmt.normalizeOption s) =
        Stmt.normalizeOption (Stmt.unsignZerosOption s)
  | none => rfl
  | some s => by simp [Stmt.unsignZeros_normalize s]

theorem Item.unsignZeros_normalize :
    (i : Item) → i.normalize.unsignZeros = i.unsignZeros.normalize
  | ⟨acquire, _, _⟩ => by simp [Expr.unsignZeros_normalize acquire]

theorem Item.unsignZerosList_normalize :
    (is : List Item) →
      Item.unsignZerosList (Item.normalizeList is) = Item.normalizeList (Item.unsignZerosList is)
  | [] => rfl
  | i :: is => by simp [Item.unsignZeros_normalize i, Item.unsignZerosList_normalize is]

theorem Scoped.unsignZeros_normalize :
    (s : Scoped) → s.normalize.unsignZeros = s.unsignZeros.normalize
  | ⟨items, body, _⟩ => by
      simp [Item.unsignZerosList_normalize items, Stmt.unsignZerosList_normalize body]

end

end Comparison

/-! ## Laws of likeness -/

/-- Likeness of trees of one kind is sameness of their normal forms; it is symmetric and
transitive, follows from sameness, and relates exactly the trees without a NaN to
themselves. -/
structure ComparesNormalForms
    {α : Type} (alike same : α → α → Bool) (normalize : α → α) (hasNaN : α → Bool) : Prop where
  iff_same : ∀ a b, alike a b = true ↔ same (normalize a) (normalize b) = true
  symm : ∀ a b, alike a b = true → alike b a = true
  trans : ∀ a b c, alike a b = true → alike b c = true → alike a c = true
  of_same : ∀ a b, same a b = true → alike a b = true
  self_iff : ∀ a, alike a a = true ↔ hasNaN a = false

/-- The laws follow where sameness is equality up to the signs of zeros among the trees
without a NaN, and where normal forms respect both. -/
theorem ComparesNormalForms.of_eq
    {α : Type} {alike same : α → α → Bool} {normalize unsignZeros : α → α} {hasNaN : α → Bool}
    (halike : ∀ a b, alike a b = same (normalize a) (normalize b))
    (hsame : ∀ a b, same a b = true ↔
      hasNaN a = false ∧ hasNaN b = false ∧ unsignZeros a = unsignZeros b)
    (hnumbers : ∀ a, hasNaN (normalize a) = hasNaN a)
    (hzeros : ∀ a, unsignZeros (normalize a) = normalize (unsignZeros a)) :
    ComparesNormalForms alike same normalize hasNaN := by
  have hiff (a b : α) : alike a b = true ↔
      hasNaN a = false ∧ hasNaN b = false ∧
        unsignZeros (normalize a) = unsignZeros (normalize b) := by
    rw [halike, hsame, hnumbers, hnumbers]
  constructor
  · intro a b
    rw [halike]
  · intro a b h
    obtain ⟨ha, hb, heq⟩ := (hiff a b).mp h
    exact (hiff b a).mpr ⟨hb, ha, heq.symm⟩
  · intro a b c hab hbc
    obtain ⟨ha, -, hab⟩ := (hiff a b).mp hab
    obtain ⟨-, hc, hbc⟩ := (hiff b c).mp hbc
    exact (hiff a c).mpr ⟨ha, hc, hab.trans hbc⟩
  · intro a b h
    obtain ⟨ha, hb, heq⟩ := (hsame a b).mp h
    exact (hiff a b).mpr ⟨ha, hb, by rw [hzeros, hzeros, heq]⟩
  · intro a
    rw [hiff]
    constructor
    · exact And.left
    · intro ha
      exact ⟨ha, ha, rfl⟩

/-- Likeness compares normal forms, for every kind of tree. -/
theorem alike_compares_normalForms :
    ComparesNormalForms Program.alike Program.same Program.normalize Program.hasNaN ∧
    ComparesNormalForms Stmt.alike Stmt.same Stmt.normalize Stmt.hasNaN ∧
    ComparesNormalForms Stmt.alikeList Stmt.sameList Stmt.normalizeList Stmt.hasNaNList ∧
    ComparesNormalForms Scoped.alike Scoped.same Scoped.normalize Scoped.hasNaN ∧
    ComparesNormalForms Item.alike Item.same Item.normalize Item.hasNaN ∧
    ComparesNormalForms Expr.alike Expr.same Expr.normalize Expr.hasNaN ∧
    ComparesNormalForms Func.alike Func.same Func.normalize Func.hasNaN := by
  refine ⟨?_, ?_, ?_, ?_, ?_, ?_, ?_⟩
  · exact .of_eq (fun p q => Stmt.alikeList_eq_same_normalize p.body q.body) Program.same_iff
      (fun p => Stmt.hasNaNList_normalize p.body)
      (fun p => congrArg Program.mk (Stmt.unsignZerosList_normalize p.body))
  · exact .of_eq Stmt.alike_eq_same_normalize Stmt.same_iff Stmt.hasNaN_normalize
      Stmt.unsignZeros_normalize
  · exact .of_eq Stmt.alikeList_eq_same_normalize Stmt.sameList_iff Stmt.hasNaNList_normalize
      Stmt.unsignZerosList_normalize
  · exact .of_eq Scoped.alike_eq_same_normalize Scoped.same_iff Scoped.hasNaN_normalize
      Scoped.unsignZeros_normalize
  · exact .of_eq Item.alike_eq_same_normalize Item.same_iff Item.hasNaN_normalize
      Item.unsignZeros_normalize
  · exact .of_eq Expr.alike_eq_same_normalize Expr.same_iff Expr.hasNaN_normalize
      Expr.unsignZeros_normalize
  · exact .of_eq Func.alike_eq_same_normalize Func.same_iff Func.hasNaN_normalize
      Func.unsignZeros_normalize

end Bracket
