import Bracket.Proofs.Tree.Likeness

/-!
# Equality by value

Trees are compared with their numbers by value: no NaN is equal to anything, and the
two zeros are equal.  All other parts are compared as they are.

The main statement of this module puts this into one equation: two trees are the same
exactly when neither has a NaN in it and both become equal once every zero has lost its
sign.
-/

namespace Bracket

/-! ## Numbers -/

namespace Double

/-- The number, a zero without its sign. -/
def unsignZero (d : Double) : Double := if d.isZero then ⟨0⟩ else d

theorem isZero_positive : (⟨0⟩ : Double).isZero = true := by decide

theorem isZero_of_unsignZero_eq
    {a b : Double} (h : a.unsignZero = b.unsignZero) (ha : a.isZero = true) : b.isZero = true := by
  by_cases hb : b.isZero = true
  · exact hb
  · rw [unsignZero, if_pos ha, unsignZero, if_neg hb] at h
    rw [← h]
    exact isZero_positive

/-- Numbers are equal by value if they are no NaN and differ at most in the sign of a
zero. -/
theorem same_iff
    (a b : Double) :
    a.same b = true ↔
      a.isNaN = false ∧ b.isNaN = false ∧ a.unsignZero = b.unsignZero := by
  simp only [same, Bool.and_eq_true, Bool.or_eq_true, Bool.not_eq_true', decide_eq_true_eq,
    and_assoc]
  constructor
  · rintro ⟨ha, hb, hbits | ⟨hzero, hzero'⟩⟩
    · have heq : a = b := congrArg Double.mk hbits
      exact ⟨ha, hb, by rw [heq]⟩
    · exact ⟨ha, hb, by rw [unsignZero, if_pos hzero, unsignZero, if_pos hzero']⟩
  · rintro ⟨ha, hb, h⟩
    by_cases hzero : a.isZero = true
    · exact ⟨ha, hb, .inr ⟨hzero, isZero_of_unsignZero_eq h hzero⟩⟩
    · have hzero' : ¬b.isZero = true := fun hb => hzero (isZero_of_unsignZero_eq h.symm hb)
      rw [unsignZero, if_neg hzero, unsignZero, if_neg hzero'] at h
      exact ⟨ha, hb, .inl (congrArg Double.bits h)⟩

end Double

namespace Literal

def isNaN : Literal → Bool
  | .number d => d.isNaN
  | _ => false

def unsignZero : Literal → Literal
  | .number d => .number d.unsignZero
  | l => l

theorem same_iff
    (a b : Literal) :
    a.same b = true ↔ a.isNaN = false ∧ b.isNaN = false ∧ a.unsignZero = b.unsignZero := by
  cases a <;> cases b <;> simp [same, isNaN, unsignZero, Double.same_iff]

end Literal

/-! ## Trees -/

mutual

/-- The expression has a NaN in it. -/
def Expr.hasNaN : Expr → Bool
  | .literal l => l.isNaN
  | .ident _ => false
  | .binary l _ r => l.hasNaN || r.hasNaN
  | .unary _ e => e.hasNaN
  | .call f args => f.hasNaN || Expr.hasNaNList args
  | .methodCall r _ args => r.hasNaN || Expr.hasNaNList args
  | .member o p _ => o.hasNaN || p.hasNaN
  | .array es => Expr.hasNaNList es
  | .object ps => Expr.hasNaNPairs ps
  | .function f => f.hasNaN
  | .conditional t a b => t.hasNaN || a.hasNaN || b.hasNaN
  | .assign t v => t.hasNaN || v.hasNaN
  | .await e => e.hasNaN

def Expr.hasNaNList : List Expr → Bool
  | [] => false
  | e :: es => e.hasNaN || Expr.hasNaNList es

def Expr.hasNaNOption : Option Expr → Bool
  | none => false
  | some e => e.hasNaN

def Expr.hasNaNPairs : List (String × Expr) → Bool
  | [] => false
  | (_, e) :: ps => e.hasNaN || Expr.hasNaNPairs ps

/-- The function has a NaN in it. -/
def Func.hasNaN : Func → Bool
  | ⟨_, _, body, _⟩ => Stmt.hasNaNList body

/-- The statement has a NaN in it. -/
def Stmt.hasNaN : Stmt → Bool
  | .expr e => e.hasNaN
  | .declare _ i _ => Expr.hasNaNOption i
  | .destructure _ i => i.hasNaN
  | .block b => Stmt.hasNaNList b
  | .ifElse t a b => t.hasNaN || a.hasNaN || Stmt.hasNaNOption b
  | .whileLoop t b => t.hasNaN || b.hasNaN
  | .forLoop i t u b =>
      Stmt.hasNaNOption i || Expr.hasNaNOption t || Expr.hasNaNOption u || b.hasNaN
  | .forEach _ i b => i.hasNaN || b.hasNaN
  | .ret v => Expr.hasNaNOption v
  | .breakLoop => false
  | .continueLoop => false
  | .throw e => e.hasNaN
  | .tryCatch b _ h f => b.hasNaN || Stmt.hasNaNOption h || Stmt.hasNaNOption f
  | .function f => f.hasNaN
  | .holding s => s.hasNaN

def Stmt.hasNaNList : List Stmt → Bool
  | [] => false
  | s :: ss => s.hasNaN || Stmt.hasNaNList ss

def Stmt.hasNaNOption : Option Stmt → Bool
  | none => false
  | some s => s.hasNaN

/-- The acquisition of the resource has a NaN in it. -/
def Item.hasNaN : Item → Bool
  | ⟨acquire, _, _⟩ => acquire.hasNaN

def Item.hasNaNList : List Item → Bool
  | [] => false
  | i :: is => i.hasNaN || Item.hasNaNList is

/-- The scoped statement has a NaN in it. -/
def Scoped.hasNaN : Scoped → Bool
  | ⟨items, body, _⟩ => Item.hasNaNList items || Stmt.hasNaNList body

end

/-- The program has a NaN in it. -/
def Program.hasNaN (p : Program) : Bool := Stmt.hasNaNList p.body

mutual

/-- The expression, each zero without its sign. -/
def Expr.unsignZeros : Expr → Expr
  | .literal l => .literal l.unsignZero
  | .ident x => .ident x
  | .binary l op r => .binary l.unsignZeros op r.unsignZeros
  | .unary op e => .unary op e.unsignZeros
  | .call f args => .call f.unsignZeros (Expr.unsignZerosList args)
  | .methodCall r m args => .methodCall r.unsignZeros m (Expr.unsignZerosList args)
  | .member o p computed => .member o.unsignZeros p.unsignZeros computed
  | .array es => .array (Expr.unsignZerosList es)
  | .object ps => .object (Expr.unsignZerosPairs ps)
  | .function f => .function f.unsignZeros
  | .conditional t a b => .conditional t.unsignZeros a.unsignZeros b.unsignZeros
  | .assign t v => .assign t.unsignZeros v.unsignZeros
  | .await e => .await e.unsignZeros

def Expr.unsignZerosList : List Expr → List Expr
  | [] => []
  | e :: es => e.unsignZeros :: Expr.unsignZerosList es

def Expr.unsignZerosOption : Option Expr → Option Expr
  | none => none
  | some e => some e.unsignZeros

def Expr.unsignZerosPairs : List (String × Expr) → List (String × Expr)
  | [] => []
  | (key, e) :: ps => (key, e.unsignZeros) :: Expr.unsignZerosPairs ps

def Func.unsignZeros : Func → Func
  | ⟨name, params, body, isAsync⟩ => ⟨name, params, Stmt.unsignZerosList body, isAsync⟩

/-- The statement, each zero without its sign. -/
def Stmt.unsignZeros : Stmt → Stmt
  | .expr e => .expr e.unsignZeros
  | .declare x i m => .declare x (Expr.unsignZerosOption i) m
  | .destructure p i => .destructure p i.unsignZeros
  | .block b => .block (Stmt.unsignZerosList b)
  | .ifElse t a b => .ifElse t.unsignZeros a.unsignZeros (Stmt.unsignZerosOption b)
  | .whileLoop t b => .whileLoop t.unsignZeros b.unsignZeros
  | .forLoop i t u b =>
      .forLoop (Stmt.unsignZerosOption i) (Expr.unsignZerosOption t)
        (Expr.unsignZerosOption u) b.unsignZeros
  | .forEach x i b => .forEach x i.unsignZeros b.unsignZeros
  | .ret v => .ret (Expr.unsignZerosOption v)
  | .breakLoop => .breakLoop
  | .continueLoop => .continueLoop
  | .throw e => .throw e.unsignZeros
  | .tryCatch b p h f =>
      .tryCatch b.unsignZeros p (Stmt.unsignZerosOption h) (Stmt.unsignZerosOption f)
  | .function f => .function f.unsignZeros
  | .holding s => .holding s.unsignZeros

def Stmt.unsignZerosList : List Stmt → List Stmt
  | [] => []
  | s :: ss => s.unsignZeros :: Stmt.unsignZerosList ss

def Stmt.unsignZerosOption : Option Stmt → Option Stmt
  | none => none
  | some s => some s.unsignZeros

def Item.unsignZeros : Item → Item
  | ⟨acquire, binding, arity⟩ => ⟨acquire.unsignZeros, binding, arity⟩

def Item.unsignZerosList : List Item → List Item
  | [] => []
  | i :: is => i.unsignZeros :: Item.unsignZerosList is

def Scoped.unsignZeros : Scoped → Scoped
  | ⟨items, body, isAsync⟩ =>
      ⟨Item.unsignZerosList items, Stmt.unsignZerosList body, isAsync⟩

end

def Program.unsignZeros (p : Program) : Program := ⟨Stmt.unsignZerosList p.body⟩

/-! ## The comparison -/

section Comparison

attribute [local simp] Expr.same Expr.sameList Expr.sameOption Expr.samePairs Func.same Stmt.same
  Stmt.sameList Stmt.sameOption Item.same Item.sameList Scoped.same
  Expr.hasNaN Expr.hasNaNList Expr.hasNaNOption Expr.hasNaNPairs Func.hasNaN Stmt.hasNaN
  Stmt.hasNaNList Stmt.hasNaNOption Item.hasNaN Item.hasNaNList Scoped.hasNaN
  Expr.unsignZeros Expr.unsignZerosList Expr.unsignZerosOption Expr.unsignZerosPairs
  Func.unsignZeros Stmt.unsignZeros Stmt.unsignZerosList Stmt.unsignZerosOption
  Item.unsignZeros Item.unsignZerosList Scoped.unsignZeros

mutual

/-- Expressions are the same if there is no NaN in them and they differ at most in the
signs of zeros. -/
theorem Expr.same_iff :
    (a b : Expr) →
      (a.same b = true ↔
        a.hasNaN = false ∧ b.hasNaN = false ∧ a.unsignZeros = b.unsignZeros)
  | .literal l, b => by
      cases b with
      | literal l' => simp [Literal.same_iff]
      | _ => exact iff_of_false Bool.false_ne_true fun h => nomatch h.2.2
  | .ident x, b => by cases b <;> simp
  | .binary l op r, b => by
      cases b with
      | binary l' op' r' => simp [Expr.same_iff l l', Expr.same_iff r r', and_assoc, and_left_comm]
      | _ => exact iff_of_false Bool.false_ne_true fun h => nomatch h.2.2
  | .unary op e, b => by
      cases b with
      | unary op' e' => simp [Expr.same_iff e e', and_left_comm]
      | _ => exact iff_of_false Bool.false_ne_true fun h => nomatch h.2.2
  | .call f args, b => by
      cases b with
      | call f' args' =>
          simp [Expr.same_iff f f', Expr.sameList_iff args args', and_assoc, and_left_comm]
      | _ => exact iff_of_false Bool.false_ne_true fun h => nomatch h.2.2
  | .methodCall r m args, b => by
      cases b with
      | methodCall r' m' args' =>
          simp [Expr.same_iff r r', Expr.sameList_iff args args', and_assoc, and_left_comm]
      | _ => exact iff_of_false Bool.false_ne_true fun h => nomatch h.2.2
  | .member o p computed, b => by
      cases b with
      | member o' p' computed' =>
          simp [Expr.same_iff o o', Expr.same_iff p p', and_assoc, and_left_comm, and_comm]
      | _ => exact iff_of_false Bool.false_ne_true fun h => nomatch h.2.2
  | .array es, b => by
      cases b with
      | array es' => simp [Expr.sameList_iff es es']
      | _ => exact iff_of_false Bool.false_ne_true fun h => nomatch h.2.2
  | .object ps, b => by
      cases b with
      | object ps' => simp [Expr.samePairs_iff ps ps']
      | _ => exact iff_of_false Bool.false_ne_true fun h => nomatch h.2.2
  | .function f, b => by
      cases b with
      | function f' => simp [Func.same_iff f f']
      | _ => exact iff_of_false Bool.false_ne_true fun h => nomatch h.2.2
  | .conditional t c a, b => by
      cases b with
      | conditional t' c' a' =>
          simp [Expr.same_iff t t', Expr.same_iff c c', Expr.same_iff a a',
            and_assoc, and_left_comm]
      | _ => exact iff_of_false Bool.false_ne_true fun h => nomatch h.2.2
  | .assign t v, b => by
      cases b with
      | assign t' v' => simp [Expr.same_iff t t', Expr.same_iff v v', and_assoc, and_left_comm]
      | _ => exact iff_of_false Bool.false_ne_true fun h => nomatch h.2.2
  | .await e, b => by
      cases b with
      | await e' => simp [Expr.same_iff e e']
      | _ => exact iff_of_false Bool.false_ne_true fun h => nomatch h.2.2
termination_by structural a => a

theorem Expr.sameList_iff :
    (as bs : List Expr) →
      (Expr.sameList as bs = true ↔
        Expr.hasNaNList as = false ∧ Expr.hasNaNList bs = false ∧
          Expr.unsignZerosList as = Expr.unsignZerosList bs)
  | [], bs => by cases bs <;> simp
  | a :: as, bs => by
      cases bs with
      | nil => simp
      | cons b bs => simp [Expr.same_iff a b, Expr.sameList_iff as bs, and_assoc, and_left_comm]
termination_by structural a => a

theorem Expr.sameOption_iff :
    (a b : Option Expr) →
      (Expr.sameOption a b = true ↔
        Expr.hasNaNOption a = false ∧ Expr.hasNaNOption b = false ∧
          Expr.unsignZerosOption a = Expr.unsignZerosOption b)
  | none, b => by cases b <;> simp
  | some a, b => by
      cases b with
      | none => simp
      | some b => simp [Expr.same_iff a b]
termination_by structural a => a

theorem Expr.samePairs_iff :
    (as bs : List (String × Expr)) →
      (Expr.samePairs as bs = true ↔
        Expr.hasNaNPairs as = false ∧ Expr.hasNaNPairs bs = false ∧
          Expr.unsignZerosPairs as = Expr.unsignZerosPairs bs)
  | [], bs => by cases bs <;> simp
  | (k, a) :: as, bs => by
      match bs with
      | [] => simp
      | (k', b) :: bs =>
          simp [Expr.same_iff a b, Expr.samePairs_iff as bs, and_assoc, and_left_comm]
termination_by structural a => a

theorem Func.same_iff :
    (f g : Func) →
      (f.same g = true ↔
        f.hasNaN = false ∧ g.hasNaN = false ∧ f.unsignZeros = g.unsignZeros)
  | ⟨name, params, body, isAsync⟩, ⟨name', params', body', isAsync'⟩ => by
      simp [Stmt.sameList_iff body body', and_assoc, and_left_comm, and_comm]
termination_by structural a => a

/-- Statements are the same if there is no NaN in them and they differ at most in the
signs of zeros. -/
theorem Stmt.same_iff :
    (a b : Stmt) →
      (a.same b = true ↔
        a.hasNaN = false ∧ b.hasNaN = false ∧ a.unsignZeros = b.unsignZeros)
  | .expr e, b => by
      cases b with
      | expr e' => simp [Expr.same_iff e e']
      | _ => exact iff_of_false Bool.false_ne_true fun h => nomatch h.2.2
  | .declare x i m, b => by
      cases b with
      | declare x' i' m' =>
          simp [Expr.sameOption_iff i i', and_assoc, and_left_comm, and_comm]
      | _ => exact iff_of_false Bool.false_ne_true fun h => nomatch h.2.2
  | .destructure p i, b => by
      cases b with
      | destructure p' i' => simp [Pattern.same_iff, Expr.same_iff i i', and_left_comm]
      | _ => exact iff_of_false Bool.false_ne_true fun h => nomatch h.2.2
  | .block body, b => by
      cases b with
      | block body' => simp [Stmt.sameList_iff body body']
      | _ => exact iff_of_false Bool.false_ne_true fun h => nomatch h.2.2
  | .ifElse t c a, b => by
      cases b with
      | ifElse t' c' a' =>
          simp [Expr.same_iff t t', Stmt.same_iff c c', Stmt.sameOption_iff a a',
            and_assoc, and_left_comm]
      | _ => exact iff_of_false Bool.false_ne_true fun h => nomatch h.2.2
  | .whileLoop t body, b => by
      cases b with
      | whileLoop t' body' =>
          simp [Expr.same_iff t t', Stmt.same_iff body body', and_assoc, and_left_comm]
      | _ => exact iff_of_false Bool.false_ne_true fun h => nomatch h.2.2
  | .forLoop i t u body, b => by
      cases b with
      | forLoop i' t' u' body' =>
          simp [Stmt.sameOption_iff i i', Expr.sameOption_iff t t', Expr.sameOption_iff u u',
            Stmt.same_iff body body', and_assoc, and_left_comm, and_comm]
      | _ => exact iff_of_false Bool.false_ne_true fun h => nomatch h.2.2
  | .forEach x i body, b => by
      cases b with
      | forEach x' i' body' =>
          simp [Expr.same_iff i i', Stmt.same_iff body body', and_assoc, and_left_comm]
      | _ => exact iff_of_false Bool.false_ne_true fun h => nomatch h.2.2
  | .ret v, b => by
      cases b with
      | ret v' => simp [Expr.sameOption_iff v v']
      | _ => exact iff_of_false Bool.false_ne_true fun h => nomatch h.2.2
  | .breakLoop, b => by cases b <;> simp
  | .continueLoop, b => by cases b <;> simp
  | .throw e, b => by
      cases b with
      | throw e' => simp [Expr.same_iff e e']
      | _ => exact iff_of_false Bool.false_ne_true fun h => nomatch h.2.2
  | .tryCatch body p h f, b => by
      cases b with
      | tryCatch body' p' h' f' =>
          simp [Stmt.same_iff body body', Stmt.sameOption_iff h h', Stmt.sameOption_iff f f',
            and_assoc, and_left_comm]
      | _ => exact iff_of_false Bool.false_ne_true fun h => nomatch h.2.2
  | .function f, b => by
      cases b with
      | function f' => simp [Func.same_iff f f']
      | _ => exact iff_of_false Bool.false_ne_true fun h => nomatch h.2.2
  | .holding s, b => by
      cases b with
      | holding s' => simp [Scoped.same_iff s s']
      | _ => exact iff_of_false Bool.false_ne_true fun h => nomatch h.2.2
termination_by structural a => a

theorem Stmt.sameList_iff :
    (as bs : List Stmt) →
      (Stmt.sameList as bs = true ↔
        Stmt.hasNaNList as = false ∧ Stmt.hasNaNList bs = false ∧
          Stmt.unsignZerosList as = Stmt.unsignZerosList bs)
  | [], bs => by cases bs <;> simp
  | a :: as, bs => by
      cases bs with
      | nil => simp
      | cons b bs => simp [Stmt.same_iff a b, Stmt.sameList_iff as bs, and_assoc, and_left_comm]
termination_by structural a => a

theorem Stmt.sameOption_iff :
    (a b : Option Stmt) →
      (Stmt.sameOption a b = true ↔
        Stmt.hasNaNOption a = false ∧ Stmt.hasNaNOption b = false ∧
          Stmt.unsignZerosOption a = Stmt.unsignZerosOption b)
  | none, b => by cases b <;> simp
  | some a, b => by
      cases b with
      | none => simp
      | some b => simp [Stmt.same_iff a b]
termination_by structural a => a

theorem Item.same_iff :
    (i j : Item) →
      (i.same j = true ↔
        i.hasNaN = false ∧ j.hasNaN = false ∧ i.unsignZeros = j.unsignZeros)
  | ⟨acquire, binding, arity⟩, ⟨acquire', binding', arity'⟩ => by
      simp [Pattern.sameOption_iff, Expr.same_iff acquire acquire', and_assoc,
        and_left_comm, and_comm]
termination_by structural a => a

theorem Item.sameList_iff :
    (is js : List Item) →
      (Item.sameList is js = true ↔
        Item.hasNaNList is = false ∧ Item.hasNaNList js = false ∧
          Item.unsignZerosList is = Item.unsignZerosList js)
  | [], js => by cases js <;> simp
  | i :: is, js => by
      cases js with
      | nil => simp
      | cons j js => simp [Item.same_iff i j, Item.sameList_iff is js, and_assoc, and_left_comm]
termination_by structural a => a

theorem Scoped.same_iff :
    (s t : Scoped) →
      (s.same t = true ↔
        s.hasNaN = false ∧ t.hasNaN = false ∧ s.unsignZeros = t.unsignZeros)
  | ⟨items, body, isAsync⟩, ⟨items', body', isAsync'⟩ => by
      simp [Item.sameList_iff items items', Stmt.sameList_iff body body', and_assoc,
        and_left_comm, and_comm]
termination_by structural a => a

end

end Comparison

theorem Program.same_iff
    (p q : Program) :
    p.same q = true ↔
      p.hasNaN = false ∧ q.hasNaN = false ∧ p.unsignZeros = q.unsignZeros := by
  simp [Program.same, Program.hasNaN, Program.unsignZeros, Stmt.sameList_iff]

end Bracket
