import Bracket.Tree.Basic

/-!
# Equality of trees

`same` compares two trees constructor by constructor and field by field.
Numbers are compared by value, so a tree that contains a NaN is not the same as
itself, and the two zeros are the same.
-/

namespace Bracket

/-- Equality of literals, numbers by value. -/
def Literal.same : Literal → Literal → Bool
  | .null, .null => true
  | .bool a, .bool b => a == b
  | .number a, .number b => a.same b
  | .string a, .string b => a == b
  | _, _ => false

/-- Equality of optional patterns. -/
def Pattern.sameOption : Option Pattern → Option Pattern → Bool
  | none, none => true
  | some a, some b => a.same b
  | _, _ => false

mutual

/-- Equality of expressions. -/
def Expr.same : Expr → Expr → Bool
  | .literal a, .literal b => a.same b
  | .ident a, .ident b => a == b
  | .binary l op r, .binary l' op' r' => op == op' && l.same l' && r.same r'
  | .unary op e, .unary op' e' => op == op' && e.same e'
  | .call f args, .call f' args' => f.same f' && Expr.sameList args args'
  | .methodCall r m args, .methodCall r' m' args' =>
      m == m' && r.same r' && Expr.sameList args args'
  | .member o p c, .member o' p' c' => c == c' && o.same o' && p.same p'
  | .array es, .array es' => Expr.sameList es es'
  | .object ps, .object ps' => Expr.samePairs ps ps'
  | .function f, .function f' => f.same f'
  | .conditional t c a, .conditional t' c' a' => t.same t' && c.same c' && a.same a'
  | .assign t v, .assign t' v' => t.same t' && v.same v'
  | .await e, .await e' => e.same e'
  | _, _ => false
termination_by structural a => a

def Expr.sameList : List Expr → List Expr → Bool
  | [], [] => true
  | a :: as, b :: bs => a.same b && Expr.sameList as bs
  | _, _ => false
termination_by structural a => a

def Expr.sameOption : Option Expr → Option Expr → Bool
  | none, none => true
  | some a, some b => a.same b
  | _, _ => false
termination_by structural a => a

def Expr.samePairs : List (String × Expr) → List (String × Expr) → Bool
  | [], [] => true
  | (k, a) :: as, (k', b) :: bs => k == k' && a.same b && Expr.samePairs as bs
  | _, _ => false
termination_by structural a => a

/-- Equality of functions. -/
def Func.same : Func → Func → Bool
  | ⟨n, ps, b, a⟩, ⟨n', ps', b', a'⟩ =>
      n == n' && ps == ps' && a == a' && Stmt.sameList b b'
termination_by structural a => a

/-- Equality of statements. -/
def Stmt.same : Stmt → Stmt → Bool
  | .expr e, .expr e' => e.same e'
  | .declare n i m, .declare n' i' m' => n == n' && m == m' && Expr.sameOption i i'
  | .destructure p i, .destructure p' i' => p.same p' && i.same i'
  | .block b, .block b' => Stmt.sameList b b'
  | .ifElse t c a, .ifElse t' c' a' => t.same t' && c.same c' && Stmt.sameOption a a'
  | .whileLoop t b, .whileLoop t' b' => t.same t' && b.same b'
  | .forLoop i t u b, .forLoop i' t' u' b' =>
      Stmt.sameOption i i' && Expr.sameOption t t' && Expr.sameOption u u' && b.same b'
  | .forEach v i b, .forEach v' i' b' => v == v' && i.same i' && b.same b'
  | .ret v, .ret v' => Expr.sameOption v v'
  | .breakLoop, .breakLoop => true
  | .continueLoop, .continueLoop => true
  | .throw e, .throw e' => e.same e'
  | .tryCatch b p c f, .tryCatch b' p' c' f' =>
      p == p' && b.same b' && Stmt.sameOption c c' && Stmt.sameOption f f'
  | .function f, .function f' => f.same f'
  | .holding s, .holding s' => s.same s'
  | _, _ => false
termination_by structural a => a

def Stmt.sameList : List Stmt → List Stmt → Bool
  | [], [] => true
  | a :: as, b :: bs => a.same b && Stmt.sameList as bs
  | _, _ => false
termination_by structural a => a

def Stmt.sameOption : Option Stmt → Option Stmt → Bool
  | none, none => true
  | some a, some b => a.same b
  | _, _ => false
termination_by structural a => a

/-- Equality of resources. -/
def Item.same : Item → Item → Bool
  | ⟨e, b, a⟩, ⟨e', b', a'⟩ => Pattern.sameOption b b' && a == a' && e.same e'
termination_by structural a => a

def Item.sameList : List Item → List Item → Bool
  | [], [] => true
  | a :: as, b :: bs => a.same b && Item.sameList as bs
  | _, _ => false
termination_by structural a => a

/-- Equality of scoped statements. -/
def Scoped.same : Scoped → Scoped → Bool
  | ⟨is, b, a⟩, ⟨is', b', a'⟩ => a == a' && Item.sameList is is' && Stmt.sameList b b'
termination_by structural a => a

end

/-- Equality of programs. -/
def Program.same (p q : Program) : Bool := Stmt.sameList p.body q.body

end Bracket
