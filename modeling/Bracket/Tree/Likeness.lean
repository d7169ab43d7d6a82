import Bracket.Tree.Equality

/-!
# Likeness of trees

Two trees are alike when they differ at most in hints: whether a declaration
may be assigned again, and whether a member access by a literal name was
spelled with brackets.  All else counts, the order of resources and every
suspension point included.
-/

namespace Bracket

/-- The expression is a literal text. -/
def Expr.isString : Expr → Bool
  | .literal (.string _) => true
  | _ => false

mutual

/-- Likeness of expressions. -/
def Expr.alike : Expr → Expr → Bool
  | .literal a, .literal b => a.same b
  | .ident a, .ident b => a == b
  | .binary l op r, .binary l' op' r' => op == op' && l.alike l' && r.alike r'
  | .unary op e, .unary op' e' => op == op' && e.alike e'
  | .call f args, .call f' args' => f.alike f' && Expr.alikeList args args'
  | .methodCall r m args, .methodCall r' m' args' =>
      m == m' && r.alike r' && Expr.alikeList args args'
  | .member o p c, .member o' p' c' =>
      o.alike o' && p.alike p' && (c && !p.isString) == (c' && !p'.isString)
  | .array es, .array es' => Expr.alikeList es es'
  | .object ps, .object ps' => Expr.alikePairs ps ps'
  | .function f, .function f' => f.alike f'
  | .conditional t c a, .conditional t' c' a' => t.alike t' && c.alike c' && a.alike a'
  | .assign t v, .assign t' v' => t.alike t' && v.alike v'
  | .await e, .await e' => e.alike e'
  | _, _ => false
termination_by structural a => a

def Expr.alikeList : List Expr → List Expr → Bool
  | [], [] => true
  | a :: as, b :: bs => a.alike b && Expr.alikeList as bs
  | _, _ => false
termination_by structural a => a

def Expr.alikeOption : Option Expr → Option Expr → Bool
  | none, none => true
  | some a, some b => a.alike b
  | _, _ => false
termination_by structural a => a

def Expr.alikePairs : List (String × Expr) → List (String × Expr) → Bool
  | [], [] => true
  | (k, a) :: as, (k', b) :: bs => k == k' && a.alike b && Expr.alikePairs as bs
  | _, _ => false
termination_by structural a => a

/-- Likeness of functions. -/
def Func.alike : Func → Func → Bool
  | ⟨n, ps, b, a⟩, ⟨n', ps', b', a'⟩ =>
      n == n' && a == a' && ps == ps' && Stmt.alikeList b b'
termination_by structural a => a

/-- Likeness of statements. -/
def Stmt.alike : Stmt → Stmt → Bool
  | .expr e, .expr e' => e.alike e'
  | .declare n i _, .declare n' i' _ => n == n' && Expr.alikeOption i i'
  | .destructure p i, .destructure p' i' => p.same p' && i.alike i'
  | .block b, .block b' => Stmt.alikeList b b'
  | .ifElse t c a, .ifElse t' c' a' => t.alike t' && c.alike c' && Stmt.alikeOption a a'
  | .whileLoop t b, .whileLoop t' b' => t.alike t' && b.alike b'
  | .forLoop i t u b, .forLoop i' t' u' b' =>
      Stmt.alikeOption i i' && Expr.alikeOption t t' && Expr.alikeOption u u' && b.alike b'
  | .forEach v i b, .forEach v' i' b' => v == v' && i.alike i' && b.alike b'
  | .ret v, .ret v' => Expr.alikeOption v v'
  | .breakLoop, .breakLoop => true
  | .continueLoop, .continueLoop => true
  | .throw e, .throw e' => e.alike e'
  | .tryCatch b p c f, .tryCatch b' p' c' f' =>
      p == p' && b.alike b' && Stmt.alikeOption c c' && Stmt.alikeOption f f'
  | .function f, .function f' => f.alike f'
  | .holding s, .holding s' => s.alike s'
  | _, _ => false
termination_by structural a => a

def Stmt.alikeList : List Stmt → List Stmt → Bool
  | [], [] => true
  | a :: as, b :: bs => a.alike b && Stmt.alikeList as bs
  | _, _ => false
termination_by structural a => a

def Stmt.alikeOption : Option Stmt → Option Stmt → Bool
  | none, none => true
  | some a, some b => a.alike b
  | _, _ => false
termination_by structural a => a

/-- Likeness of resources. -/
def Item.alike : Item → Item → Bool
  | ⟨e, b, a⟩, ⟨e', b', a'⟩ => Pattern.sameOption b b' && a == a' && e.alike e'
termination_by structural a => a

def Item.alikeList : List Item → List Item → Bool
  | [], [] => true
  | a :: as, b :: bs => a.alike b && Item.alikeList as bs
  | _, _ => false
termination_by structural a => a

/-- Likeness of scoped statements. -/
def Scoped.alike : Scoped → Scoped → Bool
  | ⟨is, b, a⟩, ⟨is', b', a'⟩ => a == a' && Item.alikeList is is' && Stmt.alikeList b b'
termination_by structural a => a

end

/-- Likeness of programs. -/
def Program.alike (p q : Program) : Bool := Stmt.alikeList p.body q.body

end Bracket
