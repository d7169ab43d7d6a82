import Bracket.Tree.Basic

/-!
# Suspension points

The awaits of a piece of code: their operands from left to right (`awaited`), and the
code without some of them (`dropAwaits`), each await that is dropped leaving its operand
behind.
-/

namespace Bracket

mutual

/-- The operands of the awaits in an expression, an outer await before those inside. -/
def Expr.awaited : Expr → List Expr
  | .literal _ => []
  | .ident _ => []
  | .binary l _ r => l.awaited ++ r.awaited
  | .unary _ e => e.awaited
  | .call f args => f.awaited ++ Expr.awaitedList args
  | .methodCall r _ args => r.awaited ++ Expr.awaitedList args
  | .member o p _ => o.awaited ++ p.awaited
  | .array es => Expr.awaitedList es
  | .object ps => Expr.awaitedPairs ps
  | .function f => f.awaited
  | .conditional t a b => t.awaited ++ a.awaited ++ b.awaited
  | .assign t v => t.awaited ++ v.awaited
  | .await e => e :: e.awaited

def Expr.awaitedList : List Expr → List Expr
  | [] => []
  | e :: es => e.awaited ++ Expr.awaitedList es

def Expr.awaitedOption : Option Expr → List Expr
  | none => []
  | some e => e.awaited

def Expr.awaitedPairs : List (String × Expr) → List Expr
  | [] => []
  | (_, e) :: ps => e.awaited ++ Expr.awaitedPairs ps

/-- The operands of the awaits in a function. -/
def Func.awaited : Func → List Expr
  | ⟨_, _, body, _⟩ => Stmt.awaitedList body

/-- The operands of the awaits in a statement. -/
def Stmt.awaited : Stmt → List Expr
  | .expr e => e.awaited
  | .declare _ i _ => Expr.awaitedOption i
  | .destructure _ i => i.awaited
  | .block b => Stmt.awaitedList b
  | .ifElse t a b => t.awaited ++ a.awaited ++ Stmt.awaitedOption b
  | .whileLoop t b => t.awaited ++ b.awaited
  | .forLoop i t u b =>
      Stmt.awaitedOption i ++ Expr.awaitedOption t ++ Expr.awaitedOption u ++ b.awaited
  | .forEach _ i b => i.awaited ++ b.awaited
  | .ret v => Expr.awaitedOption v
  | .breakLoop => []
  | .continueLoop => []
  | .throw e => e.awaited
  | .tryCatch b _ h f => b.awaited ++ Stmt.awaitedOption h ++ Stmt.awaitedOption f
  | .function f => f.awaited
  | .holding s => s.awaited

def Stmt.awaitedList : List Stmt → List Expr
  | [] => []
  | s :: ss => s.awaited ++ Stmt.awaitedList ss

def Stmt.awaitedOption : Option Stmt → List Expr
  | none => []
  | some s => s.awaited

def Item.awaited : Item → List Expr
  | ⟨acquire, _, _⟩ => acquire.awaited

def Item.awaitedList : List Item → List Expr
  | [] => []
  | i :: is => i.awaited ++ Item.awaitedList is

/-- The operands of the awaits in a scoped statement. -/
def Scoped.awaited : Scoped → List Expr
  | ⟨items, body, _⟩ => Item.awaitedList items ++ Stmt.awaitedList body

end

mutual

/-- The expression without the awaits whose operands satisfy a condition. -/
def Expr.dropAwaits (drop : Expr → Bool) : Expr → Expr
  | .literal l => .literal l
  | .ident x => .ident x
  | .binary l op r => .binary (l.dropAwaits drop) op (r.dropAwaits drop)
  | .unary op e => .unary op (e.dropAwaits drop)
  | .call f args => .call (f.dropAwaits drop) (Expr.dropAwaitsList drop args)
  | .methodCall r m args => .methodCall (r.dropAwaits drop) m (Expr.dropAwaitsList drop args)
  | .member o p computed => .member (o.dropAwaits drop) (p.dropAwaits drop) computed
  | .array es => .array (Expr.dropAwaitsList drop es)
  | .object ps => .object (Expr.dropAwaitsPairs drop ps)
  | .function f => .function (f.dropAwaits drop)
  | .conditional t a b =>
      .conditional (t.dropAwaits drop) (a.dropAwaits drop) (b.dropAwaits drop)
  | .assign t v => .assign (t.dropAwaits drop) (v.dropAwaits drop)
  | .await e => if drop e then e.dropAwaits drop else .await (e.dropAwaits drop)

def Expr.dropAwaitsList (drop : Expr → Bool) : List Expr → List Expr
  | [] => []
  | e :: es => e.dropAwaits drop :: Expr.dropAwaitsList drop es

def Expr.dropAwaitsOption (drop : Expr → Bool) : Option Expr → Option Expr
  | none => none
  | some e => some (e.dropAwaits drop)

def Expr.dropAwaitsPairs (drop : Expr → Bool) : List (String × Expr) → List (String × Expr)
  | [] => []
  | (key, e) :: ps => (key, e.dropAwaits drop) :: Expr.dropAwaitsPairs drop ps

/-- The function without the awaits whose operands satisfy a condition. -/
def Func.dropAwaits (drop : Expr → Bool) : Func → Func
  | ⟨name, params, body, isAsync⟩ => ⟨name, params, Stmt.dropAwaitsList drop body, isAsync⟩

/-- The statement without the awaits whose operands satisfy a condition. -/
def Stmt.dropAwaits (drop : Expr → Bool) : Stmt → Stmt
  | .expr e => .expr (e.dropAwaits drop)
  | .declare x i m => .declare x (Expr.dropAwaitsOption drop i) m
  | .destructure p i => .destructure p (i.dropAwaits drop)
  | .block b => .block (Stmt.dropAwaitsList drop b)
  | .ifElse t a b =>
      .ifElse (t.dropAwaits drop) (a.dropAwaits drop) (Stmt.dropAwaitsOption drop b)
  | .whileLoop t b => .whileLoop (t.dropAwaits drop) (b.dropAwaits drop)
  | .forLoop i t u b =>
      .forLoop (Stmt.dropAwaitsOption drop i) (Expr.dropAwaitsOption drop t)
        (Expr.dropAwaitsOption drop u) (b.dropAwaits drop)
  | .forEach x i b => .forEach x (i.dropAwaits drop) (b.dropAwaits drop)
  | .ret v => .ret (Expr.dropAwaitsOption drop v)
  | .breakLoop => .breakLoop
  | .continueLoop => .continueLoop
  | .throw e => .throw (e.dropAwaits drop)
  | .tryCatch b p h f =>
      .tryCatch (b.dropAwaits drop) p (Stmt.dropAwaitsOption drop h)
        (Stmt.dropAwaitsOption drop f)
  | .function f => .function (f.dropAwaits drop)
  | .holding s => .holding (s.dropAwaits drop)

def Stmt.dropAwaitsList (drop : Expr → Bool) : List Stmt → List Stmt
  | [] => []
  | s :: ss => s.dropAwaits drop :: Stmt.dropAwaitsList drop ss

def Stmt.dropAwaitsOption (drop : Expr → Bool) : Option Stmt → Option Stmt
  | none => none
  | some s => some (s.dropAwaits drop)

def Item.dropAwaits (drop : Expr → Bool) : Item → Item
  | ⟨acquire, binding, arity⟩ => ⟨acquire.dropAwaits drop, binding, arity⟩

def Item.dropAwaitsList (drop : Expr → Bool) : List Item → List Item
  | [] => []
  | i :: is => i.dropAwaits drop :: Item.dropAwaitsList drop is

/-- The scoped statement without the awaits whose operands satisfy a condition. -/
def Scoped.dropAwaits (drop : Expr → Bool) : Scoped → Scoped
  | ⟨items, body, isAsync⟩ =>
      ⟨Item.dropAwaitsList drop items, Stmt.dropAwaitsList drop body, isAsync⟩

end

@[simp] theorem Stmt.awaitedList_append
    (a b : List Stmt) :
    Stmt.awaitedList (a ++ b) = Stmt.awaitedList a ++ Stmt.awaitedList b := by
  induction a with
  | nil => simp [Stmt.awaitedList]
  | cons s a ih => simp [Stmt.awaitedList, ih]

@[simp] theorem Stmt.dropAwaitsList_append
    (drop : Expr → Bool) (a b : List Stmt) :
    Stmt.dropAwaitsList drop (a ++ b) =
      Stmt.dropAwaitsList drop a ++ Stmt.dropAwaitsList drop b := by
  induction a with
  | nil => simp [Stmt.dropAwaitsList]
  | cons s a ih => simp [Stmt.dropAwaitsList, ih]

end Bracket
