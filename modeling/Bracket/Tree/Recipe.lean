import Bracket.Tree.Decode

/-!
# Trees from construction recipes

A recipe is a JSON array: the name of a constructor and its arguments, which may
be recipes themselves.  Constructors that abbreviate a common shape (a member by
name, a tuple of names, a declaration that keeps its value) have names of their
own.  A wrong name, a wrong number of arguments or an argument of the wrong type
makes the whole recipe meaningless.
-/

namespace Bracket

mutual

/-- The pattern of a recipe. -/
def Pattern.build : Json → Option Pattern
  | .array [.string "name", .string n] => some (.name n)
  | .array [.string "tuple", .array slots] => (Pattern.buildList slots).map .tuple
  | .array [.string "names", names] => names.toTexts?.map Pattern.ofNames
  | _ => none

def Pattern.buildList : List Json → Option (List Pattern)
  | [] => some []
  | v :: vs => do
      let p ← Pattern.build v
      let ps ← Pattern.buildList vs
      some (p :: ps)

end

/-- A literal argument that may be `null`. -/
def Json.toTextOption? : Json → Option (Option String)
  | .null => some none
  | .string s => some (some s)
  | _ => none

mutual

/-- The expression of a recipe. -/
def Expr.build : Json → Option Expr
  | .array [.string "null"] => some .null
  | .array [.string "bool", .bool b] => some (.bool b)
  | .array [.string "number", n] => n.toDouble?.map .number
  | .array [.string "string", .string s] => some (.string s)
  | .array [.string "ident", .string n] => some (.ident n)
  | .array [.string "binary", l, op, r] => do
      let l ← Expr.build l
      let op ← BinaryOp.decode op
      let r ← Expr.build r
      some (.binary l op r)
  | .array [.string "unary", op, e] => do
      let op ← UnaryOp.decode op
      let e ← Expr.build e
      some (.unary op e)
  | .array [.string "not", e] => (Expr.build e).map .negate
  | .array [.string "call", f, .array args] => do
      let f ← Expr.build f
      let args ← Expr.buildList args
      some (.call f args)
  | .array [.string "method_call", r, .string m, .array args] => do
      let r ← Expr.build r
      let args ← Expr.buildList args
      some (.methodCall r m args)
  | .array [.string "member", o, .string n] => (Expr.build o).map fun o => .field o n
  | .array [.string "index", o, i] => do
      let o ← Expr.build o
      let i ← Expr.build i
      some (.index o i)
  | .array [.string "array", .array es] => (Expr.buildList es).map .array
  | .array [.string "object", .array ps] => (Expr.buildPairs ps).map .object
  | .array [.string "conditional", t, c, a] => do
      let t ← Expr.build t
      let c ← Expr.build c
      let a ← Expr.build a
      some (.conditional t c a)
  | .array [.string "assign", t, v] => do
      let t ← Expr.build t
      let v ← Expr.build v
      some (.assign t v)
  | .array [.string "awaited", e] => (Expr.build e).map .await
  | .array [.string "function", f] => (Func.build f).map .function
  | _ => none

def Expr.buildList : List Json → Option (List Expr)
  | [] => some []
  | v :: vs => do
      let e ← Expr.build v
      let es ← Expr.buildList vs
      some (e :: es)

def Expr.buildPairs : List Json → Option (List (String × Expr))
  | [] => some []
  | .array [.string k, v] :: vs => do
      let e ← Expr.build v
      let ps ← Expr.buildPairs vs
      some ((k, e) :: ps)
  | _ :: _ => none

/-- The function of a recipe. -/
def Func.build : Json → Option Func
  | .array [.string "new", .string name, params, .array body] => do
      let params ← params.toTexts?
      let body ← Stmt.buildList body
      some ⟨name, params, body, false⟩
  | .array [.string "anonymous", params, .array body] => do
      let params ← params.toTexts?
      let body ← Stmt.buildList body
      some (Func.anonymous params body)
  | .array [.string "into_async", f] => (Func.build f).map Func.intoAsync
  | _ => none

/-- The statement of a recipe. -/
def Stmt.build : Json → Option Stmt
  | .array [.string "expr", e] => (Expr.build e).map .expr
  | .array [.string "let_decl", .string n, i] =>
      if i.isNull then some (.letVar n none)
      else (Expr.build i).map fun e => .letVar n (some e)
  | .array [.string "const_decl", .string n, i] => (Expr.build i).map (Stmt.letConst n)
  | .array [.string "destructure", p, i] => do
      let p ← Pattern.build p
      let i ← Expr.build i
      some (.destructure p i)
  | .array [.string "block", .array b] => (Stmt.buildList b).map .block
  | .array [.string "if_stmt", t, c, a] => do
      let t ← Expr.build t
      let c ← Stmt.build c
      let a ← if a.isNull then some none else (Stmt.build a).map some
      some (.ifElse t c a)
  | .array [.string "while_loop", t, b] => do
      let t ← Expr.build t
      let b ← Stmt.build b
      some (.whileLoop t b)
  | .array [.string "for_loop", i, t, u, b] => do
      let i ← if i.isNull then some none else (Stmt.build i).map some
      let t ← if t.isNull then some none else (Expr.build t).map some
      let u ← if u.isNull then some none else (Expr.build u).map some
      let b ← Stmt.build b
      some (.forLoop i t u b)
  | .array [.string "for_in", .string n, i, b] => do
      let i ← Expr.build i
      let b ← Stmt.build b
      some (.forEach n i b)
  | .array [.string "return_stmt", e] =>
      if e.isNull then some (.ret none) else (Expr.build e).map fun e => .ret (some e)
  | .array [.string "break_stmt"] => some .breakLoop
  | .array [.string "continue_stmt"] => some .continueLoop
  | .array [.string "throw", e] => (Expr.build e).map .throw
  | .array [.string "try_catch", b, p, c, f] => do
      let b ← Stmt.build b
      let p ← p.toTextOption?
      let c ← if c.isNull then some none else (Stmt.build c).map some
      let f ← if f.isNull then some none else (Stmt.build f).map some
      some (.tryCatch b p c f)
  | .array [.string "function", f] => (Func.build f).map .function
  | .array [.string "with", s] => (Scoped.build s).map .holding
  | _ => none

def Stmt.buildList : List Json → Option (List Stmt)
  | [] => some []
  | v :: vs => do
      let s ← Stmt.build v
      let ss ← Stmt.buildList vs
      some (s :: ss)

/-- The resource of a recipe. -/
def Item.build : Json → Option Item
  | .array [.string "new", e] => (Expr.build e).map Item.new
  | .array [.string "bind", i, p] => do
      let i ← Item.build i
      let p ← Pattern.build p
      some (i.bind p)
  | .array [.string "with_entry_arity", i, n] => do
      let i ← Item.build i
      let n ← n.toWord?
      some (i.withEntryArity n)
  | _ => none

def Item.buildList : List Json → Option (List Item)
  | [] => some []
  | v :: vs => do
      let i ← Item.build v
      let is ← Item.buildList vs
      some (i :: is)

/-- The scoped statement of a recipe. -/
def Scoped.build : Json → Option Scoped
  | .array [.string "new", .array items, .array body] => do
      let items ← Item.buildList items
      let body ← Stmt.buildList body
      some ⟨items, body, false⟩
  | .array [.string "new_async", .array items, .array body] => do
      let items ← Item.buildList items
      let body ← Stmt.buildList body
      some ⟨items, body, true⟩
  | _ => none

end

/-- The program of a list of recipes. -/
def Program.build : Json → Option Program
  | .array body => (Stmt.buildList body).map .mk
  | _ => none

end Bracket
