import Bracket.Json.Basic
import Bracket.Tree.Basic

/-!
# Trees from JSON

The inverse of the encoding, and a little more liberal.  A kind without parts
may also be written as a node with `null`.  Absent optional parts may be
missing.  A function, resource, scoped statement or program may be the array
of its parts in order, where only a trailing suspension mark or number of entry
values may be left out.  Unknown fields are ignored, and nothing is converted:
a part of the wrong type makes the whole value undecodable.

Parts are looked up by functions that walk over the fields of an object, so all
recursion goes to parts of the given value.
-/

namespace Bracket

/-- The operator of a given name. -/
def BinaryOp.ofTag? : String → Option BinaryOp
  | "Add" => some .add
  | "Sub" => some .sub
  | "Mul" => some .mul
  | "Div" => some .div
  | "Mod" => some .mod
  | "Eq" => some .eq
  | "Ne" => some .ne
  | "Lt" => some .lt
  | "Le" => some .le
  | "Gt" => some .gt
  | "Ge" => some .ge
  | "And" => some .and
  | "Or" => some .or
  | "Concat" => some .concat
  | _ => none

/-- The operator of a given name. -/
def UnaryOp.ofTag? : String → Option UnaryOp
  | "Neg" => some .neg
  | "Not" => some .not
  | _ => none

/-- The name of a kind without parts: a string, or a node with `null`. -/
def Json.toTag? : Json → Option String
  | .string tag => some tag
  | .object [(tag, .null)] => some tag
  | _ => none

def BinaryOp.decode (v : Json) : Option BinaryOp := v.toTag?.bind BinaryOp.ofTag?

def UnaryOp.decode (v : Json) : Option UnaryOp := v.toTag?.bind UnaryOp.ofTag?

/-- A literal from JSON. -/
def Literal.decode : Json → Option Literal
  | .object [("Bool", v)] => v.toBool?.map .bool
  | .object [("Number", v)] => v.toDouble?.map .number
  | .object [("String", v)] => v.toText?.map .string
  | v => if v.toTag? = some "Null" then some .null else none

mutual

/-- A pattern from JSON. -/
def Pattern.decode : Json → Option Pattern
  | .object [("Name", .string n)] => some (.name n)
  | .object [("Tuple", .array slots)] => (Pattern.decodeList slots).map .tuple
  | _ => none

def Pattern.decodeList : List Json → Option (List Pattern)
  | [] => some []
  | v :: vs => do
      let p ← Pattern.decode v
      let ps ← Pattern.decodeList vs
      some (p :: ps)

end

/-- An optional pattern from JSON. -/
def Pattern.decodeOption (v : Json) : Option (Option Pattern) :=
  if v.isNull then some none else (Pattern.decode v).map some

/-- An optional number of entry values from JSON. -/
def Item.decodeArity (v : Json) : Option (Option UInt64) :=
  if v.isNull then some none else v.toWord?.map some

mutual

/-- An expression from JSON. -/
def Expr.decode : Json → Option Expr
  | .object [("Literal", v)] => (Literal.decode v).map .literal
  | .object [("Ident", .string n)] => some (.ident n)
  | .object [("Binary", .object fs)] => do
      let l ← Expr.decodeField "left" fs
      let op ← Json.field BinaryOp.decode "op" fs
      let r ← Expr.decodeField "right" fs
      some (.binary l op r)
  | .object [("Unary", .object fs)] => do
      let op ← Json.field UnaryOp.decode "op" fs
      let e ← Expr.decodeField "expr" fs
      some (.unary op e)
  | .object [("Call", .object fs)] => do
      let f ← Expr.decodeField "callee" fs
      let args ← Expr.decodeListField "args" fs
      some (.call f args)
  | .object [("MethodCall", .object fs)] => do
      let r ← Expr.decodeField "receiver" fs
      let m ← Json.field Json.toText? "method" fs
      let args ← Expr.decodeListField "args" fs
      some (.methodCall r m args)
  | .object [("Member", .object fs)] => do
      let o ← Expr.decodeField "object" fs
      let p ← Expr.decodeField "property" fs
      let c ← Json.field Json.toBool? "computed" fs
      some (.member o p c)
  | .object [("Array", .array vs)] => (Expr.decodeList vs).map .array
  | .object [("Object", .array vs)] => (Expr.decodePairs vs).map .object
  | .object [("Function", v)] => (Func.decode v).map .function
  | .object [("Conditional", .object fs)] => do
      let t ← Expr.decodeField "test" fs
      let c ← Expr.decodeField "consequent" fs
      let a ← Expr.decodeField "alternate" fs
      some (.conditional t c a)
  | .object [("Assign", .object fs)] => do
      let t ← Expr.decodeField "target" fs
      let v ← Expr.decodeField "value" fs
      some (.assign t v)
  | .object [("Await", v)] => (Expr.decode v).map .await
  | _ => none

def Expr.decodeList : List Json → Option (List Expr)
  | [] => some []
  | v :: vs => do
      let e ← Expr.decode v
      let es ← Expr.decodeList vs
      some (e :: es)

/-- The pairs of an object literal. -/
def Expr.decodePairs : List Json → Option (List (String × Expr))
  | [] => some []
  | .array [.string k, v] :: vs => do
      let e ← Expr.decode v
      let ps ← Expr.decodePairs vs
      some ((k, e) :: ps)
  | _ :: _ => none

/-- The expression in a field that must be there. -/
def Expr.decodeField (key : String) : List (String × Json) → Option Expr
  | [] => none
  | (k, v) :: fs => if k = key then Expr.decode v else Expr.decodeField key fs

/-- The expression in a field that may be missing or `null`. -/
def Expr.decodeOptionField (key : String) : List (String × Json) → Option (Option Expr)
  | [] => some none
  | (k, v) :: fs =>
      if k = key then
        if v.isNull then some none else (Expr.decode v).map some
      else Expr.decodeOptionField key fs

/-- The expressions in a field that must be there. -/
def Expr.decodeListField (key : String) : List (String × Json) → Option (List Expr)
  | [] => none
  | (k, .array vs) :: fs =>
      if k = key then Expr.decodeList vs else Expr.decodeListField key fs
  | (k, _) :: fs => if k = key then none else Expr.decodeListField key fs

/-- A function from JSON. -/
def Func.decode : Json → Option Func
  | .object fs => do
      let name ← Json.field Json.toText? "name" fs
      let params ← Json.field Json.toTexts? "params" fs
      let body ← Stmt.decodeListField "body" fs
      let isAsync ← Json.fieldWithDefault Json.toBool? false "is_async" fs
      some ⟨name, params, body, isAsync⟩
  | .array [name, params, .array body] => do
      let name ← name.toText?
      let params ← params.toTexts?
      let body ← Stmt.decodeList body
      some ⟨name, params, body, false⟩
  | .array [name, params, .array body, isAsync] => do
      let name ← name.toText?
      let params ← params.toTexts?
      let body ← Stmt.decodeList body
      let isAsync ← isAsync.toBool?
      some ⟨name, params, body, isAsync⟩
  | _ => none

/-- A statement from JSON. -/
def Stmt.decode : Json → Option Stmt
  | .object [("Expr", v)] => (Expr.decode v).map .expr
  | .object [("Let", .object fs)] => do
      let n ← Json.field Json.toText? "name" fs
      let i ← Expr.decodeOptionField "init" fs
      let m ← Json.field Json.toBool? "mutable" fs
      some (.declare n i m)
  | .object [("Destructure", .object fs)] => do
      let p ← Json.field Pattern.decode "pattern" fs
      let i ← Expr.decodeField "init" fs
      some (.destructure p i)
  | .object [("Block", .array vs)] => (Stmt.decodeList vs).map .block
  | .object [("If", .object fs)] => do
      let t ← Expr.decodeField "test" fs
      let c ← Stmt.decodeField "consequent" fs
      let a ← Stmt.decodeOptionField "alternate" fs
      some (.ifElse t c a)
  | .object [("While", .object fs)] => do
      let t ← Expr.decodeField "test" fs
      let b ← Stmt.decodeField "body" fs
      some (.whileLoop t b)
  | .object [("For", .object fs)] => do
      let i ← Stmt.decodeOptionField "init" fs
      let t ← Expr.decodeOptionField "test" fs
      let u ← Expr.decodeOptionField "update" fs
      let b ← Stmt.decodeField "body" fs
      some (.forLoop i t u b)
  | .object [("ForIn", .object fs)] => do
      let n ← Json.field Json.toText? "variable" fs
      let i ← Expr.decodeField "iterable" fs
      let b ← Stmt.decodeField "body" fs
      some (.forEach n i b)
  | .object [("Return", v)] =>
      if v.isNull then some (.ret none) else (Expr.decode v).map fun e => .ret (some e)
  | .object [("Throw", v)] => (Expr.decode v).map .throw
  | .object [("TryCatch", .object fs)] => do
      let b ← Stmt.decodeField "body" fs
      let p ← Json.optionalField Json.toText? "catch_param" fs
      let c ← Stmt.decodeOptionField "catch_body" fs
      let f ← Stmt.decodeOptionField "finally_body" fs
      some (.tryCatch b p c f)
  | .object [("Function", v)] => (Func.decode v).map .function
  | .object [("With", v)] => (Scoped.decode v).map .holding
  | v =>
      match v.toTag? with
      | some "Break" => some .breakLoop
      | some "Continue" => some .continueLoop
      | _ => none

def Stmt.decodeList : List Json → Option (List Stmt)
  | [] => some []
  | v :: vs => do
      let s ← Stmt.decode v
      let ss ← Stmt.decodeList vs
      some (s :: ss)

/-- The statement in a field that must be there. -/
def Stmt.decodeField (key : String) : List (String × Json) → Option Stmt
  | [] => none
  | (k, v) :: fs => if k = key then Stmt.decode v else Stmt.decodeField key fs

/-- The statement in a field that may be missing or `null`. -/
def Stmt.decodeOptionField (key : String) : List (String × Json) → Option (Option Stmt)
  | [] => some none
  | (k, v) :: fs =>
      if k = key then
        if v.isNull then some none else (Stmt.decode v).map some
      else Stmt.decodeOptionField key fs

/-- The statements in a field that must be there. -/
def Stmt.decodeListField (key : String) : List (String × Json) → Option (List Stmt)
  | [] => none
  | (k, .array vs) :: fs =>
      if k = key then Stmt.decodeList vs else Stmt.decodeListField key fs
  | (k, _) :: fs => if k = key then none else Stmt.decodeListField key fs

/-- A resource from JSON. -/
def Item.decode : Json → Option Item
  | .object fs => do
      let acquire ← Expr.decodeField "acquire" fs
      let binding ← Json.optionalField Pattern.decode "binding" fs
      let arity ← Json.optionalField Json.toWord? "entry_arity" fs
      some ⟨acquire, binding, arity⟩
  | .array [acquire, binding] => do
      let acquire ← Expr.decode acquire
      let binding ← Pattern.decodeOption binding
      some ⟨acquire, binding, none⟩
  | .array [acquire, binding, arity] => do
      let acquire ← Expr.decode acquire
      let binding ← Pattern.decodeOption binding
      let arity ← Item.decodeArity arity
      some ⟨acquire, binding, arity⟩
  | _ => none

def Item.decodeList : List Json → Option (List Item)
  | [] => some []
  | v :: vs => do
      let i ← Item.decode v
      let is ← Item.decodeList vs
      some (i :: is)

/-- The resources in a field that must be there. -/
def Item.decodeListField (key : String) : List (String × Json) → Option (List Item)
  | [] => none
  | (k, .array vs) :: fs =>
      if k = key then Item.decodeList vs else Item.decodeListField key fs
  | (k, _) :: fs => if k = key then none else Item.decodeListField key fs

/-- A scoped statement from JSON. -/
def Scoped.decode : Json → Option Scoped
  | .object fs => do
      let items ← Item.decodeListField "items" fs
      let body ← Stmt.decodeListField "body" fs
      let isAsync ← Json.fieldWithDefault Json.toBool? false "is_async" fs
      some ⟨items, body, isAsync⟩
  | .array [.array items, .array body] => do
      let items ← Item.decodeList items
      let body ← Stmt.decodeList body
      some ⟨items, body, false⟩
  | .array [.array items, .array body, isAsync] => do
      let items ← Item.decodeList items
      let body ← Stmt.decodeList body
      let isAsync ← isAsync.toBool?
      some ⟨items, body, isAsync⟩
  | _ => none

end

/-- A program from JSON. -/
def Program.decode : Json → Option Program
  | .object fs => (Stmt.decodeListField "body" fs).map .mk
  | .array [.array body] => (Stmt.decodeList body).map .mk
  | _ => none

end Bracket
