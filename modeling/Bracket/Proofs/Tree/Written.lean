import Bracket.Tree.Encode

/-!
# The written forms of trees

The rules by which a tree may be written as JSON.  A node is an object with one field,
named for its kind; its parts are fields, all of which are written, `null` for a part that
is absent.  Functions, resources, scoped statements and programs are objects with all of
their fields, except that an unknown number of entry values has none.  Where arrays are
admitted, each of these four may also be the array of its fields in order, and then a last
field that is `false` or absent may be left out.

A number literal is written as any JSON number that reads back as the same double.

The encoding of a tree whose numbers are written so is a written form without arrays.
-/

namespace Bracket

/-! ## The rules -/

/-- A literal may be written as a JSON value. -/
inductive Literal.Written : Literal → Json → Prop where
  | null : Literal.Written .null (.string "Null")
  | bool (b : Bool) : Literal.Written (.bool b) (.node "Bool" (.bool b))
  | number {d : Double} {v : Json} (h : v.toDouble? = some d) :
      Literal.Written (.number d) (.node "Number" v)
  | string (s : String) : Literal.Written (.string s) (.node "String" (.string s))

mutual

/-- An expression may be written as a JSON value. -/
inductive Expr.Written (arrays : Bool) : Expr → Json → Prop where
  | literal {l : Literal} {v : Json} (hl : l.Written v) :
      Expr.Written arrays (.literal l) (.node "Literal" v)
  | ident (x : String) : Expr.Written arrays (.ident x) (.node "Ident" (.string x))
  | binary {l r : Expr} {v w : Json} (op : BinaryOp) (hl : Expr.Written arrays l v)
      (hr : Expr.Written arrays r w) :
      Expr.Written arrays (.binary l op r)
        (.node "Binary" (.object [("left", v), ("op", .string op.tag), ("right", w)]))
  | unary {e : Expr} {v : Json} (op : UnaryOp) (he : Expr.Written arrays e v) :
      Expr.Written arrays (.unary op e)
        (.node "Unary" (.object [("op", .string op.tag), ("expr", v)]))
  | call {f : Expr} {args : List Expr} {v : Json} {vs : List Json}
      (hf : Expr.Written arrays f v) (hargs : Expr.WrittenList arrays args vs) :
      Expr.Written arrays (.call f args)
        (.node "Call" (.object [("callee", v), ("args", .array vs)]))
  | methodCall {r : Expr} {args : List Expr} {v : Json} {vs : List Json} (m : String)
      (hr : Expr.Written arrays r v) (hargs : Expr.WrittenList arrays args vs) :
      Expr.Written arrays (.methodCall r m args)
        (.node "MethodCall" (.object
          [("receiver", v), ("method", .string m), ("args", .array vs)]))
  | member {o p : Expr} {v w : Json} (computed : Bool) (ho : Expr.Written arrays o v)
      (hp : Expr.Written arrays p w) :
      Expr.Written arrays (.member o p computed)
        (.node "Member" (.object
          [("object", v), ("property", w), ("computed", .bool computed)]))
  | array {es : List Expr} {vs : List Json} (hes : Expr.WrittenList arrays es vs) :
      Expr.Written arrays (.array es) (.node "Array" (.array vs))
  | object {ps : List (String × Expr)} {vs : List Json} (hps : Expr.WrittenPairs arrays ps vs) :
      Expr.Written arrays (.object ps) (.node "Object" (.array vs))
  | function {f : Func} {v : Json} (hf : Func.Written arrays f v) :
      Expr.Written arrays (.function f) (.node "Function" v)
  | conditional {t a b : Expr} {u v w : Json} (ht : Expr.Written arrays t u)
      (ha : Expr.Written arrays a v) (hb : Expr.Written arrays b w) :
      Expr.Written arrays (.conditional t a b)
        (.node "Conditional" (.object [("test", u), ("consequent", v), ("alternate", w)]))
  | assign {t e : Expr} {v w : Json} (ht : Expr.Written arrays t v)
      (he : Expr.Written arrays e w) :
      Expr.Written arrays (.assign t e)
        (.node "Assign" (.object [("target", v), ("value", w)]))
  | await {e : Expr} {v : Json} (he : Expr.Written arrays e v) :
      Expr.Written arrays (.await e) (.node "Await" v)

inductive Expr.WrittenList (arrays : Bool) : List Expr → List Json → Prop where
  | nil : Expr.WrittenList arrays [] []
  | cons {e : Expr} {es : List Expr} {v : Json} {vs : List Json}
      (he : Expr.Written arrays e v) (hes : Expr.WrittenList arrays es vs) :
      Expr.WrittenList arrays (e :: es) (v :: vs)

inductive Expr.WrittenOption (arrays : Bool) : Option Expr → Json → Prop where
  | none : Expr.WrittenOption arrays none .null
  | some {e : Expr} {v : Json} (he : Expr.Written arrays e v) :
      Expr.WrittenOption arrays (some e) v

inductive Expr.WrittenPairs (arrays : Bool) : List (String × Expr) → List Json → Prop where
  | nil : Expr.WrittenPairs arrays [] []
  | cons {e : Expr} {ps : List (String × Expr)} {v : Json} {vs : List Json} (key : String)
      (he : Expr.Written arrays e v) (hps : Expr.WrittenPairs arrays ps vs) :
      Expr.WrittenPairs arrays ((key, e) :: ps) (.array [.string key, v] :: vs)

/-- A function may be written as a JSON value. -/
inductive Func.Written (arrays : Bool) : Func → Json → Prop where
  | object {body : List Stmt} {vs : List Json} (name : String) (params : List String)
      (isAsync : Bool) (hbody : Stmt.WrittenList arrays body vs) :
      Func.Written arrays ⟨name, params, body, isAsync⟩
        (.object [("name", .string name), ("params", .ofTexts params), ("body", .array vs),
          ("is_async", .bool isAsync)])
  | array {body : List Stmt} {vs : List Json} (harrays : arrays = true) (name : String)
      (params : List String) (isAsync : Bool) (hbody : Stmt.WrittenList arrays body vs) :
      Func.Written arrays ⟨name, params, body, isAsync⟩
        (.array [.string name, .ofTexts params, .array vs, .bool isAsync])
  | shortArray {body : List Stmt} {vs : List Json} (harrays : arrays = true) (name : String)
      (params : List String) (hbody : Stmt.WrittenList arrays body vs) :
      Func.Written arrays ⟨name, params, body, false⟩
        (.array [.string name, .ofTexts params, .array vs])

/-- A statement may be written as a JSON value. -/
inductive Stmt.Written (arrays : Bool) : Stmt → Json → Prop where
  | expr {e : Expr} {v : Json} (he : Expr.Written arrays e v) :
      Stmt.Written arrays (.expr e) (.node "Expr" v)
  | declare {i : Option Expr} {v : Json} (x : String) (m : Bool)
      (hi : Expr.WrittenOption arrays i v) :
      Stmt.Written arrays (.declare x i m)
        (.node "Let" (.object [("name", .string x), ("init", v), ("mutable", .bool m)]))
  | destructure {i : Expr} {v : Json} (p : Pattern) (hi : Expr.Written arrays i v) :
      Stmt.Written arrays (.destructure p i)
        (.node "Destructure" (.object [("pattern", p.encode), ("init", v)]))
  | block {b : List Stmt} {vs : List Json} (hb : Stmt.WrittenList arrays b vs) :
      Stmt.Written arrays (.block b) (.node "Block" (.array vs))
  | ifElse {t : Expr} {a : Stmt} {b : Option Stmt} {u v w : Json}
      (ht : Expr.Written arrays t u) (ha : Stmt.Written arrays a v)
      (hb : Stmt.WrittenOption arrays b w) :
      Stmt.Written arrays (.ifElse t a b)
        (.node "If" (.object [("test", u), ("consequent", v), ("alternate", w)]))
  | whileLoop {t : Expr} {b : Stmt} {v w : Json} (ht : Expr.Written arrays t v)
      (hb : Stmt.Written arrays b w) :
      Stmt.Written arrays (.whileLoop t b) (.node "While" (.object [("test", v), ("body", w)]))
  | forLoop {i : Option Stmt} {t u : Option Expr} {b : Stmt} {v₁ v₂ v₃ v₄ : Json}
      (hi : Stmt.WrittenOption arrays i v₁) (ht : Expr.WrittenOption arrays t v₂)
      (hu : Expr.WrittenOption arrays u v₃) (hb : Stmt.Written arrays b v₄) :
      Stmt.Written arrays (.forLoop i t u b)
        (.node "For" (.object [("init", v₁), ("test", v₂), ("update", v₃), ("body", v₄)]))
  | forEach {i : Expr} {b : Stmt} {v w : Json} (x : String) (hi : Expr.Written arrays i v)
      (hb : Stmt.Written arrays b w) :
      Stmt.Written arrays (.forEach x i b)
        (.node "ForIn" (.object [("variable", .string x), ("iterable", v), ("body", w)]))
  | ret {e : Option Expr} {v : Json} (he : Expr.WrittenOption arrays e v) :
      Stmt.Written arrays (.ret e) (.node "Return" v)
  | breakLoop : Stmt.Written arrays .breakLoop (.string "Break")
  | continueLoop : Stmt.Written arrays .continueLoop (.string "Continue")
  | throw {e : Expr} {v : Json} (he : Expr.Written arrays e v) :
      Stmt.Written arrays (.throw e) (.node "Throw" v)
  | tryCatch {b : Stmt} {h f : Option Stmt} {v₁ v₂ v₃ : Json} (p : Option String)
      (hb : Stmt.Written arrays b v₁) (hh : Stmt.WrittenOption arrays h v₂)
      (hf : Stmt.WrittenOption arrays f v₃) :
      Stmt.Written arrays (.tryCatch b p h f)
        (.node "TryCatch" (.object
          [("body", v₁), ("catch_param", .ofOption .string p), ("catch_body", v₂),
            ("finally_body", v₃)]))
  | function {f : Func} {v : Json} (hf : Func.Written arrays f v) :
      Stmt.Written arrays (.function f) (.node "Function" v)
  | holding {s : Scoped} {v : Json} (hs : Scoped.Written arrays s v) :
      Stmt.Written arrays (.holding s) (.node "With" v)

inductive Stmt.WrittenList (arrays : Bool) : List Stmt → List Json → Prop where
  | nil : Stmt.WrittenList arrays [] []
  | cons {s : Stmt} {ss : List Stmt} {v : Json} {vs : List Json}
      (hs : Stmt.Written arrays s v) (hss : Stmt.WrittenList arrays ss vs) :
      Stmt.WrittenList arrays (s :: ss) (v :: vs)

inductive Stmt.WrittenOption (arrays : Bool) : Option Stmt → Json → Prop where
  | none : Stmt.WrittenOption arrays none .null
  | some {s : Stmt} {v : Json} (hs : Stmt.Written arrays s v) :
      Stmt.WrittenOption arrays (some s) v

/-- A resource may be written as a JSON value. -/
inductive Item.Written (arrays : Bool) : Item → Json → Prop where
  | object {acquire : Expr} {v : Json} (binding : Option Pattern)
      (hacquire : Expr.Written arrays acquire v) :
      Item.Written arrays ⟨acquire, binding, none⟩
        (.object [("acquire", v), ("binding", .ofOption Pattern.encode binding)])
  | objectWithArity {acquire : Expr} {v : Json} (binding : Option Pattern) (arity : UInt64)
      (hacquire : Expr.Written arrays acquire v) :
      Item.Written arrays ⟨acquire, binding, some arity⟩
        (.object [("acquire", v), ("binding", .ofOption Pattern.encode binding),
          ("entry_arity", .ofNat arity.toNat)])
  | array {acquire : Expr} {v : Json} (harrays : arrays = true) (binding : Option Pattern)
      (arity : Option UInt64) (hacquire : Expr.Written arrays acquire v) :
      Item.Written arrays ⟨acquire, binding, arity⟩
        (.array [v, .ofOption Pattern.encode binding, .ofOption (fun n => .ofNat n.toNat) arity])
  | shortArray {acquire : Expr} {v : Json} (harrays : arrays = true) (binding : Option Pattern)
      (hacquire : Expr.Written arrays acquire v) :
      Item.Written arrays ⟨acquire, binding, none⟩
        (.array [v, .ofOption Pattern.encode binding])

inductive Item.WrittenList (arrays : Bool) : List Item → List Json → Prop where
  | nil : Item.WrittenList arrays [] []
  | cons {i : Item} {is : List Item} {v : Json} {vs : List Json}
      (hi : Item.Written arrays i v) (his : Item.WrittenList arrays is vs) :
      Item.WrittenList arrays (i :: is) (v :: vs)

/-- A scoped statement may be written as a JSON value. -/
inductive Scoped.Written (arrays : Bool) : Scoped → Json → Prop where
  | object {items : List Item} {body : List Stmt} {vs ws : List Json} (isAsync : Bool)
      (hitems : Item.WrittenList arrays items vs) (hbody : Stmt.WrittenList arrays body ws) :
      Scoped.Written arrays ⟨items, body, isAsync⟩
        (.object [("items", .array vs), ("body", .array ws), ("is_async", .bool isAsync)])
  | array {items : List Item} {body : List Stmt} {vs ws : List Json} (harrays : arrays = true)
      (isAsync : Bool) (hitems : Item.WrittenList arrays items vs)
      (hbody : Stmt.WrittenList arrays body ws) :
      Scoped.Written arrays ⟨items, body, isAsync⟩
        (.array [.array vs, .array ws, .bool isAsync])
  | shortArray {items : List Item} {body : List Stmt} {vs ws : List Json}
      (harrays : arrays = true) (hitems : Item.WrittenList arrays items vs)
      (hbody : Stmt.WrittenList arrays body ws) :
      Scoped.Written arrays ⟨items, body, false⟩ (.array [.array vs, .array ws])

end

/-- A program may be written as a JSON value. -/
inductive Program.Written (arrays : Bool) : Program → Json → Prop where
  | object {body : List Stmt} {vs : List Json} (hbody : Stmt.WrittenList arrays body vs) :
      Program.Written arrays ⟨body⟩ (.object [("body", .array vs)])
  | array {body : List Stmt} {vs : List Json} (harrays : arrays = true)
      (hbody : Stmt.WrittenList arrays body vs) :
      Program.Written arrays ⟨body⟩ (.array [.array vs])

/-! ## Number literals -/

/-- The number of a number literal. -/
def Literal.numbers : Literal → List Double
  | .number d => [d]
  | _ => []

mutual

/-- The numbers that stand as literals in an expression. -/
def Expr.numbers : Expr → List Double
  | .literal l => l.numbers
  | .ident _ => []
  | .binary l _ r => l.numbers ++ r.numbers
  | .unary _ e => e.numbers
  | .call f args => f.numbers ++ Expr.numbersList args
  | .methodCall r _ args => r.numbers ++ Expr.numbersList args
  | .member o p _ => o.numbers ++ p.numbers
  | .array es => Expr.numbersList es
  | .object ps => Expr.numbersPairs ps
  | .function f => f.numbers
  | .conditional t a b => t.numbers ++ (a.numbers ++ b.numbers)
  | .assign t v => t.numbers ++ v.numbers
  | .await e => e.numbers

def Expr.numbersList : List Expr → List Double
  | [] => []
  | e :: es => e.numbers ++ Expr.numbersList es

def Expr.numbersOption : Option Expr → List Double
  | none => []
  | some e => e.numbers

def Expr.numbersPairs : List (String × Expr) → List Double
  | [] => []
  | (_, e) :: ps => e.numbers ++ Expr.numbersPairs ps

/-- The numbers that stand as literals in a function. -/
def Func.numbers : Func → List Double
  | ⟨_, _, body, _⟩ => Stmt.numbersList body

/-- The numbers that stand as literals in a statement. -/
def Stmt.numbers : Stmt → List Double
  | .expr e => e.numbers
  | .declare _ i _ => Expr.numbersOption i
  | .destructure _ i => i.numbers
  | .block b => Stmt.numbersList b
  | .ifElse t a b => t.numbers ++ (a.numbers ++ Stmt.numbersOption b)
  | .whileLoop t b => t.numbers ++ b.numbers
  | .forLoop i t u b =>
      Stmt.numbersOption i ++ (Expr.numbersOption t ++ (Expr.numbersOption u ++ b.numbers))
  | .forEach _ i b => i.numbers ++ b.numbers
  | .ret v => Expr.numbersOption v
  | .breakLoop => []
  | .continueLoop => []
  | .throw e => e.numbers
  | .tryCatch b _ h f => b.numbers ++ (Stmt.numbersOption h ++ Stmt.numbersOption f)
  | .function f => f.numbers
  | .holding s => s.numbers

def Stmt.numbersList : List Stmt → List Double
  | [] => []
  | s :: ss => s.numbers ++ Stmt.numbersList ss

def Stmt.numbersOption : Option Stmt → List Double
  | none => []
  | some s => s.numbers

/-- The numbers that stand as literals in a resource. -/
def Item.numbers : Item → List Double
  | ⟨acquire, _, _⟩ => acquire.numbers

def Item.numbersList : List Item → List Double
  | [] => []
  | i :: is => i.numbers ++ Item.numbersList is

/-- The numbers that stand as literals in a scoped statement. -/
def Scoped.numbers : Scoped → List Double
  | ⟨items, body, _⟩ => Item.numbersList items ++ Stmt.numbersList body

end

/-- The numbers that stand as literals in a program. -/
def Program.numbers (p : Program) : List Double := Stmt.numbersList p.body

/-- The numbers are written so that they read back. -/
def ReadBack (number : Double → Json) (ds : List Double) : Prop :=
  ∀ d ∈ ds, (number d).toDouble? = some d

theorem ReadBack.append
    {number : Double → Json} {ds es : List Double} (h : ReadBack number (ds ++ es)) :
    ReadBack number ds ∧ ReadBack number es :=
  List.forall_mem_append.mp h

/-! ## The encoding is a written form -/

section Encoding

variable {number : Double → Json}

theorem Literal.written_encode :
    (l : Literal) → ReadBack number l.numbers → l.Written (l.encode number)
  | .null, _ => .null
  | .bool b, _ => .bool b
  | .number d, h => .number (h d (List.mem_singleton_self d))
  | .string s, _ => .string s

mutual

/-- The encoding of an expression is a written form without arrays. -/
theorem Expr.written_encode :
    (e : Expr) → ReadBack number e.numbers → Expr.Written false e (e.encode number)
  | .literal l, h => .literal (l.written_encode h)
  | .ident x, _ => .ident x
  | .binary l op r, h =>
      .binary op (l.written_encode h.append.1) (r.written_encode h.append.2)
  | .unary op e, h => .unary op (e.written_encode h)
  | .call f args, h =>
      .call (f.written_encode h.append.1) (Expr.writtenList_encode args h.append.2)
  | .methodCall r m args, h =>
      .methodCall m (r.written_encode h.append.1) (Expr.writtenList_encode args h.append.2)
  | .member o p computed, h =>
      .member computed (o.written_encode h.append.1) (p.written_encode h.append.2)
  | .array es, h => .array (Expr.writtenList_encode es h)
  | .object ps, h => .object (Expr.writtenPairs_encode ps h)
  | .function f, h => .function (f.written_encode h)
  | .conditional t a b, h =>
      .conditional (t.written_encode h.append.1) (a.written_encode h.append.2.append.1)
        (b.written_encode h.append.2.append.2)
  | .assign t v, h => .assign (t.written_encode h.append.1) (v.written_encode h.append.2)
  | .await e, h => .await (e.written_encode h)

theorem Expr.writtenList_encode :
    (es : List Expr) → ReadBack number (Expr.numbersList es) →
      Expr.WrittenList false es (Expr.encodeList number es)
  | [], _ => .nil
  | e :: es, h => .cons (e.written_encode h.append.1) (Expr.writtenList_encode es h.append.2)

theorem Expr.writtenOption_encode :
    (e : Option Expr) → ReadBack number (Expr.numbersOption e) →
      Expr.WrittenOption false e (Expr.encodeOption number e)
  | none, _ => .none
  | some e, h => .some (e.written_encode h)

theorem Expr.writtenPairs_encode :
    (ps : List (String × Expr)) → ReadBack number (Expr.numbersPairs ps) →
      Expr.WrittenPairs false ps (Expr.encodePairs number ps)
  | [], _ => .nil
  | (key, e) :: ps, h =>
      .cons key (e.written_encode h.append.1) (Expr.writtenPairs_encode ps h.append.2)

theorem Func.written_encode :
    (f : Func) → ReadBack number f.numbers → Func.Written false f (f.encode number)
  | ⟨name, params, body, isAsync⟩, h =>
      .object name params isAsync (Stmt.writtenList_encode body h)

/-- The encoding of a statement is a written form without arrays. -/
theorem Stmt.written_encode :
    (s : Stmt) → ReadBack number s.numbers → Stmt.Written false s (s.encode number)
  | .expr e, h => .expr (e.written_encode h)
  | .declare x i m, h => .declare x m (Expr.writtenOption_encode i h)
  | .destructure p i, h => .destructure p (i.written_encode h)
  | .block b, h => .block (Stmt.writtenList_encode b h)
  | .ifElse t a b, h =>
      .ifElse (t.written_encode h.append.1) (a.written_encode h.append.2.append.1)
        (Stmt.writtenOption_encode b h.append.2.append.2)
  | .whileLoop t b, h => .whileLoop (t.written_encode h.append.1) (b.written_encode h.append.2)
  | .forLoop i t u b, h => by
      obtain ⟨hi, h⟩ := ReadBack.append h
      obtain ⟨ht, h⟩ := h.append
      obtain ⟨hu, hb⟩ := h.append
      exact .forLoop (Stmt.writtenOption_encode i hi) (Expr.writtenOption_encode t ht)
        (Expr.writtenOption_encode u hu) (b.written_encode hb)
  | .forEach x i b, h => .forEach x (i.written_encode h.append.1) (b.written_encode h.append.2)
  | .ret e, h => .ret (Expr.writtenOption_encode e h)
  | .breakLoop, _ => .breakLoop
  | .continueLoop, _ => .continueLoop
  | .throw e, h => .throw (e.written_encode h)
  | .tryCatch b p g f, h => by
      obtain ⟨hb, h⟩ := ReadBack.append h
      obtain ⟨hg, hf⟩ := h.append
      exact .tryCatch p (b.written_encode hb) (Stmt.writtenOption_encode g hg)
        (Stmt.writtenOption_encode f hf)
  | .function f, h => .function (f.written_encode h)
  | .holding s, h => .holding (s.written_encode h)

theorem Stmt.writtenList_encode :
    (ss : List Stmt) → ReadBack number (Stmt.numbersList ss) →
      Stmt.WrittenList false ss (Stmt.encodeList number ss)
  | [], _ => .nil
  | s :: ss, h => .cons (s.written_encode h.append.1) (Stmt.writtenList_encode ss h.append.2)

theorem Stmt.writtenOption_encode :
    (s : Option Stmt) → ReadBack number (Stmt.numbersOption s) →
      Stmt.WrittenOption false s (Stmt.encodeOption number s)
  | none, _ => .none
  | some s, h => .some (s.written_encode h)

theorem Item.written_encode :
    (i : Item) → ReadBack number i.numbers → Item.Written false i (i.encode number)
  | ⟨acquire, binding, none⟩, h => .object binding (acquire.written_encode h)
  | ⟨acquire, binding, some arity⟩, h =>
      .objectWithArity binding arity (acquire.written_encode h)

theorem Item.writtenList_encode :
    (is : List Item) → ReadBack number (Item.numbersList is) →
      Item.WrittenList false is (Item.encodeList number is)
  | [], _ => .nil
  | i :: is, h => .cons (i.written_encode h.append.1) (Item.writtenList_encode is h.append.2)

/-- The encoding of a scoped statement is a written form without arrays. -/
theorem Scoped.written_encode :
    (s : Scoped) → ReadBack number s.numbers → Scoped.Written false s (s.encode number)
  | ⟨items, body, isAsync⟩, h =>
      .object isAsync (Item.writtenList_encode items h.append.1)
        (Stmt.writtenList_encode body h.append.2)

end

theorem Program.written_encode
    (p : Program) (h : ReadBack number p.numbers) :
    Program.Written false p (p.encode number) :=
  .object (Stmt.writtenList_encode p.body h)

end Encoding

end Bracket
