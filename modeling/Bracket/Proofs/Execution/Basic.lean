import Bracket.Conventions
import Bracket.Proofs.Execution.Run

/-!
# The meaning of statements

A big-step meaning for the statement language.  Declarations hold in the block
around them, and a constant is not assigned where the language has constants; a
guarded region runs its handler on a thrown value only and its cleanup on every
way out; waiting for a value changes nothing about it.

What the language itself leaves open is a parameter, the `Runtime`: which values
count as true, how the surroundings answer, and how the resources behave that are
entered and left.  The surroundings are asked and told about values as they see
them, without the variables that functions captured.  A resource records its
acquisition when it is entered, and throws then if it cannot be acquired; it
records its release when it is left, with the error that it is shown, and answers
with a true value, with a false value, or with an error of its own.

In a language of protected calls a call may have several results, lists count
from one, and `pcall` and `table.unpack` have their usual meaning.

Scoped statements have no meaning here: running code is lowered code.
-/

namespace Bracket

/-- A question about the surroundings that changes nothing. -/
inductive Query where
  | variable (name : String)
  | member (object property : Value)
  | operation (op : BinaryOp) (left right : Value)
  | negation (operand : Value)

/-- An action of the surroundings. -/
inductive Command where
  | setVariable (name : String) (value : Value)
  | setMember (object property value : Value)
  | apply (f : Value) (args : List Value)
  | invoke (object : Value) (method : String) (args : List Value)

namespace Query

/-- The question as the surroundings see it. -/
def seen : Query → Query
  | .variable x => .variable x
  | .member o p => .member o.seen p.seen
  | .operation op a b => .operation op a.seen b.seen
  | .negation v => .negation v.seen

end Query

namespace Command

/-- The action as the surroundings see it. -/
def seen : Command → Command
  | .setVariable x v => .setVariable x v.seen
  | .setMember o p v => .setMember o.seen p.seen v.seen
  | .apply f args => .apply f.seen (args.map Value.seen)
  | .invoke o m args => .invoke o.seen m (args.map Value.seen)

end Command

/-- What the language leaves open.  Everything that the surroundings give is
data: they do not make up functions of the code. -/
structure Runtime (W : Type) where
  enterMethod : String
  exitMethod : String
  /-- The behaviour of the resources. -/
  resources : List Resource
  /-- What the entry of a resource yields. -/
  entryValue : Nat → Datum
  /-- What the exit of a resource returns, unless it raises. -/
  exitResults : Nat → List Datum
  /-- The language has protected calls. -/
  protectedCalls : Bool
  /-- The error of assigning a constant, if the language has constants. -/
  constantError : Option Datum
  truthy : Value → Bool
  query : W → Query → Except Datum Datum
  command : W → Command → Except Datum (List Datum) × W × List Event
  /-- The elements of an object of the surroundings. -/
  elements : W → Value → Except Datum (List Datum)
  /-- The error of taking a list apart into a number of slots, if it is one. -/
  mismatch : (length slots : Nat) → Option Datum
  truthy_null : truthy .null = false
  truthy_bool : ∀ b, truthy (.bool b) = b
  /-- It does not matter which variables a function captured. -/
  truthy_seen : ∀ v, truthy v.seen = truthy v
  /-- An exit returns a true value exactly if it handles errors. -/
  truthy_exitResults : ∀ i,
    truthy (Value.first ((exitResults i).map Subtype.val)) =
      decide ((resources.getD i .ok).onRelease = .handled)

/-- The means to run code that is not part of a given piece of code: to call a
value, and to repeat a turn until it ends a loop. -/
structure Engine (W : Type) where
  call : Value → List Value → Run W (List Value)
  iterate : Run W (Option Completion) → Run W Completion

namespace Runtime

variable {W : Type} (rt : Runtime W)

/-! ## Names, members and operators -/

/-- What a question about the surroundings gives. -/
def answerTo (w : W) (q : Query) : Except Value Value :=
  match rt.query w q.seen with
  | .ok d => .ok d.1
  | .error d => .error d.1

def ask (q : Query) : Run W Value := .act fun w => ⟨rt.answerTo w q, w, []⟩

def tell (c : Command) : Run W (List Value) :=
  .act fun w =>
    ⟨match (rt.command w c.seen).1 with
      | .ok ds => .ok (ds.map Subtype.val)
      | .error d => .error d.1, (rt.command w c.seen).2.1, (rt.command w c.seen).2.2⟩

/-- The value that a name has where the code does not declare it. -/
def global (x : String) : Run W Value :=
  if rt.protectedCalls ∧ x = "pcall" then pure (.primitive .protectedCall)
  else if rt.protectedCalls ∧ x = "table" then pure (.primitive .tables)
  else rt.ask (.variable x)

def readName (env : Env) (x : String) : Run W Value :=
  match env x with
  | some i => .read x i
  | none => rt.global x

def assignName (env : Env) (x : String) (v : Value) : Run W Unit :=
  match env x with
  | some i => .write rt.constantError x i v
  | none => do
      let _ ← rt.tell (.setVariable x v)
      pure ()

/-- The number that the first element of a list has. -/
def firstIndex : Nat := if rt.protectedCalls then 1 else 0

/-- The element of a list at a number, and null where there is none. -/
def elementAt (vs : List Value) (d : Double) : Value :=
  if d.isWhole && !d.negative && decide (rt.firstIndex ≤ d.wholeSize) then
    vs.getD (d.wholeSize - rt.firstIndex) .null
  else .null

/-- The member of a value. -/
def memberOf (w : W) (object property : Value) : Except Value Value :=
  match object, property with
  | .sequence vs, .number d => .ok (rt.elementAt vs d)
  | .record fs, .string k => .ok ((fs.lookup k).getD .null)
  | .primitive .tables, .string k =>
      if k = "unpack" then .ok (.primitive .unpack) else .ok .null
  | _, _ => rt.answerTo w (.member object property)

def member (object property : Value) : Run W Value :=
  .act fun w => ⟨rt.memberOf w object property, w, []⟩

/-- A comparison with null is decided here, every other operation outside. -/
def operate (op : BinaryOp) (a b : Value) : Run W Value :=
  match op with
  | .eq =>
      if a.isNull || b.isNull then pure (.bool (a.isNull && b.isNull))
      else rt.ask (.operation op a b)
  | .ne =>
      if a.isNull || b.isNull then pure (.bool !(a.isNull && b.isNull))
      else rt.ask (.operation op a b)
  | _ => rt.ask (.operation op a b)

/-- Combine a value with a right operand that runs only if it is needed. -/
def combine (op : BinaryOp) (a : Value) (right : Run W Value) : Run W Value :=
  match op with
  | .and => if rt.truthy a then right else pure a
  | .or => if rt.truthy a then pure a else right
  | _ => do
      let b ← right
      rt.operate op a b

def applyUnary (op : UnaryOp) (v : Value) : Run W Value :=
  match op with
  | .not => pure (.bool !rt.truthy v)
  | .neg => rt.ask (.negation v)

/-! ## Taking values apart -/

/-- The elements that the surroundings find in a value. -/
def foreignElements (w : W) (v : Value) : Except Value (List Value) :=
  match rt.elements w v.seen with
  | .ok ds => .ok (ds.map Subtype.val)
  | .error d => .error d.1

/-- The elements of a value. -/
def elementsOf (w : W) : Value → Except Value (List Value)
  | .sequence vs => .ok vs
  | v => rt.foreignElements w v

/-- The values for a number of slots, with null where there are too few. -/
def spread (w : W) (v : Value) (slots : Nat) : Except Value (List Value) := do
  let vs ← rt.elementsOf w v
  match rt.mismatch vs.length slots with
  | some d => .error d.1
  | none => .ok vs

mutual

/-- The values of the names of a pattern, in order. -/
def takeApart (w : W) : Pattern → Value → Except Value (List Value)
  | .name _, v => .ok [v]
  | .tuple ps, v => do
      let vs ← rt.spread w v ps.length
      takeApartList w ps vs

def takeApartList (w : W) : List Pattern → List Value → Except Value (List Value)
  | [], _ => .ok []
  | p :: ps, vs => do
      let us ← takeApart w p (Value.first vs)
      let us' ← takeApartList w ps vs.tail
      .ok (us ++ us')

end

mutual

/-- The values of the names of a pattern, in order, where each of them is read
from a source by positions.  Element `i` of a tuple has the position
`i + base`. -/
def readApart (w : W) (base : UInt64) (source : Except Value Value) :
    Pattern → Except Value (List Value)
  | .name _ => do
      let v ← source
      .ok [v]
  | .tuple ps => readSlots w base source 0 ps

/-- The values of the slots from position `i` on. -/
def readSlots (w : W) (base : UInt64) (source : Except Value Value) (i : Nat) :
    List Pattern → Except Value (List Value)
  | [] => .ok []
  | p :: ps => do
      let position := Double.ofNat (UInt64.ofNat i + base).toNat
      let us ← readApart w base
        (do
          let v ← source
          rt.memberOf w v (.number position)) p
      let us' ← readSlots w base source (i + 1) ps
      .ok (us ++ us')

end

/-- Unpack an entry value by the conventions of a language: the values of the
names of the pattern, or the error that taking the value apart raises. -/
def unpack (conv : Conventions) (w : W) (p : Pattern) (v : Value) :
    Except Value (List Value) :=
  if conv.nativeUnpacking then rt.takeApart w p v
  else rt.readApart w conv.indexBase (.ok v) p

/-! ## Calls -/

/-- The behaviour of the resource at a position. -/
def resource (i : Nat) : Resource := rt.resources.getD i .ok

/-- Enter a resource. -/
def enter (i : Nat) : Run W (List Value) :=
  .act fun w =>
    ⟨match (rt.resource i).acquireFails with
      | some e => .error (.fault e)
      | none => .ok [(rt.entryValue i).1], w, [.acquire i]⟩

/-- Leave a resource and show it a value. -/
def leave (i : Nat) (shown : Value) : Run W (List Value) :=
  .act fun w =>
    ⟨match (rt.resource i).onRelease with
      | .replace e => .error (.fault e)
      | _ => .ok ((rt.exitResults i).map Subtype.val), w, [.release i shown.asFault]⟩

/-- Call a method. -/
def invoke (eng : Engine W) (object : Value) (method : String) (args : List Value) :
    Run W (List Value) :=
  match object with
  | .manager i =>
      if method = rt.enterMethod then rt.enter i
      else if method = rt.exitMethod then rt.leave i (Value.first args)
      else rt.tell (.invoke object method args)
  | .record fs =>
      match fs.lookup method with
      | some f => eng.call f (if rt.protectedCalls then object :: args else args)
      | none => rt.tell (.invoke object method args)
  | _ => rt.tell (.invoke object method args)

/-- The results of a call, of which there is exactly one unless the language has
protected calls. -/
def adjust (vs : List Value) : List Value :=
  if rt.protectedCalls then vs else [Value.first vs]

end Runtime

variable {W : Type}

/-! ## Expressions -/

mutual

/-- The results of an expression: several only if it is a call. -/
def Expr.results (rt : Runtime W) (eng : Engine W) (env : Env) : Expr → Run W (List Value)
  | .literal l => pure [Value.ofLiteral l]
  | .ident x => do
      let v ← rt.readName env x
      pure [v]
  | .binary l op r => do
      let a ← (l.results rt eng env).one
      let v ← rt.combine op a (r.results rt eng env).one
      pure [v]
  | .unary op e => do
      let a ← (e.results rt eng env).one
      let v ← rt.applyUnary op a
      pure [v]
  | .call f args => do
      let g ← (f.results rt eng env).one
      let vs ← Expr.resultsList rt eng env args
      let us ← eng.call g vs
      pure (rt.adjust us)
  | .methodCall r m args => do
      let o ← (r.results rt eng env).one
      let vs ← Expr.resultsList rt eng env args
      let us ← rt.invoke eng o m vs
      pure (rt.adjust us)
  | .member o p _ => do
      let a ← (o.results rt eng env).one
      let b ← (p.results rt eng env).one
      let v ← rt.member a b
      pure [v]
  | .array es => do
      let vs ← Expr.resultsList rt eng env es
      pure [.sequence vs]
  | .object ps => do
      let fs ← Expr.resultsPairs rt eng env ps
      pure [.record fs]
  | .function f => pure [.closure f (env.restrict f.names)]
  | .conditional t a b => do
      let c ← (t.results rt eng env).one
      let v ← (if rt.truthy c then (a.results rt eng env).one else (b.results rt eng env).one)
      pure [v]
  | .assign t e => Expr.assignTo rt eng env (e.results rt eng env).one t
  | .await e => e.results rt eng env

/-- Assign the value of a run to a variable or to a member.  Lists and objects
that the code writes down are plain values and never change: an assignment to an
element or to a field is told to the surroundings, whatever its object is. -/
def Expr.assignTo (rt : Runtime W) (eng : Engine W) (env : Env) (value : Run W Value) :
    Expr → Run W (List Value)
  | .ident x => do
      let v ← value
      rt.assignName env x v
      pure [v]
  | .member o p _ => do
      let a ← (o.results rt eng env).one
      let b ← (p.results rt eng env).one
      let v ← value
      let _ ← rt.tell (.setMember a b v)
      pure [v]
  | _ => .fail

/-- The results of expressions in a list; the last one may have several. -/
def Expr.resultsList (rt : Runtime W) (eng : Engine W) (env : Env) :
    List Expr → Run W (List Value)
  | [] => pure []
  | e :: es =>
      if es.isEmpty then e.results rt eng env
      else do
        let v ← (e.results rt eng env).one
        let vs ← Expr.resultsList rt eng env es
        pure (v :: vs)

def Expr.resultsPairs (rt : Runtime W) (eng : Engine W) (env : Env) :
    List (String × Expr) → Run W (List (String × Value))
  | [] => pure []
  | (k, e) :: ps => do
      let v ← (e.results rt eng env).one
      let fs ← Expr.resultsPairs rt eng env ps
      pure ((k, v) :: fs)

end

/-- The value of an expression that may be missing. -/
def Expr.valueOption (rt : Runtime W) (eng : Engine W) (env : Env) (missing : Value) :
    Option Expr → Run W Value
  | none => pure missing
  | some e => (e.results rt eng env).one

/-! ## Statements -/

mutual

/-- Run a statement.  The result says how it ends and what it declares. -/
def Stmt.exec (rt : Runtime W) (eng : Engine W) (env : Env) :
    Stmt → Run W (Completion × Declared)
  | .expr e => do
      let _ ← e.results rt eng env
      pure (.normal, [])
  | .declare x i mutable => do
      let v ← Expr.valueOption rt eng env .null i
      let n ← Run.declare mutable x v
      pure (.normal, [(x, n)])
  | .destructure p i => do
      let v ← (i.results rt eng env).one
      let vs ← Run.act fun w => ⟨rt.takeApart w p v, w, []⟩
      let ds ← Run.declareAll p.names vs
      pure (.normal, ds)
  | .block b => do
      let c ← Stmt.execList rt eng env b
      pure (c, [])
  | .ifElse t a b => do
      let v ← (t.results rt eng env).one
      if rt.truthy v then do
        let r ← a.exec rt eng env
        pure (r.1, [])
      else do
        let r ← Stmt.execOption rt eng env b
        pure (r.1, [])
  | .whileLoop t b => do
      let c ← eng.iterate (do
        let v ← (t.results rt eng env).one
        if rt.truthy v then do
          let r ← b.exec rt eng env
          pure r.1.afterTurn
        else pure (some .normal))
      pure (c, [])
  | .forLoop i t u b => do
      let r ← Stmt.execOption rt eng env i
      match r.1 with
      | .normal => do
          let c ← eng.iterate (do
            let v ← Expr.valueOption rt eng (env.extend r.2) (.bool true) t
            if rt.truthy v then do
              let r' ← b.exec rt eng (env.extend r.2)
              match r'.1.afterTurn with
              | some c => pure (some c)
              | none => do
                  let _ ← Expr.valueOption rt eng (env.extend r.2) .null u
                  pure none
            else pure (some .normal))
          pure (c, [])
      | c => pure (c, [])
  | .forEach x i b => do
      let v ← (i.results rt eng env).one
      let vs ← Run.act fun w => ⟨rt.elementsOf w v, w, []⟩
      let c ← Run.forEach (fun v => do
        let n ← Run.declare false x v
        let r ← b.exec rt eng (env.set x n)
        pure r.1.afterTurn) vs
      pure (c, [])
  | .ret none => pure (.returned [], [])
  | .ret (some e) => do
      let vs ← e.results rt eng env
      pure (.returned vs, [])
  | .breakLoop => pure (.broke, [])
  | .continueLoop => pure (.continued, [])
  | .throw e => do
      let v ← (e.results rt eng env).one
      Run.raise v
  | .tryCatch b x h f => do
      let c ← Run.guarded
        (do
          let r ← b.exec rt eng env
          pure r.1)
        (Stmt.handle rt eng env x h)
        (do
          let r ← Stmt.execOption rt eng env f
          pure r.1)
      pure (c, [])
  | .function f => do
      let n ← Run.declare true f.name .null
      Run.write none f.name n (.closure f ((env.set f.name n).restrict f.names))
      pure (.normal, [(f.name, n)])
  | .holding _ => .fail

/-- Run statements one after the other until one of them ends otherwise than
normally. -/
def Stmt.execList (rt : Runtime W) (eng : Engine W) (env : Env) :
    List Stmt → Run W Completion
  | [] => pure .normal
  | s :: ss => do
      let r ← s.exec rt eng env
      match r.1 with
      | .normal => Stmt.execList rt eng (env.extend r.2) ss
      | c => pure c

def Stmt.execOption (rt : Runtime W) (eng : Engine W) (env : Env) :
    Option Stmt → Run W (Completion × Declared)
  | none => pure (.normal, [])
  | some s => s.exec rt eng env

/-- Run a handler for a thrown value; without one the value is thrown on. -/
def Stmt.handle (rt : Runtime W) (eng : Engine W) (env : Env) (param : Option String) :
    Option Stmt → Value → Run W Completion
  | none, v => Run.raise v
  | some h, v =>
      match param with
      | none => do
          let r ← h.exec rt eng env
          pure r.1
      | some x => do
          let n ← Run.declare true x v
          let r ← h.exec rt eng (env.set x n)
          pure r.1

end

/-! ## Functions and loops -/

namespace Runtime

variable (rt : Runtime W)

/-- Call a value, with the given means to run further code. -/
def apply (eng : Engine W) (f : Value) (args : List Value) : Run W (List Value) :=
  match f, args with
  | .closure g captured, args => do
      let ds ← Run.declareAll g.params args
      let c ← Stmt.execList rt eng (captured.extend ds) g.body
      match c with
      | .normal => pure []
      | .returned vs => pure vs
      | _ => .fail
  | .primitive .protectedCall, g :: args => do
      let r ← Run.attempt (eng.call g args)
      match r with
      | .ok vs => pure (.bool true :: vs)
      | .error v => pure [.bool false, v]
  | .primitive .unpack, .sequence vs :: _ => pure vs
  | f, args => rt.tell (.apply f args)

/-- The means to run code with at most `n` nested calls and `n` turns of each
loop. -/
def engine : Nat → Engine W
  | 0 => ⟨fun _ _ => .fail, fun _ => .fail⟩
  | n + 1 =>
      { call := rt.apply (engine n)
        iterate := fun turn => do
          let ended ← turn
          match ended with
          | some c => pure c
          | none => (engine n).iterate turn }

/-- An expression evaluates in a state to one value or throws. -/
def Evaluates (env : Env) (e : Expr) (s : State W) (a : Answer W Value) : Prop :=
  ∃ n, (e.results rt (rt.engine n) env).one s = some a

/-- Statements run from a state to an answer. -/
def Executes (env : Env) (body : List Stmt) (s : State W) (a : Answer W Completion) : Prop :=
  ∃ n, Stmt.execList rt (rt.engine n) env body s = some a

end Runtime

end Bracket
