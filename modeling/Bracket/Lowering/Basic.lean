import Bracket.Lowering.Guarded
import Bracket.Lowering.ProtectedCall

/-!
# Lowering of scoped statements

Every scoped statement of a tree is replaced by statements that the target
language has: the scoped statement itself where the language knows it, and
otherwise one expansion for each resource, nested in the order of acquisition so
that releases run from the inside out.

Resources are numbered in the order in which their statements begin.  The number
of the next resource is the state of the computation; its errors are those of
the first invalid statement on the way.
-/

namespace Bracket

/-- A computation that numbers resources and may fail. -/
abbrev Lowering (α : Type) := StateT Nat (Except LoweringError) α

namespace Context

/-- Refuse an asynchronous statement that the language or the enclosing body
cannot host. -/
def checkSuspension (c : Context) (isAsync inAsync : Bool) : Except LoweringError Unit :=
  if isAsync then
    if !c.conventions.supportsSuspension then
      .error (.unsupported c.conventions.language .suspension)
    else if !inAsync then
      .error (.unsupported c.conventions.language .suspensionOutsideAsync)
    else .ok ()
  else .ok ()

/-- Refuse a flawed binding and, where names are generated, a name that begins
like a generated one. -/
def checkBinding (c : Context) (item : Item) : Except LoweringError Unit :=
  match item.resolve with
  | .error flaw => .error (.malformedBinding flaw)
  | .ok binding =>
      if c.conventions.expansion = .native then .ok ()
      else
        match binding.names.find? c.isReserved with
        | some name => .error (.malformedBinding (.reservedName name c.tempPrefix))
        | none => .ok ()

/-- Nest the expansions of resources, the first one numbered `n`, around
statements. -/
def expandItems (c : Context) (isAsync : Bool) (n : Nat) :
    List Item → List Stmt → Except LoweringError (List Stmt)
  | [], inner => .ok inner
  | item :: items, inner => do
      let inner ← expandItems c isAsync (n + 1) items inner
      if c.conventions.expansion = .protectedCall then c.expandProtected n item inner
      else .ok (c.expandGuarded isAsync n item inner)

/-- The statements that stand for a scoped statement whose parts are lowered and
whose first resource is numbered `n`. -/
def expandScoped (c : Context) (n : Nat) (s : Scoped) : Except LoweringError (List Stmt) :=
  if c.conventions.expansion = .native then .ok [.holding s]
  else c.expandItems s.isAsync n s.items s.body

end Context

/-- Take numbers for `n` resources and return the first. -/
def Lowering.reserve (n : Nat) : Lowering Nat := do
  let first ← get
  set (first + n)
  pure first

mutual

/-- Lower the function literals inside an expression. -/
def Expr.lower (c : Context) (inAsync : Bool) : Expr → Lowering Expr
  | .literal l => pure (.literal l)
  | .ident n => pure (.ident n)
  | .binary l op r => do
      let l ← l.lower c inAsync
      let r ← r.lower c inAsync
      pure (.binary l op r)
  | .unary op e => do
      let e ← e.lower c inAsync
      pure (.unary op e)
  | .call f args => do
      let f ← f.lower c inAsync
      let args ← Expr.lowerList c inAsync args
      pure (.call f args)
  | .methodCall r m args => do
      let r ← r.lower c inAsync
      let args ← Expr.lowerList c inAsync args
      pure (.methodCall r m args)
  | .member o p computed => do
      let o ← o.lower c inAsync
      let p ← p.lower c inAsync
      pure (.member o p computed)
  | .array es => do
      let es ← Expr.lowerList c inAsync es
      pure (.array es)
  | .object ps => do
      let ps ← Expr.lowerPairs c inAsync ps
      pure (.object ps)
  | .function f => do
      let f ← f.lower c
      pure (.function f)
  | .conditional t a b => do
      let t ← t.lower c inAsync
      let a ← a.lower c inAsync
      let b ← b.lower c inAsync
      pure (.conditional t a b)
  | .assign t v => do
      let t ← t.lower c inAsync
      let v ← v.lower c inAsync
      pure (.assign t v)
  | .await e => do
      let e ← e.lower c inAsync
      pure (.await e)

def Expr.lowerList (c : Context) (inAsync : Bool) : List Expr → Lowering (List Expr)
  | [] => pure []
  | e :: es => do
      let e ← e.lower c inAsync
      let es ← Expr.lowerList c inAsync es
      pure (e :: es)

def Expr.lowerOption (c : Context) (inAsync : Bool) : Option Expr → Lowering (Option Expr)
  | none => pure none
  | some e => do
      let e ← e.lower c inAsync
      pure (some e)

def Expr.lowerPairs (c : Context) (inAsync : Bool) :
    List (String × Expr) → Lowering (List (String × Expr))
  | [] => pure []
  | (k, e) :: ps => do
      let e ← e.lower c inAsync
      let ps ← Expr.lowerPairs c inAsync ps
      pure ((k, e) :: ps)

/-- Lower the body of a function, which decides by itself whether it may
suspend. -/
def Func.lower (c : Context) : Func → Lowering Func
  | ⟨name, params, body, isAsync⟩ => do
      let body ← Stmt.lowerList c isAsync body
      pure ⟨name, params, body, isAsync⟩

/-- The statements that a statement becomes. -/
def Stmt.lower (c : Context) (inAsync : Bool) : Stmt → Lowering (List Stmt)
  | .expr e => do
      let e ← e.lower c inAsync
      pure [.expr e]
  | .declare n i m => do
      let i ← Expr.lowerOption c inAsync i
      pure [.declare n i m]
  | .destructure p i => do
      let i ← i.lower c inAsync
      pure [.destructure p i]
  | .block b => do
      let b ← Stmt.lowerList c inAsync b
      pure [.block b]
  | .ifElse t a b => do
      let t ← t.lower c inAsync
      let a ← a.lower c inAsync
      let b ← Stmt.lowerOption c inAsync b
      pure [.ifElse t (Stmt.ofList a) b]
  | .whileLoop t b => do
      let t ← t.lower c inAsync
      let b ← b.lower c inAsync
      pure [.whileLoop t (Stmt.ofList b)]
  | .forLoop i t u b => do
      let i ← Stmt.lowerOption c inAsync i
      let t ← Expr.lowerOption c inAsync t
      let u ← Expr.lowerOption c inAsync u
      let b ← b.lower c inAsync
      pure [.forLoop i t u (Stmt.ofList b)]
  | .forEach n i b => do
      let i ← i.lower c inAsync
      let b ← b.lower c inAsync
      pure [.forEach n i (Stmt.ofList b)]
  | .ret v => do
      let v ← Expr.lowerOption c inAsync v
      pure [.ret v]
  | .breakLoop => pure [.breakLoop]
  | .continueLoop => pure [.continueLoop]
  | .throw e => do
      let e ← e.lower c inAsync
      pure [.throw e]
  | .tryCatch b p h f => do
      let b ← b.lower c inAsync
      let h ← Stmt.lowerOption c inAsync h
      let f ← Stmt.lowerOption c inAsync f
      pure [.tryCatch (Stmt.ofList b) p h f]
  | .function f => do
      let f ← f.lower c
      pure [.function f]
  | .holding s => s.lower c inAsync

/-- Lower a list of statements; what one statement becomes is spliced in. -/
def Stmt.lowerList (c : Context) (inAsync : Bool) : List Stmt → Lowering (List Stmt)
  | [] => pure []
  | s :: ss => do
      let s ← s.lower c inAsync
      let ss ← Stmt.lowerList c inAsync ss
      pure (s ++ ss)

def Stmt.lowerOption (c : Context) (inAsync : Bool) : Option Stmt → Lowering (Option Stmt)
  | none => pure none
  | some s => do
      let s ← s.lower c inAsync
      pure (some (Stmt.ofList s))

/-- Check the binding of a resource and lower its acquisition. -/
def Item.lower (c : Context) (inAsync : Bool) : Item → Lowering Item
  | ⟨acquire, binding, arity⟩ => do
      c.checkBinding ⟨acquire, binding, arity⟩
      let acquire ← acquire.lower c inAsync
      pure ⟨acquire, binding, arity⟩

def Item.lowerList (c : Context) (inAsync : Bool) : List Item → Lowering (List Item)
  | [] => pure []
  | i :: is => do
      let i ← i.lower c inAsync
      let is ← Item.lowerList c inAsync is
      pure (i :: is)

/-- The statements that a scoped statement becomes. -/
def Scoped.lower (c : Context) (inAsync : Bool) : Scoped → Lowering (List Stmt)
  | ⟨items, body, isAsync⟩ => do
      if items.isEmpty then throw .emptyStatement
      c.checkSuspension isAsync inAsync
      let n ← Lowering.reserve items.length
      let items ← Item.lowerList c inAsync items
      let body ← Stmt.lowerList c inAsync body
      c.expandScoped n ⟨items, body, isAsync⟩

end

/-- Lower a program.  `inAsync` says whether its top level may suspend. -/
def Program.lower (c : Context) (inAsync : Bool) (p : Program) : Except LoweringError Program := do
  let (body, _) ← (Stmt.lowerList c inAsync p.body).run 0
  .ok ⟨body⟩

/-- Lower a scoped statement on its own.  It is taken to stand in a body that
may suspend if it needs to. -/
def Scoped.lowerAlone (c : Context) (inAsync : Bool) (s : Scoped) :
    Except LoweringError (List Stmt) := do
  let (body, _) ← (s.lower c (s.isAsync || inAsync)).run 0
  .ok body

end Bracket
