import Bracket.Text.Identifier
import Bracket.Tree.Basic

/-!
# The nodes of a program

All expressions and statements of a program, each before its parts.  The parts of a scoped
statement are left out: such a statement has to be expanded before there is code for them.
-/

namespace Bracket

/-- A node of a tree. -/
inductive Node where
  | expr (e : Expr)
  | stmt (s : Stmt)

mutual

/-- The expression and all nodes inside of it. -/
def Expr.nodes : Expr → List Node
  | .literal l => [.expr (.literal l)]
  | .ident x => [.expr (.ident x)]
  | .binary l op r => .expr (.binary l op r) :: (l.nodes ++ r.nodes)
  | .unary op e => .expr (.unary op e) :: e.nodes
  | .call f args => .expr (.call f args) :: (f.nodes ++ Expr.nodesList args)
  | .methodCall r m args => .expr (.methodCall r m args) :: (r.nodes ++ Expr.nodesList args)
  | .member o p computed => .expr (.member o p computed) :: (o.nodes ++ p.nodes)
  | .array es => .expr (.array es) :: Expr.nodesList es
  | .object ps => .expr (.object ps) :: Expr.nodesPairs ps
  | .function f => .expr (.function f) :: f.nodes
  | .conditional t c a => .expr (.conditional t c a) :: (t.nodes ++ (c.nodes ++ a.nodes))
  | .assign t v => .expr (.assign t v) :: (t.nodes ++ v.nodes)
  | .await e => .expr (.await e) :: e.nodes

def Expr.nodesList : List Expr → List Node
  | [] => []
  | e :: es => e.nodes ++ Expr.nodesList es

def Expr.nodesOption : Option Expr → List Node
  | none => []
  | some e => e.nodes

def Expr.nodesPairs : List (String × Expr) → List Node
  | [] => []
  | (_, e) :: ps => e.nodes ++ Expr.nodesPairs ps

def Func.nodes : Func → List Node
  | ⟨_, _, body, _⟩ => Stmt.nodesList body

/-- The statement and all nodes inside of it. -/
def Stmt.nodes : Stmt → List Node
  | .expr e => .stmt (.expr e) :: e.nodes
  | .declare x i m => .stmt (.declare x i m) :: Expr.nodesOption i
  | .destructure p i => .stmt (.destructure p i) :: i.nodes
  | .block b => .stmt (.block b) :: Stmt.nodesList b
  | .ifElse t c a => .stmt (.ifElse t c a) :: (t.nodes ++ (c.nodes ++ Stmt.nodesOption a))
  | .whileLoop t b => .stmt (.whileLoop t b) :: (t.nodes ++ b.nodes)
  | .forLoop i t u b =>
      .stmt (.forLoop i t u b) :: (Stmt.nodesOption i ++
        (Expr.nodesOption t ++ (b.nodes ++ Expr.nodesOption u)))
  | .forEach x i b => .stmt (.forEach x i b) :: (i.nodes ++ b.nodes)
  | .ret v => .stmt (.ret v) :: Expr.nodesOption v
  | .breakLoop => [.stmt .breakLoop]
  | .continueLoop => [.stmt .continueLoop]
  | .throw e => .stmt (.throw e) :: e.nodes
  | .tryCatch b p c f =>
      .stmt (.tryCatch b p c f) :: (b.nodes ++ (Stmt.nodesOption c ++ Stmt.nodesOption f))
  | .function f => .stmt (.function f) :: f.nodes
  | .holding s => [.stmt (.holding s)]

def Stmt.nodesList : List Stmt → List Node
  | [] => []
  | s :: ss => s.nodes ++ Stmt.nodesList ss

def Stmt.nodesOption : Option Stmt → List Node
  | none => []
  | some s => s.nodes

end

/-- The nodes of a program. -/
def Program.nodes (p : Program) : List Node := Stmt.nodesList p.body

namespace Node

/-- The names that a node itself has: those of variables, parameters, methods and declared
functions.  The names of members and keys are strings like any other. -/
def names : Node → List String
  | .expr (.ident x) => [x]
  | .expr (.methodCall _ m _) => [m]
  | .expr (.function f) => f.params
  | .stmt (.declare x _ _) => [x]
  | .stmt (.destructure p _) => p.names
  | .stmt (.forEach x _ _) => [x]
  | .stmt (.tryCatch _ p _ _) => p.toList
  | .stmt (.function f) => f.name :: f.params
  | _ => []

end Node

/-- All names of the nodes are plain. -/
def PlainNames (nodes : List Node) : Prop :=
  ∀ n ∈ nodes, ∀ x ∈ n.names, Text.isPlainIdentifier x = true

theorem plainNames_cons
    (n : Node) (ns : List Node) :
    PlainNames (n :: ns) ↔
      (∀ x ∈ n.names, Text.isPlainIdentifier x = true) ∧ PlainNames ns :=
  List.forall_mem_cons

theorem plainNames_append
    (ns ns' : List Node) : PlainNames (ns ++ ns') ↔ PlainNames ns ∧ PlainNames ns' :=
  List.forall_mem_append

end Bracket
