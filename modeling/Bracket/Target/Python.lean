import Bracket.Double.Text
import Bracket.Text.Layout
import Bracket.Text.Quoted
import Bracket.Tree.Basic

/-!
# Python code

Expressions fill part of a line; a statement is a list of lines.  Scoped
statements are written as they are.  Python has no blocks of their own, so the
statements of a block stand in its place, and a suite without statements holds
`pass`.  A counting loop becomes a `while` loop whose suite ends with the
update.
-/

namespace Bracket

namespace Python

open Text (Line commaSeparated)

def binaryOp : BinaryOp → String
  | .add => "+"
  | .sub => "-"
  | .mul => "*"
  | .div => "/"
  | .mod => "%"
  | .eq => "=="
  | .ne => "!="
  | .lt => "<"
  | .le => "<="
  | .gt => ">"
  | .ge => ">="
  | .and => "and"
  | .or => "or"
  | .concat => "+"

def unaryOp : UnaryOp → String
  | .neg => "-"
  | .not => "not "

def literal : Literal → String
  | .null => "None"
  | .bool true => "True"
  | .bool false => "False"
  | .number d => d.text .signed64
  | .string s => Text.quoted s

/-- The expression is a suspension point. -/
def isAwait : Expr → Bool
  | .await _ => true
  | _ => false

/-- The text in parentheses if `b` holds. -/
def groupedIf (b : Bool) (text : String) : String := if b then "(" ++ text ++ ")" else text

mutual

/-- The text of an expression. -/
def expr : Expr → String
  | .literal l => literal l
  | .ident n => n
  | .binary l op r => "(" ++ expr l ++ " " ++ binaryOp op ++ " " ++ expr r ++ ")"
  | .unary op e => unaryOp op ++ expr e
  | .call f args => expr f ++ "(" ++ commaSeparated (exprs args) ++ ")"
  | .methodCall r m args =>
      groupedIf (isAwait r) (expr r) ++ "." ++ m ++ "(" ++ commaSeparated (exprs args) ++ ")"
  | .member o p true => expr o ++ "[" ++ expr p ++ "]"
  | .member o (.literal (.string s)) false => expr o ++ "." ++ s
  | .member o p false => expr o ++ "." ++ expr p
  | .array es => "[" ++ commaSeparated (exprs es) ++ "]"
  | .object ps => "\x7b" ++ commaSeparated (pairs ps) ++ "\x7d"
  | .function ⟨_, params, [.ret (some e)], _⟩ =>
      "lambda " ++ commaSeparated params ++ ": " ++ expr e
  | .function _ => "None  # complex function"
  | .conditional t c a => "(" ++ expr c ++ " if " ++ expr t ++ " else " ++ expr a ++ ")"
  | .assign t v => expr t ++ " = " ++ expr v
  | .await e => "await " ++ expr e

def exprs : List Expr → List String
  | [] => []
  | e :: es => expr e :: exprs es

/-- The entries of a dictionary. -/
def pairs : List (String × Expr) → List String
  | [] => []
  | (k, e) :: ps => ("\"" ++ k ++ "\": " ++ expr e) :: pairs ps

end

/-- A resource of a scoped statement. -/
def item (i : Item) : String :=
  match i.binding with
  | none => expr i.acquire
  | some p => expr i.acquire ++ " as " ++ p.display

def asyncMark (isAsync : Bool) : String := if isAsync then "async " else ""

/-- The first line is moved to a larger depth. -/
def deepenFirst (levels : Nat) : List Line → List Line
  | [] => []
  | line :: rest => line.deepen levels :: rest

/-- The line that begins an exception handler. -/
def exceptLine (depth : Nat) : Option String → Line
  | none => ⟨depth, "except BaseException:"⟩
  | some param => ⟨depth, "except BaseException as " ++ param ++ ":"⟩

mutual

/-- The lines of a statement.  The initialisation of a counting loop starts on
the line of the loop itself, so its first line is indented once for the loop and
once for itself. -/
def stmt (depth : Nat) : Stmt → List Line
  | .expr e => [⟨depth, expr e⟩]
  | .declare n none _ => [⟨depth, n ++ " = None"⟩]
  | .declare n (some e) _ => [⟨depth, n ++ " = " ++ expr e⟩]
  | .destructure p i => [⟨depth, p.display ++ " = " ++ expr i⟩]
  | .block b => suite depth b
  | .ifElse t c a =>
      ⟨depth, "if " ++ expr t ++ ":"⟩ :: stmt (depth + 1) c ++ elseBranch depth a
  | .whileLoop t b => ⟨depth, "while " ++ expr t ++ ":"⟩ :: stmt (depth + 1) b
  | .forLoop i t u b =>
      let init := match i with
        | none => []
        | some i => deepenFirst depth (stmt depth i)
      let test := match t with
        | none => "True"
        | some t => expr t
      let update : List Line := match u with
        | none => []
        | some u => [⟨depth + 1, expr u⟩]
      init ++ ⟨depth, "while " ++ test ++ ":"⟩ :: stmt (depth + 1) b ++ update
  | .forEach n i b => ⟨depth, "for " ++ n ++ " in " ++ expr i ++ ":"⟩ :: stmt (depth + 1) b
  | .ret none => [⟨depth, "return"⟩]
  | .ret (some e) => [⟨depth, "return " ++ expr e⟩]
  | .breakLoop => [⟨depth, "break"⟩]
  | .continueLoop => [⟨depth, "continue"⟩]
  | .throw e => [⟨depth, "raise " ++ expr e⟩]
  | .tryCatch b p c f =>
      let handler := match c with
        | none => []
        | some c => exceptLine depth p :: stmt (depth + 1) c
      let finalizer : List Line := match f with
        | none => []
        | some f => ⟨depth, "finally:"⟩ :: stmt (depth + 1) f
      ⟨depth, "try:"⟩ :: stmt (depth + 1) b ++ handler ++ finalizer
  | .function ⟨name, params, body, isAsync⟩ =>
      let shown := if name.isEmpty then "_anonymous" else name
      ⟨depth, asyncMark isAsync ++ "def " ++ shown ++ "(" ++ commaSeparated params ++ "):"⟩
        :: suite (depth + 1) body
  | .holding ⟨items, body, isAsync⟩ =>
      ⟨depth, asyncMark isAsync ++ "with " ++ commaSeparated (items.map item) ++ ":"⟩
        :: suite (depth + 1) body

/-- The lines of a list of statements, `pass` if there are none. -/
def suite (depth : Nat) : List Stmt → List Line
  | [] => [⟨depth, "pass"⟩]
  | s :: ss => stmt depth s ++ stmts depth ss

def stmts (depth : Nat) : List Stmt → List Line
  | [] => []
  | s :: ss => stmt depth s ++ stmts depth ss

/-- The lines of what stands behind the first branch of a conditional. -/
def elseBranch (depth : Nat) : Option Stmt → List Line
  | none => []
  | some (.ifElse t c a) =>
      ⟨depth, "elif " ++ expr t ++ ":"⟩ :: stmt (depth + 1) c ++ elseBranch depth a
  | some s => ⟨depth, "else:"⟩ :: stmt (depth + 1) s

end

/-- The lines of a program. -/
def lines (p : Program) : List Line := stmts 0 p.body

end Python

end Bracket
