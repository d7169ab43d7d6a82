import Bracket.Target.Lua
import Bracket.Text.Buffer

/-!
# The writer for Lua

Expressions continue the current line, and a function inside of one writes whole lines
in between.  A statement leaves its last line open.  Where a statement needs local
variables of its own, they are made up when the statement is written, so their numbers
follow the order of the text.
-/

namespace Bracket

namespace Lua

open Text (Writing commaSeparated)
open Text.Writing (push writeIndent newline writeLine deeper freshLocal textOf)

/-- Where a block stands: among statements, in the place of a body, or behind the lines
of a statement that goes on. -/
inductive Place where
  | statement
  | body
  | behind
  deriving DecidableEq, Repr

def isBlock : Stmt → Bool
  | .block _ => true
  | _ => false

/-- Write lines that begin behind a head, and end them by a tail on a line of its own. -/
def writeRegion (head : String) (lines : Writing Unit) (tail : String) : Writing Unit := do
  push (head ++ "\n")
  lines
  writeIndent
  push tail

/-- Write the statements of a body on lines of their own, one level deeper. -/
def writeBody (block : Bool) (write : Place → Writing Unit) : Writing Unit :=
  deeper (if block then write .body else writeLine (write .statement))

/-- Write the statements of a body behind an open line, each on a line of its own. -/
def writeBodyBehind (block : Bool) (write : Place → Writing Unit) : Writing Unit :=
  if block then write .behind
  else do
    newline
    write .statement

/-- Write the body of a loop, with an update behind it or without. -/
def writeLoopBody (label hasUpdate : Bool) (body update : Writing Unit) : Writing Unit :=
  match label, hasUpdate with
  | false, false => body
  | false, true => do
      body
      deeper (writeLine update)
  | true, false => do
      body
      deeper (writeLine (push "::continue::"))
  | true, true =>
      deeper (do
        writeLine (writeRegion "do" body "end")
        writeLine (push "::continue::")
        writeLine update)

/-- Write an expression as it can stand before a call or a member access. -/
def writeGrouped (bare : Bool) (e : Writing Unit) : Writing Unit :=
  if bare then e
  else do
    push "("
    e
    push ")"

/-- Write the access to a member. -/
def writeMemberAccess (computed : Bool) (property : Expr) (write : Writing Unit) : Writing Unit :=
  let bracketed : Writing Unit := do
    push "["
    write
    push "]"
  match property with
  | .literal (.string s) =>
      if !computed && Text.isPlainIdentifier s then push ("." ++ s) else bracketed
  | _ => bracketed

/-- Write a table constructor with the given entries. -/
def writeTable (isEmpty : Bool) (entries : Writing Unit) : Writing Unit :=
  if isEmpty then push "\x7b\x7d"
  else do
    push "\x7b "
    entries
    push " \x7d"

/-- The variables for the slots of a tuple; nested tuples get made-up ones. -/
def freshSlotNames : List Pattern → Writing (List String)
  | [] => pure []
  | .name n :: ps => do
      let names ← freshSlotNames ps
      pure (n :: names)
  | .tuple _ :: ps => do
      let name ← freshLocal "slot"
      let names ← freshSlotNames ps
      pure (name :: names)

mutual

/-- Write declarations that take a value apart. -/
def writeDestructure (source : Writing Unit) : Pattern → Writing Unit
  | .name n => do
      push ("local " ++ n ++ " = ")
      source
  | .tuple slots => do
      let names ← freshSlotNames slots
      push ("local " ++ commaSeparated names ++ " = table.unpack(")
      source
      push ")"
      writeNested slots names

/-- Write the declarations for the nested tuples among slots whose variables are given. -/
def writeNested : List Pattern → List String → Writing Unit
  | .name _ :: ps, _ :: names => writeNested ps names
  | .tuple slots :: ps, name :: names => do
      newline
      writeDestructure (push name) (.tuple slots)
      writeNested ps names
  | _, _ => pure ()

end

mutual

/-- Write an expression. -/
def writeExpr : Expr → Writing Unit
  | .literal l => push (literal l)
  | .ident n => push n
  | .binary l op r => do
      push "("
      writeExpr l
      push (" " ++ binaryOp op ++ " ")
      writeExpr r
      push ")"
  | .unary op e => do
      push (unaryOp op)
      writeExpr e
  | .call f args => do
      writeGrouped (isPrefixForm f) (writeExpr f)
      push "("
      writeExprs args
      push ")"
  | .methodCall r m args => do
      writeGrouped (isPrefixForm r) (writeExpr r)
      push (":" ++ m)
      push "("
      writeExprs args
      push ")"
  | .member o p computed => do
      writeGrouped (isPrefixForm o) (writeExpr o)
      writeMemberAccess computed p (writeExpr p)
  | .array es => writeTable es.isEmpty (writeExprs es)
  | .object ps => writeTable ps.isEmpty (writePairs ps)
  | .function ⟨_, params, body, _⟩ =>
      writeRegion ("function(" ++ commaSeparated params ++ ")") (deeper (writeStmts body)) "end"
  | .conditional t c a => do
      push "("
      writeExpr t
      push " and "
      writeExpr c
      push " or "
      writeExpr a
      push ")"
  | .assign t v => do
      writeExpr t
      push " = "
      writeExpr v
  | .await e => writeExpr e

/-- Write expressions with commas between them. -/
def writeExprs : List Expr → Writing Unit
  | [] => pure ()
  | [e] => writeExpr e
  | e :: es => do
      writeExpr e
      push ", "
      writeExprs es

/-- Write the entries of a table constructor with keys. -/
def writePairs : List (String × Expr) → Writing Unit
  | [] => pure ()
  | [(k, e)] => do
      push (key k ++ " = ")
      writeExpr e
  | (k, e) :: ps => do
      push (key k ++ " = ")
      writeExpr e
      push ", "
      writePairs ps

/-- Write the initial value of a declaration. -/
def writeInitializer : Option Expr → Writing Unit
  | none => pure ()
  | some e => do
      push " = "
      writeExpr e

/-- Write an expression that may be missing. -/
def writeOptional (default : String) : Option Expr → Writing Unit
  | none => push default
  | some e => writeExpr e

/-- Write a statement behind its indentation.  A block that does not stand among
statements has no `do` and `end` of its own and writes whole lines. -/
def writeStmt (place : Place) : Stmt → Writing Unit
  | .expr e => writeExpr e
  | .declare n i _ => do
      push ("local " ++ n)
      writeInitializer i
  | .destructure p i => writeDestructure (writeExpr i) p
  | .block b =>
      match place with
      | .statement => writeRegion "do" (deeper (writeStmts b)) "end"
      | .body => writeStmts b
      | .behind => writeBehind b
  | .ifElse t c a => do
      push "if "
      writeExpr t
      writeRegion " then" (do
        writeBody (isBlock c) (fun place => writeStmt place c)
        writeElse a) "end"
  | .whileLoop t b => do
      push "while "
      writeExpr t
      writeRegion " do" (writeLoopBody (continuesLoop b) false
        (writeBody (isBlock b) (fun place => writeStmt place b)) (pure ())) "end"
  | .forLoop i t u b =>
      writeRegion "do" (deeper (do
        writeForInit i
        writeLine (do
          push "while "
          writeOptional "true" t
          writeRegion " do" (writeLoopBody (continuesLoop b) u.isSome
            (writeBody (isBlock b) (fun place => writeStmt place b)) (writeOptional "" u)) "end")))
        "end"
  | .forEach n i b => do
      push ("for _, " ++ n ++ " in ipairs(")
      writeExpr i
      writeRegion ") do" (writeLoopBody (continuesLoop b) false
        (writeBody (isBlock b) (fun place => writeStmt place b)) (pure ())) "end"
  | .ret none => push "return"
  | .ret (some e) => do
      push "return "
      writeExpr e
  | .breakLoop => push "break"
  | .continueLoop => push "goto continue"
  | .throw e => do
      push "error("
      writeExpr e
      push ", 0)"
  | .tryCatch b p c f => do
      let ok ← freshLocal "ok"
      let err ← freshLocal "err"
      writeRegion ("local " ++ ok ++ ", " ++ err ++ " = pcall(function()")
        (writeBody (isBlock b) (fun place => writeStmt place b)) "end)"
      writeHandler ok err (p.getD "_") c
      writeFinalizer f
      newline
      push ("if not " ++ ok ++ " then")
      deeper (do
        newline
        push ("error(" ++ err ++ ", 0)"))
      newline
      push "end"
  | .function ⟨name, params, body, _⟩ =>
      writeRegion ("local function " ++ name ++ "(" ++ commaSeparated params ++ ")")
        (deeper (writeStmts body)) "end"
  | .holding _ => push "error(\"unlowered scoped statement\", 0)"

/-- Write statements on lines of their own. -/
def writeStmts : List Stmt → Writing Unit
  | [] => pure ()
  | s :: ss => do
      writeLine (writeStmt .statement s)
      writeStmts ss

/-- Write statements behind an open line, each on a line of its own. -/
def writeBehind : List Stmt → Writing Unit
  | [] => pure ()
  | s :: ss => do
      newline
      writeStmt .statement s
      writeBehind ss

/-- Write the initialisation of a counting loop. -/
def writeForInit : Option Stmt → Writing Unit
  | none => pure ()
  | some i => writeLine (writeStmt .statement i)

/-- Write the protected call of an exception handler. -/
def writeHandler (ok err param : String) : Option Stmt → Writing Unit
  | none => pure ()
  | some c => do
      newline
      push ("if not " ++ ok ++ " then")
      deeper (do
        newline
        writeRegion (ok ++ ", " ++ err ++ " = pcall(function(" ++ param ++ ")")
          (writeBody (isBlock c) (fun place => writeStmt place c)) ("end, " ++ err ++ ")"))
      newline
      push "end"

/-- Write the statements that run at the end of a statement that catches exceptions. -/
def writeFinalizer : Option Stmt → Writing Unit
  | none => pure ()
  | some f => writeBodyBehind (isBlock f) (fun place => writeStmt place f)

/-- Write what stands behind the first branch of a conditional. -/
def writeElse : Option Stmt → Writing Unit
  | none => pure ()
  | some (.ifElse t c a) => do
      writeLine (do
        push "elseif "
        writeExpr t
        push " then")
      writeBody (isBlock c) (fun place => writeStmt place c)
      writeElse a
  | some s => do
      writeLine (push "else")
      writeBody (isBlock s) (fun place => writeStmt place s)

end

/-- The text of a program. -/
def write (p : Program) (width : Nat) : String := textOf width (writeStmts p.body)

end Lua

end Bracket
