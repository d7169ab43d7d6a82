import Bracket.Target.TypeScript
import Bracket.Text.Buffer

/-!
# The writer for TypeScript

Expressions continue the current line, and a function inside of one writes whole lines
in between.  A statement leaves its last line open.  A conditional in the place of an
alternative goes on behind `else`: it is written at the margin, so that its own
indentation is empty, and what follows it is at the level from before.
-/

namespace Bracket

namespace TypeScript

open Text (Writing)
open Text.Writing (push writeIndent writeLine deeper atMargin textOf)

/-- Write lines in braces. -/
def writeBraces (lines : Writing Unit) : Writing Unit := do
  push "\x7b\n"
  deeper lines
  writeIndent
  push "\x7d"

/-- Write a body in braces: a block has its own, any other statement gets some. -/
def writeEnclosed (block : Bool) (body : Writing Unit) : Writing Unit :=
  if block then body else writeBraces (writeLine body)

/-- Write a receiver, in parentheses where it needs them. -/
def writeGroupedIf (b : Bool) (receiver : Writing Unit) : Writing Unit :=
  if b then do
    push "("
    receiver
    push ")"
  else receiver

/-- The beginning of an exception handler. -/
def catchHead : Option String → String
  | none => " catch "
  | some p => " catch (" ++ p ++ ") "

mutual

/-- Write an expression. -/
def writeExpr : Expr → Writing Unit
  | .literal l => push (literal l)
  | .ident n => push n
  | .binary l op r => do
      push "("
      writeExpr l
      push (" " ++ binaryOp op ++ " ")
      writeExpr r
      push ")"
  | .unary op e => do
      push (unaryOp op)
      writeExpr e
  | .call f args => do
      writeExpr f
      push "("
      writeExprs args
      push ")"
  | .methodCall r m args => do
      writeGroupedIf (isLooseReceiver r) (writeExpr r)
      push ("." ++ m ++ "(")
      writeExprs args
      push ")"
  | .member o (.literal (.string s)) false => do
      writeExpr o
      push ("." ++ s)
  | .member o p _ => do
      writeExpr o
      push "["
      writeExpr p
      push "]"
  | .array es => do
      push "["
      writeExprs es
      push "]"
  | .object ps => do
      push "\x7b "
      writePairs ps
      push " \x7d"
  | .function ⟨"", params, [.ret (some e)], isAsync⟩ => do
      push (arrowHead params isAsync)
      writeExpr e
  | .function ⟨name, params, body, isAsync⟩ => do
      push (if name.isEmpty then arrowHead params isAsync else functionHead name params isAsync)
      writeBraces (writeStmts body)
  | .conditional t c a => do
      push "("
      writeExpr t
      push " ? "
      writeExpr c
      push " : "
      writeExpr a
      push ")"
  | .assign t v => do
      writeExpr t
      push " = "
      writeExpr v
  | .await e => do
      push "await "
      writeExpr e

/-- Write expressions with commas between them. -/
def writeExprs : List Expr → Writing Unit
  | [] => pure ()
  | [e] => writeExpr e
  | e :: es => do
      writeExpr e
      push ", "
      writeExprs es

/-- Write the entries of an object literal. -/
def writePairs : List (String × Expr) → Writing Unit
  | [] => pure ()
  | [(k, e)] => do
      push (key k ++ ": ")
      writeExpr e
  | (k, e) :: ps => do
      push (key k ++ ": ")
      writeExpr e
      push ", "
      writePairs ps

/-- Write the value behind an equals sign, if there is one. -/
def writeInitializer : Option Expr → Writing Unit
  | none => pure ()
  | some e => do
      push " = "
      writeExpr e

/-- Write an expression that may be missing. -/
def writeOptional : Option Expr → Writing Unit
  | none => pure ()
  | some e => writeExpr e

/-- Write a statement behind its indentation. -/
def writeStmt : Stmt → Writing Unit
  | .expr e => do
      writeExpr e
      push ";"
  | .declare n i m => do
      push (declaration n m)
      writeInitializer i
      push ";"
  | .destructure p i => do
      push ("let " ++ pattern p ++ " = ")
      writeExpr i
      push ";"
  | .block b => writeBraces (writeStmts b)
  | .ifElse t c a => do
      push "if ("
      writeExpr t
      push ") "
      writeEnclosed (isBlock c) (writeStmt c)
      writeElse a
  | .whileLoop t b => do
      push "while ("
      writeExpr t
      push ") "
      writeEnclosed (isBlock b) (writeStmt b)
  | .forLoop i t u b => do
      push "for ("
      writeForInit i
      push "; "
      writeOptional t
      push "; "
      writeOptional u
      push ") "
      writeEnclosed (isBlock b) (writeStmt b)
  | .forEach n i b => do
      push ("for (const " ++ n ++ " of ")
      writeExpr i
      push ") "
      writeEnclosed (isBlock b) (writeStmt b)
  | .ret none => push "return;"
  | .ret (some e) => do
      push "return "
      writeExpr e
      push ";"
  | .breakLoop => push "break;"
  | .continueLoop => push "continue;"
  | .throw e => do
      push "throw "
      writeExpr e
      push ";"
  | .tryCatch b p c f => do
      push "try "
      writeEnclosed (isBlock b) (writeStmt b)
      writeClause (catchHead p) c
      writeClause " finally " f
  | .function ⟨name, params, body, isAsync⟩ => do
      push (functionHead name params isAsync)
      writeBraces (writeStmts body)
  | .holding _ => push "throw new Error(\"unlowered scoped statement\");"

/-- Write statements on lines of their own. -/
def writeStmts : List Stmt → Writing Unit
  | [] => pure ()
  | s :: ss => do
      writeLine (writeStmt s)
      writeStmts ss

/-- Write a clause of a statement that catches exceptions, if there is one. -/
def writeClause (head : String) : Option Stmt → Writing Unit
  | none => pure ()
  | some s => do
      push head
      writeEnclosed (isBlock s) (writeStmt s)

/-- Write what stands behind the first branch of a conditional. -/
def writeElse : Option Stmt → Writing Unit
  | none => pure ()
  | some (.ifElse t c a) => do
      push " else "
      atMargin (do
        writeIndent
        push "if ("
        writeExpr t
        push ") "
        writeEnclosed (isBlock c) (writeStmt c)
        writeElse a)
  | some s => do
      push " else "
      writeEnclosed (isBlock s) (writeStmt s)

/-- Write the initialisation of a counting loop.  Only declarations and expressions can
stand there. -/
def writeForInit : Option Stmt → Writing Unit
  | some (.declare n i m) => do
      push (declaration n m)
      writeInitializer i
  | some (.expr e) => writeExpr e
  | _ => pure ()

end

/-- The text of a program. -/
def write (p : Program) (width : Nat) : String := textOf width (writeStmts p.body)

end TypeScript

end Bracket
