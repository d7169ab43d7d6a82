import Bracket.Target.Python
import Bracket.Text.Buffer

/-!
# The writer for Python

A statement writes its indentation before anything else.  A block has no line of its
own, so it takes the indentation back and writes its statements in its place.  A
compound statement ends with a suite, whose last line feed is taken back, so that every
statement leaves its last line open.
-/

namespace Bracket

namespace Python

open Text (Writing commaSeparated)
open Text.Writing (push writeIndent writeLine deeper dropIndent trimmed textOf)

def isBlock : Stmt → Bool
  | .block _ => true
  | _ => false

/-- Write a statement.  A block in the place of a body is written `bare`, as its suite;
anything else stands on a line of its own. -/
def writeBody (block : Bool) (write : Bool → Writing Unit) : Writing Unit :=
  if block then write true else writeLine (write false)

/-- The test of a counting loop. -/
def loopTest : Option Expr → String
  | none => "True"
  | some t => expr t

/-- The line that ends the suite of a counting loop. -/
def writeUpdate : Option Expr → Writing Unit
  | none => pure ()
  | some u => writeLine (push (expr u))

/-- The beginning of an exception handler. -/
def exceptHead : Option String → String
  | none => "except BaseException:"
  | some param => "except BaseException as " ++ param ++ ":"

mutual

/-- Write a statement behind its indentation and leave its last line open.  A `bare`
block is written without any indentation before it, and it ends its last line. -/
def writeStmt (bare : Bool) : Stmt → Writing Unit
  | .expr e => push (expr e)
  | .declare n none _ => push (n ++ " = None")
  | .declare n (some e) _ => push (n ++ " = " ++ expr e)
  | .destructure p i => push (p.display ++ " = " ++ expr i)
  | .block b =>
      if bare then writeSuite b
      else do
        dropIndent
        trimmed (writeSuite b)
  | .ifElse t c a =>
      trimmed (do
        push ("if " ++ expr t ++ ":\n")
        deeper (writeBody (isBlock c) (fun bare => writeStmt bare c))
        writeElse a)
  | .whileLoop t b =>
      trimmed (do
        push ("while " ++ expr t ++ ":\n")
        deeper (writeBody (isBlock b) (fun bare => writeStmt bare b)))
  | .forLoop i t u b =>
      trimmed (do
        writeForInit i
        push ("while " ++ loopTest t ++ ":\n")
        deeper (do
          writeBody (isBlock b) (fun bare => writeStmt bare b)
          writeUpdate u))
  | .forEach n i b =>
      trimmed (do
        push ("for " ++ n ++ " in " ++ expr i ++ ":\n")
        deeper (writeBody (isBlock b) (fun bare => writeStmt bare b)))
  | .ret none => push "return"
  | .ret (some e) => push ("return " ++ expr e)
  | .breakLoop => push "break"
  | .continueLoop => push "continue"
  | .throw e => push ("raise " ++ expr e)
  | .tryCatch b p c f =>
      trimmed (do
        push "try:\n"
        deeper (writeBody (isBlock b) (fun bare => writeStmt bare b))
        writeClause (exceptHead p) c
        writeClause "finally:" f)
  | .function ⟨name, params, body, isAsync⟩ =>
      let shown := if name.isEmpty then "_anonymous" else name
      trimmed (do
        push (asyncMark isAsync ++ "def " ++ shown ++ "(" ++ commaSeparated params ++ "):\n")
        deeper (writeSuite body))
  | .holding ⟨items, body, isAsync⟩ =>
      trimmed (do
        push (asyncMark isAsync ++ "with " ++ commaSeparated (items.map item) ++ ":\n")
        deeper (writeSuite body))

/-- Write the statements of a suite, `pass` if there are none. -/
def writeSuite : List Stmt → Writing Unit
  | [] => writeLine (push "pass")
  | s :: ss => do
      writeLine (writeStmt false s)
      writeStmts ss

/-- Write statements on lines of their own. -/
def writeStmts : List Stmt → Writing Unit
  | [] => pure ()
  | s :: ss => do
      writeLine (writeStmt false s)
      writeStmts ss

/-- Write the initialisation of a counting loop behind the indentation of the loop, and
begin another line. -/
def writeForInit : Option Stmt → Writing Unit
  | none => pure ()
  | some i => do
      writeLine (writeStmt false i)
      writeIndent

/-- Write a clause of a statement that catches exceptions, if there is one. -/
def writeClause (head : String) : Option Stmt → Writing Unit
  | none => pure ()
  | some s => do
      writeIndent
      push (head ++ "\n")
      deeper (writeBody (isBlock s) (fun bare => writeStmt bare s))

/-- Write what stands behind the first branch of a conditional. -/
def writeElse : Option Stmt → Writing Unit
  | none => pure ()
  | some (.ifElse t c a) => do
      writeIndent
      push ("elif " ++ expr t ++ ":\n")
      deeper (writeBody (isBlock c) (fun bare => writeStmt bare c))
      writeElse a
  | some s => do
      writeIndent
      push "else:\n"
      deeper (writeBody (isBlock s) (fun bare => writeStmt bare s))

end

/-- The text of a program. -/
def write (p : Program) (width : Nat) : String := textOf width (writeStmts p.body)

end Python

end Bracket
