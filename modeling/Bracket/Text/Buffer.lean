/-!
# Writing into a buffer

Code is written in one pass.  A writer puts text behind what it has written so far and
counts its level of indentation up and down; a language may take back what was written
last, or made-up local variables may have to be numbered.  All of this is the state of
the writer, together with the width of one level of indentation.
-/

namespace Bracket

namespace Text

/-- The state of a writer. -/
structure Buffer where
  /-- The characters written so far, the last one first. -/
  written : List Char
  /-- The current level of indentation. -/
  depth : Nat
  /-- The number of spaces for one level of indentation. -/
  width : Nat
  /-- The number of local variables that were made up so far. -/
  locals : Nat

namespace Buffer

def empty (width : Nat) : Buffer := ⟨[], 0, width, 0⟩

def text (b : Buffer) : String := String.ofList b.written.reverse

/-- The number of spaces that begin a line. -/
def indentation (b : Buffer) : Nat := b.depth * b.width

end Buffer

/-- A step of a writer. -/
abbrev Writing (α : Type) := StateM Buffer α

namespace Writing

/-- Write a text. -/
def push (text : String) : Writing Unit :=
  modify fun b => { b with written := text.toList.reverse ++ b.written }

/-- Write the indentation of a line. -/
def writeIndent : Writing Unit :=
  modify fun b => { b with written := List.replicate b.indentation ' ' ++ b.written }

/-- Begin a new line. -/
def newline : Writing Unit := do
  push "\n"
  writeIndent

/-- Write a statement on a line of its own. -/
def writeLine (stmt : Writing Unit) : Writing Unit := do
  writeIndent
  stmt
  push "\n"

/-- Write one level deeper. -/
def deeper (m : Writing Unit) : Writing Unit := do
  modify fun b => { b with depth := b.depth + 1 }
  m
  modify fun b => { b with depth := b.depth - 1 }

/-- Write as if at the margin, and go on at the level from before. -/
def atMargin (m : Writing Unit) : Writing Unit := do
  let saved := (← get).depth
  modify fun b => { b with depth := 0 }
  m
  modify fun b => { b with depth := saved }

/-- Take back as many characters as the indentation of a line has. -/
def dropIndent : Writing Unit :=
  modify fun b => { b with written := b.written.drop b.indentation }

/-- Take back a line feed, if one was written last. -/
def trimNewline : Writing Unit :=
  modify fun b =>
    match b.written with
    | '\n' :: rest => { b with written := rest }
    | _ => b

/-- Write, and leave the last line open. -/
def trimmed (m : Writing Unit) : Writing Unit := do
  m
  trimNewline

/-- Make up a local variable for a role. -/
def freshLocal (role : String) : Writing String := do
  let n := (← get).locals
  modify fun b => { b with locals := n + 1 }
  pure ("__" ++ role ++ n.repr)

/-- What is written from the start. -/
def textOf (width : Nat) (m : Writing Unit) : String := (m.run (.empty width)).2.text

end Writing

end Text

end Bracket
