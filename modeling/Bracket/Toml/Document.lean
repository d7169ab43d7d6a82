import Bracket.Toml.Scalar

/-!
# TOML documents

A document is read in two steps: its lines become headers and assignments, and
these build the tables.  Arrays and inline tables nest at most 79 levels deep,
and a dotted key has at most 79 parts.
-/

namespace Bracket

namespace Toml

open Text (Parser)
open Text.Parser

/-- The greatest depth of values and of dotted keys. -/
def depthLimit : Nat := 79

/-! ## Keys and values -/

def isBareKeyChar (c : Char) : Bool := c.isAlphanum || c == '_' || c == '-'

def simpleKey : Parser String := do
  let s ← basicString <|> literalString <|> do
    let first ← satisfy isBareKeyChar
    let rest ← takeWhile isBareKeyChar
    pure (first :: rest)
  pure (String.ofList s)

/-- A key with blanks around it, in parts at its dots. -/
def key : Parser (List String) := do
  let parts ← separated (do blanks; let k ← simpleKey; blanks; pure k) (char '.')
  if parts.length ≤ depthLimit then pure parts else failure

/-- Elements of an array with line breaks and comments between them. -/
def arrayElements (value : Parser Value) : Parser Unit := do
  let element : Parser Unit := do
    blankLines
    let _ ← value
    blankLines
  let elements ← perhaps (separated element (char ','))
  if elements.isSome then
    let _ ← perhaps (char ',')
  blankLines

/-- Assignments of an inline table on one line. -/
def inlineAssignments (value : Parser Value) : Parser (List (List String × Value)) := do
  let assignment : Parser (List String × Value) := do
    let path ← key
    char '='
    blanks
    let v ← value
    blanks
    pure (path, v)
  let assignments ← perhaps (separated assignment (char ','))
  blanks
  pure (assignments.getD [])

/-- The entries of assignments in order. -/
def entriesOf (assignments : List (List String × Value)) : Option Entries :=
  assignments.foldlM (fun entries (path, v) => entries.insert v path) []

/-- A value of at most the given depth. -/
def value : Nat → Parser Value
  | 0 => scalar
  | depth + 1 =>
      (do
        char '['
        arrayElements (value depth)
        char ']'
        pure .array)
      <|> (do
        char '\x7b'
        let assignments ← inlineAssignments (value depth)
        char '\x7d'
        match entriesOf assignments with
        | some entries => pure (.table .inline entries)
        | none => failure)
      <|> scalar

/-! ## Lines -/

/-- What a line of a document says. -/
inductive Statement where
  | header (path : List String)
  | elementHeader (path : List String)
  | assign (path : List String) (value : Value)

def statement : Parser Statement :=
  (do
    word ['[', '[']
    let path ← key
    word [']', ']']
    pure (.elementHeader path))
  <|> (do
    char '['
    let path ← key
    char ']'
    pure (.header path))
  <|> (do
    let path ← key
    char '='
    blanks
    let v ← value depthLimit
    pure (.assign path v))

/-- A line without its end. -/
def line : Parser (Option Statement) := do
  blanks
  let s ← perhaps statement
  blanks
  let _ ← perhaps comment
  pure s

def document : Parser (List Statement) := do
  let _ ← perhaps (char '\ufeff')
  let first ← line
  let rest ← many do
    newline
    line
  atEnd
  pure ((first :: rest).filterMap id)

/-! ## Tables -/

/-- Carry out statements, starting inside the table with the given header. -/
def build (current : List String) : List Statement → Entries → Option Entries
  | [], entries => some entries
  | .header path :: rest, entries => do
      let entries ← entries.openTable path
      build path rest entries
  | .elementHeader path :: rest, entries => do
      let entries ← entries.openElement path
      build path rest entries
  | .assign path v :: rest, entries => do
      let entries ← entries.changeAt (Entries.insert v path) current
      build current rest entries

/-- The entries of a document. -/
def ofText? (s : String) : Option Entries := do
  let (statements, _) ← document.run s.toList
  build [] statements []

end Toml

end Bracket
