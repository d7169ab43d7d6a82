/-!
# Lines and their layout

The layout of code is a list of lines, each with the depth of its indentation.
The number of spaces for one level of depth comes in only when the lines are
rendered.

Code that runs over several lines inside an expression is built as a `Doc`: text
and line breaks, where a break carries the depth of the line that it begins.
-/

namespace Bracket

namespace Text

/-- One line of code and the depth of its indentation. -/
structure Line where
  depth : Nat
  text : String
  deriving DecidableEq, Repr

namespace Line

/-- The line with its indentation and the line feed that ends it. -/
def render (width : Nat) (line : Line) : String :=
  String.ofList (List.replicate (line.depth * width) ' ') ++ line.text ++ "\n"

/-- The line at a larger depth. -/
def deepen (levels : Nat) (line : Line) : Line := ⟨line.depth + levels, line.text⟩

end Line

/-- The text of a list of lines. -/
def renderLines (width : Nat) (lines : List Line) : String :=
  String.join (lines.map (Line.render width))

/-- A part of a document: text, or the end of a line together with the depth of
the next one. -/
inductive Piece where
  | text (s : String)
  | lineBreak (depth : Nat)
  deriving DecidableEq, Repr

/-- Code that may run over several lines. -/
abbrev Doc := List Piece

namespace Doc

/-- The lines of a document that continues the given line. -/
def linesFrom (current : Line) : Doc → List Line
  | [] => [current]
  | .text s :: rest => linesFrom ⟨current.depth, current.text ++ s⟩ rest
  | .lineBreak depth :: rest => current :: linesFrom ⟨depth, ""⟩ rest

/-- The lines of a document that begins with a line break, or of none. -/
def lines (doc : Doc) : List Line := (linesFrom ⟨0, ""⟩ doc).tail

/-- Documents one after the other with a text between them. -/
def joinWith (separator : String) : List Doc → Doc
  | [] => []
  | [d] => d
  | d :: rest => d ++ .text separator :: joinWith separator rest

end Doc

/-- Texts one after the other with commas between them. -/
def commaSeparated (texts : List String) : String := ", ".intercalate texts

end Text

end Bracket
