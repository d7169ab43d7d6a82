import Bracket.Text.Layout

/-!
# Binding patterns

A pattern takes the value that a resource yields on entry apart: a name takes
the value itself, a tuple takes it slot by slot.
-/

namespace Bracket

/-- What an entry value is bound to. -/
inductive Pattern where
  | name (name : String)
  | tuple (slots : List Pattern)

namespace Pattern

/-- A tuple of names. -/
def ofNames (names : List String) : Pattern := .tuple (names.map .name)

mutual

/-- Equality of patterns. -/
def same : Pattern → Pattern → Bool
  | .name a, .name b => a == b
  | .tuple a, .tuple b => sameList a b
  | _, _ => false

def sameList : List Pattern → List Pattern → Bool
  | [], [] => true
  | a :: as, b :: bs => same a b && sameList as bs
  | _, _ => false

end

mutual

/-- The names of a pattern from left to right. -/
def names : Pattern → List String
  | .name n => [n]
  | .tuple slots => namesList slots

def namesList : List Pattern → List String
  | [] => []
  | p :: ps => names p ++ namesList ps

end

mutual

/-- The text of a pattern: slots in parentheses with commas between them, and a
comma also behind a single slot. -/
def display : Pattern → String
  | .name n => n
  | .tuple [p] => "(" ++ display p ++ ",)"
  | .tuple slots => "(" ++ Text.commaSeparated (displayList slots) ++ ")"

def displayList : List Pattern → List String
  | [] => []
  | p :: ps => display p :: displayList ps

end

end Pattern

end Bracket
