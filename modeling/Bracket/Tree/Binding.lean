import Bracket.Text.Identifier
import Bracket.Tree.Basic

/-!
# Bindings of resources

A resource may bind the value that its entry yields.  `Item.resolve` finds the
names that come into scope, or the first reason why the binding cannot be
written: a value is bound although none is yielded, the slots do not match the
number of values, a name is no identifier, a tuple is empty, or a name occurs
twice.

`indexedBindings` spells a binding out as one declaration for each name, for
languages that cannot take tuples apart.
-/

namespace Bracket

/-- Why a binding cannot be written. -/
inductive BindingFlaw where
  /-- The entry yields nothing, but it is bound. -/
  | yieldsNothing (pattern : Pattern)
  /-- The number of slots is not the number of values. -/
  | slotMismatch (pattern : Pattern) (slots : Nat) (values : UInt64)
  | invalidName (name : String)
  | emptyTuple
  /-- A name is bound more than once. -/
  | repeatedName (pattern : Pattern) (name : String)
  /-- A name could be mistaken for a generated one. -/
  | reservedName (name tempPrefix : String)

namespace BindingFlaw

/-- The reason in words. -/
def reason : BindingFlaw → String
  | .yieldsNothing p => "entry handler yields no value but is bound to `" ++ p.display ++ "`"
  | .slotMismatch p slots values =>
      "`" ++ p.display ++ "` has " ++ slots.repr ++ " slots but the entry handler yields "
        ++ values.toNat.repr ++ " values"
  | .invalidName n => "`" ++ n ++ "` is not a valid binding name"
  | .emptyTuple => "empty tuple pattern"
  | .repeatedName p n => "`" ++ p.display ++ "` binds `" ++ n ++ "` more than once"
  | .reservedName n tempPrefix =>
      "`" ++ n ++ "` collides with generated names (prefix `" ++ tempPrefix ++ "`)"

end BindingFlaw

namespace Pattern

mutual

/-- The first invalid name or empty tuple of a pattern, from left to right. -/
def flaw? : Pattern → Option BindingFlaw
  | .name n => if Text.isIdentifier n then none else some (.invalidName n)
  | .tuple [] => some .emptyTuple
  | .tuple slots => flawList? slots

def flawList? : List Pattern → Option BindingFlaw
  | [] => none
  | p :: ps =>
      match flaw? p with
      | some flaw => some flaw
      | none => flawList? ps

end

/-- The number of values does not fit the pattern. -/
def arityFlaw? (pattern : Pattern) (arity : UInt64) : Option BindingFlaw :=
  if arity = 0 then some (.yieldsNothing pattern)
  else
    match pattern with
    | .tuple slots =>
        if slots.length = arity.toNat then none
        else some (.slotMismatch pattern slots.length arity)
    | .name _ => none

/-- The first name that occurs in `seen` or earlier in the list. -/
def firstRepeat? (seen : List String) : List String → Option String
  | [] => none
  | n :: ns => if n ∈ seen then some n else firstRepeat? (n :: seen) ns

end Pattern

/-- The binding of one resource, checked. -/
structure ResolvedBinding where
  /-- No pattern if the entry value is not used. -/
  pattern : Option Pattern
  /-- The names that come into scope, from left to right. -/
  names : List String

namespace ResolvedBinding

def isDiscarded (b : ResolvedBinding) : Bool := b.pattern.isNone

end ResolvedBinding

namespace Item

/-- The binding of a resource, or its first flaw. -/
def resolve (item : Item) : Except BindingFlaw ResolvedBinding :=
  match item.binding with
  | none => .ok ⟨none, []⟩
  | some pattern =>
      match item.entryArity.bind pattern.arityFlaw? with
      | some flaw => .error flaw
      | none =>
          match pattern.flaw? with
          | some flaw => .error flaw
          | none =>
              match Pattern.firstRepeat? [] pattern.names with
              | some n => .error (.repeatedName pattern n)
              | none => .ok ⟨some pattern, pattern.names⟩

end Item

namespace Pattern

mutual

/-- Declarations that bind the names of a pattern to the elements of `source`.
Element `i` of a tuple is read at the position `i + base`, which wraps around
like any 64-bit word. -/
def indexedBindings (base : UInt64) (source : Expr) : Pattern → List Stmt
  | .name n => [.letVar n (some source)]
  | .tuple slots => indexedSlots base source 0 slots

/-- The bindings of the slots from position `i` on. -/
def indexedSlots (base : UInt64) (source : Expr) (i : Nat) : List Pattern → List Stmt
  | [] => []
  | p :: ps =>
      let position := Double.ofNat (UInt64.ofNat i + base).toNat
      indexedBindings base (.index source (.number position)) p
        ++ indexedSlots base source (i + 1) ps

end

end Pattern

end Bracket
