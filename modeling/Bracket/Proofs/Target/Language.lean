import Bracket.Proofs.Target.Closed
import Bracket.Proofs.Target.Python
import Bracket.Target.Language

/-!
# What the three languages have in common

The writers keep a level, take text back, start lines at the margin and open lines inside of
expressions, all with the width of indentation at hand.  Still the width only decides how many
spaces stand in front of each line: neither what a line says nor its depth depends on it.

The languages write a string in the same way, although Python escapes it in one pass and the
other two in stages.  A reader that undoes the escapes finds the string again and stops where
its literal ends, so no string can close its own quotes.  The keys of TypeScript objects and
Lua tables stand in quotes too, unless they are names.
-/

namespace Bracket

/-! ## The width of indentation -/

namespace Language

/-- In all languages the text of a program is that of its lines. -/
theorem writeIndented_eq_renderLines
    (l : Language) (p : Program) (w : Nat) :
    l.writeIndented p w = Text.renderLines w (l.lines p) := by
  cases l with
  | python => exact Python.write_eq_renderLines p w
  | typescript => exact TypeScript.write_eq_renderLines p w
  | lua => exact Lua.write_eq_renderLines p w

/-- A program has lines that do not depend on the width, and at every width its text is each
of them behind as many spaces for each level of its depth. -/
theorem writeIndented_width_only_indents
    (l : Language) (p : Program) :
    ∃ lines : List Text.Line, ∀ w : Nat,
      l.writeIndented p w = String.join (lines.map fun line =>
        String.ofList (List.replicate (line.depth * w) ' ') ++ line.text ++ "\n") := by
  refine ⟨l.lines p, fun w => ?_⟩
  rw [writeIndented_eq_renderLines]
  rfl

end Language

/-! ## String literals -/

open Text (Quotes)

/-- A key of an object in TypeScript is a name, or it is quoted. -/
theorem TypeScript.quotes_key
    (k : String) :
    if Text.isDollarIdentifier k then key k = k ∧ '"' ∉ k.toList else Quotes k (key k) := by
  unfold key
  split
  · rename_i hname
    refine ⟨rfl, fun hmem => ?_⟩
    have hword := isWord_of_mem hname '"' hmem
    rw [not_isWord '"' (by decide)] at hword
    exact absurd hword (by decide)
  · exact Text.quotes_quotedInStages k

/-- A key of a table in Lua is a plain name, or it is quoted in brackets. -/
theorem Lua.quotes_key
    (k : String) :
    if Text.isPlainIdentifier k then key k = k ∧ '"' ∉ k.toList
    else ∃ text, key k = "[" ++ text ++ "]" ∧ Quotes k text := by
  unfold key
  split
  · rename_i hname
    refine ⟨rfl, fun hmem => ?_⟩
    have hword := isWord_of_mem hname '"' hmem
    exact absurd hword (by decide)
  · exact ⟨_, rfl, Text.quotes_quotedInStages k⟩

/-- Escaping in stages is the same as escaping in one pass, and every literal and every key that
is written in quotes reads back. -/
theorem quotes_literal_and_key
    (s : String) :
    Text.escapeInStages s.toList = Text.escape s.toList ∧
    Quotes s (Python.literal (.string s)) ∧
    Quotes s (TypeScript.literal (.string s)) ∧
    Quotes s (Lua.literal (.string s)) ∧
    (if Text.isDollarIdentifier s then TypeScript.key s = s ∧ '"' ∉ s.toList
      else Quotes s (TypeScript.key s)) ∧
    (if Text.isPlainIdentifier s then Lua.key s = s ∧ '"' ∉ s.toList
      else ∃ text, Lua.key s = "[" ++ text ++ "]" ∧ Quotes s text) :=
  ⟨Text.escapeInStages_eq_escape s.toList, Text.quotes_quoted s, Text.quotes_quotedInStages s,
    Text.quotes_quotedInStages s, TypeScript.quotes_key s, Lua.quotes_key s⟩

end Bracket
