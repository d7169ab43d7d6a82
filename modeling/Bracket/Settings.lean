import Bracket.Conventions
import Bracket.Lowering.Context
import Bracket.Text.Identifier
import Bracket.Toml.Document

/-!
# Settings

What to write and how: the target language, the width of one level of
indentation, the prefix of generated names, and whether the top level of a
program may suspend.  Settings come from a TOML file, where unknown keys do not
matter but known ones must have the right type and the prefix must be able to
begin a name, or from a JSON object, where the prefix is taken as it is.
-/

namespace Bracket

/-- The settings of a run. -/
structure Settings where
  target : String := "typescript"
  /-- The width that the language prefers if there is none. -/
  indentWidth : Option Nat := none
  tempPrefix : String := "__"
  allowTopLevelAwait : Bool := false
  deriving DecidableEq, Repr

/-- Why settings cannot be used. -/
inductive SettingsError where
  | missingFile
  | notText
  /-- The file is not valid TOML, or a setting has the wrong type. -/
  | malformed
  | invalidTempPrefix (tempPrefix : String)
  | unknownTarget (target : String)
  deriving DecidableEq, Repr

namespace SettingsError

/-- The error in words, if there is more to say than its kind. -/
def message? : SettingsError → Option String
  | .missingFile => some "failed to read config: No such file or directory (os error 2)"
  | .notText => some "failed to read config: stream did not contain valid UTF-8"
  | .malformed => none
  | .invalidTempPrefix p =>
      some ("invalid temp_prefix '" ++ p ++ "': must be a non-empty identifier prefix")
  | .unknownTarget t => some ("no writer registered for target '" ++ t ++ "'")

end SettingsError

namespace Settings

/-- The context of lowering for the conventions of a language. -/
def context (s : Settings) (c : Conventions) : Context := ⟨c, s.tempPrefix⟩

/-! ## From TOML -/

/-- A setting that may be missing; a value of the wrong type is an error. -/
def entry {α : Type}
    (read : Toml.Value → Option α) (default : α) (key : String) (entries : Toml.Entries) :
    Option α :=
  match entries.find? key with
  | none => some default
  | some v => read v

def readText : Toml.Value → Option String
  | .string s => some s
  | _ => none

def readFlag : Toml.Value → Option Bool
  | .boolean b => some b
  | _ => none

def readWidth : Toml.Value → Option (Option Nat)
  | .integer i => if 0 ≤ i then some (some i.toNat) else none
  | _ => none

/-- The settings of a table, before the prefix is checked. -/
def ofEntries (entries : Toml.Entries) : Option Settings := do
  let target ← entry readText "typescript" "target" entries
  let indentWidth ← entry readWidth none "indent_width" entries
  let tempPrefix ← entry readText "__" "temp_prefix" entries
  let allowTopLevelAwait ← entry readFlag false "allow_top_level_await" entries
  some ⟨target, indentWidth, tempPrefix, allowTopLevelAwait⟩

/-- The settings of a TOML document. -/
def ofToml (text : String) : Except SettingsError Settings :=
  match (Toml.ofText? text).bind ofEntries with
  | none => .error .malformed
  | some s =>
      if Text.isIdentifier s.tempPrefix then .ok s
      else .error (.invalidTempPrefix s.tempPrefix)

/-- The settings of a file with the given contents, if it exists. -/
def ofFile (contents : Option ByteArray) : Except SettingsError Settings :=
  match contents with
  | none => .error .missingFile
  | some bytes =>
      match String.fromUTF8? bytes with
      | none => .error .notText
      | some text => ofToml text

/-! ## From JSON -/

def decode : Json → Option Settings
  | .object fs => do
      let target ← Json.fieldWithDefault Json.toText? "typescript" "target" fs
      let indentWidth ← Json.optionalField Json.toWord? "indent_width" fs
      let tempPrefix ← Json.fieldWithDefault Json.toText? "__" "temp_prefix" fs
      let allow ← Json.fieldWithDefault Json.toBool? false "allow_top_level_await" fs
      some ⟨target, indentWidth.map UInt64.toNat, tempPrefix, allow⟩
  | _ => none

end Settings

end Bracket
