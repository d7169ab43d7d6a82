import Bracket.Tree.Decode

/-!
# Conventions of a language for scoped resources

How a language acquires and releases resources: the methods that are called,
the shape into which a scoped statement is expanded, whether tuples can be taken
apart directly and where positions start to count if not, and whether entering
and leaving may suspend.
-/

namespace Bracket

/-- The shape into which a scoped statement is expanded. -/
inductive ExpansionStyle where
  /-- The language has scoped statements of its own. -/
  | native
  /-- A guarded region with a catch and a finally clause. -/
  | tryCatchFinally
  /-- A closure that is run by a call that turns errors into values. -/
  | protectedCall
  deriving DecidableEq, Repr

namespace ExpansionStyle

def tag : ExpansionStyle → String
  | .native => "Native"
  | .tryCatchFinally => "TryCatchFinally"
  | .protectedCall => "ProtectedCall"

def ofTag? : String → Option ExpansionStyle
  | "Native" => some .native
  | "TryCatchFinally" => some .tryCatchFinally
  | "ProtectedCall" => some .protectedCall
  | _ => none

end ExpansionStyle

/-- The conventions of a language. -/
structure Conventions where
  language : String
  expansion : ExpansionStyle
  enterMethod : String
  exitMethod : String
  nativeUnpacking : Bool
  indexBase : UInt64
  supportsSuspension : Bool
  deriving DecidableEq, Repr

namespace Conventions

def python : Conventions where
  language := "python"
  expansion := .native
  enterMethod := "__enter__"
  exitMethod := "__exit__"
  nativeUnpacking := true
  indexBase := 0
  supportsSuspension := true

def typescript : Conventions where
  language := "typescript"
  expansion := .tryCatchFinally
  enterMethod := "enter"
  exitMethod := "exit"
  nativeUnpacking := true
  indexBase := 0
  supportsSuspension := true

def lua : Conventions where
  language := "lua"
  expansion := .protectedCall
  enterMethod := "enter"
  exitMethod := "exit"
  nativeUnpacking := false
  indexBase := 1
  supportsSuspension := false

/-- The conventions of a language by its name. -/
def ofLanguage? (name : String) : Option Conventions :=
  [python, typescript, lua].find? fun c => c.language == name

def decode : Json → Option Conventions
  | .object fs => do
      let language ← Json.field Json.toText? "language" fs
      let expansion ← Json.field (fun v => v.toTag?.bind ExpansionStyle.ofTag?) "expansion" fs
      let enterMethod ← Json.field Json.toText? "enter_method" fs
      let exitMethod ← Json.field Json.toText? "exit_method" fs
      let nativeUnpacking ← Json.field Json.toBool? "native_unpacking" fs
      let indexBase ← Json.field Json.toWord? "index_base" fs
      let supportsSuspension ← Json.field Json.toBool? "supports_suspension" fs
      some ⟨language, expansion, enterMethod, exitMethod, nativeUnpacking, indexBase,
        supportsSuspension⟩
  | _ => none

def encode (c : Conventions) : Json :=
  .object
    [("language", .string c.language), ("expansion", .string c.expansion.tag),
      ("enter_method", .string c.enterMethod), ("exit_method", .string c.exitMethod),
      ("native_unpacking", .bool c.nativeUnpacking), ("index_base", .ofNat c.indexBase.toNat),
      ("supports_suspension", .bool c.supportsSuspension)]

end Conventions

end Bracket
