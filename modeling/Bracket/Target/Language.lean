import Bracket.Lowering.Basic
import Bracket.Settings
import Bracket.Target.Writer.Lua
import Bracket.Target.Writer.Python
import Bracket.Target.Writer.TypeScript

/-!
# Target languages

The languages that programs can be written in, and the way from a program with
scoped statements to the text of one of them: lower by the conventions of the
language, then print.
-/

namespace Bracket

/-- A language that programs can be written in. -/
inductive Language where
  | python
  | typescript
  | lua
  deriving DecidableEq, Repr

namespace Language

def all : List Language := [.python, .typescript, .lua]

def conventions : Language → Conventions
  | .python => .python
  | .typescript => .typescript
  | .lua => .lua

def name (l : Language) : String := l.conventions.language

/-- The extension of file names. -/
def fileExtension : Language → String
  | .python => "py"
  | .typescript => "ts"
  | .lua => "lua"

/-- The usual width of one level of indentation. -/
def indentWidth : Language → Nat
  | .python => 4
  | .typescript => 2
  | .lua => 2

def ofName? (name : String) : Option Language := all.find? fun l => l.name == name

def ofExtension? (ext : String) : Option Language := all.find? fun l => l.fileExtension == ext

/-- The lines of a program. -/
def lines : Language → Program → List Text.Line
  | .python => Python.lines
  | .typescript => TypeScript.lines
  | .lua => Lua.lines

/-- The text of a program with a width of indentation. -/
def writeIndented : Language → Program → Nat → String
  | .python => Python.write
  | .typescript => TypeScript.write
  | .lua => Lua.write

/-- The text of a program with the usual width of indentation. -/
def write (l : Language) (p : Program) : String := l.writeIndented p l.indentWidth

end Language

namespace Settings

/-- The language of the target. -/
def language (s : Settings) : Except SettingsError Language :=
  match Language.ofName? s.target with
  | some l => .ok l
  | none => .error (.unknownTarget s.target)

/-- The text of a lowered program. -/
def render (s : Settings) (l : Language) (p : Program) : String :=
  l.writeIndented p (s.indentWidth.getD l.indentWidth)

end Settings

/-- Lower a program as settings say. -/
def Program.lowerWith (s : Settings) (c : Conventions) (p : Program) :
    Except LoweringError Program :=
  p.lower (s.context c) s.allowTopLevelAwait

/-- Lower a scoped statement as settings say. -/
def Scoped.lowerWith (s : Settings) (c : Conventions) (stmt : Scoped) :
    Except LoweringError (List Stmt) :=
  stmt.lowerAlone (s.context c) s.allowTopLevelAwait

/-- Lower and print a program. -/
def Program.transpile (s : Settings) (l : Language) (p : Program) :
    Except LoweringError String := do
  let lowered ← p.lowerWith s l.conventions
  .ok (s.render l lowered)

/-- Lower and print a scoped statement. -/
def Scoped.transpile (s : Settings) (l : Language) (stmt : Scoped) :
    Except LoweringError String := do
  let lowered ← stmt.lowerWith s l.conventions
  .ok (s.render l ⟨lowered⟩)

/-- Lower and print statements independently of each other. -/
def Scoped.transpileBatch (s : Settings) (l : Language) (stmts : List Scoped) :
    List (Except LoweringError String) :=
  stmts.map (Scoped.transpile s l)

end Bracket
