import Bracket.Double.Text
import Bracket.Text.Identifier
import Bracket.Text.Layout
import Bracket.Text.Quoted
import Bracket.Tree.Basic

/-!
# Lua code

Every statement begins on a line of its own, so the document of a statement
starts with a line break.  Some statements need local variables that the program
does not have; they are numbered, and the next number is the state of printing.

Lua has no `continue`: a loop body that uses it ends with a label, and if an
update follows the label, the statements before it are put in a block, so that
no jump enters the scope of a local.  Exceptions are errors that a protected
call turns into values.  Suspension points leave no mark.
-/

namespace Bracket

namespace Lua

open Text (Doc Piece commaSeparated)

/-- Printing with a supply of numbers for local variables. -/
abbrev Printing (α : Type) := StateM Nat α

def binaryOp : BinaryOp → String
  | .add => "+"
  | .sub => "-"
  | .mul => "*"
  | .div => "/"
  | .mod => "%"
  | .eq => "=="
  | .ne => "~="
  | .lt => "<"
  | .le => "<="
  | .gt => ">"
  | .ge => ">="
  | .and => "and"
  | .or => "or"
  | .concat => ".."

def unaryOp : UnaryOp → String
  | .neg => "-"
  | .not => "not "

def literal : Literal → String
  | .null => "nil"
  | .bool true => "true"
  | .bool false => "false"
  | .number d => d.text (.below (Nat.pow 10 15))
  | .string s => Text.quotedInStages s

/-- The key of a table constructor, in brackets unless it is a plain name. -/
def key (k : String) : String :=
  if Text.isPlainIdentifier k then k else "[" ++ Text.quotedInStages k ++ "]"

/-- The expression can stand before a call or a member access without
parentheses. -/
def isPrefixForm : Expr → Bool
  | .ident _ => true
  | .call _ _ => true
  | .methodCall _ _ _ => true
  | .member _ _ _ => true
  | .await e => isPrefixForm e
  | _ => false

/-- The document as it can stand before a call or a member access. -/
def grouped (bare : Bool) (doc : Doc) : Doc :=
  if bare then doc else .text "(" :: doc ++ [.text ")"]

/-- The access to a member: a dot and a plain name if it is not computed, and
else the printed property in brackets. -/
def memberAccess (computed : Bool) (property : Expr) (printed : Doc) : Doc :=
  let bracketed : Doc := .text "[" :: printed ++ [.text "]"]
  match property with
  | .literal (.string s) =>
      if !computed && Text.isPlainIdentifier s then [.text ("." ++ s)] else bracketed
  | _ => bracketed

/-- The entries of a table constructor. -/
def table (entries : List Doc) : Doc :=
  if entries.isEmpty then [.text "\x7b\x7d"]
  else .text "\x7b " :: Doc.joinWith ", " entries ++ [.text " \x7d"]

mutual

/-- The statement continues the loop around it. -/
def continuesLoop : Stmt → Bool
  | .continueLoop => true
  | .block b => continuesLoopList b
  | .ifElse _ c a => continuesLoop c || continuesLoopOption a
  | .tryCatch b _ c f => continuesLoop b || continuesLoopOption c || continuesLoopOption f
  | _ => false

def continuesLoopList : List Stmt → Bool
  | [] => false
  | s :: ss => continuesLoop s || continuesLoopList ss

def continuesLoopOption : Option Stmt → Bool
  | none => false
  | some s => continuesLoop s

end

/-! ## Taking tuples apart -/

def isTuple : Pattern → Bool
  | .tuple _ => true
  | .name _ => false

/-- The local variable with a number that holds a nested tuple. -/
def slotName (n : Nat) : String := "__slot" ++ n.repr

/-- The number of nested tuples among the slots of a pattern. -/
def nestedCount : Pattern → Nat
  | .name _ => 0
  | .tuple slots => slots.countP isTuple

/-- The variables for the slots of a tuple; nested tuples get numbered ones. -/
def slotNames (first : Nat) : List Pattern → List String
  | [] => []
  | .name n :: ps => n :: slotNames first ps
  | .tuple _ :: ps => slotName first :: slotNames (first + 1) ps

mutual

/-- Declarations that take a value apart, on lines at the given depth.  The
nested tuples of the pattern itself use the numbers from `first` on, and deeper
ones those from `next` on; the result has the number after all of them. -/
def destructure (depth first next : Nat) (source : Doc) : Pattern → Doc × Nat
  | .name n => (.text ("local " ++ n ++ " = ") :: source, next)
  | .tuple slots =>
      let names := commaSeparated (slotNames first slots)
      let (rest, next) := destructureNested depth first next slots
      (.text ("local " ++ names ++ " = table.unpack(") :: source ++ .text ")" :: rest, next)

/-- The declarations for the nested tuples among the given slots. -/
def destructureNested (depth first next : Nat) : List Pattern → Doc × Nat
  | [] => ([], next)
  | p :: ps =>
      if isTuple p then
        let source : Doc := [.text (slotName first)]
        let (doc, next) := destructure depth next (next + nestedCount p) source p
        let (rest, next) := destructureNested depth (first + 1) next ps
        (.lineBreak depth :: doc ++ rest, next)
      else destructureNested depth first next ps

end

/-! ## Expressions and statements -/

/-- Take the next `n` numbers and return the first. -/
def fresh (n : Nat) : Printing Nat := do
  let first ← get
  set (first + n)
  pure first

/-- The body of a loop at the given depth.  The statements are given as a
printer for each depth. -/
def loopBody
    (depth : Nat) (label : Bool) (body : Nat → Printing Doc)
    (update : Option (Printing Doc)) : Printing Doc := do
  match label, update with
  | false, none => body (depth + 1)
  | false, some update =>
      let body ← body (depth + 1)
      let update ← update
      pure (body ++ .lineBreak (depth + 1) :: update)
  | true, none =>
      let body ← body (depth + 1)
      pure (body ++ [.lineBreak (depth + 1), .text "::continue::"])
  | true, some update =>
      let body ← body (depth + 2)
      let update ← update
      pure (.lineBreak (depth + 1) :: .text "do" :: body ++
        [.lineBreak (depth + 1), .text "end", .lineBreak (depth + 1), .text "::continue::",
          .lineBreak (depth + 1)] ++ update)

mutual

/-- The document of an expression on a line at the given depth. -/
def expr (depth : Nat) : Expr → Printing Doc
  | .literal l => pure [.text (literal l)]
  | .ident n => pure [.text n]
  | .binary l op r => do
      let l ← expr depth l
      let r ← expr depth r
      pure (.text "(" :: l ++ .text (" " ++ binaryOp op ++ " ") :: r ++ [.text ")"])
  | .unary op e => do
      let e ← expr depth e
      pure (.text (unaryOp op) :: e)
  | .call f args => do
      let callee ← expr depth f
      let args ← exprs depth args
      pure (grouped (isPrefixForm f) callee ++ .text "(" :: Doc.joinWith ", " args
        ++ [.text ")"])
  | .methodCall r m args => do
      let receiver ← expr depth r
      let args ← exprs depth args
      pure (grouped (isPrefixForm r) receiver ++ .text (":" ++ m) :: .text "("
        :: Doc.joinWith ", " args ++ [.text ")"])
  | .member o p computed => do
      let object ← expr depth o
      let property ← expr depth p
      pure (grouped (isPrefixForm o) object ++ memberAccess computed p property)
  | .array es => do
      let es ← exprs depth es
      pure (table es)
  | .object ps => do
      let ps ← pairs depth ps
      pure (table ps)
  | .function ⟨_, params, body, _⟩ => do
      let body ← stmts (depth + 1) body
      pure (.text ("function(" ++ commaSeparated params ++ ")") :: body
        ++ [.lineBreak depth, .text "end"])
  | .conditional t c a => do
      let t ← expr depth t
      let c ← expr depth c
      let a ← expr depth a
      pure (.text "(" :: t ++ .text " and " :: c ++ .text " or " :: a ++ [.text ")"])
  | .assign t v => do
      let t ← expr depth t
      let v ← expr depth v
      pure (t ++ .text " = " :: v)
  | .await e => expr depth e

def exprs (depth : Nat) : List Expr → Printing (List Doc)
  | [] => pure []
  | e :: es => do
      let e ← expr depth e
      let es ← exprs depth es
      pure (e :: es)

/-- The entries of a table constructor with keys. -/
def pairs (depth : Nat) : List (String × Expr) → Printing (List Doc)
  | [] => pure []
  | (k, e) :: ps => do
      let e ← expr depth e
      let ps ← pairs depth ps
      pure ((.text (key k ++ " = ") :: e) :: ps)

/-- The initial value of a declaration. -/
def initializer (depth : Nat) : Option Expr → Printing Doc
  | none => pure []
  | some e => do
      let e ← expr depth e
      pure (.text " = " :: e)

/-- The document of a statement on lines at the given depth.  A block in the
place of a body is `bare`: its statements stand without a `do` and `end` of
their own. -/
def stmt (depth : Nat) (bare : Bool) : Stmt → Printing Doc
  | .expr e => do
      let e ← expr depth e
      pure (.lineBreak depth :: e)
  | .declare n i _ => do
      let i ← initializer depth i
      pure (.lineBreak depth :: .text ("local " ++ n) :: i)
  | .destructure p i => do
      let first ← fresh (nestedCount p)
      let source ← expr depth i
      let next ← get
      let (doc, next) := destructure depth first next source p
      set next
      pure (.lineBreak depth :: doc)
  | .block b =>
      if bare then stmts depth b
      else do
        let b ← stmts (depth + 1) b
        pure (.lineBreak depth :: .text "do" :: b ++ [.lineBreak depth, .text "end"])
  | .ifElse t c a => do
      let t ← expr depth t
      let c ← stmt (depth + 1) true c
      let a ← elseBranch depth a
      pure (.lineBreak depth :: .text "if " :: t ++ .text " then" :: c ++ a
        ++ [.lineBreak depth, .text "end"])
  | .whileLoop t b => do
      let t ← expr depth t
      let b ← loopBody depth (continuesLoop b) (fun d => stmt d true b) none
      pure (.lineBreak depth :: .text "while " :: t ++ .text " do" :: b
        ++ [.lineBreak depth, .text "end"])
  | .forLoop i t u b => do
      let i ← match i with
        | none => pure []
        | some i => stmt (depth + 1) false i
      let t ← match t with
        | none => pure [.text "true"]
        | some t => expr (depth + 1) t
      let update := match u with
        | none => none
        | some u => some (expr (depth + 2) u)
      let b ← loopBody (depth + 1) (continuesLoop b) (fun d => stmt d true b) update
      pure (.lineBreak depth :: .text "do" :: i ++
        .lineBreak (depth + 1) :: .text "while " :: t ++ .text " do" :: b ++
        [.lineBreak (depth + 1), .text "end", .lineBreak depth, .text "end"])
  | .forEach n i b => do
      let i ← expr depth i
      let b ← loopBody depth (continuesLoop b) (fun d => stmt d true b) none
      pure (.lineBreak depth :: .text ("for _, " ++ n ++ " in ipairs(") :: i ++ .text ") do" :: b
        ++ [.lineBreak depth, .text "end"])
  | .ret none => pure [.lineBreak depth, .text "return"]
  | .ret (some e) => do
      let e ← expr depth e
      pure (.lineBreak depth :: .text "return " :: e)
  | .breakLoop => pure [.lineBreak depth, .text "break"]
  | .continueLoop => pure [.lineBreak depth, .text "goto continue"]
  | .throw e => do
      let e ← expr depth e
      pure (.lineBreak depth :: .text "error(" :: e ++ [.text ", 0)"])
  | .tryCatch b p c f => do
      let n ← fresh 2
      let ok := "__ok" ++ n.repr
      let err := "__err" ++ (n + 1).repr
      let b ← stmt (depth + 1) true b
      let handler ← match c with
        | none => pure []
        | some c => do
            let c ← stmt (depth + 2) true c
            let call := ok ++ ", " ++ err ++ " = pcall(function(" ++ p.getD "_" ++ ")"
            pure (.lineBreak depth :: .text ("if not " ++ ok ++ " then") ::
              .lineBreak (depth + 1) :: .text call :: c ++
              [.lineBreak (depth + 1), .text ("end, " ++ err ++ ")"),
                .lineBreak depth, .text "end"])
      let finalizer ← match f with
        | none => pure []
        | some f => stmt depth true f
      pure (.lineBreak depth :: .text ("local " ++ ok ++ ", " ++ err ++ " = pcall(function()")
        :: b ++ [.lineBreak depth, .text "end)"] ++ handler ++ finalizer ++
        [.lineBreak depth, .text ("if not " ++ ok ++ " then"),
          .lineBreak (depth + 1), .text ("error(" ++ err ++ ", 0)"),
          .lineBreak depth, .text "end"])
  | .function ⟨name, params, body, _⟩ => do
      let body ← stmts (depth + 1) body
      pure (.lineBreak depth ::
        .text ("local function " ++ name ++ "(" ++ commaSeparated params ++ ")") :: body
        ++ [.lineBreak depth, .text "end"])
  | .holding _ =>
      pure [.lineBreak depth, .text "error(\"unlowered scoped statement\", 0)"]

/-- The documents of statements one after the other. -/
def stmts (depth : Nat) : List Stmt → Printing Doc
  | [] => pure []
  | s :: ss => do
      let s ← stmt depth false s
      let ss ← stmts depth ss
      pure (s ++ ss)

/-- What stands behind the first branch of a conditional. -/
def elseBranch (depth : Nat) : Option Stmt → Printing Doc
  | none => pure []
  | some (.ifElse t c a) => do
      let t ← expr depth t
      let c ← stmt (depth + 1) true c
      let a ← elseBranch depth a
      pure (.lineBreak depth :: .text "elseif " :: t ++ .text " then" :: c ++ a)
  | some s => do
      let s ← stmt (depth + 1) true s
      pure (.lineBreak depth :: .text "else" :: s)

end

/-- The lines of a program. -/
def lines (p : Program) : List Text.Line := Doc.lines ((stmts 0 p.body).run 0).1

end Lua

end Bracket
