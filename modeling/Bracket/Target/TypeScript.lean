import Bracket.Double.Text
import Bracket.Text.Identifier
import Bracket.Text.Layout
import Bracket.Text.Quoted
import Bracket.Tree.Basic

/-!
# TypeScript code

Functions inside expressions may run over several lines, so expressions and
statements are documents.  The document of a statement continues a line that
stands at the given depth.

A conditional in the place of an alternative is written on the line of the
closing brace, and its lines start to count their depth from zero again.
-/

namespace Bracket

namespace TypeScript

open Text (Doc Piece commaSeparated)

def binaryOp : BinaryOp → String
  | .add => "+"
  | .sub => "-"
  | .mul => "*"
  | .div => "/"
  | .mod => "%"
  | .eq => "==="
  | .ne => "!=="
  | .lt => "<"
  | .le => "<="
  | .gt => ">"
  | .ge => ">="
  | .and => "&&"
  | .or => "||"
  | .concat => "+"

def unaryOp : UnaryOp → String
  | .neg => "-"
  | .not => "!"

def literal : Literal → String
  | .null => "null"
  | .bool true => "true"
  | .bool false => "false"
  | .number d => d.text (.below (Nat.pow 10 15))
  | .string s => Text.quotedInStages s

/-- The key of an object literal, in quotes unless it is a name. -/
def key (k : String) : String := if Text.isDollarIdentifier k then k else Text.quotedInStages k

mutual

/-- The text of a pattern. -/
def pattern : Pattern → String
  | .name n => n
  | .tuple slots => "[" ++ commaSeparated (patterns slots) ++ "]"

def patterns : List Pattern → List String
  | [] => []
  | p :: ps => pattern p :: patterns ps

end

/-- A receiver that has to be put in parentheses. -/
def isLooseReceiver : Expr → Bool
  | .await _ => true
  | .function _ => true
  | _ => false

def groupedIf (b : Bool) (doc : Doc) : Doc := if b then .text "(" :: doc ++ [.text ")"] else doc

/-- Lines in braces; the closing one stands at the given depth. -/
def braces (depth : Nat) (inner : Doc) : Doc :=
  .text "\x7b" :: inner ++ [.lineBreak depth, .text "\x7d"]

def isBlock : Stmt → Bool
  | .block _ => true
  | _ => false

/-- A body in braces: a block has its own, any other statement gets some.  The
body is given as a document for each depth. -/
def enclosed (depth : Nat) (block : Bool) (body : Nat → Doc) : Doc :=
  if block then body depth
  else braces depth (.lineBreak (depth + 1) :: body (depth + 1))

/-- The beginning of a declaration. -/
def declaration (name : String) (mutable : Bool) : String :=
  (if mutable then "let " else "const ") ++ name

def asyncMark (isAsync : Bool) : String := if isAsync then "async " else ""

/-- The beginning of a function up to its parameters. -/
def functionHead (name : String) (params : List String) (isAsync : Bool) : String :=
  let opening := if name.isEmpty then "function(" else "function " ++ name ++ "("
  asyncMark isAsync ++ opening ++ commaSeparated params ++ ") "

/-- The beginning of a function without a name. -/
def arrowHead (params : List String) (isAsync : Bool) : String :=
  asyncMark isAsync ++ "(" ++ commaSeparated params ++ ") => "

mutual

/-- The document of an expression on a line at the given depth. -/
def expr (depth : Nat) : Expr → Doc
  | .literal l => [.text (literal l)]
  | .ident n => [.text n]
  | .binary l op r =>
      .text "(" :: expr depth l ++ .text (" " ++ binaryOp op ++ " ") :: expr depth r
        ++ [.text ")"]
  | .unary op e => .text (unaryOp op) :: expr depth e
  | .call f args =>
      expr depth f ++ .text "(" :: Doc.joinWith ", " (exprs depth args) ++ [.text ")"]
  | .methodCall r m args =>
      groupedIf (isLooseReceiver r) (expr depth r) ++ .text ("." ++ m ++ "(")
        :: Doc.joinWith ", " (exprs depth args) ++ [.text ")"]
  | .member o (.literal (.string s)) false => expr depth o ++ [.text ("." ++ s)]
  | .member o p _ => expr depth o ++ .text "[" :: expr depth p ++ [.text "]"]
  | .array es => .text "[" :: Doc.joinWith ", " (exprs depth es) ++ [.text "]"]
  | .object ps =>
      .text "\x7b " :: Doc.joinWith ", " (pairs depth ps) ++ [.text " \x7d"]
  | .function ⟨"", params, [.ret (some e)], isAsync⟩ =>
      .text (arrowHead params isAsync) :: expr depth e
  | .function ⟨name, params, body, isAsync⟩ =>
      let head := if name.isEmpty then arrowHead params isAsync
        else functionHead name params isAsync
      .text head :: braces depth (stmts (depth + 1) body)
  | .conditional t c a =>
      .text "(" :: expr depth t ++ .text " ? " :: expr depth c ++ .text " : " :: expr depth a
        ++ [.text ")"]
  | .assign t v => expr depth t ++ .text " = " :: expr depth v
  | .await e => .text "await " :: expr depth e

def exprs (depth : Nat) : List Expr → List Doc
  | [] => []
  | e :: es => expr depth e :: exprs depth es

/-- The entries of an object literal. -/
def pairs (depth : Nat) : List (String × Expr) → List Doc
  | [] => []
  | (k, e) :: ps => (.text (key k ++ ": ") :: expr depth e) :: pairs depth ps

/-- The value behind an equals sign, if there is one. -/
def initializer (depth : Nat) : Option Expr → Doc
  | none => []
  | some e => .text " = " :: expr depth e

/-- An expression that may be missing. -/
def optional (depth : Nat) : Option Expr → Doc
  | none => []
  | some e => expr depth e

/-- The document of a statement on a line at the given depth. -/
def stmt (depth : Nat) : Stmt → Doc
  | .expr e => expr depth e ++ [.text ";"]
  | .declare n i m => .text (declaration n m) :: initializer depth i ++ [.text ";"]
  | .destructure p i => .text ("let " ++ pattern p ++ " = ") :: expr depth i ++ [.text ";"]
  | .block b => braces depth (stmts (depth + 1) b)
  | .ifElse t c a =>
      .text "if (" :: expr depth t ++ .text ") "
        :: enclosed depth (isBlock c) (fun d => stmt d c) ++ elseBranch depth a
  | .whileLoop t b =>
      .text "while (" :: expr depth t ++ .text ") "
        :: enclosed depth (isBlock b) (fun d => stmt d b)
  | .forLoop i t u b =>
      .text "for (" :: forInit depth i ++ .text "; " :: optional depth t ++ .text "; "
        :: optional depth u ++ .text ") " :: enclosed depth (isBlock b) (fun d => stmt d b)
  | .forEach n i b =>
      .text ("for (const " ++ n ++ " of ") :: expr depth i ++ .text ") "
        :: enclosed depth (isBlock b) (fun d => stmt d b)
  | .ret none => [.text "return;"]
  | .ret (some e) => .text "return " :: expr depth e ++ [.text ";"]
  | .breakLoop => [.text "break;"]
  | .continueLoop => [.text "continue;"]
  | .throw e => .text "throw " :: expr depth e ++ [.text ";"]
  | .tryCatch b p c f =>
      let handler : Doc := match c with
        | none => []
        | some c =>
            .text (match p with
              | none => " catch "
              | some p => " catch (" ++ p ++ ") ")
              :: enclosed depth (isBlock c) (fun d => stmt d c)
      let finalizer : Doc := match f with
        | none => []
        | some f => .text " finally " :: enclosed depth (isBlock f) (fun d => stmt d f)
      .text "try " :: enclosed depth (isBlock b) (fun d => stmt d b) ++ handler ++ finalizer
  | .function ⟨name, params, body, isAsync⟩ =>
      .text (functionHead name params isAsync) :: braces depth (stmts (depth + 1) body)
  | .holding _ => [.text "throw new Error(\"unlowered scoped statement\");"]

/-- Statements on lines of their own at the given depth. -/
def stmts (depth : Nat) : List Stmt → Doc
  | [] => []
  | s :: ss => .lineBreak depth :: stmt depth s ++ stmts depth ss

/-- What stands behind the first branch of a conditional. -/
def elseBranch (depth : Nat) : Option Stmt → Doc
  | none => []
  | some (.ifElse t c a) =>
      .text " else if (" :: expr 0 t ++ .text ") "
        :: enclosed 0 (isBlock c) (fun d => stmt d c) ++ elseBranch 0 a
  | some s => .text " else " :: enclosed depth (isBlock s) (fun d => stmt d s)

/-- The initialisation of a counting loop.  Only declarations and expressions can
stand there. -/
def forInit (depth : Nat) : Option Stmt → Doc
  | some (.declare n i m) => .text (declaration n m) :: initializer depth i
  | some (.expr e) => expr depth e
  | _ => []

end

/-- The lines of a program. -/
def lines (p : Program) : List Text.Line := Doc.lines (stmts 0 p.body)

end TypeScript

end Bracket
