import Bracket.Double.Basic

/-!
# JSON values

A value keeps each number as it was written, since a count has to be written
without a fraction and without an exponent.  The fields of an object stand in
the order of their first occurrence and have different names.
-/

namespace Bracket

/-- A number as it is written: a sign, the digits without the point, the power
of ten that scales them, and whether it has neither point nor exponent. -/
structure Numeral where
  negative : Bool
  mantissa : Nat
  exponent : Int
  whole : Bool
  deriving DecidableEq, Repr

namespace Numeral

def ofNat (n : Nat) : Numeral := ⟨false, n, 0, true⟩

/-- The nearest double. -/
def toDouble? (n : Numeral) : Option Double :=
  Double.ofDecimal? n.negative n.mantissa n.exponent

/-- The value of a numeral that is written as a natural number. -/
def toNat? (n : Numeral) : Option Nat :=
  if n.whole && !n.negative then some n.mantissa else none

end Numeral

/-- A JSON value. -/
inductive Json where
  | null
  | bool (value : Bool)
  | number (value : Numeral)
  | string (value : String)
  | array (elements : List Json)
  | object (fields : List (String × Json))

namespace Json

/-- The value of a field. -/
def find? (key : String) : List (String × Json) → Option Json
  | [] => none
  | (k, v) :: rest => if k = key then some v else find? key rest

/-- Set a field, in its old place if there is one. -/
def setField (key : String) (value : Json) : List (String × Json) → List (String × Json)
  | [] => [(key, value)]
  | (k, v) :: rest =>
      if k = key then (key, value) :: rest else (k, v) :: setField key value rest

def isNull : Json → Bool
  | .null => true
  | _ => false

def toBool? : Json → Option Bool
  | .bool b => some b
  | _ => none

def toText? : Json → Option String
  | .string s => some s
  | _ => none

def toList? : Json → Option (List Json)
  | .array vs => some vs
  | _ => none

def toFields? : Json → Option (List (String × Json))
  | .object fields => some fields
  | _ => none

def toDouble? : Json → Option Double
  | .number n => n.toDouble?
  | _ => none

/-- A count: a natural number below `2 ^ 64`. -/
def toWord? : Json → Option UInt64
  | .number n => do
      let value ← n.toNat?
      if value < Nat.pow 2 64 then some (UInt64.ofNat value) else none
  | _ => none

/-- A list of texts. -/
def toTexts? : Json → Option (List String)
  | .array vs => vs.mapM toText?
  | _ => none

def ofNat (n : Nat) : Json := .number (.ofNat n)

def ofTexts (texts : List String) : Json := .array (texts.map .string)

/-- `null` in the place of no value. -/
def ofOption {α : Type} (f : α → Json) : Option α → Json
  | none => .null
  | some a => f a

/-! ## Fields of objects -/

/-- A field that must be there. -/
def field {α : Type}
    (decode : Json → Option α) (key : String) (fields : List (String × Json)) : Option α :=
  (find? key fields).bind decode

/-- A field that may be missing or `null`. -/
def optionalField {α : Type}
    (decode : Json → Option α) (key : String) (fields : List (String × Json)) :
    Option (Option α) :=
  match find? key fields with
  | none => some none
  | some v => if v.isNull then some none else (decode v).map some

/-- A field that may be missing and then has a fixed value. -/
def fieldWithDefault {α : Type}
    (decode : Json → Option α) (default : α) (key : String)
    (fields : List (String × Json)) : Option α :=
  match find? key fields with
  | none => some default
  | some v => decode v

end Json

end Bracket
