import Formula.Operator

/-!
# `Formula.Number.Numeral` — what expressions ask of their literals

Expressions are built over a type of literals. Folding and differentiation need arithmetic on them, the
written forms need their text, and the parser needs to read that text. Each is one class, so that the same
definitions serve doubles and exact numbers.

## Contents
- `Arithmetic` — zero, one, two, and applying operators.
- `Shape` — whether a literal is finite, infinite or no number, and its sign.
- `Numeral` — shape, digits and reading.
-/

namespace Formula

/-- Literals that operators can be applied to. -/
class Arithmetic (ν : Type) where
  zero : ν
  one : ν
  two : ν
  /-- Whether a literal is equal to zero; a signed zero is. -/
  isZero : ν → Bool
  /-- Whether a literal is equal to one. -/
  isOne : ν → Bool
  /-- Applies a binary operator. -/
  binary : BinaryOp → ν → ν → ν
  /-- Applies a unary operator; nothing where the result would not be exact. -/
  unary : UnaryOp → ν → Option ν

/-- The kinds of literal. -/
inductive Shape where
  /-- Not a number; its sign does not matter. -/
  | undefined
  | infinite (negative : Bool)
  | finite (negative : Bool)
deriving DecidableEq, Repr

namespace Shape

/-- Whether the literal carries a minus sign. -/
def isNegative : Shape → Bool
  | undefined => false
  | infinite negative => negative
  | finite negative => negative

/-- Whether the literal is finite. -/
def isFinite : Shape → Bool
  | undefined => false
  | infinite _ => false
  | finite _ => true

end Shape

/-- Why a text is not a number. -/
inductive NumeralError where
  | empty
  | malformed
deriving DecidableEq, Repr

/-- The error in words. -/
def NumeralError.message : NumeralError → String
  | empty => "cannot parse float from empty string"
  | malformed => "invalid float literal"

/-- Literals that can be written and read. -/
class Numeral (ν : Type) where
  shape : ν → Shape
  /-- The digits of a finite literal's absolute value. -/
  digits : ν → String
  /-- Reads a literal, signs and exponents included. -/
  read : String → Except NumeralError ν

namespace Numeral

variable {ν : Type} [Numeral ν]

/-- Whether the literal is finite. -/
def isFinite (x : ν) : Bool := (shape x).isFinite

/-- A minus sign where one is wanted. -/
def sign (negative : Bool) : String := if negative then "-" else ""

/-- The literal as a plain number: digits, `inf` or `NaN`, with a minus sign where there is one. -/
def describe (x : ν) : String :=
  match shape x with
  | .undefined => "NaN"
  | .infinite negative => sign negative ++ "inf"
  | .finite negative => sign negative ++ digits x

end Numeral

end Formula
