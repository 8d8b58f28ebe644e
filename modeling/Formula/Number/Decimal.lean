/-!
# `Formula.Number.Decimal` — decimal numbers without exponent, written and read

A decimal is a coefficient with a number of places after the point. Its text is the digits of the whole part
and, when there are places, a point and exactly that many digits.

## Contents
- `Decimal`, `Decimal.trim` (no trailing zero after the point) and `Decimal.text`.
- `digitsValue` — the number that a run of digits stands for.
- `Scientific` — what a number text may say: digits with an optional point and an optional power of ten.
-/

namespace Formula

/-- The number `coefficient / 10 ^ places`. -/
structure Decimal where
  coefficient : Nat
  places : Nat
deriving DecidableEq, Repr

namespace Decimal

/-- Drops trailing zeros after the point, at most `places` of them. -/
def trimPlaces (coefficient : Nat) : Nat → Decimal
  | 0 => ⟨coefficient, 0⟩
  | places + 1 => if coefficient % 10 = 0 then trimPlaces (coefficient / 10) places else ⟨coefficient, places + 1⟩

/-- The same number without trailing zeros after the point. -/
def trim (d : Decimal) : Decimal := trimPlaces d.coefficient d.places

/-- The number `coefficient / 10 ^ places` for a signed count of places, without trailing zeros after the
    point. -/
def ofPlaces (coefficient : Nat) : Int → Decimal
  | .ofNat places => trim ⟨coefficient, places⟩
  | .negSucc n => ⟨coefficient * Nat.pow 10 (n + 1), 0⟩

/-- Digits of the whole part, then a point and the remaining digits if there are any places. -/
def text (d : Decimal) : List Char :=
  if d.places = 0 then Nat.toDigits 10 d.coefficient
  else Nat.toDigits 10 (d.coefficient / Nat.pow 10 d.places) ++
    '.' :: (Nat.toDigits 10 (d.coefficient % Nat.pow 10 d.places)).leftpad d.places '0'

end Decimal

/-! ## Reading -/

/-- The number written by a run of digits. -/
def digitsValue (cs : List Char) : Nat := cs.foldl (fun n c => 10 * n + (c.toNat - 48)) 0

/-- The number `coefficient * 10 ^ exponent`. -/
structure Scientific where
  coefficient : Nat
  exponent : Int
deriving DecidableEq, Repr

namespace Scientific

/-- A non-empty run of digits up to the end of the text. -/
def readDigits? (cs : List Char) : Option Nat :=
  if cs.isEmpty || !cs.all Char.isDigit then none else some (digitsValue cs)

/-- What may follow the digits: nothing, or `e` or `E` with a signed whole number. -/
def readExponent? : List Char → Option Int
  | [] => some 0
  | e :: cs =>
    if e = 'e' ∨ e = 'E' then
      match cs with
      | '-' :: ds => (readDigits? ds).map fun n => -(n : Int)
      | '+' :: ds => (readDigits? ds).map Int.ofNat
      | ds => (readDigits? ds).map Int.ofNat
    else none

/-- The digits after a point, and what follows them; nothing is read where no point stands. -/
def readFraction : List Char → List Char × List Char
  | '.' :: cs => (cs.takeWhile Char.isDigit, cs.dropWhile Char.isDigit)
  | cs => ([], cs)

/-- Digits with an optional point among or around them, at least one digit, and an optional exponent. -/
def read? (cs : List Char) : Option Scientific :=
  let whole := cs.takeWhile Char.isDigit
  let (fraction, rest) := readFraction (cs.dropWhile Char.isDigit)
  if whole.isEmpty && fraction.isEmpty then none
  else (readExponent? rest).map fun e => ⟨digitsValue (whole ++ fraction), e - fraction.length⟩

end Scientific

end Formula
