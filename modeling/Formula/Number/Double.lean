import Formula.Number.Binary64
import Formula.Number.Numeral

/-!
# `Formula.Number.Double` — doubles as literals

Sums, differences, products and quotients of doubles are rounded as usual, a power is the platform's, and a
factorial is taken of whole numbers only. A double is written with the fewest digits that read back as the
same double, never with an exponent, and any decimal is read as the nearest double.
-/

namespace Formula

namespace Double

/-- The rank of the absolute value; above `Binary64.infinityRank` for what is not a number. -/
def rank (x : Float) : Nat := x.toBits.toNat % 0x8000000000000000

/-- Whether the sign bit is set. -/
def isNegative (x : Float) : Bool := decide (0x8000000000000000 ≤ x.toBits.toNat)

/-- The double of a rank and a sign. -/
def ofRank (negative : Bool) (rank : Nat) : Float :=
  Float.ofBits (UInt64.ofNat (if negative then rank + 0x8000000000000000 else rank))

/-- The double that is not a number. -/
def undefined : Float := 0.0 / 0.0

/-- Finite, infinite or no number. -/
def shape (x : Float) : Shape :=
  if Binary64.infinityRank < rank x then .undefined
  else if rank x = Binary64.infinityRank then .infinite (isNegative x)
  else .finite (isNegative x)

/-- The digits of a finite double's absolute value. -/
def digits (x : Float) : String := String.ofList (Binary64.shortest (rank x)).text

/-! ## Reading -/

/-- Splits off a sign. -/
def readSign : List Char → Bool × List Char
  | '-' :: cs => (true, cs)
  | '+' :: cs => (false, cs)
  | cs => (false, cs)

/-- Reads a double without sign: a word for infinity or for no number, in any case, or a decimal. -/
def readUnsigned? (negative : Bool) (cs : List Char) : Option Float :=
  let word := String.ofList (cs.map Char.toLower)
  if word = "inf" ∨ word = "infinity" then some (ofRank negative Binary64.infinityRank)
  else if word = "nan" then some undefined
  else (Scientific.read? cs).map fun s => ofRank negative (Binary64.ofScientific s)

/-- Reads a double. -/
def read (text : String) : Except NumeralError Float :=
  if text.isEmpty then .error .empty
  else
    let (negative, cs) := readSign text.toList
    match readUnsigned? negative cs with
    | some x => .ok x
    | none => .error .malformed

/-! ## Arithmetic -/

/-- The natural number that a double is equal to, if it is one; a negative zero is zero. -/
def toNat? (x : Float) : Option Nat :=
  match shape x with
  | .finite negative =>
    let u := Binary64.units (rank x)
    if u % Binary64.one = 0 && (!negative || u == 0) then some (u / Binary64.one) else none
  | _ => none

/-- The product of the whole numbers from two up to `n`, rounded at each step. -/
def product (n : Nat) : Float := (List.range (n - 1)).foldl (fun p i => p * Float.ofNat (i + 2)) 1.0

/-- The factorial of a whole number, infinite beyond 170. No other double has one, infinity included. -/
def factorial? (x : Float) : Option Float :=
  (toNat? x).map fun n => if 170 < n then ofRank false Binary64.infinityRank else product n

/-- Applies a binary operator. -/
def binary : BinaryOp → Float → Float → Float
  | .add, x, y => x + y
  | .sub, x, y => x - y
  | .mul, x, y => x * y
  | .juxtapose, x, y => x * y
  | .div, x, y => x / y
  | .pow, x, y => Float.pow x y

/-- Applies a unary operator. -/
def unary : UnaryOp → Float → Option Float
  | .neg, x => some (-x)
  | .factorial, x => factorial? x

end Double

instance : Arithmetic Float where
  zero := 0.0
  one := 1.0
  two := 2.0
  isZero x := x == 0.0
  isOne x := x == 1.0
  binary := Double.binary
  unary := Double.unary

instance : Numeral Float where
  shape := Double.shape
  digits := Double.digits
  read := Double.read

end Formula
