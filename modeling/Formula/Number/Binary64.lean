import Formula.Number.Decimal

/-!
# `Formula.Number.Binary64` — the finite doubles as exact numbers

The non-negative finite doubles are numbered in order of size: *rank* `0` is zero, rank `r + 1` is the next
double above rank `r`, and the rank is also the double's bit pattern. Every rank stands for a whole number of
*units*, a unit being the smallest positive double `2 ^ -1074`, so rounding and printing are exact arithmetic
on natural numbers.

## Contents
- `units` — the exact value of a rank — and `nearest`, the rank nearest to a quotient (ties to the even rank).
- `ofScientific` — the rank of a decimal number as it is read.
- `shortest` — the decimal with the fewest significant digits that reads back as a given rank.
-/

namespace Formula

namespace Binary64

/-- The first rank beyond the finite doubles. -/
def infinityRank : Nat := 0x7ff0000000000000

/-- The binary exponent of a rank, counted in units. -/
def exponent (rank : Nat) : Nat := rank / 0x10000000000000 - 1

/-- The significand of a rank; ranks below `2 ^ 52` have no implicit leading bit. -/
def significand (rank : Nat) : Nat := rank - exponent rank * 0x10000000000000

/-- The exact value of a rank, as a number of units. -/
def units (rank : Nat) : Nat := significand rank <<< exponent rank

/-- The number of units in one. -/
def one : Nat := 1 <<< 1074

/-! ## Rounding -/

/-- The whole number nearest to `num / den`, the even one of two that are equally near. -/
def roundHalfEven (num den : Nat) : Nat :=
  let q := num / den
  let r := num % den
  if 2 * r < den then q else if den < 2 * r then q + 1 else q + q % 2

/-- The rank nearest to `num / den`; past the last finite double it goes on as if exponents had no limit. -/
def nearest (num den : Nat) : Nat :=
  let scaled := num * one
  let e := Nat.log2 (scaled / den) - 52
  e * 0x10000000000000 + roundHalfEven scaled (den <<< e)

/-- The rank of a number `coefficient * 10 ^ exponent`. Powers so large or so small that no coefficient of the
    given length reaches a finite positive double are decided by their size. -/
def ofScientific (s : Scientific) : Nat :=
  if s.coefficient = 0 then 0
  else
    let size : Int := (Nat.toDigits 10 s.coefficient).length + s.exponent
    if 400 < size then infinityRank
    else if size < -400 then 0
    else
      match s.exponent with
      | .ofNat e => min (nearest (s.coefficient * Nat.pow 10 e) 1) infinityRank
      | .negSucc e => min (nearest s.coefficient (Nat.pow 10 (e + 1))) infinityRank

/-- The rank of a decimal. -/
def ofDecimal (d : Decimal) : Nat := ofScientific ⟨d.coefficient, -(d.places : Int)⟩

/-! ## Shortest decimals -/

/-- How many zeros follow the point in `num / den` before its first other digit, at most `limit`. -/
def leadingZeros (num den : Nat) : Nat → Nat
  | 0 => 0
  | limit + 1 => if num * 10 < den then leadingZeros (num * 10) den limit + 1 else 0

/-- The place of a positive rank's first significant digit: the `k` with `10 ^ (k - 1) ≤ value < 10 ^ k`. -/
def magnitude (rank : Nat) : Int :=
  let whole := units rank / one
  if whole = 0 then -(leadingZeros (units rank) one 400 : Int) else (Nat.toDigits 10 whole).length

/-- A positive rank's two neighbours among the decimals with the given number of places (none before the
    point when the number is negative), the nearer first and of two equally near ones the upper. -/
def neighbours (rank : Nat) (places : Int) : List Decimal :=
  let (num, den) := match places with
    | .ofNat p => (units rank * Nat.pow 10 p, one)
    | .negSucc p => (units rank, one * Nat.pow 10 (p + 1))
  let lower := Decimal.ofPlaces (num / den) places
  let upper := Decimal.ofPlaces (num / den + 1) places
  if 2 * (num % den) < den then [lower, upper] else [upper, lower]

/-- The rank's exact value as a decimal. -/
def exact (rank : Nat) : Decimal := Decimal.trim ⟨units rank * Nat.pow 5 1074, 1074⟩

/-- The decimal of fewest significant digits that reads back as the rank, and of those the nearest to it.
    Seventeen digits always suffice; the exact value stands in for the case that they did not. -/
def shortest (rank : Nat) : Decimal :=
  if rank = 0 then ⟨0, 0⟩
  else
    let k := magnitude rank
    ((List.range 17).findSome? fun (i : Nat) =>
      (neighbours rank ((i : Int) + 1 - k)).find? fun d => ofDecimal d == rank).getD (exact rank)

end Binary64

end Formula
