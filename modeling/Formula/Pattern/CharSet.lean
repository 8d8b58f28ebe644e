import Formula.Text.Blank
import Formula.Text.CaseFolding
import Formula.Text.WordChar

/-!
# `Formula.Pattern.CharSet` — which characters one step of a pattern accepts

A set of characters is kept as ranges of code points in ascending order, no two of which overlap or touch, so
that equal sets are equal lists. The code points between the two planes of characters, the surrogates, belong to
no character; counting up or down goes past them.

## Contents
- `CharSet`, `ofRanges`, `ofChars`, `has`.
- `union`, `inverse`, `intersection`, `difference`, `symmetricDifference`.
- `anyCase` — the set with all characters that differ only in case from one of its own.
- `only?`, `leastLength?`, `greatestLength?` — what the readers of patterns ask about a set.
-/

namespace Formula

/-- A set of characters. -/
structure CharSet where
  /-- Ranges in ascending order with gaps between them. -/
  ranges : CharRanges
deriving DecidableEq, Repr

namespace CharSet

/-- Whether the set holds a character. -/
def has (s : CharSet) (c : Char) : Bool := s.ranges.has c

/-! ## Making sets -/

/-- Puts a range among ranges in ascending order, and makes one of those that overlap or touch. -/
def insertRange (r : Nat × Nat) : CharRanges → CharRanges
  | [] => [r]
  | s :: rest =>
    if r.2 + 1 < s.1 then r :: s :: rest
    else if s.2 + 1 < r.1 then s :: insertRange r rest
    else insertRange (min r.1 s.1, max r.2 s.2) rest

/-- The set of the characters in any of the ranges. -/
def ofRanges (ranges : CharRanges) : CharSet := ⟨ranges.foldr insertRange []⟩

/-- The set of some characters. -/
def ofChars (cs : List Char) : CharSet := ofRanges (cs.map fun c => (c.toNat, c.toNat))

/-- The set of no characters. -/
def none : CharSet := ⟨[]⟩

/-- The greatest code point. -/
def lastCode : Nat := 0x10ffff

/-- The set of all characters. -/
def all : CharSet := ⟨[(0, lastCode)]⟩

/-- The characters of either set. -/
def union (a b : CharSet) : CharSet := ⟨a.ranges.foldr insertRange b.ranges⟩

/-- The code point before another one. -/
def codeBefore (n : Nat) : Nat := if n = 0xe000 then 0xd7ff else n - 1

/-- The code point after another one. -/
def codeAfter (n : Nat) : Nat := if n = 0xd7ff then 0xe000 else n + 1

/-- The gaps after a code point that belongs to the set, given the ranges above it. Where two ranges have only
    surrogates between them, the gap consists of the characters on either side. -/
def gapsAfter (last : Nat) : CharRanges → CharRanges
  | [] => if last < lastCode then [(codeAfter last, lastCode)] else []
  | r :: rest =>
    (min (codeAfter last) (codeBefore r.1), max (codeAfter last) (codeBefore r.1)) :: gapsAfter r.2 rest

/-- The characters that are not in the set. -/
def inverse (s : CharSet) : CharSet :=
  match s.ranges with
  | [] => all
  | r :: rest => ⟨(if 0 < r.1 then [(0, codeBefore r.1)] else []) ++ gapsAfter r.2 rest⟩

/-- The characters of both sets. -/
def intersection (a b : CharSet) : CharSet :=
  ofRanges (a.ranges.flatMap fun r =>
    b.ranges.filterMap fun s => if max r.1 s.1 ≤ min r.2 s.2 then some (max r.1 s.1, min r.2 s.2) else .none)

/-- What is left of ranges without the characters of another one. -/
def removeRange (ranges : CharRanges) (s : Nat × Nat) : CharRanges :=
  ranges.flatMap fun r =>
    if s.2 < r.1 ∨ r.2 < s.1 then [r]
    else
      (if r.1 < s.1 then [(r.1, codeBefore s.1)] else []) ++ (if s.2 < r.2 then [(codeAfter s.2, r.2)] else [])

/-- The characters of the first set that are not in the second one. -/
def difference (a b : CharSet) : CharSet := ⟨b.ranges.foldl removeRange a.ranges⟩

/-- The characters of exactly one of two sets. -/
def symmetricDifference (a b : CharSet) : CharSet := (a.union b).difference (a.intersection b)

/-- The set together with all characters that differ only in case from one of its own. -/
def anyCase (s : CharSet) : CharSet :=
  s.union (ofChars (casedChars.filter fun c => (caseVariants c).any s.has))

/-- The set together with the letters of ASCII that differ only in case from one of its own. -/
def anyAsciiCase (s : CharSet) : CharSet :=
  s.union (ofChars ((List.range 128).map Char.ofNat |>.filter fun c => s.has c.toLower || s.has c.toUpper))

/-! ## Questions about sets -/

/-- The only character of the set, if there is just one. -/
def only? (s : CharSet) : Option Char :=
  match s.ranges with
  | [(a, b)] => if a = b then some (Char.ofNat a) else .none
  | _ => .none

/-- Whether all characters of the set are of ASCII. -/
def isAscii (s : CharSet) : Bool := s.ranges.all (·.2 < 128)

/-- The length in bytes of the shortest character; none for the empty set. -/
def leastLength? (s : CharSet) : Option Nat := s.ranges.head?.map fun r => (Char.ofNat r.1).utf8Size

/-- The length in bytes of the longest character; none for the empty set. -/
def greatestLength? (s : CharSet) : Option Nat := s.ranges.getLast?.map fun r => (Char.ofNat r.2).utf8Size

/-! ## Sets with names -/

/-- Every character but the line feed. -/
def notLineFeed : CharSet := (ofChars ['\n']).inverse

/-- Every character but the line feed and the carriage return. -/
def notLineEnd : CharSet := (ofChars ['\n', '\r']).inverse

/-- The decimal digits of all scripts. -/
def digits : CharSet := ⟨digitRanges⟩

/-- White space. -/
def blanks : CharSet := ⟨blankRanges⟩

/-- The characters of words. -/
def wordChars : CharSet := ⟨wordRanges⟩

/-- The sets of ASCII characters that are written `[:name:]` within a set. -/
def asciiNamed : List (String × CharSet) := [
  ("alnum", ⟨[(0x30, 0x39), (0x41, 0x5a), (0x61, 0x7a)]⟩),
  ("alpha", ⟨[(0x41, 0x5a), (0x61, 0x7a)]⟩),
  ("ascii", ⟨[(0x0, 0x7f)]⟩),
  ("blank", ⟨[(0x9, 0x9), (0x20, 0x20)]⟩),
  ("cntrl", ⟨[(0x0, 0x1f), (0x7f, 0x7f)]⟩),
  ("digit", ⟨[(0x30, 0x39)]⟩),
  ("graph", ⟨[(0x21, 0x7e)]⟩),
  ("lower", ⟨[(0x61, 0x7a)]⟩),
  ("print", ⟨[(0x20, 0x7e)]⟩),
  ("punct", ⟨[(0x21, 0x2f), (0x3a, 0x40), (0x5b, 0x60), (0x7b, 0x7e)]⟩),
  ("space", ⟨[(0x9, 0xd), (0x20, 0x20)]⟩),
  ("upper", ⟨[(0x41, 0x5a)]⟩),
  ("word", ⟨[(0x30, 0x39), (0x41, 0x5a), (0x5f, 0x5f), (0x61, 0x7a)]⟩),
  ("xdigit", ⟨[(0x30, 0x39), (0x41, 0x46), (0x61, 0x66)]⟩)]

/-- The set of ASCII characters with a name; empty if there is none. -/
def namedAscii (name : String) : CharSet := (asciiNamed.lookup name).getD none

end CharSet

end Formula
