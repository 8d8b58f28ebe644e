import Formula.Text.CharRanges

/-!
# `Formula.Text.Blank` — white space

The characters of the property White_Space, and texts without them at either end.
-/

namespace Formula

/-- The code points of white space. -/
def blankRanges : CharRanges := [
    (0x9, 0xd), (0x20, 0x20), (0x85, 0x85), (0xa0, 0xa0), (0x1680, 0x1680), (0x2000, 0x200a), (0x2028, 0x2029),
    (0x202f, 0x202f), (0x205f, 0x205f), (0x3000, 0x3000)]

/-- Whether a character is white space. -/
def isBlank (c : Char) : Bool := blankRanges.has c

/-- A text without the white space before its first and after its last other character. -/
def trimBlanks (cs : List Char) : List Char := ((cs.dropWhile isBlank).reverse.dropWhile isBlank).reverse

end Formula
