/-!
# `Formula.Constant` — named numbers

A constant keeps its name and its typeset glyph beside an approximate value, so that a tree can show the name
until the number is asked for.
-/

namespace Formula

/-- A named number. -/
structure Constant where
  /-- The name in the input language. -/
  name : String
  /-- The glyph in LaTeX. -/
  latex : String
  /-- The nearest double. -/
  value : Float
deriving DecidableEq, Inhabited

namespace Constant

/-- The ratio of a circle's circumference to its diameter. -/
def pi : Constant := ⟨"pi", "\\pi\x7b\x7d", 3.141592653589793⟩

/-- The base of the natural logarithm. -/
def e : Constant := ⟨"e", "\\mathrm\x7be\x7d", 2.718281828459045⟩

/-- The golden ratio. No token of the standard table names it; it serves trees that are built directly. -/
def golden : Constant := ⟨"golden ratio", "\\varphi\x7b\x7d", 1.618033988749895⟩

/-- The constants that can be looked up. -/
def all : List Constant := [pi, e, golden]

/-- The constant of that name. -/
def lookup? (name : String) : Option Constant := all.find? (·.name == name)

/-- Equality of all parts; the values are compared as numbers. -/
def same (a b : Constant) : Bool := a.name == b.name && a.latex == b.latex && a.value == b.value

end Constant

end Formula
