import Formula.Text.Span

/-!
# `Formula.Token.Basic` — the words of the input language

A token is a piece of text with a kind and the span it was found at.
-/

namespace Formula

/-- The lexical kinds. -/
inductive TokenKind where
  /-- Reserved words. -/
  | keyword
  /-- Names of functions. -/
  | function
  /-- Names of constants. -/
  | constant
  /-- Names of variables. -/
  | name
  /-- Unsigned decimals. -/
  | number
  /-- Operators and punctuation. -/
  | symbol
deriving DecidableEq, Inhabited, Repr

namespace TokenKind

/-- All kinds. -/
def all : List TokenKind := [keyword, function, constant, name, number, symbol]

/-- The kind in words. -/
def describe : TokenKind → String
  | keyword => "keyword"
  | function => "function"
  | constant => "constant"
  | name => "name"
  | number => "number"
  | symbol => "symbol"

end TokenKind

/-- A piece of text, its kind and where it stands. -/
structure Token where
  kind : TokenKind
  text : String
  span : Span
deriving DecidableEq, Inhabited, Repr

/-- Whether two texts are equal up to the case of ASCII letters. -/
def sameLetters (a b : String) : Bool := a.toList.map Char.toLower == b.toList.map Char.toLower

namespace Token

/-- Whether the token is a symbol with exactly this text. -/
def isSymbol (t : Token) (text : String) : Bool := t.kind == .symbol && t.text == text

/-- Whether the token is a keyword with this text, in any case. -/
def isKeyword (t : Token) (text : String) : Bool := t.kind == .keyword && sameLetters t.text text

/-- Whether the token reads as this text: keywords in any case, all other tokens exactly. -/
def reads (t : Token) (text : String) : Bool :=
  if t.kind = .keyword then sameLetters t.text text else t.text == text

/-- The kind and the text. -/
def describe (t : Token) : String := t.kind.describe ++ " '" ++ t.text ++ "'"

end Token

end Formula
