import Formula.Text.Printable

/-!
# `Formula.Text.Quoted` — a text between double quotes

Quoting makes a text visible on one line: quotes and backslashes are escaped, the common control characters
have short escapes, and any other character that cannot be seen, or that would attach to the quote before it,
is written by its code point.
-/

namespace Formula

/-- The lower-case hexadecimal digits of a number, without leading zeros. -/
def hexDigits (n : Nat) : List Char := Nat.toDigits 16 n

/-- A character as it stands between double quotes. -/
def quotedChar (c : Char) : List Char :=
  match c with
  | '"' => ['\\', '"']
  | '\\' => ['\\', '\\']
  | '\n' => ['\\', 'n']
  | '\r' => ['\\', 'r']
  | '\t' => ['\\', 't']
  | '\x00' => ['\\', '0']
  | _ =>
    if isPrintable c && !isAttaching c then [c]
    else ['\\', 'u', '\x7b'] ++ hexDigits c.toNat ++ ['\x7d']

/-- A text between double quotes. -/
def quoted (text : String) : String := "\"" ++ String.ofList (text.toList.flatMap quotedChar) ++ "\""

end Formula
