import Formula.Pattern.Property
import Formula.Pattern.Reader

/-!
# `Formula.Pattern.Escape` — what follows a backslash

An escape stands for one character, for a set with a name, for the characters with a property, or for an anchor.

## Contents
- `Escape` and `Reader.escape`.
- `Reader.codePoint` — a character written by its code point.
- `Reader.property` — the characters with a property.
-/

namespace Formula

/-- What an escape stands for. -/
inductive Escape where
  | char (c : Char)
  /-- A character that is written as one byte. -/
  | byte (c : Char)
  | set (s : CharSet)
  | anchor (a : Anchor)

namespace Reader

/-- The value of a hexadecimal digit. -/
def hexValue? (c : Char) : Option Nat :=
  if c.isDigit then some (c.toNat - 48)
  else if 'a' ≤ c ∧ c ≤ 'f' then some (c.toNat - 87)
  else if 'A' ≤ c ∧ c ≤ 'F' then some (c.toNat - 55)
  else none

/-- The character whose code point is written by hexadecimal digits, of which there is at least one. -/
def charOfHex? (digits : List Char) : Option Char :=
  if digits.isEmpty then none
  else
    match digits.foldl (fun n d => n.bind fun n => (hexValue? d).map (16 * n + ·)) (some 0) with
    | some n => if n.isValidChar then some (Char.ofNat n) else none
    | none => none

/-- So many characters, each with the blanks after it. -/
def exactly : Nat → Reader (List Char)
  | 0 => return []
  | n + 1 => do
    let c ← peekOr .escapeAtEnd
    advance
    return c :: (← exactly n)

/-- A code point: digits between braces, or exactly `width` digits. Says whether there were braces. -/
def codePoint (width : Nat) : Reader (Char × Bool) := do
  advance
  let braces := (← peekOr .escapeAtEnd) == '\x7b'
  let digits ←
    if braces then do
      advance
      let digits ← charsWhile (· != '\x7d')
      discard <| peekOr .escapeAtEnd
      advance
      pure digits
    else exactly width
  match charOfHex? digits with
  | some c => return (c, braces)
  | none => throw .codePointInvalid

/-- A set with a name, or what it leaves out. In ASCII mode nothing may be left out, as this would leave parts of
    characters. -/
def namedSet (all ascii : CharSet) (negated : Bool) : Reader Escape := do
  skip
  if (← get).flags.allScripts then return .set (if negated then all.inverse else all)
  else if negated then throw .partOfCharacter
  else return .set ascii

/-- What names a property, after the letter that asks for one: a character, or the text between braces. -/
def propertyName : Reader String := do
  advance
  let c ← peekOr .escapeAtEnd
  if c = '\x7b' then
    advance
    let name ← charsWhile (· != '\x7d')
    discard <| peekOr .escapeAtEnd
    skip
    return String.ofList name
  else if c = '\\' then throw .propertyInvalid
  else
    skip
    return String.ofList [c]

/-- The set of a property, or what it leaves out. Where case is disregarded, this is done before anything is left
    out. -/
def property [PropertyTables] (negated : Bool) : Reader Escape := do
  let name ← propertyName
  let flags := (← get).flags
  if !flags.allScripts then throw .propertyOutsideUnicode
  match PropertyTables.find name with
  | .ok s =>
    let s := flags.closeCase s
    return .set (if negated then s.inverse else s)
  | .error .nameUnknown => throw .propertyUnknown
  | .error .valueUnknown => throw .propertyValueUnknown

/-- The letters between braces that say at which side of a word a boundary is, after the opening brace and the
    blanks after it. -/
def boundarySide (ascii : Bool) : Reader Anchor := do
  let letters ← charsWhile fun c => c.isAlpha || c == '-'
  if (← peek?) != some '\x7d' then throw .boundaryUnknown
  skip
  match String.ofList letters with
  | "start" => return .wordStart ascii
  | "end" => return .wordEnd ascii
  | "start-half" => return .noWordBefore ascii
  | "end-half" => return .noWordAfter ascii
  | _ => throw .boundaryUnknown

/-- A word boundary, after its letter. Braces belong to it if they do not hold a count. -/
def boundary (ascii : Bool) : Reader Anchor := do
  let here ← get
  if here.rest.head? != some '\x7b' then return .wordBoundary ascii
  advance
  let c ← peekOr .boundaryUnknown
  if c.isAlpha || c == '-' then boundarySide ascii
  else
    set here
    return .wordBoundary ascii

/-- Characters that stand for themselves after a backslash: all of ASCII but letters, digits and angle
    brackets. -/
def isEscapable (c : Char) : Bool := c.toNat < 128 && !c.isAlphanum && c != '<' && c != '>'

/-- The character that a letter stands for after a backslash. -/
def controlChar? (letter : Char) : Option Char :=
  match letter with
  | 't' => some '\t'
  | 'n' => some '\n'
  | 'r' => some '\r'
  | 'a' => some '\x07'
  | 'f' => some '\x0c'
  | 'v' => some '\x0b'
  | _ => none

/-- The anchor that a character stands for after a backslash, except for a word boundary, which may go on. -/
def anchor? (ascii : Bool) (c : Char) : Option Anchor :=
  match c with
  | 'A' => some .textStart
  | 'z' => some .textEnd
  | 'B' => some (.noWordBoundary ascii)
  | '<' => some (.wordStart ascii)
  | '>' => some (.wordEnd ascii)
  | _ => none

/-- What follows a backslash. -/
def escape [PropertyTables] : Reader Escape := do
  skip
  let c ← peekOr .escapeAtEnd
  match c with
  | 'x' =>
    let (c, braces) ← codePoint 2
    return if braces then .char c else .byte c
  | 'u' => return .char (← codePoint 4).1
  | 'U' => return .char (← codePoint 8).1
  | 'd' => namedSet .digits (.namedAscii "digit") false
  | 'D' => namedSet .digits (.namedAscii "digit") true
  | 's' => namedSet .blanks (.namedAscii "space") false
  | 'S' => namedSet .blanks (.namedAscii "space") true
  | 'w' => namedSet .wordChars (.namedAscii "word") false
  | 'W' => namedSet .wordChars (.namedAscii "word") true
  | 'p' => property false
  | 'P' => property true
  | _ =>
    skip
    let ascii := !(← get).flags.allScripts
    if isEscapable c then return .char c
    else if c = 'b' then return .anchor (← boundary ascii)
    else
      match controlChar? c, anchor? ascii c with
      | some c, _ => return .char c
      | _, some a => return .anchor a
      | _, _ => throw .escapeUnknown

end Reader

end Formula
