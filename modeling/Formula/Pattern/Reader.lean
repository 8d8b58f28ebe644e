import Formula.Pattern.Basic

/-!
# `Formula.Pattern.Reader` — going through a written pattern

The readers of patterns share the characters still to come, the flags in force, and the groups met so far.

## Contents
- `PatternError` — what can be wrong with a written pattern.
- `Flags`, `Remainder`, and the monad `Reader`.
- `nested` — keeps count of what is open.
- `peek?`, `skip`, `skipBlanks`, `advance` — the next character and the way past it.
- `number`, `letters` — runs of digits and of letters.
-/

namespace Formula

/-- What is wrong with a written pattern. -/
inductive PatternError where
  | groupNotClosed
  | groupNotOpened
  | groupNameInvalid
  | groupNameRepeated
  | setNotClosed
  | setItemInvalid
  | rangeInvalid
  | escapeAtEnd
  | escapeUnknown
  | codePointInvalid
  | propertyInvalid
  | propertyUnknown
  | propertyValueUnknown
  | propertyOutsideUnicode
  | boundaryUnknown
  | operandMissing
  | countNotClosed
  | countInvalid
  | flagUnknown
  | flagRepeated
  | flagMissing
  | lookingAround
  | partOfCharacter
  | tooDeep
  | tooLong
deriving DecidableEq, Repr

/-- The error in words. -/
def PatternError.message : PatternError → String
  | groupNotClosed => "unclosed group"
  | groupNotOpened => "unopened group"
  | groupNameInvalid => "invalid capture group name"
  | groupNameRepeated => "duplicate capture group name"
  | setNotClosed => "unclosed character class"
  | setItemInvalid => "invalid escape sequence found in character class"
  | rangeInvalid => "invalid character class range"
  | escapeAtEnd => "incomplete escape sequence"
  | escapeUnknown => "unrecognized escape sequence"
  | codePointInvalid => "invalid code point"
  | propertyInvalid => "invalid Unicode character class"
  | propertyUnknown => "Unicode property not found"
  | propertyValueUnknown => "Unicode property value not found"
  | propertyOutsideUnicode => "Unicode not allowed here"
  | boundaryUnknown => "unrecognized special word boundary"
  | operandMissing => "repetition operator missing expression"
  | countNotClosed => "unclosed counted repetition"
  | countInvalid => "invalid repetition count range"
  | flagUnknown => "unrecognized flag"
  | flagRepeated => "duplicate flag"
  | flagMissing => "dangling flag negation operator"
  | lookingAround => "look-around is not supported"
  | partOfCharacter => "pattern can match invalid UTF-8"
  | tooDeep => "exceeds the maximum number of nested parentheses and brackets"
  | tooLong => "pattern is too long"

/-- How the characters that follow are to be read. -/
structure Flags where
  /-- Characters that differ only in case are the same. -/
  anyCase : Bool
  /-- Anchors hold at the ends of lines. -/
  lines : Bool
  /-- The dot stands for the line feed as well. -/
  dotTakesAll : Bool
  /-- Repetitions prefer few rounds. -/
  fewestFirst : Bool
  /-- A carriage return ends a line, too. -/
  carriageReturns : Bool
  /-- Names stand for characters of all scripts and not of ASCII only. -/
  allScripts : Bool
  /-- White space and comments are skipped. -/
  spaced : Bool
deriving DecidableEq, Repr

namespace Flags

/-- The flags at the start of a pattern. -/
def standard : Flags := ⟨false, false, false, false, false, true, false⟩

/-- Sets the flag that is written by a letter. -/
def set? (flags : Flags) (letter : Char) (value : Bool) : Option Flags :=
  match letter with
  | 'i' => some { flags with anyCase := value }
  | 'm' => some { flags with lines := value }
  | 's' => some { flags with dotTakesAll := value }
  | 'U' => some { flags with fewestFirst := value }
  | 'R' => some { flags with carriageReturns := value }
  | 'u' => some { flags with allScripts := value }
  | 'x' => some { flags with spaced := value }
  | _ => none

/-- A set with all characters that count as the same as one of its own. -/
def closeCase (flags : Flags) (s : CharSet) : CharSet :=
  if !flags.anyCase then s else if flags.allScripts then s.anyCase else s.anyAsciiCase

/-- The characters that count as the same as one. -/
def closeCaseOf (flags : Flags) (c : Char) : CharSet :=
  if !flags.anyCase then .ofChars [c]
  else if flags.allScripts then .ofChars (caseVariants c)
  else .ofChars [c.toLower, c.toUpper]

end Flags

/-- What remains of a written pattern, and what the part before it has said about it. -/
structure Remainder where
  rest : List Char
  flags : Flags
  /-- The number of numbered groups so far. -/
  groups : Nat
  /-- The names of groups so far. -/
  names : List (List Char)
  /-- The number of groups and brackets that are open. -/
  depth : Nat

/-- Reading a part of a pattern. -/
abbrev Reader := EStateM PatternError Remainder

/-- The greatest number of levels that a pattern may have. -/
def Pattern.maxLevels : Nat := 250

namespace Reader

/-- Reads what stands between parentheses or brackets. Each of them is a level of the pattern. -/
def nested {α : Type} (inner : Reader α) : Reader α := do
  if Pattern.maxLevels ≤ (← get).depth then throw .tooDeep
  modify fun s => { s with depth := s.depth + 1 }
  let a ← inner
  modify fun s => { s with depth := s.depth - 1 }
  return a

/-- The next character. -/
def peek? : Reader (Option Char) := do return (← get).rest.head?

/-- The next character, without which there is an error. -/
def peekOr (error : PatternError) : Reader Char := do
  match ← peek? with
  | some c => return c
  | none => throw error

/-- Goes past one character. -/
def skip : Reader Unit := modify fun s => { s with rest := s.rest.tail }

/-- Goes past an expected text, if it comes next. -/
def skipText (text : List Char) : Reader Bool := do
  let s ← get
  if text.isPrefixOf s.rest then
    set { s with rest := s.rest.drop text.length }
    return true
  else return false

/-- What remains after white space and comments; a comment goes from a number sign to the end of the line. -/
def dropSpaced (inComment : Bool) : List Char → List Char
  | [] => []
  | c :: cs =>
    if inComment then dropSpaced (c != '\n') cs
    else if isBlank c then dropSpaced false cs
    else if c = '#' then dropSpaced true cs
    else c :: cs

/-- Goes past white space and comments, if the flags say so. -/
def skipBlanks : Reader Unit :=
  modify fun s => if s.flags.spaced then { s with rest := dropSpaced false s.rest } else s

/-- Goes past one character and the blanks after it. -/
def advance : Reader Unit := do
  skip
  skipBlanks

/-- The character after the next one, past the blanks after that if the flags say so. Of a comment only the sign and
    the white space after it are gone past here, and where nothing else is left a blank is the answer. -/
def peekSecond? : Reader (Option Char) := do
  let s ← get
  let after := s.rest.tail
  if !s.flags.spaced then return after.head?
  match after.dropWhile isBlank with
  | '#' :: more => return (more.dropWhile isBlank ++ after).head?
  | further => return (further ++ after).head?

/-- Goes past characters with a property, each with the blanks after it. The first argument bounds their
    number. -/
def takeWhile (isWanted : Char → Bool) : Nat → Reader (List Char)
  | 0 => return []
  | bound + 1 => do
    match ← peek? with
    | some c =>
      if isWanted c then
        advance
        return c :: (← takeWhile isWanted bound)
      else return []
    | none => return []

/-- A run of characters with a property. -/
def charsWhile (isWanted : Char → Bool) : Reader (List Char) := do takeWhile isWanted (← get).rest.length

/-- The largest count that can be written. -/
def maxCount : Nat := 0xffffffff

/-- A count with white space around it; none if there are no digits. -/
def number : Reader (Option Nat) := do
  modify fun s => { s with rest := s.rest.dropWhile isBlank }
  let digits ← charsWhile Char.isDigit
  discard <| charsWhile isBlank
  if digits.isEmpty then return none
  let n := digits.foldl (fun n d => 10 * n + (d.toNat - 48)) 0
  if maxCount < n then throw .countInvalid else return some n

end Reader

end Formula
