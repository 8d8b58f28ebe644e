import Formula.Pattern.SetReading
import Formula.Text.Alphabetic

/-!
# `Formula.Pattern.Reading` — patterns as they are written

| written | matches |
|---|---|
| `a` `\+` `\t` `\x41` | that character |
| `.` | any character but the line feed |
| `[a-z_]` `[^0-9]` `\d` `\s` `\w` | a character of the set |
| `\pN` `\p{Nd}` `\p{sc=Greek}` `\P{Nd}` | a character with the property, or without it |
| `(p)` `(?:p)` `(?<name>p)` | what `p` matches |
| `p\|q` | what `p` or, failing that, `q` matches |
| `p?` `p*` `p+` `p{2}` `p{2,}` `p{2,5}` | rounds of `p`; fewest first with a further `?` |
| `^` `$` `\A` `\z` | nothing, at the ends of the text |
| `\b` `\B` `\<` `\>` | nothing, around words |
| `(?i)` `(?i:p)` | sets flags up to the end of the group, or for `p` |

The flags are `i` any case, `m` lines, `s` dot takes all, `U` fewest first, `R` carriage returns, `u` all
scripts, `x` white space and comments skipped; those after a hyphen are taken away. References back to groups and
looking around are not part of the notation. Which characters have a property is left to tables.

A pattern may be nested only so deeply. A group, a set between brackets, a repetition, a sequence of several
items and a choice are each a level.

## Contents
- `Piece` — a pattern and its levels.
- `Reader.groupHead`, `Reader.single`, `Reader.repetitions`.
- `Pattern.read` — reads a whole pattern.
-/

namespace Formula

/-- A pattern with the number of levels in the way it is written. -/
structure Piece where
  pattern : Pattern
  levels : Nat

namespace Piece

/-- A piece without levels. -/
def flat (p : Pattern) : Piece := ⟨p, 0⟩

/-- The greatest number of levels in some pieces. -/
def greatestLevels (pieces : List Piece) : Nat := pieces.foldr (fun piece n => max piece.levels n) 0

/-- Pieces put together, one level above them. -/
def combine (put : List Pattern → Pattern) (pieces : List Piece) : Piece :=
  match pieces with
  | [] => flat .empty
  | [piece] => piece
  | pieces => ⟨put (pieces.map (·.pattern)), greatestLevels pieces + 1⟩

end Piece

namespace Reader

/-! ## Repetition -/

/-- The least and the greatest number of rounds, after the opening brace. -/
def counts : Reader (Nat × Option Nat) := do
  let least? ← number
  let c ← peekOr .countNotClosed
  let most? ←
    if c = ',' then do
      advance
      if (← peekOr .countNotClosed) = '\x7d' then pure none
      else
        match ← number with
        | some most => pure (some most)
        | none => throw .countInvalid
    else pure least?
  match least? with
  | none => throw .countInvalid
  | some least =>
    if (← peekOr .countNotClosed) != '\x7d' then throw .countNotClosed
    advance
    if most?.any (· < least) then throw .countInvalid
    return (least, most?)

/-- The repetition operator that comes next, if one does. -/
def repetition? : Reader (Option (Nat × Option Nat)) := do
  match ← peek? with
  | some '*' =>
    skip
    return some (0, none)
  | some '+' =>
    skip
    return some (1, none)
  | some '?' =>
    skip
    return some (0, some 1)
  | some '\x7b' =>
    advance
    return some (← counts)
  | _ => return none

/-- All repetition operators after an operand. The first argument bounds their number. -/
def repetitions : Nat → Piece → Reader Piece
  | 0, _ => throw .tooLong
  | bound + 1, piece => do
    skipBlanks
    match ← repetition? with
    | none => return piece
    | some (least, most) =>
      let lazily ← skipText ['?']
      let greedy := lazily == (← get).flags.fewestFirst
      repetitions bound ⟨piece.pattern.repeated least most greedy, piece.levels + 1⟩

/-! ## Groups -/

/-- Flags up to a colon or a closing parenthesis, and which of them it is. `seen` holds the letters and the
    hyphen so far, the last one first. None may be written twice, and a letter must follow the hyphen. -/
def newFlags : Nat → Flags → List Char → Reader (Flags × Char)
  | 0, _, _ => throw .tooLong
  | bound + 1, flags, seen => do
    let c ← peekOr .groupNotClosed
    if c = ':' ∨ c = ')' then
      if seen.head? = some '-' then throw .flagMissing
      if c = ')' ∧ seen.isEmpty then throw .operandMissing
      skip
      return (flags, c)
    else if seen.contains c then throw .flagRepeated
    else
      skip
      if c = '-' then newFlags bound flags (c :: seen)
      else
        match flags.set? c (!seen.contains '-') with
        | some flags => newFlags bound flags (c :: seen)
        | none => throw .flagUnknown

/-- Whether a character may stand in the name of a group, or at the front of it. -/
def isNameChar (first : Bool) (c : Char) : Bool :=
  c == '_' || isAlphabetic c || !first && (c == '.' || c == '[' || c == ']' || isNumeric c)

/-- The name of a group and the closing angle bracket. -/
def groupName : Reader Unit := do
  let s ← get
  let name := s.rest.takeWhile (· != '>')
  match name, s.rest.dropWhile (· != '>') with
  | c :: more, _ :: rest =>
    if !(isNameChar true c && more.all (isNameChar false)) then throw .groupNameInvalid
    if s.names.contains name then throw .groupNameRepeated
    set { s with rest, names := name :: s.names }
  | _, _ => throw .groupNameInvalid

/-- Counts one more numbered group, and gives its number. -/
def nextGroup : Reader Nat := modifyGet fun s => (s.groups, { s with groups := s.groups + 1 })

/-- How a group begins. -/
inductive GroupHead where
  /-- Flags for what follows in the enclosing group. -/
  | flags (flags : Flags)
  /-- A group that is only read under the flags. -/
  | plain (flags : Flags)
  | numbered (index : Nat)

/-- The head of a group, from its opening parenthesis on. -/
def groupHead : Reader GroupHead := do
  advance
  let looking ← ["?=", "?!", "?<=", "?<!"].anyM fun text => skipText text.toList
  if looking then throw .lookingAround
  if (← skipText ['?', 'P', '<']) || (← skipText ['?', '<']) then
    groupName
    return .numbered (← nextGroup)
  else if ← skipText ['?'] then
    let s ← get
    let (flags, c) ← newFlags (s.rest.length + 1) s.flags []
    return if c = ')' then .flags flags else .plain flags
  else return .numbered (← nextGroup)

/-! ## Patterns -/

/-- One character. Where case is disregarded it stands for all that differ from it only in case. -/
def ofChar (c : Char) : Reader Pattern := do
  let flags := (← get).flags
  return .ofSet (flags.closeCaseOf c)

/-- One character, set or anchor. -/
def single [PropertyTables] (bound : Nat) (c : Char) : Reader Piece := do
  match c with
  | '\\' =>
    match ← escape with
    | .char c => return .flat (← ofChar c)
    | .byte c =>
      if !(← get).flags.allScripts && 128 ≤ c.toNat then throw .partOfCharacter
      return .flat (← ofChar c)
    | .set s => return .flat (.ofSet s)
    | .anchor a => return .flat (.anchor a)
  | '[' =>
    let (s, levels) ← bracketed bound
    return ⟨.ofSet s, levels⟩
  | '.' =>
    skip
    let flags := (← get).flags
    if !flags.allScripts then throw .partOfCharacter
    return .flat (.set (if flags.dotTakesAll then .all else if flags.carriageReturns then .notLineEnd else .notLineFeed))
  | '^' =>
    skip
    let flags := (← get).flags
    return .flat (.anchor (if !flags.lines then .textStart else if flags.carriageReturns then .anyLineStart else .lineStart))
  | '$' =>
    skip
    let flags := (← get).flags
    return .flat (.anchor (if !flags.lines then .textEnd else if flags.carriageReturns then .anyLineEnd else .lineEnd))
  | _ =>
    skip
    return .flat (← ofChar c)

mutual

/-- Alternatives up to the end of the group or of the text. The first argument of these readers bounds their
    steps. -/
def choice [PropertyTables] : Nat → Reader (List Piece)
  | 0 => throw .tooLong
  | bound + 1 => do
    let piece := Piece.combine .inSequence (← items bound)
    if (← peek?) = some '|' then
      skip
      return piece :: (← choice bound)
    else return [piece]

/-- The items of a sequence up to a bar or the end of the group or of the text. Flags are an item that matches
    the empty text. -/
def items [PropertyTables] : Nat → Reader (List Piece)
  | 0 => throw .tooLong
  | bound + 1 => do
    skipBlanks
    match ← peek? with
    | none => return []
    | some c =>
      if c = '|' ∨ c = ')' then return []
      else if c = '*' ∨ c = '+' ∨ c = '?' ∨ c = '\x7b' then throw .operandMissing
      else
        let piece ← if c = '(' then group bound else repetitions bound (← single bound c)
        return piece :: (← items bound)

/-- A group with the repetition operators after it, or flags. The flags that a group sets hold up to its end. -/
def group [PropertyTables] : Nat → Reader Piece
  | 0 => throw .tooLong
  | bound + 1 => do
    let outer := (← get).flags
    match ← groupHead with
    | .flags flags =>
      modify fun s => { s with flags }
      return .flat .empty
    | head =>
      if let .plain flags := head then modify fun s => { s with flags }
      let piece := Piece.combine .anyOf (← nested (choice bound))
      if (← peek?) != some ')' then throw .groupNotClosed
      modify fun s => { s with flags := outer }
      skip
      let pattern := match head with
        | .numbered index => .group index piece.pattern
        | _ => piece.pattern
      repetitions bound ⟨pattern, piece.levels + 1⟩

end

end Reader

namespace Pattern

/-- Reads a whole pattern. Each step of the readers goes at least one character or one level on, and a level is
    entered by one character. -/
def read [PropertyTables] (text : String) : Except PatternError Pattern :=
  let cs := text.toList
  match EStateM.run (Reader.choice (3 * cs.length + 3)) ⟨cs, .standard, 0, [], 0⟩ with
  | .error e _ => .error e
  | .ok pieces s =>
    let piece := Piece.combine .anyOf pieces
    if !s.rest.isEmpty then .error .groupNotOpened
    else if maxLevels < piece.levels then .error .tooDeep
    else .ok piece.pattern

end Pattern

end Formula
