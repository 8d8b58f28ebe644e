import Formula.Pattern.Escape

/-!
# `Formula.Pattern.SetReading` — sets between brackets

| written | holds |
|---|---|
| `[a-z_]` | what is listed |
| `[^a-z]` | what is not listed |
| `[\d\s]` `[[:alpha:]]` `[[:^alpha:]]` | sets with names |
| `[\p{Nd}_]` | the characters with a property |
| `[a-z[0-9]]` | what an inner set holds |
| `[a-z&&b-e]` `[a-z--b-e]` `[a-z~~b-e]` | what both sides, only the first, or exactly one of them list |

The operators between two sides are taken from left to right. Where case is disregarded, this is done for each
side and for each set between brackets, before it is negated.

## Contents
- `SetPart` — what a set lists so far.
- `Reader.bracketed` — a set with the number of levels it adds to the pattern.
-/

namespace Formula

/-- The operators between the sides of a set. -/
inductive SetOperator where
  | both
  | onlyFirst
  | exactlyOne
deriving DecidableEq, Repr

namespace SetOperator

/-- The operator that is written by a doubled character. -/
def ofChar? (c : Char) : Option SetOperator :=
  match c with
  | '&' => some both
  | '-' => some onlyFirst
  | '~' => some exactlyOne
  | _ => none

/-- Applies an operator. -/
def apply : SetOperator → CharSet → CharSet → CharSet
  | both, a, b => a.intersection b
  | onlyFirst, a, b => a.difference b
  | exactlyOne, a, b => a.symmetricDifference b

end SetOperator

/-- What one side of a set lists so far, and what stands before it. -/
structure SetPart where
  listed : CharSet
  /-- The number of items. -/
  count : Nat
  /-- The greatest number of levels in an item. -/
  levels : Nat
  /-- The sides before, put together, with their levels and the operator after them. -/
  before : Option (CharSet × Nat × SetOperator)

namespace SetPart

/-- Nothing listed. -/
def start : SetPart := ⟨.none, 0, 0, none⟩

/-- Adds an item. -/
def add (part : SetPart) (s : CharSet) (levels : Nat) : SetPart :=
  { part with listed := s.union part.listed, count := part.count + 1, levels := max part.levels levels }

/-- The levels of the side: several items are one level above them. -/
def ownLevels (part : SetPart) : Nat := if 2 ≤ part.count then part.levels + 1 else part.levels

/-- The set of the side and those before it, and its levels. -/
def close (part : SetPart) (flags : Flags) : CharSet × Nat :=
  match part.before with
  | none => (part.listed, part.ownLevels)
  | some (first, levels, op) =>
    (op.apply (flags.closeCase first) (flags.closeCase part.listed), max levels part.ownLevels + 1)

/-- Starts another side after an operator. -/
def next (part : SetPart) (flags : Flags) (op : SetOperator) : SetPart :=
  let (s, levels) := part.close flags
  ⟨.none, 0, 0, some (s, levels, op)⟩

end SetPart

namespace Reader

/-- A set as the flags want it: without regard to case, and negated. -/
def finishSet (s : CharSet) (negated : Bool) : Reader CharSet := do
  let flags := (← get).flags
  let s := flags.closeCase s
  if !flags.allScripts && (negated || !s.isAscii) then throw .partOfCharacter
  return if negated then s.inverse else s

/-- A set `[:name:]`, if this is what comes next. -/
def asciiSet? : Reader (Option CharSet) := do
  let here ← get
  if !(← skipText ['[', ':']) then return none
  let negated ← skipText ['^']
  let rest := (← get).rest
  let name := rest.takeWhile (· != ':')
  modify fun s => { s with rest := rest.drop name.length }
  match (CharSet.asciiNamed.lookup (String.ofList name)), ← skipText [':', ']'] with
  | some s, true => return some (← finishSet s negated)
  | _, _ =>
    set here
    return none

/-- One character or set with a name. -/
def setItem [PropertyTables] : Reader Escape := do
  let c ← peekOr .setNotClosed
  if c = '\\' then escape
  else
    skip
    return .char c

/-- The character that one end of a range stands for. -/
def rangeEnd : Escape → Reader Char
  | .char c => return c
  | .byte c => return c
  | _ => throw .rangeInvalid

/-- The set that an item stands for. -/
def itemSet : Escape → Reader CharSet
  | .char c => return .ofChars [c]
  | .byte c => return .ofChars [c]
  | .set s => return s
  | .anchor _ => throw .setItemInvalid

/-- One item or, with a hyphen that is neither the set's last character nor doubled, a range from one item to
    another. -/
def setRange [PropertyTables] : Reader CharSet := do
  let first ← setItem
  skipBlanks
  let c ← peekOr .setNotClosed
  let second? ← peekSecond?
  if c != '-' || second? == some ']' || second? == some '-' then itemSet first
  else
    advance
    let a ← rangeEnd first
    let b ← rangeEnd (← setItem)
    if a ≤ b then return ⟨[(a.toNat, b.toNat)]⟩ else throw .rangeInvalid

/-- The hyphens at the front of a set, which stand for themselves. The first argument bounds their number. -/
def leadingHyphens : Nat → SetPart → Reader SetPart
  | 0, part => return part
  | bound + 1, part => do
    if (← peekOr .setNotClosed) = '-' then
      advance
      leadingHyphens bound (part.add (.ofChars ['-']) 0)
    else return part

/-- The front of a set, after its opening bracket: whether it is negated, and the hyphens, or else the closing
    bracket, that stand for themselves there. -/
def setFront : Reader (Bool × SetPart) := do
  advance
  let negated := (← peekOr .setNotClosed) == '^'
  if negated then advance
  let part ← leadingHyphens (← get).rest.length .start
  if part.count = 0 && (← peekOr .setNotClosed) == ']' then
    advance
    return (negated, part.add (.ofChars [']']) 0)
  return (negated, part)

/-- The operator that comes next, if one does. -/
def setOperator? : Reader (Option SetOperator) := do
  let s ← get
  match s.rest with
  | c :: d :: rest =>
    if c = d then
      match SetOperator.ofChar? c with
      | some op =>
        set { s with rest }
        return some op
      | none => return none
    else return none
  | _ => return none

mutual

/-- A set between brackets, with its levels. The first argument bounds the steps. -/
def bracketed [PropertyTables] : Nat → Reader (CharSet × Nat)
  | 0 => throw .tooLong
  | bound + 1 => do
    let (negated, part) ← setFront
    let (s, levels) ← nested (setItems bound part)
    return (← finishSet s negated, levels + 1)

/-- What is listed up to the closing bracket. -/
def setItems [PropertyTables] : Nat → SetPart → Reader (CharSet × Nat)
  | 0, _ => throw .tooLong
  | bound + 1, part => do
    skipBlanks
    let c ← peekOr .setNotClosed
    if c = ']' then
      skip
      return part.close (← get).flags
    else if c = '[' then
      match ← asciiSet? with
      | some s => setItems bound (part.add s 0)
      | none =>
        let (s, levels) ← bracketed bound
        setItems bound (part.add s levels)
    else
      match ← setOperator? with
      | some op => setItems bound (part.next (← get).flags op)
      | none => setItems bound (part.add (← setRange) 0)

end

end Reader

end Formula
