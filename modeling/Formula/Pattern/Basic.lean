import Formula.Pattern.CharSet

/-!
# `Formula.Pattern.Basic` — places, anchors and patterns

A pattern is matched at a *place* in a text: the characters still to come, together with the character before
them, which anchors may look at. A match ends at a later place.

## Contents
- `Place` and `Anchor`.
- `Pattern`, and the least and the greatest length of what it matches.
- `Pattern.ofSet`, `repeated`, `inSequence`, `anyOf` — patterns put together in their simplest form. Two
  patterns are the same where they are equal in this form: a factor that all alternatives begin with is taken
  out of them, and is then matched once for all of them.
-/

namespace Formula

/-- A place in a text. -/
structure Place where
  /-- The character before the place; none at the start of the text. -/
  before : Option Char
  /-- The characters after the place. -/
  rest : List Char
  /-- The place's offset in bytes. -/
  offset : Nat
deriving DecidableEq, Repr

namespace Place

/-- The start of a text. -/
def start (text : List Char) : Place := ⟨none, text, 0⟩

/-- The place after the next character, which is `c`. -/
def after (p : Place) (c : Char) (rest : List Char) : Place := ⟨some c, rest, p.offset + c.utf8Size⟩

/-- The first characters of a text, as many as take up the given number of bytes. -/
def takeBytes : Nat → List Char → List Char
  | _, [] => []
  | 0, _ :: _ => []
  | n + 1, c :: cs => c :: takeBytes (n + 1 - c.utf8Size) cs

/-- The characters between a place and a later one of the same text. -/
def upTo (p q : Place) : List Char := takeBytes (q.offset - p.offset) p.rest

end Place

/-! ## Anchors -/

/-- What an anchor asks of a place. Those about words ask it of all scripts or of ASCII only. -/
inductive Anchor where
  | textStart
  | textEnd
  | lineStart
  | lineEnd
  /-- The start of a line, where a carriage return, a line feed or one after the other ends the line before. -/
  | anyLineStart
  | anyLineEnd
  | wordBoundary (ascii : Bool)
  | noWordBoundary (ascii : Bool)
  | wordStart (ascii : Bool)
  | wordEnd (ascii : Bool)
  /-- No character of a word before. -/
  | noWordBefore (ascii : Bool)
  /-- No character of a word after. -/
  | noWordAfter (ascii : Bool)
deriving DecidableEq, Repr

namespace Anchor

/-- Whether a character belongs to a word, of all scripts or of ASCII only. -/
def inWord (ascii : Bool) (c : Char) : Bool := if ascii then c.isAlphanum || c == '_' else isWordChar c

/-- Whether a character of a word stands before a place. -/
def wordBefore (ascii : Bool) (p : Place) : Bool := p.before.any (inWord ascii)

/-- Whether a character of a word stands after a place. -/
def wordAfter (ascii : Bool) (p : Place) : Bool := p.rest.head?.any (inWord ascii)

/-- Whether an anchor holds at a place. -/
def holds : Anchor → Place → Bool
  | textStart, p => p.before.isNone
  | textEnd, p => p.rest.isEmpty
  | lineStart, p => p.before.all (· == '\n')
  | lineEnd, p => p.rest.head?.all (· == '\n')
  | anyLineStart, p => p.before.all fun c => c == '\n' || c == '\r' && p.rest.head? != some '\n'
  | anyLineEnd, p => p.rest.head?.all fun c => c == '\r' || c == '\n' && p.before != some '\r'
  | wordBoundary ascii, p => wordBefore ascii p != wordAfter ascii p
  | noWordBoundary ascii, p => wordBefore ascii p == wordAfter ascii p
  | wordStart ascii, p => !wordBefore ascii p && wordAfter ascii p
  | wordEnd ascii, p => wordBefore ascii p && !wordAfter ascii p
  | noWordBefore ascii, p => !wordBefore ascii p
  | noWordAfter ascii, p => !wordAfter ascii p

end Anchor

/-! ## Patterns -/

/-- A pattern over characters. -/
inductive Pattern where
  /-- Matches without consuming anything. -/
  | empty
  /-- Matches one text, which is not empty. -/
  | literal (text : List Char)
  | set (s : CharSet)
  | anchor (a : Anchor)
  /-- A numbered group. No two groups of a pattern have the same number. -/
  | group (index : Nat) (body : Pattern)
  | sequence (first second : Pattern)
  /-- Alternatives; the first is preferred. -/
  | choice (first second : Pattern)
  /-- From `least` up to `most` rounds, as many as possible when greedy and else as few. -/
  | rounds (body : Pattern) (least : Nat) (most : Option Nat) (greedy : Bool)
deriving DecidableEq, Repr

namespace Pattern

/-- A number of bytes that every match takes up at least. None is known for a pattern that holds an empty set,
    unless no round of it is asked for. -/
def leastLength? : Pattern → Option Nat
  | empty => some 0
  | literal text => some ((text.map Char.utf8Size).foldr (· + ·) 0)
  | set s => s.leastLength?
  | anchor _ => some 0
  | group _ p => p.leastLength?
  | sequence a b => do return (← a.leastLength?) + (← b.leastLength?)
  | choice a b => do return min (← a.leastLength?) (← b.leastLength?)
  | rounds p least _ _ => do return least * (← p.leastLength?)

/-- A number of bytes that every match takes up at most, if one is known. -/
def greatestLength? : Pattern → Option Nat
  | empty => some 0
  | literal text => some ((text.map Char.utf8Size).foldr (· + ·) 0)
  | set s => s.greatestLength?
  | anchor _ => some 0
  | group _ p => p.greatestLength?
  | sequence a b => do return (← a.greatestLength?) + (← b.greatestLength?)
  | choice a b => do return max (← a.greatestLength?) (← b.greatestLength?)
  | rounds p _ most _ => do return (← most) * (← p.greatestLength?)

/-- Whether every match is known to consume something. -/
def consumes (p : Pattern) : Bool := p.leastLength?.any (0 < ·)

/-! ## Simplest forms -/

/-- One character of a set. -/
def ofSet (s : CharSet) : Pattern :=
  match s.only? with
  | some c => literal [c]
  | none => set s

/-- A pattern that matches nothing, not even the empty text. -/
def never : Pattern := set .none

/-- Rounds of a pattern. Of a pattern that can only match the empty text, more than one round is no more than
    one. -/
def repeated (p : Pattern) (least : Nat) (most : Option Nat) (greedy : Bool) : Pattern :=
  let (least, most) :=
    if p.greatestLength? = some 0 then (min least 1, some (most.elim 1 (min · 1))) else (least, most)
  if least = 0 ∧ most = some 0 then empty
  else if least = 1 ∧ most = some 1 then p
  else rounds p least most greedy

/-- The factors of a sequence. -/
def factors : Pattern → List Pattern
  | sequence a b => a :: factors b
  | p => [p]

/-- The alternatives of a choice. -/
def alternatives : Pattern → List Pattern
  | choice a b => a :: alternatives b
  | p => [p]

/-- Puts a factor before others: empty ones are left out, and neighbouring literals are made one. -/
def consFactor : Pattern → List Pattern → List Pattern
  | empty, ps => ps
  | literal a, literal b :: ps => literal (a ++ b) :: ps
  | p, ps => p :: ps

/-- The sequence of factors that are none themselves. -/
def ofFactors : List Pattern → Pattern
  | [] => empty
  | [p] => p
  | p :: ps => sequence p (ofFactors ps)

/-- Patterns one after the other. -/
def inSequence (ps : List Pattern) : Pattern := ofFactors ((ps.flatMap factors).foldr consFactor [])

/-- The choice between alternatives that are none themselves. -/
def ofAlternatives : List Pattern → Pattern
  | [] => never
  | [p] => p
  | p :: ps => choice p (ofAlternatives ps)

/-- The character of a pattern that is a literal of one. -/
def char? : Pattern → Option Char
  | literal [c] => some c
  | _ => none

/-- The set of a pattern that is one. -/
def set? : Pattern → Option CharSet
  | set s => some s
  | _ => none

/-- The factors of a pattern that is a sequence. -/
def factors? : Pattern → Option (List Pattern)
  | sequence a b => some (a :: factors b)
  | _ => none

/-- What two lists begin with. -/
def sharedPrefix : List Pattern → List Pattern → List Pattern
  | p :: ps, q :: qs => if p = q then p :: sharedPrefix ps qs else []
  | _, _ => []

/-- The factors that all of some sequences begin with. -/
def commonFactors : List (List Pattern) → List Pattern
  | [] => []
  | ps :: rest => rest.foldl sharedPrefix ps

/-- Any of some patterns, the first ones being preferred. Characters and sets become one set, and the factors
    that all alternatives begin with are taken out of them; the first argument bounds how often. -/
def anyOfWithin : Nat → List Pattern → Pattern
  | 0, ps => ofAlternatives ps
  | bound + 1, ps =>
    let ps := ps.flatMap alternatives
    if ps.length ≤ 1 then ofAlternatives ps
    else
      match ps.mapM char?, ps.mapM set?, ps.mapM factors? with
      | some cs, _, _ => ofSet (.ofChars cs)
      | _, some sets, _ => ofSet (sets.foldr .union .none)
      | _, _, some sequences =>
        match commonFactors sequences with
        | [] => ofAlternatives ps
        | common =>
          inSequence (common ++ [anyOfWithin bound (sequences.map fun fs => inSequence (fs.drop common.length))])
      | _, _, _ => ofAlternatives ps

/-- Any of some patterns, the first ones being preferred. Each time that factors are taken out, the sequences
    get shorter. -/
def anyOf (ps : List Pattern) : Pattern :=
  anyOfWithin (((ps.flatMap alternatives).flatMap factors).length + 1) ps

end Pattern

end Formula
