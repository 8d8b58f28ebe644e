import Formula.Pattern.Basic

/-!
# `Formula.Pattern.Route` — patterns laid out for searching

A route is a pattern in which rounds are spelled out as far as they are counted, so that the only repetition
left is the loop. Each literal, each set, each fork and each loop has a label of its own; two routes that begin
with the same label, within the route of one pattern, are the same and have the same to follow.

## Contents
- `Route` and its `size`.
- `Pattern.route` — the route of a pattern. A round of a pattern that may consume nothing is laid out before its
  loop, so that the loop is met only after a round, and the two have the labels of the round in common.
-/

namespace Formula

/-- A pattern laid out for searching. -/
inductive Route where
  /-- Goes over the characters of a text. -/
  | text (cs : List Char)
  /-- Goes over the characters of a text, too. -/
  | literal (label : Nat) (cs : List Char)
  /-- Goes over one character of a set. -/
  | set (label : Nat) (s : CharSet)
  | anchor (a : Anchor)
  | follow (first second : Route)
  /-- Either of two routes, the first one preferred. -/
  | fork (label : Nat) (first second : Route)
  /-- Another round, after which the loop is met again, or none; the round is preferred when greedy. -/
  | loop (label : Nat) (round : Route) (greedy : Bool)
deriving DecidableEq, Repr

namespace Route

/-- The number of nodes. -/
def size : Route → Nat
  | text _ => 1
  | literal _ _ => 1
  | set _ _ => 1
  | anchor _ => 1
  | follow a b => a.size + b.size + 1
  | fork _ a b => a.size + b.size + 1
  | loop _ a _ => a.size + 1

/-- The route that goes over nothing. -/
def done : Route := text []

/-- A route or none of it, the route being preferred when greedy. -/
def optional (label : Nat) (greedy : Bool) (r : Route) : Route :=
  if greedy then fork label r done else fork label done r

/-! ## Laying out

Each function below is given the first label that is free, and gives back the next one. -/

variable (round : Nat → Route × Nat)

/-- So many rounds and then the rest. -/
def copies : Nat → (Nat → Route × Nat) → Nat → Route × Nat
  | 0, rest, n => rest n
  | count + 1, rest, n =>
    let (r, n) := round n
    let (rest, n) := copies count rest n
    (follow r rest, n)

/-- Up to so many rounds. -/
def atMost (greedy : Bool) : Nat → Nat → Route × Nat
  | 0, n => (done, n)
  | count + 1, n =>
    let (r, m) := round (n + 1)
    let (rest, m) := atMost greedy count m
    (optional n greedy (follow r rest), m)

/-- One round or more. -/
def oneOrMore (greedy : Bool) (n : Nat) : Route × Nat :=
  let (r, m) := round (n + 1)
  (follow r (loop n r greedy), m)

/-- Any number of rounds that all consume something. -/
def anyNumber (greedy : Bool) (n : Nat) : Route × Nat :=
  let (r, m) := round (n + 1)
  (loop n r greedy, m)

/-- One round or more, or none. -/
def optionalRounds (greedy : Bool) (n : Nat) : Route × Nat :=
  let (r, m) := oneOrMore round greedy (n + 1)
  (optional n greedy r, m)

end Route

namespace Pattern

/-- The route of a pattern with labels from `n` on, and the first label that is free after it. -/
def routeFrom : Pattern → Nat → Route × Nat
  | empty, n => (.done, n)
  | literal text, n => (.literal n text, n + 1)
  | set s, n => (.set n s, n + 1)
  | anchor a, n => (.anchor a, n)
  | group _ p, n => p.routeFrom n
  | sequence a b, n =>
    let (r, n) := a.routeFrom n
    let (s, n) := b.routeFrom n
    (.follow r s, n)
  | choice a b, n =>
    let (r, m) := a.routeFrom (n + 1)
    let (s, m) := b.routeFrom m
    (.fork n r s, m)
  | rounds p least most greedy, n =>
    match least, most with
    | 0, none =>
      if p.consumes then Route.anyNumber p.routeFrom greedy n else Route.optionalRounds p.routeFrom greedy n
    | least + 1, none => Route.copies p.routeFrom least (Route.oneOrMore p.routeFrom greedy) n
    | least, some most => Route.copies p.routeFrom least (Route.atMost p.routeFrom greedy (most - least)) n

/-- The route of a pattern. -/
def route (p : Pattern) : Route := (p.routeFrom 0).1

end Pattern

end Formula
