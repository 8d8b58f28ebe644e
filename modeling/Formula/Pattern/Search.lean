import Formula.Pattern.Route

/-!
# `Formula.Pattern.Search` — the preferred match at a place

A search goes through the text once. At each place it keeps the threads that are still under way, the preferred
ones first; a thread is a set, of which the next character must be, and the routes that follow. From a list of
routes the threads are found by going on without consuming anything, depth first, a fork's preferred side
before the other one. Nothing with a label is entered twice at one place: what it leads to has been found
already, or is being found, with more preference. The rest of a literal needs no label, for it is only met
after the character before. Where a list of routes comes to its end there is a match, and
all that is less preferred is given up.

## Contents
- `Frontier` — the threads at a place, and whether a match ends there.
- `Frontier.explore` — goes on from routes without consuming anything.
- `Route.match?` — the end of the preferred match.
-/

namespace Formula

/-- What is under way at a place: a set for the next character, and the routes after it. -/
structure Thread where
  accepts : CharSet
  rest : List Route
deriving DecidableEq, Repr

/-- What has been found at a place. -/
structure Frontier where
  /-- The labels that have been entered, as a set of bits. -/
  seen : Nat
  /-- The threads found so far, the preferred ones last. -/
  threads : List Thread
  /-- Whether a match ends here. Nothing found after it is preferred to it. -/
  arrived : Bool
deriving DecidableEq, Repr

namespace Frontier

/-- Nothing found yet. -/
def start : Frontier := ⟨0, [], false⟩

/-- Enters a label. -/
def enter (f : Frontier) (label : Nat) : Frontier := { f with seen := f.seen ||| 1 <<< label }

/-- Adds a thread. -/
def add (f : Frontier) (t : Thread) : Frontier := { f with threads := t :: f.threads }

/-- Goes on from lists of routes, the first list being preferred, without consuming anything. The first argument
    bounds the number of steps. -/
def explore (p : Place) : Nat → List (List Route) → Frontier → Frontier
  | 0, _, f => f
  | _ + 1, [], f => f
  | bound + 1, todo :: others, f =>
    match todo with
    | [] => { f with arrived := true }
    | .text [] :: rest => explore p bound (rest :: others) f
    | .text (c :: cs) :: rest => explore p bound others (f.add ⟨.ofChars [c], .text cs :: rest⟩)
    | .anchor a :: rest => explore p bound (if a.holds p then rest :: others else others) f
    | .follow a b :: rest => explore p bound ((a :: b :: rest) :: others) f
    | .literal label cs :: rest =>
      if f.seen.testBit label then explore p bound others f
      else explore p bound ((.text cs :: rest) :: others) (f.enter label)
    | .set label s :: rest =>
      if f.seen.testBit label then explore p bound others f
      else explore p bound others ((f.enter label).add ⟨s, rest⟩)
    | .fork label a b :: rest =>
      if f.seen.testBit label then explore p bound others f
      else explore p bound ((a :: rest) :: (b :: rest) :: others) (f.enter label)
    | .loop label round greedy :: rest =>
      if f.seen.testBit label then explore p bound others f
      else
        let again := round :: .loop label round greedy :: rest
        explore p bound (if greedy then again :: rest :: others else rest :: again :: others) (f.enter label)

/-- What the threads of one place lead to at the next one, which is `q` and comes after the character `c`. -/
def next (bound : Nat) (threads : List Thread) (c : Char) (q : Place) : Frontier :=
  threads.foldl (fun f t => if !f.arrived && t.accepts.has c then explore q bound [t.rest] f else f) start

end Frontier

namespace Route

/-- Enough steps to explore one list of routes: each label is entered once and adds two lists at most, and from one
    label to the next there are no more steps than the route has nodes, and one for the text after a literal. -/
def bound (r : Route) : Nat := (2 * r.size + 1) * (r.size + 2)

/-- Follows threads through the characters after a place. `best` is the end of the preferred match of those that
    have come to an end. -/
def follows (bound : Nat) (threads : List Thread) (p : Place) (best : Option Place) : List Char → Option Place
  | [] => best
  | c :: cs =>
    if threads.isEmpty then best
    else
      let q := p.after c cs
      let f := Frontier.next bound threads c q
      follows bound f.threads.reverse q (if f.arrived then some q else best) cs

/-- The end of the preferred match at a place. -/
def match? (r : Route) (p : Place) : Option Place :=
  let f := Frontier.explore p r.bound [[r]] .start
  follows r.bound f.threads.reverse p (if f.arrived then some p else none) p.rest

end Route

/-- The end of the preferred match of a pattern at a place. -/
def Pattern.match? (pattern : Pattern) (p : Place) : Option Place := pattern.route.match? p

end Formula
