import Formula.Proofs.Search.Words
import Formula.Token.Table

/-!
# `Formula.Proofs.Search.Joint` — all rows of a table in one search

What the one search for all rows of a table finds is what trying the rows one after the other would find: the first row
that matches, with the match that its own pattern prefers. For a row that has been driven out stands behind one that
matches, and a row without threads finds nothing any more.

## Contents
- `Contender.finish?` — a row left to go on by itself.
- `race_eq_findSome?`, `TokenTable.race?_eq_findSome?` — the rows do not get in each other's way.
- `TokenTable.match?_eq_race?`, `TokenTable.scan_cons`, `TokenTable.race?_eq_some_iff`.
-/

namespace Formula

/-- The match that the pattern of a row prefers, if the row is left to go on by itself: the row and the end. -/
def Contender.finish? (p : Place) (cs : List Char) (k : Contender) : Option (TokenRow × Place) :=
  (Route.follows k.row.route.bound k.threads p (if k.arrived then some p else none) cs).map fun q => (k.row, q)

/-! ## One row -/

/-- A match found later is preferred to those found so far, which keep their order. -/
theorem Route.follows_or (bound : Nat) (cs : List Char) : ∀ (threads : List Thread) (p : Place) (a b : Option Place),
    follows bound threads p (a.or b) cs = (follows bound threads p a cs).or b := by
  induction cs with
  | nil => exact fun _ _ _ _ => rfl
  | cons c cs ih =>
    intro threads p a b
    rw [follows, follows]
    split
    · rfl
    · simp only
      rw [← ih]
      split <;> rfl

/-- **One step of a search**: the match is found further on, or it is the one found so far. -/
theorem Route.follows_cons (bound : Nat) (threads : List Thread) (p : Place) (best : Option Place) (c : Char)
    (cs : List Char) :
    let q := p.after c cs
    let f := Frontier.next bound threads c q
    follows bound threads p best (c :: cs) =
      (follows bound f.threads.reverse q (if f.arrived then some q else none) cs).or best := by
  intro q f
  rw [follows]
  split
  · next hempty =>
    -- no thread is left, so that nothing is found further on
    have hf : f = .start := by rw [List.isEmpty_iff] at hempty; simp only [f, hempty, Frontier.next, List.foldl_nil]
    rw [hf]
    cases cs <;> rfl
  · rw [← follows_or]
    change follows bound f.threads.reverse q (if f.arrived then some q else best) cs = _
    split <;> rfl

theorem Contender.finish?_nil (p : Place) (k : Contender) :
    k.finish? p [] = if k.arrived then some (k.row, p) else none := by
  rw [finish?, Route.follows]
  split <;> rfl

/-- One step of a row. -/
theorem Contender.finish?_cons (p : Place) (c : Char) (cs : List Char) (k : Contender) :
    k.finish? p (c :: cs) =
      ((k.step c (p.after c cs)).finish? (p.after c cs) cs).or (if k.arrived then some (k.row, p) else none) := by
  rw [finish?, Route.follows_cons, Option.map_or]
  congr 1
  split <;> rfl

/-- A row without threads finds nothing further on. -/
theorem Contender.finish?_step_of_isEmpty {k : Contender} (h : k.threads.isEmpty = true) (c : Char) (q : Place)
    (cs : List Char) : (k.step c q).finish? q cs = none := by
  rw [List.isEmpty_iff] at h
  rw [step, h]
  cases cs <;> rfl

/-! ## All rows -/

/-- The rows without threads would not have been asked. -/
theorem findSome?_filter_threads (c : Char) (q : Place) (cs : List Char) (ks : List Contender) :
    ((ks.filter fun k => !k.threads.isEmpty).map (·.step c q)).findSome? (·.finish? q cs) =
      (ks.map (·.step c q)).findSome? (·.finish? q cs) := by
  induction ks with
  | nil => rfl
  | cons k ks ih =>
    rw [List.filter_cons, List.map_cons, List.findSome?_cons]
    cases hempty : k.threads.isEmpty with
    | true =>
      rw [Contender.finish?_step_of_isEmpty hempty]
      exact ih
    | false =>
      rw [Bool.not_false, if_pos rfl, List.map_cons, List.findSome?_cons, ih]

/-- Nor would those that have been driven out. -/
theorem findSome?_driveOut (p : Place) (c : Char) (cs : List Char) (ks : List Contender) :
    ((((driveOut ks).filter fun k => !k.threads.isEmpty).map (·.step c (p.after c cs))).findSome?
        (·.finish? (p.after c cs) cs)).or ((ks.find? (·.arrived)).map fun k => (k.row, p)) =
      ks.findSome? (·.finish? p (c :: cs)) := by
  rw [findSome?_filter_threads]
  induction ks with
  | nil => rfl
  | cons k ks ih =>
    rw [List.findSome?_cons, Contender.finish?_cons, driveOut, List.find?_cons]
    cases hfinish : (k.step c (p.after c cs)).finish? (p.after c cs) cs with
    | some r =>
      -- the row's own match further on is preferred to the one that ends here
      cases k.arrived <;> simp [hfinish]
    | none =>
      cases k.arrived with
      | true => simp [hfinish]
      | false => simpa [hfinish] using ih

/-- **The rows do not get in each other's way.** The one search finds what the first row finds that finds anything. -/
theorem race_eq_findSome? (cs : List Char) : ∀ (p : Place) (best : Option (TokenRow × Place)) (ks : List Contender),
    race p best ks cs = (ks.findSome? (·.finish? p cs)).or best := by
  induction cs with
  | nil =>
    intro p best ks
    rw [race]
    congr 1
    induction ks with
    | nil => rfl
    | cons k ks ih =>
      rw [List.findSome?_cons, List.find?_cons, Contender.finish?_nil, ← ih]
      cases k.arrived <;> rfl
  | cons c cs ih =>
    intro p best ks
    rw [race, ← findSome?_driveOut, Option.or_assoc]
    simp only
    split
    · next hempty =>
      -- no row goes on, and the match is the best one so far
      rw [List.isEmpty_iff.mp hempty]
      rfl
    · rw [ih]

namespace TokenTable

/-- **One search for all rows is as good as one for each of them**, in their order. -/
theorem race?_eq_findSome? (table : TokenTable) (p : Place) :
    table.race? p = table.rows.findSome? fun row => (row.route.match? p).map fun q => (row, q) := by
  rw [race?, race_eq_findSome?, Option.or_none, List.findSome?_map]
  rfl

/-- The kind of the row that wins. -/
theorem match?_eq_race? (table : TokenTable) (p : Place) :
    table.match? p = (table.race? p).map fun m => (m.1.rule.kind, m.2) := by
  rw [match?, race?_eq_findSome?, List.map_findSome?]
  congr 1
  funext row
  simp only [Function.comp, Option.map_map]
  rfl

/-- **One step of a scan** where no token covers the character: a blank is passed over, and elsewhere the token is the one
    that the rows give when they are tried one after the other. -/
theorem scan_cons (table : TokenTable) (before : Option Char) (offset : Nat) (c : Char) (cs : List Char) :
    let p : Place := ⟨before, c :: cs, offset⟩
    table.scan before offset 0 (c :: cs) =
      if isSkipped c then table.scan (some c) (offset + c.utf8Size) 0 cs
      else
        match table.match? p with
        | none => .error ⟨offset⟩
        | some (kind, q) =>
          (table.scan (some c) (offset + c.utf8Size) ((p.upTo q).length - 1) cs).map (token kind p q :: ·) := by
  simp only [scan, match?_eq_race?]
  cases table.race? ⟨before, c :: cs, offset⟩ <;> rfl

/-- **The winner**: its pattern matches, and that of no row before it does. -/
theorem race?_eq_some_iff {table : TokenTable} {p : Place} {row : TokenRow} {q : Place} :
    table.race? p = some (row, q) ↔ ∃ before after, table.rows = before ++ row :: after ∧
      (∀ r ∈ before, r.route.match? p = none) ∧ row.route.match? p = some q := by
  rw [race?_eq_findSome?, List.findSome?_eq_some_iff]
  constructor
  · rintro ⟨before, row', after, hrows, hmatch, hbefore⟩
    obtain ⟨q', hq', heq⟩ := Option.map_eq_some_iff.mp hmatch
    obtain ⟨rfl, rfl⟩ := Prod.mk.inj heq
    exact ⟨before, after, hrows, fun r hr => Option.map_eq_none_iff.mp (hbefore r hr), hq'⟩
  · rintro ⟨before, after, hrows, hbefore, hmatch⟩
    exact ⟨before, row, after, hrows, by rw [hmatch]; rfl, fun r hr => by rw [hbefore r hr]; rfl⟩

end TokenTable

end Formula
