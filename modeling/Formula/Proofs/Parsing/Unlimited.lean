import Formula.Number.Double
import Formula.Proofs.Parsing.Advancing

/-!
# `Formula.Proofs.Parsing.Unlimited` — what the parser would do without a limit on the nesting

A parser that does the same rounds and counts no levels is the limit of the parsers with so many levels: each of them
does what it does or gives up, and on a given list of tokens all that have levels enough do exactly that. For this one
fact is needed about the tokens: to give up a level takes tokens, so that a short list is never given up. It also says
that the rounds determine the parser that counts no levels, and that there is one.

## Contents
- `Climber.Unlimited` — the equations of a parser that counts no levels.
- `Unlimited.limited_within` — with so many levels the parser does the same, or gives up.
- `freely`, `existsUnique_unlimited` — there is one such parser, for any grammar.
- `guard_only_rejects` — what the limit changes, and where it changes nothing.
-/

namespace Formula

namespace Parsing

variable {ν : Type} [Numeral ν] {g : Grammar}

/-- **A parser that counts no levels**: it does the rounds, and entering a level does nothing. -/
structure Climber.Unlimited (g : Grammar) (p : Climber Parsing ν) : Prop where
  operand_eq : ∀ m, p.operand m = p.readRound (pure ()) g m
  loop_eq : ∀ m lhs, p.loop m lhs = p.loopRound (pure ()) g m lhs

/-- One expression at the front of a list of tokens, and the number of tokens that it takes. -/
def Climber.front (p : Climber Parsing ν) (tokens : List Token) : Except ParseError (Expr ν × Nat) :=
  match (p.operand lowest).run (Cursor.start tokens) with
  | .ok e c => .ok (e, c.consumed)
  | .error err _ => .error err

/-! ## Doing the same or giving up -/

/-- **With so many levels the parser does what it does without a limit, or gives up**, by induction on the levels. -/
theorem Climber.Unlimited.limited_within {p : Climber Parsing ν} (hp : p.Unlimited g) (n : Nat) :
    (limited g n).StaysWithin p := by
  induction n with
  | zero =>
    constructor
    · intro m
      show Within (readOperand g 0 m) _
      rw [readOperand]
      exact complainHere_within _
    · intro m lhs
      rw [hp.loop_eq]
      exact climb_zero_within g p m lhs
  | succ n ih =>
    constructor
    · intro m
      show Within (readOperand g (n + 1) m) _
      rw [readOperand_succ, hp.operand_eq]
      exact ih.readRound m
    · intro m lhs
      show Within (climb g (n + 1) m lhs) _
      rw [climb_succ, hp.loop_eq]
      exact ih.loopRound m lhs

/-! ## Levels enough -/

/-- Two levels for each token, and two more, are never given up. -/
theorem not_nested_of_readOperand {n m : Nat} {c c' : Cursor} {err : ParseError}
    (h : (readOperand (ν := ν) g n m).run c = .error err c') (hn : 2 * c.rest.length + 2 ≤ n) :
    ¬ err.NestedTooDeeply := by
  intro hnested
  have hdeep := ((takes_loops g n).1 m).deep_le h hnested
  omega

/-- The loop needs one more, as it has not begun an operand yet. -/
theorem not_nested_of_climb {n m : Nat} {lhs : Expr ν} {c c' : Cursor} {err : ParseError}
    (h : (climb g n m lhs).run c = .error err c') (hn : 2 * c.rest.length + 3 ≤ n) : ¬ err.NestedTooDeeply := by
  intro hnested
  have hdeep := ((takes_loops g n).2 m lhs).deep_le h hnested
  omega

/-- A step that does not give up does what the other one does. -/
theorem Within.run_eq {α : Type} {x y : Parsing α} {c : Cursor} (h : Within x y)
    (hx : ∀ err c', x.run c = .error err c' → ¬ err.NestedTooDeeply) : x.run c = y.run c := by
  rcases h c with heq | ⟨err, c', herr, hnested⟩
  · exact heq
  · exact absurd hnested (hx err c' herr)

/-- **Levels enough are as good as no limit.** -/
theorem Climber.Unlimited.operand_run {p : Climber Parsing ν} (hp : p.Unlimited g) {n : Nat} {c : Cursor}
    (hn : 2 * c.rest.length + 2 ≤ n) (m : Nat) : (readOperand g n m).run c = (p.operand m).run c :=
  ((hp.limited_within n).operand m).run_eq fun _ _ h => not_nested_of_readOperand h hn

theorem Climber.Unlimited.loop_run {p : Climber Parsing ν} (hp : p.Unlimited g) {n : Nat} {c : Cursor}
    (hn : 2 * c.rest.length + 3 ≤ n) (m : Nat) (lhs : Expr ν) : (climb g n m lhs).run c = (p.loop m lhs).run c :=
  ((hp.limited_within n).loop m lhs).run_eq fun _ _ h => not_nested_of_climb h hn

/-! ## The parser that counts no levels -/

/-- The parser with as many levels as the tokens ahead may need. -/
def freely (g : Grammar) : Climber Parsing ν where
  operand m c := readOperand g (2 * c.rest.length + 2) m c
  loop m lhs c := climb g (2 * c.rest.length + 3) m lhs c

/-- It does what the parser does with any number of levels, where that does not give up. -/
theorem limited_within_freely (g : Grammar) (n : Nat) : (limited g n).StaysWithin (freely (ν := ν) g) := by
  constructor
  · intro m c
    show (readOperand g n m).run c = (readOperand g (2 * c.rest.length + 2) m).run c ∨ _
    rcases Nat.le_total n (2 * c.rest.length + 2) with hle | hle
    · exact readOperand_within g hle m c
    · refine Or.inl (Eq.symm ((readOperand_within g hle m).run_eq fun err c' h => ?_))
      exact not_nested_of_readOperand h (Nat.le_refl _)
  · intro m lhs c
    show (climb g n m lhs).run c = (climb g (2 * c.rest.length + 3) m lhs).run c ∨ _
    rcases Nat.le_total n (2 * c.rest.length + 3) with hle | hle
    · exact (loops_within g n _ hle).2 m lhs c
    · refine Or.inl (Eq.symm (((loops_within g _ n hle).2 m lhs).run_eq fun err c' h => ?_))
      exact not_nested_of_climb h (Nat.le_refl _)

/-- **And it counts no levels**: where there are enough, one level less is still enough after a round. -/
theorem unlimited_freely (g : Grammar) : (freely (ν := ν) g).Unlimited g := by
  constructor
  · intro m
    funext c
    have hround := (limited_within_freely (ν := ν) g (2 * c.rest.length + 1)).readRound (g := g) m
    rw [← readOperand_succ] at hround
    exact hround.run_eq fun err c' h => not_nested_of_readOperand h (Nat.le_refl _)
  · intro m lhs
    funext c
    have hround := (limited_within_freely (ν := ν) g (2 * c.rest.length + 2)).loopRound (g := g) m lhs
    rw [← climb_succ] at hround
    exact hround.run_eq fun err c' h => not_nested_of_climb h (Nat.le_refl _)

/-- It is the only one. -/
theorem Climber.Unlimited.eq_freely {p : Climber Parsing ν} (hp : p.Unlimited g) : p = freely g := by
  obtain ⟨operand, loop⟩ := p
  have hoperand : operand = (freely g).operand := by
    funext m c
    exact (hp.operand_run (Nat.le_refl _) m).symm
  have hloop : loop = (freely g).loop := by
    funext m lhs c
    exact (hp.loop_run (Nat.le_refl _) m lhs).symm
  rw [hoperand, hloop]

/-- **The rounds determine the parser**: for every grammar there is exactly one that does them without counting. -/
theorem existsUnique_unlimited (g : Grammar) : ∃! p : Climber Parsing ν, p.Unlimited g :=
  ⟨freely g, unlimited_freely g, fun _ hp => hp.eq_freely⟩

/-! ## What the limit changes -/

/-- What is read at the front depends on the reading of the operand alone. -/
theorem parseFront_eq_front {p : Climber Parsing ν} {ts : List Token}
    (h : (expression g lowest).run (Cursor.start ts) = (p.operand lowest).run (Cursor.start ts)) :
    parseFront g ts = p.front ts := by
  cases hrun : (p.operand lowest).run (Cursor.start ts) with
  | ok e c => simp only [parseFront, Climber.front, h, hrun]
  | error err c => simp only [parseFront, Climber.front, h, hrun]

/-- **The limit on the nesting only rejects**, and not too early: whatever the grammar and the tokens, the parser does
    what a parser does that counts no levels, or it says that the expression is nested too deeply; it never says so of
    127 tokens or fewer, and the other parser never does. -/
theorem guard_only_rejects {p : Climber Parsing ν} (hp : p.Unlimited g) (ts : List Token) :
    (parseFront g ts = p.front ts ∨ ∃ err, parseFront (ν := ν) g ts = .error err ∧ err.NestedTooDeeply) ∧
      (ts.length ≤ 127 → ∀ err, parseFront (ν := ν) g ts = .error err → ¬ err.NestedTooDeeply) ∧
      ∀ err, p.front ts = .error err → ¬ err.NestedTooDeeply := by
  refine ⟨?_, fun hlength err h => ?_, fun err h => ?_⟩
  · rcases (hp.limited_within maxNesting).operand lowest (Cursor.start ts) with heq | ⟨err, c, herr, hnested⟩
    · exact Or.inl (parseFront_eq_front heq)
    · refine Or.inr ⟨err, ?_, hnested⟩
      rw [parseFront, expression, show (readOperand g maxNesting lowest).run _ = _ from herr]
  · rw [parseFront, expression] at h
    split at h
    · cases h
    · next err' c hrun =>
      cases h
      refine not_nested_of_readOperand hrun ?_
      show 2 * ts.length + 2 ≤ 256
      omega
  · rw [Climber.front, ← hp.operand_run (Nat.le_refl _) lowest] at h
    split at h
    · cases h
    · next err' c hrun =>
      cases h
      exact not_nested_of_readOperand hrun (Nat.le_refl _)

/-- Juxtaposition that groups to the right, which enters two levels for each token. -/
theorem guard_only_rejects_juxtaposed :
    let g : Grammar := ⟨[⟨.kind .name, .variable⟩], [⟨.kind .name, .binary .pow, .juxtaposed⟩]⟩
    let ts : List Token := [⟨.name, "x", ⟨0, 1⟩⟩, ⟨.name, "y", ⟨1, 2⟩⟩, ⟨.name, "z", ⟨2, 3⟩⟩]
    let e : Expr Float := .binary ⟨0, 3⟩ .juxtapose (.var ⟨0, 1⟩ "x")
      (.binary ⟨1, 3⟩ .juxtapose (.var ⟨1, 2⟩ "y") (.var ⟨2, 3⟩ "z"))
    (freely g : Climber Parsing Float).Unlimited g ∧ parseFront g ts = (freely g : Climber Parsing Float).front ts ∧
      parseFront g ts = .ok (e, 3) := by
  intro g ts e
  obtain ⟨hsame | ⟨err, herr, hnested⟩, hshort, -⟩ := guard_only_rejects (ν := Float) (unlimited_freely g) ts
  · exact ⟨unlimited_freely g, hsame, by decide +kernel⟩
  · exact absurd hnested (hshort (by decide) err herr)

end Parsing

end Formula
