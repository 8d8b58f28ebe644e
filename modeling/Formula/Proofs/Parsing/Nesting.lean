import Formula.Proofs.Parsing.Rounds

/-!
# `Formula.Proofs.Parsing.Nesting` — what the limit of nesting does

With fewer levels of nesting the parser does exactly what it does with more, or it gives up saying that the
expression is nested too deeply. So whatever is shown with enough levels holds with any, apart from that error.

## Contents
- `NestedTooDeeply`, `Within` — a step does what another one does, or gives up.
- `Climber.StaysWithin` — so does a parser, and then each of its rounds.
- `readOperand_within` — for any grammar, fewer levels are within more.
-/

namespace Formula

/-- The error that says that an expression is nested too deeply. -/
def ParseError.NestedTooDeeply (err : ParseError) : Prop := ∃ l, err = .diagnosed ⟨.nestedTooDeeply, l⟩

namespace Parsing

variable {α β : Type}

/-- **A step does what another one does**, unless it gives up on account of the nesting. -/
def Within (x y : Parsing α) : Prop :=
  ∀ c, x.run c = y.run c ∨ ∃ err c', x.run c = .error err c' ∧ err.NestedTooDeeply

theorem Within.refl (x : Parsing α) : Within x x := fun _ => Or.inl rfl

theorem Within.bind {x y : Parsing α} {f g : α → Parsing β} (h : Within x y) (hfg : ∀ a, Within (f a) (g a)) :
    Within (x >>= f) (y >>= g) := by
  intro c
  rcases h c with heq | ⟨err, c', hx, herr⟩
  · rw [run_bind, run_bind, heq]
    cases y.run c with
    | ok a c' => exact hfg a c'
    | error err c' => exact Or.inl rfl
  · exact Or.inr ⟨err, c', run_bind_error hx, herr⟩

/-- What gives up is within anything. -/
theorem complainHere_within (y : Parsing α) : Within (complainHere fun _ => .nestedTooDeeply) y := by
  rintro ⟨k, ts⟩
  refine Or.inr ?_
  cases ts with
  | nil => exact ⟨_, _, rfl, .endOfInput, rfl⟩
  | cons t ts => exact ⟨_, _, rfl, .offset t.span.start, rfl⟩

variable {ν : Type}

/-- What an extension rule builds depends on the operands that it reads. -/
theorem extension_build_within (rule : ExtensionRule) {f g : Nat → Parsing (Expr ν)} (h : ∀ m, Within (f m) (g m))
    (lhs : Expr ν) : Within (rule.build f lhs) (rule.build g lhs) := by
  obtain ⟨token, operator, extension⟩ := rule
  cases extension with
  | binary =>
    cases operator with
    | binary op => exact (Within.refl _).bind fun _ => (h _).bind fun _ => Within.refl _
    | unary op => exact Within.refl _
  | unary => cases operator <;> exact Within.refl _
  | juxtaposed => exact (h _).bind fun _ => Within.refl _

variable [Numeral ν]

/-- So does what a start rule builds. -/
theorem start_build_within (start : Start) {f g : Nat → Parsing (Expr ν)} (h : ∀ m, Within (f m) (g m)) :
    Within (start.build f) (start.build g) := by
  cases start with
  | group => exact (Within.refl _).bind fun _ => (h lowest).bind fun _ => Within.refl _
  | negation => exact (Within.refl _).bind fun _ => (h _).bind fun _ => Within.refl _
  | derivative => exact (Within.refl _).bind fun _ => (h lowest).bind fun _ => Within.refl _
  | _ => exact Within.refl _

variable {g : Grammar}

/-- **A parser does what another one does**, unless it gives up on account of the nesting. -/
structure Climber.StaysWithin (p q : Climber Parsing ν) : Prop where
  operand : ∀ m, Within (p.operand m) (q.operand m)
  loop : ∀ m lhs, Within (p.loop m lhs) (q.loop m lhs)

/-- So do its rounds. -/
theorem Climber.StaysWithin.readRound {p q : Climber Parsing ν} (h : p.StaysWithin q) (m : Nat) :
    Within (p.readRound (pure ()) g m) (q.readRound (pure ()) g m) := by
  rw [Climber.readRound_eq, Climber.readRound_eq, pure_bind, pure_bind]
  refine (Within.refl _).bind fun next => ?_
  cases nextStart? g next with
  | none => exact .refl _
  | some rule =>
    simp only [Start.buildIn_eq]
    exact (start_build_within rule.start h.operand).bind (h.loop m)

omit [Numeral ν] in
theorem Climber.StaysWithin.loopRound {p q : Climber Parsing ν} (h : p.StaysWithin q) (m : Nat) (lhs : Expr ν) :
    Within (p.loopRound (pure ()) g m lhs) (q.loopRound (pure ()) g m lhs) := by
  rw [Climber.loopRound_eq, Climber.loopRound_eq]
  refine (Within.refl _).bind fun next => ?_
  cases nextExtension? g m next with
  | none => exact .refl _
  | some rule =>
    simp only [pure_bind, ExtensionRule.buildIn_eq]
    exact (extension_build_within rule h.operand lhs).bind (h.loop m)

/-- Without levels the loop may still stop; where it would go on, it complains. -/
theorem climb_zero_within (g : Grammar) (p : Climber Parsing ν) (m : Nat) (lhs : Expr ν) :
    Within (climb g 0 m lhs) (p.loopRound (pure ()) g m lhs) := by
  rw [climb_zero_eq, Climber.loopRound_eq]
  refine (Within.refl _).bind fun next => ?_
  cases nextExtension? g m next with
  | none => exact .refl _
  | some rule => exact complainHere_within _

/-- **With fewer levels the parser does what it does with more, or gives up.** The two loops are taken together, by
    induction on the smaller number of levels. -/
theorem loops_within (g : Grammar) (n : Nat) : ∀ N, n ≤ N →
    (∀ m, Within (readOperand (ν := ν) g n m) (readOperand g N m)) ∧
    (∀ m (lhs : Expr ν), Within (climb g n m lhs) (climb g N m lhs)) := by
  induction n with
  | zero =>
    intro N _
    refine ⟨fun m => ?_, fun m lhs => ?_⟩
    · rw [readOperand]
      exact complainHere_within _
    · cases N with
      | zero => exact .refl _
      | succ N =>
        rw [climb_succ g N]
        exact climb_zero_within g _ m lhs
  | succ n ih =>
    intro N hN
    obtain ⟨N, rfl⟩ := Nat.exists_eq_add_of_lt hN
    have hfewer : (limited (ν := ν) g n).StaysWithin (limited g (n + N)) := by
      obtain ⟨hread, hclimb⟩ := ih (n + N) (Nat.le_add_right n N)
      exact ⟨hread, hclimb⟩
    refine ⟨fun m => ?_, fun m lhs => ?_⟩
    · rw [readOperand_succ, readOperand_succ]
      exact hfewer.readRound m
    · rw [climb_succ, climb_succ]
      exact hfewer.loopRound m lhs

theorem readOperand_within (g : Grammar) {n N : Nat} (h : n ≤ N) (m : Nat) :
    Within (readOperand (ν := ν) g n m) (readOperand g N m) :=
  (loops_within g n N h).1 m

end Parsing

end Formula
