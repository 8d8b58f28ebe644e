import Formula.Proofs.Parsing.Rounds

/-!
# `Formula.Proofs.Parsing.Counting` — a parser that keeps count of its levels

The parser that runs is given the levels that are left. Another one keeps a count of those that have been entered
beside its cursor: it raises the count whenever it enters a level, the operators that it applies included, and sets it
back when it has read an operand or has failed to. In between, the rules see a count that the reading of an operand
has left as it was. So at any count the two do the same, and the count is what it was when an operand has been read.

## Contents
- `Descent`, `Counting` — a cursor with a count, and the steps on it.
- `Climber.CountsLevels` — the equations of a parser that keeps count.
- `KeepsCount`, `DoesAt` — a step that does what one without a count does.
- `CountsLevels.operand_keepsCount` — at any count it is the parser that runs, with the levels that are left.
- `counted`, `countsLevels_counted` — there is such a parser.
-/

namespace Formula

namespace Parsing

/-! ## The count -/

/-- **A cursor with the number of levels that have been entered.** -/
structure Descent where
  cursor : Cursor
  nesting : Nat
deriving DecidableEq

/-- Before the first token no level has been entered. -/
def Descent.start (tokens : List Token) : Descent := ⟨Cursor.start tokens, 0⟩

/-- A step that moves the cursor and may change the count. -/
abbrev Counting := EStateM ParseError Descent

variable {α β : Type}

/-- What a step on the cursor comes to at a count. -/
def atNesting (d : Nat) : EStateM.Result ParseError Cursor α → EStateM.Result ParseError Descent α
  | .ok a c => .ok a ⟨c, d⟩
  | .error err c => .error err ⟨c, d⟩

/-- What a step comes to, apart from the count. -/
def onCursor : EStateM.Result ParseError Descent α → EStateM.Result ParseError Cursor α
  | .ok a s => .ok a s.cursor
  | .error err s => .error err s.cursor

/-- A step on the cursor leaves the count alone. -/
instance : MonadLift Parsing Counting where
  monadLift x s := atNesting s.nesting (x.run s.cursor)

/-- Enters a level, if there is one left. -/
def descend : Counting Unit := do
  modify fun s => ⟨s.cursor, s.nesting + 1⟩
  if (← get).nesting ≤ maxNesting then return ()
  else (complainHere fun _ => .nestedTooDeeply : Parsing Unit)

/-- Does a step and sets the count back, whether the step succeeds or fails. -/
def restoring (x : Counting α) : Counting α := fun s => atNesting s.nesting (onCursor (x.run s))

variable {ν : Type} [Numeral ν] {g : Grammar}

/-- **A parser that keeps count of its levels**: it does the rounds, with a level entered in each, and an operand sets
    the count back. -/
structure Climber.CountsLevels (g : Grammar) (p : Climber Counting ν) : Prop where
  operand_eq : ∀ m, p.operand m = restoring (p.readRound descend g m)
  loop_eq : ∀ m lhs, p.loop m lhs = p.loopRound descend g m lhs

/-! ## Doing the same at a count -/

/-- **A step that does what one without a count does**, at a count that it leaves as it is. -/
def KeepsCount (d : Nat) (x : Counting α) (y : Parsing α) : Prop := ∀ c, x.run ⟨c, d⟩ = atNesting d (y.run c)

/-- A step that does so whatever becomes of the count. -/
def DoesAt (d : Nat) (x : Counting α) (y : Parsing α) : Prop := ∀ c, onCursor (x.run ⟨c, d⟩) = y.run c

variable {d : Nat}

theorem onCursor_atNesting (d : Nat) (r : EStateM.Result ParseError Cursor α) : onCursor (atNesting d r) = r := by
  cases r <;> rfl

theorem KeepsCount.lift (x : Parsing α) : KeepsCount d x x := fun _ => rfl

theorem KeepsCount.pure (a : α) : KeepsCount d (Pure.pure a) (Pure.pure a) := fun _ => rfl

theorem KeepsCount.doesAt {x : Counting α} {y : Parsing α} (h : KeepsCount d x y) : DoesAt d x y := by
  intro c
  rw [h c, onCursor_atNesting]

/-- An operand sets the count back. -/
theorem DoesAt.restoring {x : Counting α} {y : Parsing α} (h : DoesAt d x y) : KeepsCount d (restoring x) y := by
  intro c
  exact congrArg (atNesting d) (h c)

/-- A sequence of steps on a cursor with a count. -/
theorem counting_bind (x : Counting α) (f : α → Counting β) (s : Descent) :
    (x >>= f).run s = match x.run s with
      | .ok a s' => (f a).run s'
      | .error err s' => .error err s' := by
  show EStateM.bind x f s = _
  rw [EStateM.bind, EStateM.run]
  cases x s <;> rfl

theorem KeepsCount.bind {x : Counting α} {y : Parsing α} {f : α → Counting β} {f' : α → Parsing β}
    (h : KeepsCount d x y) (hf : ∀ a, KeepsCount d (f a) (f' a)) : KeepsCount d (x >>= f) (y >>= f') := by
  intro c
  rw [counting_bind, run_bind, h c]
  cases y.run c with
  | ok a c' => exact hf a c'
  | error err c' => rfl

/-- Where the first step keeps the count, the second one begins at it. -/
theorem KeepsCount.bind_doesAt {x : Counting α} {y : Parsing α} {f : α → Counting β} {f' : α → Parsing β}
    (h : KeepsCount d x y) (hf : ∀ a, DoesAt d (f a) (f' a)) : DoesAt d (x >>= f) (y >>= f') := by
  intro c
  rw [counting_bind, run_bind, h c]
  cases y.run c with
  | ok a c' => exact hf a c'
  | error err c' => rfl

/-- To enter a level raises the count. -/
theorem descend_bind_run (h : d < maxNesting) (f : Unit → Counting α) (c : Cursor) :
    (descend >>= f).run ⟨c, d⟩ = (f ()).run ⟨c, d + 1⟩ := by
  have hrun : descend.run ⟨c, d⟩ = .ok () ⟨c, d + 1⟩ := by
    show (if d + 1 ≤ maxNesting then (Pure.pure () : Counting Unit) else _).run _ = _
    rw [if_pos (Nat.succ_le_of_lt h)]
    rfl
  rw [counting_bind, hrun]

/-- Where no level is left, that is what is wrong. -/
theorem descend_bind_run_error (h : maxNesting ≤ d) (f : Unit → Counting α) (c : Cursor) :
    (descend >>= f).run ⟨c, d⟩ = atNesting (d + 1) ((complainHere fun _ => .nestedTooDeeply : Parsing α).run c) := by
  have hrun : descend.run ⟨c, d⟩ =
      atNesting (d + 1) ((complainHere fun _ => .nestedTooDeeply : Parsing Unit).run c) := by
    show (if d + 1 ≤ maxNesting then (Pure.pure () : Counting Unit) else _).run _ = _
    rw [if_neg (Nat.not_le.mpr (Nat.lt_succ_of_le h))]
    rfl
  obtain ⟨k, ts⟩ := c
  rw [counting_bind, hrun]
  cases ts <;> rfl

theorem DoesAt.descend {f : Unit → Counting α} {y : Parsing α} (h : DoesAt (d + 1) (f ()) y) (hd : d < maxNesting) :
    DoesAt d (descend >>= f) y := by
  intro c
  rw [descend_bind_run hd]
  exact h c

theorem doesAt_descend_error (h : maxNesting ≤ d) (f : Unit → Counting α) :
    DoesAt d (descend >>= f) (complainHere fun _ => .nestedTooDeeply) := by
  intro c
  rw [descend_bind_run_error h, onCursor_atNesting]

/-! ## The rules and the rounds -/

section Rules

variable {operand : Nat → Counting (Expr ν)} {operand' : Nat → Parsing (Expr ν)}

/-- What a start rule builds leaves the count alone, if its operands do. -/
theorem start_build_keepsCount (h : ∀ m, KeepsCount d (operand m) (operand' m)) (start : Start) :
    KeepsCount d (start.buildIn operand) (start.build operand') := by
  cases start with
  | «variable» => exact (KeepsCount.lift current).bind fun t => .pure _
  | number => exact (KeepsCount.lift current).bind fun t => .lift (readLiteral t)
  | constant => exact (KeepsCount.lift current).bind fun t => .lift (readConstant t)
  | group =>
    refine (KeepsCount.lift (demand "(")).bind fun opening => (h lowest).bind fun inner => ?_
    exact (KeepsCount.lift (expect ")")).bind fun closing => .pure _
  | negation => exact (KeepsCount.lift (demand "-")).bind fun minus => (h _).bind fun e => .pure _
  | derivative =>
    exact (KeepsCount.lift (demand "derivative")).bind fun keyword => (h lowest).bind fun e => .lift (readDerivative keyword e)
  | integral => exact (KeepsCount.lift current).bind fun t => .lift (throw _)

omit [Numeral ν] in
theorem extension_build_keepsCount (h : ∀ m, KeepsCount d (operand m) (operand' m)) (rule : ExtensionRule)
    (lhs : Expr ν) : KeepsCount d (rule.buildIn operand lhs) (rule.build operand' lhs) := by
  obtain ⟨token, operator, extension⟩ := rule
  cases extension with
  | binary =>
    cases operator with
    | binary op => exact (KeepsCount.lift current).bind fun _ => (h _).bind fun rhs => .pure _
    | unary op => exact .lift (throw _)
  | unary =>
    cases operator with
    | binary op => exact .lift (throw _)
    | unary op => exact (KeepsCount.lift current).bind fun t => .pure _
  | juxtaposed => exact (h _).bind fun rhs => .pure _

end Rules

/-- **At a count a parser does what the one that runs does** with so many levels left. -/
structure Climber.MatchesAt (g : Grammar) (d n : Nat) (p : Climber Counting ν) : Prop where
  operand : ∀ m, KeepsCount d (p.operand m) (readOperand g n m)
  loop : ∀ m lhs, DoesAt d (p.loop m lhs) (climb g n m lhs)

/-- A round of reading an operand enters a level. -/
theorem Climber.MatchesAt.readRound {p : Climber Counting ν} {n : Nat} (h : p.MatchesAt g (d + 1) n)
    (hd : d < maxNesting) (m : Nat) : DoesAt d (p.readRound descend g m) (readOperand g (n + 1) m) := by
  rw [readOperand_succ_eq, Climber.readRound_eq]
  refine DoesAt.descend ((KeepsCount.lift (peek? 0)).bind_doesAt fun next => ?_) hd
  cases nextStart? g next with
  | none => exact (KeepsCount.lift (complainHere .operandMissing)).doesAt
  | some rule => exact (start_build_keepsCount h.operand rule.start).bind_doesAt (h.loop m)

/-- So does a round of the loop, unless it stops. -/
theorem Climber.MatchesAt.loopRound {p : Climber Counting ν} {n : Nat} (h : p.MatchesAt g (d + 1) n)
    (hd : d < maxNesting) (m : Nat) (lhs : Expr ν) :
    DoesAt d (p.loopRound descend g m lhs) (climb g (n + 1) m lhs) := by
  rw [climb_succ_eq, Climber.loopRound_eq]
  refine (KeepsCount.lift (peek? 0)).bind_doesAt fun next => ?_
  cases nextExtension? g m next with
  | none => exact (KeepsCount.pure lhs).doesAt
  | some rule => exact DoesAt.descend ((extension_build_keepsCount h.operand rule lhs).bind_doesAt (h.loop m)) hd

/-- Where no level is left, no operand is read. -/
theorem readRound_doesAt_maxNesting (h : maxNesting ≤ d) (p : Climber Counting ν) (m : Nat) :
    DoesAt d (p.readRound descend g m) (readOperand g 0 m) := by
  rw [readOperand]
  exact doesAt_descend_error h _

/-- And the loop may only stop. -/
theorem loopRound_doesAt_maxNesting (h : maxNesting ≤ d) (p : Climber Counting ν) (m : Nat) (lhs : Expr ν) :
    DoesAt d (p.loopRound descend g m lhs) (climb g 0 m lhs) := by
  rw [climb_zero_eq, Climber.loopRound_eq]
  refine (KeepsCount.lift (peek? 0)).bind_doesAt fun next => ?_
  cases nextExtension? g m next with
  | none => exact (KeepsCount.pure lhs).doesAt
  | some rule => exact doesAt_descend_error h _

/-- **At any count the parser that keeps it is the one that runs**, with the levels that are left, by induction on
    these. -/
theorem Climber.CountsLevels.matchesAt {p : Climber Counting ν} (hp : p.CountsLevels g) (n : Nat) :
    ∀ d, maxNesting - d = n → p.MatchesAt g d n := by
  induction n with
  | zero =>
    intro d hd
    have hfull : maxNesting ≤ d := Nat.le_of_sub_eq_zero hd
    constructor
    · intro m
      rw [hp.operand_eq]
      exact (readRound_doesAt_maxNesting hfull p m).restoring
    · intro m lhs
      rw [hp.loop_eq]
      exact loopRound_doesAt_maxNesting hfull p m lhs
  | succ n ih =>
    intro d hd
    have hroom : d < maxNesting := by omega
    have hnext : p.MatchesAt g (d + 1) n := ih (d + 1) (by omega)
    constructor
    · intro m
      rw [hp.operand_eq]
      exact (hnext.readRound hroom m).restoring
    · intro m lhs
      rw [hp.loop_eq]
      exact hnext.loopRound hroom m lhs

/-- So reading an operand leaves the count as it was, whether it succeeds or fails. -/
theorem Climber.CountsLevels.operand_keepsCount {p : Climber Counting ν} (hp : p.CountsLevels g) (d m : Nat) :
    KeepsCount d (p.operand m) (readOperand g (maxNesting - d) m) :=
  (hp.matchesAt (maxNesting - d) d rfl).operand m

/-! ## There is such a parser -/

/-- Reads an operand with the levels that are left and leaves the count alone. -/
def countedOperand (g : Grammar) (m : Nat) : Counting (Expr ν) :=
  fun s => atNesting s.nesting ((readOperand g (maxNesting - s.nesting) m).run s.cursor)

/-- Goes on from an expression and counts the operators that it applies, with so many levels left. -/
def countedLoop (g : Grammar) (m : Nat) : Nat → Expr ν → Counting (Expr ν)
  | 0, lhs => Climber.loopRound descend g ⟨countedOperand g, fun _ lhs => pure lhs⟩ m lhs
  | n + 1, lhs => Climber.loopRound descend g ⟨countedOperand g, fun _ lhs => countedLoop g m n lhs⟩ m lhs

/-- The parser that keeps the count. -/
def counted (g : Grammar) : Climber Counting ν where
  operand := countedOperand g
  loop m lhs s := countedLoop g m (maxNesting - s.nesting) lhs s

theorem countedOperand_keepsCount (g : Grammar) (d m : Nat) :
    KeepsCount d (countedOperand (ν := ν) g m) (readOperand g (maxNesting - d) m) :=
  fun _ => rfl

omit [Numeral ν] in
/-- A round of the loop depends on what the loop does with one level more, if there is one. -/
theorem loopRound_run_congr {operand : Nat → Counting (Expr ν)} {operand' : Nat → Parsing (Expr ν)}
    {loop loop' : Nat → Expr ν → Counting (Expr ν)} (hoperand : ∀ m, KeepsCount (d + 1) (operand m) (operand' m)) {m : Nat}
    (hloop : d < maxNesting → ∀ lhs c, (loop m lhs).run ⟨c, d + 1⟩ = (loop' m lhs).run ⟨c, d + 1⟩) (lhs : Expr ν)
    (c : Cursor) : (Climber.loopRound descend g ⟨operand, loop⟩ m lhs).run ⟨c, d⟩ =
      (Climber.loopRound descend g ⟨operand, loop'⟩ m lhs).run ⟨c, d⟩ := by
  obtain ⟨k, ts⟩ := c
  have hpeek : (peek? 0 : Parsing _).run ⟨k, ts⟩ = .ok ts.head? ⟨k, ts⟩ := run_peek k ts
  rw [Climber.loopRound_eq, Climber.loopRound_eq, counting_bind, counting_bind, KeepsCount.lift (peek? 0), hpeek]
  simp only [atNesting]
  cases nextExtension? g m ts.head? with
  | none => rfl
  | some rule =>
    simp only
    rcases Nat.lt_or_ge d maxNesting with hroom | hfull
    · -- the rule leaves the count at which the loop goes on
      rw [descend_bind_run hroom, descend_bind_run hroom, counting_bind, counting_bind,
        extension_build_keepsCount hoperand rule lhs]
      cases (rule.build operand' lhs).run ⟨k, ts⟩ with
      | ok lhs' c' => exact hloop hroom lhs' c'
      | error err c' => rfl
    · rw [descend_bind_run_error hfull, descend_bind_run_error hfull]

theorem loop_counted (g : Grammar) (m : Nat) (lhs : Expr ν) :
    (counted g).loop m lhs = (counted g).loopRound descend g m lhs := by
  funext ⟨c, d⟩
  show (countedLoop g m (maxNesting - d) lhs).run ⟨c, d⟩ = _
  cases hn : maxNesting - d with
  | zero =>
    have hfull : maxNesting ≤ d := Nat.le_of_sub_eq_zero hn
    refine loopRound_run_congr (countedOperand_keepsCount g (d + 1)) (fun hroom => ?_) lhs c
    exact absurd hroom (Nat.not_lt.mpr hfull)
  | succ n =>
    refine loopRound_run_congr (countedOperand_keepsCount g (d + 1)) (fun _ lhs c => ?_) lhs c
    have hnext : maxNesting - (d + 1) = n := by omega
    show _ = (countedLoop g m (maxNesting - (d + 1)) lhs).run ⟨c, d + 1⟩
    rw [hnext]

/-- At any count it does what the parser that runs does. -/
theorem counted_matchesAt (g : Grammar) (n : Nat) : ∀ d, maxNesting - d = n → (counted (ν := ν) g).MatchesAt g d n := by
  induction n with
  | zero =>
    intro d hd
    constructor
    · intro m
      exact hd ▸ countedOperand_keepsCount g d m
    · intro m lhs
      rw [loop_counted]
      exact loopRound_doesAt_maxNesting (Nat.le_of_sub_eq_zero hd) _ m lhs
  | succ n ih =>
    intro d hd
    constructor
    · intro m
      exact hd ▸ countedOperand_keepsCount g d m
    · intro m lhs
      rw [loop_counted]
      exact (ih (d + 1) (by omega)).loopRound (by omega) m lhs

/-- **There is a parser that keeps count of its levels.** -/
theorem countsLevels_counted (g : Grammar) : (counted (ν := ν) g).CountsLevels g := by
  constructor
  · intro m
    funext ⟨c, d⟩
    have hround : KeepsCount d (restoring ((counted (ν := ν) g).readRound descend g m))
        (readOperand g (maxNesting - d) m) := by
      rcases Nat.lt_or_ge d maxNesting with hroom | hfull
      · have hnext := (counted_matchesAt (ν := ν) g _ (d + 1) rfl).readRound hroom m
        rw [show maxNesting - (d + 1) + 1 = maxNesting - d by omega] at hnext
        exact hnext.restoring
      · rw [Nat.sub_eq_zero_of_le hfull]
        exact (readRound_doesAt_maxNesting hfull _ m).restoring
    exact (hround c).symm
  · exact loop_counted g

end Parsing

end Formula
