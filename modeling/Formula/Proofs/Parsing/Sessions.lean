import Formula.Number.Double
import Formula.Proofs.Parsing.Advancing
import Formula.Proofs.Parsing.Counting

/-!
# `Formula.Proofs.Parsing.Sessions` — calls on one parser

Those who write rules of their own call the parser on its cursor: for the next token, for a token that they know or
expect, and for a whole expression. A session is any sequence of such calls on one parser, after failures as well as
after successes. Of what has happened it keeps the position of the cursor and nothing else; the count of levels is back
at zero after each call. So an expression that is read in a session is the one that a new parser reads from the tokens
that are left.

## Contents
- `Call`, `Call.after`, `session` — calls on a parser that keeps count of its levels.
- `Climber.parse`, `parseAhead` — what comes of reading an expression.
- `resting`, `after_resting`, `session_resting` — where a call and a session leave the parser.
- `session_leaves_no_trace` — a session goes forwards, and expressions are read as by a new parser.
-/

namespace Formula

namespace Parsing

variable {α : Type} {ν : Type} [Numeral ν] {g : Grammar}

/-- **The calls on a parser.** -/
inductive Call where
  | next
  | demand (text : String)
  | expect (text : String)
  | parse (threshold : Nat)

/-- What a call does on a parser that keeps count of its levels. -/
def Call.step (p : Climber Counting ν) : Call → Counting Unit
  | next => do
    let _ ← (next? : Parsing (Option Token))
  | demand text => do
    let _ ← (Parsing.demand text : Parsing Token)
  | expect text => do
    let _ ← (Parsing.expect text : Parsing Token)
  | parse threshold => do
    let _ ← p.operand threshold

/-- Where a step leaves the parser, whether it succeeds or fails. -/
def stateAfter (x : Counting α) (s : Descent) : Descent :=
  match x.run s with
  | .ok _ s' => s'
  | .error _ s' => s'

/-- Where a call leaves the parser. -/
def Call.after (p : Climber Counting ν) (call : Call) (s : Descent) : Descent := stateAfter (call.step p) s

/-- **Where a sequence of calls leaves the parser.** -/
def session (p : Climber Counting ν) (calls : List Call) (s : Descent) : Descent :=
  calls.foldl (fun s call => call.after p s) s

/-- What comes of reading an expression: the expression or an error, and by how many tokens the cursor has moved. -/
def Climber.parse (p : Climber Counting ν) (m : Nat) (s : Descent) : Except ParseError (Expr ν) × Nat :=
  match (p.operand m).run s with
  | .ok e s' => (.ok e, s'.cursor.consumed - s.cursor.consumed)
  | .error err s' => (.error err, s'.cursor.consumed - s.cursor.consumed)

/-- What comes of reading an expression at the front of a list of tokens. -/
def parseAhead (g : Grammar) (m : Nat) (ts : List Token) : Except ParseError (Expr ν) × Nat :=
  match (expression g m).run (Cursor.start ts) with
  | .ok e c => (.ok e, c.consumed)
  | .error err c => (.error err, c.consumed)

/-! ## What a call keeps -/

/-- **A parser between two calls**, after so many of the tokens: no level is entered. -/
def resting (ts : List Token) (i : Nat) : Descent := ⟨⟨i, ts.drop i⟩, 0⟩

variable {ts : List Token} {i : Nat}

/-- **What a step comes to between two calls**: it leaves the parser resting after some more of the tokens, and it gives
    what it would give at the front of those that are left. -/
theorem run_resting {least : Nat} {x : Counting α} {y : Parsing α} (hx : KeepsCount 0 x y)
    (hy : Takes least 0 y) (hi : i ≤ ts.length) : ∃ j, i + j ≤ ts.length ∧
      ((∃ a, least ≤ j ∧ x.run (resting ts i) = .ok a (resting ts (i + j)) ∧
        y.run (Cursor.start (ts.drop i)) = .ok a ⟨j, ts.drop (i + j)⟩) ∨
      ∃ err, x.run (resting ts i) = .error err (resting ts (i + j)) ∧
        y.run (Cursor.start (ts.drop i)) = .error err ⟨j, ts.drop (i + j)⟩) := by
  obtain ⟨j, hj, hout⟩ := hy (ts.drop i)
  rw [List.length_drop] at hj
  simp only [Cursor.advance, List.drop_drop] at hout
  refine ⟨j, by omega, ?_⟩
  have hstart (k : Nat) : (⟨0 + j, ts.drop k⟩ : Cursor) = ⟨j, ts.drop k⟩ := by rw [Nat.zero_add]
  rcases hout with ⟨a, hle, hrun⟩ | ⟨err, -, hrun⟩
  · refine Or.inl ⟨a, hle, ?_, (hrun 0).trans (by rw [hstart])⟩
    rw [resting, hx, hrun]
    rfl
  · refine Or.inr ⟨err, ?_, (hrun 0).trans (by rw [hstart])⟩
    rw [resting, hx, hrun]
    rfl

/-- So it leaves the parser, one way or the other. -/
theorem stateAfter_resting {least : Nat} {x : Counting α} {y : Parsing α} (hx : KeepsCount 0 x y)
    (hy : Takes least 0 y) (hi : i ≤ ts.length) :
    ∃ j, i + j ≤ ts.length ∧ stateAfter x (resting ts i) = resting ts (i + j) := by
  obtain ⟨j, hj, ⟨a, -, hrun, -⟩ | ⟨err, hrun, -⟩⟩ := run_resting hx hy hi
  · exact ⟨j, hj, by rw [stateAfter, hrun]⟩
  · exact ⟨j, hj, by rw [stateAfter, hrun]⟩

/-- Reading an expression is such a step. -/
theorem expression_keepsCount {p : Climber Counting ν} (hp : p.CountsLevels g) (m : Nat) :
    KeepsCount 0 (p.operand m) (expression g m) :=
  hp.operand_keepsCount 0 m

theorem takes_expression (g : Grammar) (m : Nat) : Takes 1 0 (expression (ν := ν) g m) :=
  ((takes_loops g maxNesting).1 m).mono (Nat.le_refl 1) (Nat.zero_le _)

/-- **Each call leaves the parser resting**, no further back than it was. -/
theorem after_resting {p : Climber Counting ν} (hp : p.CountsLevels g) (call : Call) (hi : i ≤ ts.length) :
    ∃ j, i + j ≤ ts.length ∧ call.after p (resting ts i) = resting ts (i + j) := by
  cases call with
  | next =>
    exact stateAfter_resting ((KeepsCount.lift next?).bind fun _ => .pure ())
      (takes_next.andThen fun _ => .pure ()) hi
  | demand text =>
    exact stateAfter_resting ((KeepsCount.lift (demand text)).bind fun _ => .pure ())
      ((takes_demand text).andThen fun _ => .pure ()) hi
  | expect text =>
    exact stateAfter_resting ((KeepsCount.lift (expect text)).bind fun _ => .pure ())
      ((takes_expect text).andThen fun _ => .pure ()) hi
  | parse m =>
    exact stateAfter_resting ((expression_keepsCount hp m).bind fun _ => .pure ())
      ((takes_expression g m).andThen fun _ => .pure ()) hi

/-- **So does a session**, by induction on its calls. -/
theorem session_resting {p : Climber Counting ν} (hp : p.CountsLevels g) (calls : List Call) :
    ∀ {i : Nat}, i ≤ ts.length → ∃ j, i + j ≤ ts.length ∧ session p calls (resting ts i) = resting ts (i + j) := by
  induction calls with
  | nil => exact fun hi => ⟨0, hi, rfl⟩
  | cons call calls ih =>
    intro i hi
    obtain ⟨j, hj, hcall⟩ := after_resting hp call hi
    obtain ⟨j', hj', hcalls⟩ := ih hj
    refine ⟨j + j', by omega, ?_⟩
    rw [session, List.foldl_cons, hcall, ← Nat.add_assoc]
    exact hcalls

/-! ## Expressions in a session -/

/-- An expression is read as by a new parser from the tokens that are left. -/
theorem parse_resting {p : Climber Counting ν} (hp : p.CountsLevels g) (m : Nat) (hi : i ≤ ts.length) :
    p.parse m (resting ts i) = parseAhead g m (ts.drop i) := by
  obtain ⟨j, -, ⟨e, -, hrun, hahead⟩ | ⟨err, hrun, hahead⟩⟩ :=
    run_resting (expression_keepsCount hp m) (takes_expression g m) hi
  · rw [Climber.parse, parseAhead, hrun, hahead]
    simp [resting]
  · rw [Climber.parse, parseAhead, hrun, hahead]
    simp [resting]

/-- **A session leaves no trace but the position of the cursor.** Whatever the calls on a parser, and whether they
    succeed or fail: the cursor stays among the tokens and no level remains entered; no call moves it backwards, and an
    expression that is read takes a token; and an expression is read, or refused, as by a new parser from the tokens
    that are left, which is what the parser without a count gives. -/
theorem session_leaves_no_trace {p : Climber Counting ν} (hp : p.CountsLevels g) (ts : List Token)
    (calls : List Call) :
    let s := session p calls (Descent.start ts)
    s.cursor.consumed ≤ ts.length ∧ s = resting ts s.cursor.consumed ∧
      (∀ call : Call, s.cursor.consumed ≤ (call.after p s).cursor.consumed) ∧
      (∀ m e s', (p.operand m).run s = .ok e s' → s.cursor.consumed < s'.cursor.consumed) ∧
      ∀ m, p.parse m s = p.parse m (Descent.start (ts.drop s.cursor.consumed)) ∧
        p.parse m s = parseAhead g m (ts.drop s.cursor.consumed) := by
  obtain ⟨i, hi, hs⟩ := session_resting hp calls (Nat.zero_le ts.length)
  rw [Nat.zero_add] at hi hs
  intro s
  rw [show s = resting ts i from hs]
  refine ⟨hi, rfl, fun call => ?_, fun m e s' h => ?_, fun m => ⟨?_, parse_resting hp m hi⟩⟩
  · obtain ⟨j, -, hcall⟩ := after_resting hp call hi
    rw [hcall]
    exact Nat.le_add_right i j
  · obtain ⟨j, -, ⟨e', hj, hrun, -⟩ | ⟨err, hrun, -⟩⟩ :=
      run_resting (expression_keepsCount hp m) (takes_expression g m) hi
    · cases hrun.symm.trans h
      exact Nat.lt_add_of_pos_right hj
    · cases hrun.symm.trans h
  · rw [parse_resting hp m hi]
    exact (parse_resting hp m (Nat.zero_le _)).symm

/-- A negation that fails inside three groups, and what is read after it. -/
theorem session_leaves_no_trace_groups :
    let opening (i : Nat) : Token := ⟨.symbol, "(", ⟨i, i + 1⟩⟩
    let ts : List Token := [⟨.symbol, "-", ⟨0, 1⟩⟩, opening 1, opening 2, opening 3, ⟨.symbol, "*", ⟨4, 5⟩⟩,
      ⟨.name, "x", ⟨5, 6⟩⟩, ⟨.symbol, "!", ⟨6, 7⟩⟩]
    let p : Climber Counting Float := counted .standard
    let s := session p [.parse 0, .expect ")", .demand "*"] (Descent.start ts)
    p.CountsLevels .standard ∧ s.cursor.consumed = 5 ∧ p.parse 0 s = parseAhead .standard 0 (ts.drop 5) ∧
      p.parse 0 s = (.ok (.unary ⟨5, 7⟩ .factorial (.var ⟨5, 6⟩ "x")), 2) := by
  intro opening ts p s
  have hp : p.CountsLevels .standard := countsLevels_counted .standard
  obtain ⟨-, -, -, -, hparse⟩ := session_leaves_no_trace hp ts [.parse 0, .expect ")", .demand "*"]
  have hconsumed : s.cursor.consumed = 5 := by decide +kernel
  have hahead : p.parse 0 s = parseAhead .standard 0 (ts.drop 5) := hconsumed ▸ (hparse 0).2
  exact ⟨hp, hconsumed, hahead, hahead.trans (by decide +kernel)⟩

end Parsing

end Formula
