import Formula.Proofs.Parsing.Replay

/-!
# `Formula.Proofs.Parsing.Height` — how high the trees are that the parser builds

The parser counts the levels of nesting on its way down and counts back on its way up. An operand that has been read
is therefore free to go on to any height that the levels around it allow: each operator that is applied to it costs
one level, whatever it is already made of. So the levels bound the height of a tree, but not by their own number. With
`n` levels an operand is read up to a height of `n + (n - 1) + … + 1`, and no more.

## Contents
- `Expr.height`, `heightLimit`.
- `height_le_of_run`, `height_le_of_parseFront` — no tree is higher.
- `tower` — words of a tree that is as high; `exists_height_eq`.
- `not_height_le_maxNesting` — the number of levels is no bound.
-/

namespace Formula

open Lexis

variable {ν : Type}

/-- The number of nodes on the longest path from the root to a leaf. -/
def Expr.height : Expr ν → Nat
  | paren _ e => e.height + 1
  | constant _ _ => 1
  | imaginary _ => 1
  | var _ _ => 1
  | literal _ _ => 1
  | binary _ _ l r => max l.height r.height + 1
  | unary _ _ e => e.height + 1
  | derivative _ e _ => e.height + 1
  | integral _ e x => max e.height x.height + 1
  | definiteIntegral _ e x a b => max (max e.height x.height) (max a.height b.height) + 1

namespace Parsing

/-- The height up to which an operand is read with so many levels: its beginning is one node around an operand with one
    level less, and as many operators are applied to it as there are levels left. -/
def heightLimit : Nat → Nat
  | 0 => 0
  | n + 1 => heightLimit n + 1 + n

theorem two_mul_heightLimit (n : Nat) : 2 * heightLimit n = n * (n + 1) := by
  induction n with
  | zero => rfl
  | succ n ih =>
    rw [heightLimit, Nat.mul_add, Nat.mul_add, ih]
    ring

theorem heightLimit_eq (n : Nat) : heightLimit n = n * (n + 1) / 2 := by
  have h := two_mul_heightLimit n
  omega

/-! ## The bound -/

/-- How high the result of a task is. -/
def Task.LimitsHeight (e : Expr ν) : Task ν → Prop
  | .operand n _ => e.height ≤ heightLimit n
  | .loop n _ lhs => ∀ h, heightLimit n ≤ h → lhs.height ≤ h → e.height ≤ h + n

/-- An operand begins with a node around what was read with one level less. -/
theorem limitsHeight_operand {n m : Nat} {lhs e : Expr ν} (hgo : (Task.loop n m lhs).LimitsHeight e)
    (hlhs : lhs.height ≤ heightLimit n + 1) : (Task.operand (n + 1) m).LimitsHeight e :=
  hgo (heightLimit n + 1) (Nat.le_succ _) hlhs

/-- A round of the loop puts one node around what has been read, and around an operand that is no higher than that may
    be. -/
theorem limitsHeight_loop {n m : Nat} {lhs lhs' e : Expr ν} (hgo : (Task.loop n m lhs').LimitsHeight e)
    (hround : ∀ h, heightLimit n ≤ h → lhs.height ≤ h → lhs'.height ≤ h + 1) :
    (Task.loop (n + 1) m lhs).LimitsHeight e := by
  intro h hlimit hlhs
  rw [heightLimit] at hlimit
  have hround' := hround h (by omega) hlhs
  have hgo' := hgo (h + 1) (by omega) hround'
  omega

variable [Numeral ν]

/-- **The levels bound the height**, by induction on the run. -/
theorem limitsHeight_of_run {task : Task ν} {ts rest : List Token} {e : Expr ν} (h : Run task ts e rest) :
    task.LimitsHeight e := by
  induction h with
  | name hkind hrun ih => exact limitsHeight_operand ih (Nat.le_add_left 1 _)
  | number hkind hread hfinite hrun ih => exact limitsHeight_operand ih (Nat.le_add_left 1 _)
  | constant hkind hlookup hrun ih => exact limitsHeight_operand ih (Nat.le_add_left 1 _)
  | group hword hinner hclose hrun ihinner ih => exact limitsHeight_operand ih (Nat.succ_le_succ ihinner)
  | negation hword hinner hrun ihinner ih => exact limitsHeight_operand ih (Nat.succ_le_succ ihinner)
  | derivative hkeyword hinner hwrt hrun ihinner ih => exact limitsHeight_operand ih (Nat.succ_le_succ ihinner)
  | derivativeBy hkeyword hinner hwrt hkind hrun ihinner ih => exact limitsHeight_operand ih (Nat.succ_le_succ ihinner)
  | stop hstops => exact fun h _ hlhs => Nat.le_add_right_of_le hlhs
  | binary hop hword hm hrhs hrun ihrhs ih =>
    refine limitsHeight_loop ih fun h hlimit hlhs => ?_
    exact Nat.succ_le_succ (max_le hlhs (Nat.le_trans ihrhs hlimit))
  | juxtaposed hfactor hm hrhs hrun ihrhs ih =>
    refine limitsHeight_loop ih fun h hlimit hlhs => ?_
    exact Nat.succ_le_succ (max_le hlhs (Nat.le_trans ihrhs hlimit))
  | factorial hword hm hrun ih => exact limitsHeight_loop ih fun h _ hlhs => Nat.succ_le_succ hlhs

/-- **No tree that the parser gives is higher than `maxNesting + (maxNesting - 1) + … + 1`**, whatever the tokens. -/
theorem height_le_of_parseFront {ts : List Token} {e : Expr ν} {k : Nat} (h : parseFront .standard ts = .ok (e, k)) :
    e.height ≤ maxNesting * (maxNesting + 1) / 2 := by
  rw [parseFront, expression, Cursor.start] at h
  split at h
  · next e' c hrun =>
    obtain ⟨rfl, -⟩ := Prod.mk.inj (Except.ok.inj h)
    rw [← heightLimit_eq]
    exact limitsHeight_of_run ((run_of_loops maxNesting).1 hrun).1
  · cases h

/-- A factorial of a name. -/
theorem height_le_of_parseFront_name :
    let ts : List Token := [⟨.name, "x", ⟨0, 1⟩⟩, ⟨.symbol, "!", ⟨1, 2⟩⟩]
    let e : Expr Float := .unary ⟨0, 2⟩ .factorial (.var ⟨0, 1⟩ "x")
    parseFront .standard ts = .ok (e, 2) ∧ e.height ≤ maxNesting * (maxNesting + 1) / 2 := by
  intro ts e
  have h : parseFront .standard ts = .ok (e, 2) := by decide +kernel
  exact ⟨h, height_le_of_parseFront h⟩

/-! ## Trees that are as high -/

/-- The words of a group around the words of one level less, with as many factorials behind it as there are levels. -/
def tower : Nat → List Word
  | 0 => [(.name, "x")]
  | n + 1 => (.symbol, "(") :: (tower n ++ (.symbol, ")") :: List.replicate (n + 1) (.symbol, "!"))

/-- The text of these words. -/
def towerText : Nat → List Char
  | 0 => ['x']
  | n + 1 => '(' :: (towerText n ++ ')' :: List.replicate (n + 1) '!')

theorem spells_towerText (n : Nat) : Spells (towerText n) (tower n) := by
  induction n with
  | zero => exact IsWord.spells (k := .name) (x := "x") rfl
  | succ n ih =>
    have hbangs : ∀ k, Spells (List.replicate k '!') (List.replicate k (.symbol, "!")) := by
      intro k
      induction k with
      | zero => exact .nil
      | succ k ihk => exact .symbol (by decide) ihk
    refine .symbol (by decide) (ih.append (delimited_close _) ?_)
    exact .symbol (by decide) (hbangs (n + 1))

/-- Each factorial is one round of the loop and one node. -/
theorem exists_run_bangs {m : Nat} {rest : List Token} (hm : m < UnaryOp.factorial.binding.precedence)
    (hstops : StopsAt m rest) (k : Nat) : ∀ (ts : List Token) (lhs : Expr ν),
      ts.map Token.word = List.replicate k (.symbol, "!") →
      ∃ e, Run (.loop k m lhs) (ts ++ rest) e rest ∧ e.height = lhs.height + k := by
  induction k with
  | zero =>
    intro ts lhs hts
    rw [List.replicate_zero, List.map_eq_nil_iff] at hts
    subst hts
    exact ⟨lhs, .stop hstops, rfl⟩
  | succ k ih =>
    intro ts lhs hts
    obtain ⟨t, ts, rfl, hword, hts⟩ := List.map_eq_cons_iff.mp hts
    obtain ⟨e, hrun, hheight⟩ := ih ts (.unary (lhs.span.merge t.span) .factorial lhs) hts
    refine ⟨e, .factorial hword hm hrun, ?_⟩
    rw [hheight, Expr.height]
    omega

/-- **A tower uses all the levels that there are at each of its own**, by induction on its levels. -/
theorem exists_run_tower (n : Nat) : ∀ (ts rest : List Token), StopsAt lowest rest → ts.map Token.word = tower n →
    ∃ e : Expr ν, Run (.operand (n + 1) lowest) (ts ++ rest) e rest ∧ e.height = heightLimit (n + 1) := by
  induction n with
  | zero =>
    intro ts rest hstops hts
    obtain ⟨t, rfl, hword⟩ := token_of_words hts
    exact ⟨.var t.span t.text, .name (Prod.mk.inj hword).1 (.stop hstops), rfl⟩
  | succ n ih =>
    intro ts rest hstops hts
    obtain ⟨t, ts, rfl, hword, hts⟩ := List.map_eq_cons_iff.mp hts
    obtain ⟨tis, tcs, rfl, htis, htcs⟩ := List.map_eq_append_iff.mp hts
    obtain ⟨tc, tbs, rfl, hclose, htbs⟩ := List.map_eq_cons_iff.mp htcs
    -- the parenthesis stops the tower inside, whatever factorials are behind it
    obtain ⟨inner, hinner, hheight⟩ := ih tis (tc :: (tbs ++ rest))
      (stopsAt_of_none (extensionRule?_close hclose) _ _) htis
    obtain ⟨e, hrun, he⟩ := exists_run_bangs (by decide) hstops (n + 1) tbs (.paren (t.span.merge tc.span) inner) htbs
    refine ⟨e, ?_, ?_⟩
    · simpa using Run.group hword hinner (reads_of_word hclose) hrun
    · rw [he, Expr.height, hheight, heightLimit.eq_def (n + 1 + 1)]

/-- **The bound is reached**: there is a text whose tree is as high. -/
theorem exists_height_eq : ∃ (ts : List Token) (e : Expr ν),
    tokensOf (String.ofList (towerText (maxNesting - 1))) = .ok ts ∧ parseAll .standard ts = .ok e ∧
      e.height = maxNesting * (maxNesting + 1) / 2 := by
  obtain ⟨ts, hts, hwords⟩ := (exists_tokensOf_iff (String.ofList (towerText (maxNesting - 1))) _).mpr
    (by rw [String.toList_ofList]; exact spells_towerText (maxNesting - 1))
  obtain ⟨e, hrun, hheight⟩ := exists_run_tower (ν := ν) (maxNesting - 1) ts [] (stopsAt_nil lowest) hwords
  rw [List.append_nil] at hrun
  refine ⟨ts, e, hts, parseAll_iff_run.mpr hrun, ?_⟩
  rw [hheight, heightLimit_eq]
  rfl

/-- The tokens of a name in 128 groups, with 128 factorials behind them. -/
def steepTokens : List Token :=
  (List.range 128).map (fun i => ⟨.symbol, "(", ⟨i, i + 1⟩⟩) ++ ⟨.name, "x", ⟨128, 129⟩⟩ ::
    ((List.range' 129 128).map (fun i => ⟨.symbol, ")", ⟨i, i + 1⟩⟩) ++
      (List.range' 257 128).map fun i => ⟨.symbol, "!", ⟨i, i + 1⟩⟩)

/-- The number of levels itself does not bound the height: the groups have given back their levels by the time that
    the factorials are counted. -/
theorem not_height_le_maxNesting : ¬ ∀ (ts : List Token) (e : Expr Float) (k : Nat),
    parseFront .standard ts = .ok (e, k) → e.height ≤ maxNesting := by
  intro hall
  have hheight : (parseFront .standard steepTokens).map (fun r : Expr Float × Nat => r.1.height) = .ok 257 := by
    decide +kernel
  cases hfront : (parseFront .standard steepTokens : Except ParseError (Expr Float × Nat)) with
  | error err =>
    rw [hfront] at hheight
    cases hheight
  | ok r =>
    rw [hfront] at hheight
    have hle := hall steepTokens r.1 r.2 hfront
    have heq : r.1.height = 257 := Except.ok.inj hheight
    rw [heq] at hle
    exact absurd hle (by decide)

end Parsing

end Formula
