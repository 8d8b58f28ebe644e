import Formula.Number.Double
import Formula.Proofs.Parsing.Runs
import Mathlib.Logic.Relation

/-!
# `Formula.Proofs.Parsing.Thresholds` — what a higher threshold makes of the same tokens

A threshold decides only where the loop of the parser stops. What begins an expression is read without it, and so is
what each rule adds to it. So with a higher threshold the parser takes the same way and leaves it earlier: what it then
has is what stands at the left in the expression that it would have read, in front of operators that the threshold does
not admit.

## Contents
- `Expr.LeftOperand` — the operand at the left of an operation.
- `leftOperand_of_extension`, `leftOperands_of_climb` — the loop puts operations around what it goes on from.
- `climb_of_le`, `readOperand_of_le` — the run with a higher threshold.
-/

namespace Formula

open Relation

variable {ν : Type}

/-- **The operand at the left of an operation**, or the only one. -/
inductive Expr.LeftOperand : Expr ν → Expr ν → Prop where
  | binary (s : Span) (op : BinaryOp) (l r : Expr ν) : LeftOperand (.binary s op l r) l
  | unary (s : Span) (op : UnaryOp) (e : Expr ν) : LeftOperand (.unary s op e) e

namespace Parsing

variable {g : Grammar} {p q : Nat}

/-- Where nothing binds tighter than a threshold, nothing binds tighter than a higher one. -/
theorem Stops.mono {rest : List Token} (h : Stops g p rest) (hpq : p ≤ q) : Stops g q rest :=
  fun t ht rule hrule => Nat.le_trans (h t ht rule hrule) hpq

/-- **An extension rule puts an operation around the expression** that it goes on from. -/
theorem leftOperand_of_extension {operand : Nat → Parsing (Expr ν)} {rule : ExtensionRule} {lhs e : Expr ν}
    {c c' : Cursor} (h : (rule.build operand lhs).run c = .ok e c') : e.LeftOperand lhs := by
  obtain ⟨token, operator, extension⟩ := rule
  cases extension with
  | binary =>
    cases operator with
    | binary op =>
      obtain ⟨t, c₁, -, h⟩ := exists_of_run_bind (x := current) h
      obtain ⟨rhs, c₂, -, h⟩ := exists_of_run_bind h
      cases h
      exact .binary _ op lhs rhs
    | unary op => cases h
  | unary =>
    cases operator with
    | binary op => cases h
    | unary op =>
      obtain ⟨t, c₁, -, h⟩ := exists_of_run_bind (x := current) h
      cases h
      exact .unary _ op lhs
  | juxtaposed =>
    obtain ⟨rhs, c₁, -, h⟩ := exists_of_run_bind (x := operand _) h
    cases h
    exact .binary _ .juxtapose lhs rhs

variable [Numeral ν]

/-- So the loop puts any number of them around it. -/
theorem leftOperands_of_climb (n : Nat) : ∀ {lhs e : Expr ν} {c c' : Cursor},
    (climb g n p lhs).run c = .ok e c' → ReflTransGen Expr.LeftOperand e lhs := by
  induction n with
  | zero =>
    rintro lhs e ⟨k, ts⟩ c' h
    rcases climb_ok h with ⟨-, rfl, -⟩ | ⟨n', -, -, -, hn, -⟩
    · exact .refl
    · cases hn
  | succ n ih =>
    rintro lhs e ⟨k, ts⟩ c' h
    rcases climb_ok h with ⟨-, rfl, -⟩ | ⟨n', t, ts', rule, hn, rfl, -, -, hrun⟩
    · exact .refl
    · obtain rfl := Nat.succ.inj hn
      obtain ⟨lhs', c₁, hbuild, hrun⟩ := exists_of_run_bind hrun
      exact (ih hrun).tail (leftOperand_of_extension hbuild)

/-- **Where the run stops with a higher threshold**: earlier, at an expression that stands at the left in the other one,
    and in front of nothing that binds tighter. -/
structure StopsEarlier (g : Grammar) (q : Nat) (a b : Expr ν) (c₁ c₂ : Cursor) : Prop where
  consumed_le : c₂.consumed ≤ c₁.consumed
  leftOperands : ReflTransGen Expr.LeftOperand a b
  stops : Stops g q c₂.rest

/-- The loop does not turn back. -/
theorem consumed_le_of_climb {n : Nat} {lhs e : Expr ν} {c c' : Cursor} (h : (climb g n p lhs).run c = .ok e c') :
    c.consumed ≤ c'.consumed := by
  obtain ⟨i, -, -, rfl⟩ := ((takes_loops g n).2 p lhs).exists_advance h
  exact Nat.le_add_right _ i

/-- **The loop with a higher threshold** takes the same rounds as long as the operators bind tighter, by induction on
    the levels that are left. -/
theorem climb_of_le (hpq : p ≤ q) (n : Nat) : ∀ {lhs a : Expr ν} {c c₁ : Cursor},
    (climb g n p lhs).run c = .ok a c₁ → ∃ b c₂, (climb g n q lhs).run c = .ok b c₂ ∧ StopsEarlier g q a b c₁ c₂ := by
  -- where the loop stops with the higher threshold, it may have gone on with the lower one
  have hstop {n : Nat} {lhs a : Expr ν} {c c₁ : Cursor} (h : (climb g n p lhs).run c = .ok a c₁)
      (hstops : Stops g q c.rest) : ∃ b c₂, (climb g n q lhs).run c = .ok b c₂ ∧ StopsEarlier g q a b c₁ c₂ :=
    ⟨lhs, c, climb_run_of_stops hstops n c.consumed lhs, consumed_le_of_climb h, leftOperands_of_climb n h, hstops⟩
  induction n with
  | zero =>
    rintro lhs a ⟨k, ts⟩ c₁ h
    rcases climb_ok h with ⟨hstops, -, -⟩ | ⟨n', -, -, -, hn, -⟩
    · exact hstop h (hstops.mono hpq)
    · cases hn
  | succ n ih =>
    rintro lhs a ⟨k, ts⟩ c₁ h
    by_cases hstops : Stops g q ts
    · exact hstop h hstops
    · obtain ⟨t, ts, rule, rfl, hrule, hq⟩ := exists_rule_of_not_stops hstops
      rw [climb_run_step hrule (Nat.lt_of_le_of_lt hpq hq)] at h
      obtain ⟨lhs', c', hbuild, hrun⟩ := exists_of_run_bind h
      rw [climb_run_step hrule hq, run_bind_ok hbuild]
      exact ih hrun

/-- **What a higher threshold makes of the same tokens**, whatever the grammar and with any number of levels left: where
    an operand is read with some threshold, one is read with a higher threshold; it takes no more of the tokens, it is
    reached from the other by going to left operands only, and the token that it stops at is missing, has no extension
    rule, or has one that does not bind tighter than the higher threshold. -/
theorem readOperand_of_le {n : Nat} (hpq : p ≤ q) {a : Expr ν} {c c₁ : Cursor}
    (h : (readOperand g n p).run c = .ok a c₁) :
    ∃ b i j, c₁ = c.advance i ∧ i ≤ c.rest.length ∧ (readOperand g n q).run c = .ok b (c.advance j) ∧ j ≤ i ∧
      ReflTransGen Expr.LeftOperand a b ∧ Stops g q (c.advance j).rest := by
  obtain ⟨i, hi, -, rfl⟩ := ((takes_loops g n).1 p).exists_advance h
  obtain ⟨k, ts⟩ := c
  obtain ⟨n, t, ts, rule, rfl, rfl, hrule, hrun⟩ := readOperand_ok h
  obtain ⟨lhs, c', hbuild, hclimb⟩ := exists_of_run_bind hrun
  obtain ⟨b, c₂, hclimb', hle, hleft, hstops⟩ := climb_of_le hpq n hclimb
  have hread : (readOperand g (n + 1) q).run ⟨k, t :: ts⟩ = .ok b c₂ := by
    rw [readOperand_run hrule, run_bind_ok hbuild, hclimb']
  obtain ⟨j, -, -, rfl⟩ := ((takes_loops g (n + 1)).1 q).exists_advance hread
  exact ⟨b, i, j, rfl, hi, hread, Nat.le_of_add_le_add_left hle, hleft, hstops⟩

/-- A sum that is read again with the threshold of a product: what is left of it is a power. -/
theorem readOperand_of_le_sum :
    let op (symbol : String) : Token := ⟨.symbol, symbol, .nowhere⟩
    let name (x : String) : Token := ⟨.name, x, .nowhere⟩
    let c : Cursor := .start [name "x", op "^", name "y", op "!", op "*", name "z", op "+", name "x"]
    let v (x : String) : Expr Float := .var .nowhere x
    let b : Expr Float := .binary .nowhere .pow (v "x") (.unary .nowhere .factorial (v "y"))
    let a : Expr Float := .binary .nowhere .add (.binary .nowhere .mul b (v "z")) (v "x")
    0 ≤ 50 ∧ (readOperand .standard 5 0).run c = .ok a ⟨8, []⟩ ∧
      (readOperand .standard 5 50).run c = .ok b (c.advance 4) ∧ ReflTransGen Expr.LeftOperand a b ∧
      Stops .standard 50 (c.advance 4).rest := by
  intro op name c v b a
  have ha : (readOperand .standard 5 0).run c = .ok a ⟨8, []⟩ := by cbv
  have hb : (readOperand .standard 5 50).run c = .ok b (c.advance 4) := by cbv
  obtain ⟨b', i, j, -, -, hb', -, hleft, hstops⟩ := readOperand_of_le (Nat.zero_le 50) ha
  obtain ⟨rfl, hj⟩ := EStateM.Result.ok.inj (hb.symm.trans hb')
  exact ⟨Nat.zero_le 50, ha, hb, hleft, hj ▸ hstops⟩

end Parsing

end Formula
