import Formula.Expr.Parens
import Formula.Grammar.Basic

/-!
# `Formula.Proofs.Expr.Grouping` — trees that group as they are written

A tree is *grouped* when its written form, without any further parentheses, groups as the tree does: every
operand binds tighter than what is asked of operands at its place, and nothing that follows a left operand is
taken in by the operand's own right edge.

## Contents
- `Fits`, `Closes`, `StartsTight`, `Grouped`.
- `spine`, `levels` — how many levels of nesting a grouped tree takes to be read.
- `needsParens_left_iff`, `needsParens_right_iff` — the rule for parentheses in terms of thresholds.
- `Grouped.closes` — in a grouped tree, what the root's binding closes is closed by the whole right edge.
-/

namespace Formula

theorem Binding.threshold_le_precedence (b : Binding) : b.threshold ≤ b.precedence := by
  unfold Binding.threshold
  split <;> omega

theorem Binding.precedence_le_threshold (b : Binding) : b.precedence ≤ b.threshold + 1 := by
  unfold Binding.threshold
  split <;> omega

namespace Expr

variable {ν : Type}

/-- Whether the root is an operation that binds tighter than a threshold, if it is one that goes on from its
    first operand. -/
def Fits (m : Nat) (e : Expr ν) : Prop := ∀ b ∈ e.binding?, b.fixity = .before ∨ m < b.precedence

/-- Whether no operand at the right edge goes on at an operator of precedence `p`. A derivative ends with a name,
    and a parenthesis is closed. -/
def Closes (p : Nat) : Expr ν → Prop
  | paren _ _ => True
  | constant _ _ => True
  | imaginary _ => True
  | var _ _ => True
  | literal _ _ => True
  | binary _ op _ r => p ≤ op.binding.threshold ∧ Closes p r
  | unary _ .neg e => p ≤ UnaryOp.neg.binding.threshold ∧ Closes p e
  | unary _ .factorial _ => True
  | derivative _ _ _ => True
  | integral _ _ _ => True
  | definiteIntegral _ _ _ _ _ => True

/-- Whether the written form begins with a token that a juxtaposed factor may begin with. -/
def StartsTight : Expr ν → Prop
  | paren _ _ => True
  | constant _ _ => True
  | imaginary _ => True
  | var _ _ => True
  | literal _ _ => True
  | binary _ _ l _ => StartsTight l
  | unary _ .neg _ => False
  | unary _ .factorial e => StartsTight e
  | derivative _ _ _ => False
  | integral _ _ _ => False
  | definiteIntegral _ _ _ _ _ => False

/-- **A tree that groups as it is written.** -/
def Grouped : Expr ν → Prop
  | paren _ e => Grouped e
  | constant _ _ => True
  | imaginary _ => True
  | var _ _ => True
  | literal _ _ => True
  | binary _ op l r => (Grouped l ∧ Closes op.binding.precedence l) ∧ Grouped r ∧ Fits op.binding.threshold r ∧
      (op = .juxtapose → StartsTight r)
  | unary _ .neg e => Grouped e ∧ Fits UnaryOp.neg.binding.threshold e
  | unary _ .factorial e => Grouped e ∧ Closes UnaryOp.factorial.binding.precedence e
  | derivative _ e _ => Grouped e
  | integral _ e x => Grouped e ∧ Grouped x
  | definiteIntegral _ e x a b => Grouped e ∧ Grouped x ∧ Grouped a ∧ Grouped b

/-- The number of operations that go on, one after the other, from the expression's first operand. -/
def spine : Expr ν → Nat
  | binary _ _ l _ => l.spine + 1
  | unary _ .factorial e => e.spine + 1
  | _ => 0

/-- The number of levels that are needed below the one at which the tree is read. -/
def levels : Expr ν → Nat
  | paren _ e => e.levels + 1
  | constant _ _ => 0
  | imaginary _ => 0
  | var _ _ => 0
  | literal _ _ => 0
  | binary _ _ l r => max l.levels (l.spine + 1 + (r.levels + 1))
  | unary _ .neg e => e.levels + 1
  | unary _ .factorial e => max e.levels (e.spine + 1)
  | derivative _ e _ => e.levels + 1
  | integral _ e x => max e.levels x.levels + 1
  | definiteIntegral _ e x a b => max (max e.levels x.levels) (max a.levels b.levels) + 1

theorem fits_zero (e : Expr ν) : Fits 0 e := by
  intro b hb
  cases e <;> simp only [binding?, Option.mem_def, Option.some.injEq, reduceCtorEq] at hb
  · next op _ _ =>
    subst hb
    exact Or.inr (by cases op <;> decide)
  · next op _ =>
    subst hb
    cases op
    · exact Or.inl rfl
    · exact Or.inr (by decide)

/-- How a root binds is how an operator binds. -/
theorem exists_operator {e : Expr ν} {b : Binding} (h : e.binding? = some b) : ∃ op : Operator, op.binding = b := by
  cases e with
  | binary s op l r => exact ⟨.binary op, Option.some.inj h⟩
  | unary s op e => exact ⟨.unary op, Option.some.inj h⟩
  | _ => cases h

theorem fits_binary {m : Nat} {s : Span} {op : BinaryOp} {l r : Expr ν} :
    Fits m (binary s op l r) ↔ m < op.binding.precedence := by
  simp [Fits, binding?, BinaryOp.binding_fixity]

theorem fits_factorial {m : Nat} {s : Span} {e : Expr ν} : Fits m (unary s .factorial e) ↔ m < 90 := by
  simp [Fits, binding?, UnaryOp.binding]

theorem fits_neg (m : Nat) (s : Span) (e : Expr ν) : Fits m (unary s .neg e) := by
  simp [Fits, binding?, UnaryOp.binding]

/-- An operand whose right edge is closed to an operator fits wherever that operator does. -/
theorem Closes.fits {m p : Nat} {e : Expr ν} (h : Closes p e) (hm : m < p) (hp : p ≤ 90) : Fits m e := by
  cases e with
  | binary s op l r =>
    rw [fits_binary]
    exact Nat.lt_of_lt_of_le hm (Nat.le_trans h.1 op.binding.threshold_le_precedence)
  | unary s op e =>
    cases op with
    | neg => exact fits_neg m s e
    | factorial =>
      rw [fits_factorial]
      omega
  | _ => simp [Fits, binding?]

/-- What is closed to an operator is closed to all that bind looser. -/
theorem Closes.mono {p q : Nat} {e : Expr ν} (h : Closes p e) (hq : q ≤ p) : Closes q e := by
  induction e with
  | binary s op l r ihl ihr => exact ⟨Nat.le_trans hq h.1, ihr h.2⟩
  | unary s op e ih =>
    cases op with
    | neg => exact ⟨Nat.le_trans hq h.1, ih h.2⟩
    | factorial => trivial
  | _ => trivial

/-- **In a grouped tree the root decides for the whole right edge**: at each operator that an expression can go on
    with, the operands further down bind at least as tightly as the root does. -/
theorem Grouped.closes {p : Nat} {e : Expr ν} (hg : Grouped e)
    (h : ∀ b ∈ e.binding?, b.fixity = .after ∨ p ≤ b.threshold) (hp : p ≤ 60 ∨ 80 ≤ p) : Closes p e := by
  -- an operand that fits above a threshold closes at least what the threshold does
  have hfits : ∀ {t : Nat} {r : Expr ν}, Fits t r → p ≤ t → t < 80 →
      ∀ b ∈ r.binding?, b.fixity = .after ∨ p ≤ b.threshold := by
    intro t r hr hpt ht b hb
    rcases hr b hb with hbefore | hlt
    · obtain ⟨op, rfl⟩ := exists_operator hb
      cases op with
      | binary op =>
        rw [Operator.binding, BinaryOp.binding_fixity] at hbefore
        cases hbefore
      | unary op =>
        cases op with
        | neg => exact Or.inr (by show p ≤ 74; omega)
        | factorial => exact Or.inl rfl
    · have := b.precedence_le_threshold
      exact Or.inr (by omega)
  induction e with
  | binary s op l r ihl ihr =>
    -- only the right operand is on the right edge; that it fits above the operator's threshold is enough
    obtain ⟨-, hgr, hr, -⟩ := hg
    have hop : p ≤ op.binding.threshold := by
      rcases h op.binding rfl with hafter | hle
      · rw [BinaryOp.binding_fixity] at hafter
        cases hafter
      · exact hle
    have hlt : op.binding.threshold < 80 := by cases op <;> decide
    exact ⟨hop, ihr hgr (hfits hr hop hlt)⟩
  | unary s op e ih =>
    cases op with
    | neg =>
      have hop : p ≤ UnaryOp.neg.binding.threshold := by
        rcases h UnaryOp.neg.binding rfl with hafter | hle
        · cases hafter
        · exact hle
      exact ⟨hop, ih hg.1 (hfits hg.2 hop (by decide))⟩
    | factorial => trivial
  | _ => trivial

/-- The root of what closes an operator closes it. -/
theorem Closes.root {p : Nat} {e : Expr ν} (h : Closes p e) : ∀ b ∈ e.binding?, b.fixity = .after ∨ p ≤ b.threshold := by
  intro b hb
  cases e with
  | binary s op l r =>
    obtain rfl := Option.some.inj hb
    exact Or.inr h.1
  | unary s op e =>
    obtain rfl := Option.some.inj hb
    cases op with
    | neg => exact Or.inr h.1
    | factorial => exact Or.inl rfl
  | _ => cases hb

/-! ## The rule for parentheses -/

/-- An operand on the left is put in parentheses where its parent would be taken in by its right edge. -/
theorem bindingNeedsParens_left {parent : Operator} (hparent : parent ≠ .unary .neg) (child : Operator) :
    bindingNeedsParens parent.binding child.binding .left = false ↔
      child.binding.fixity = .after ∨ parent.binding.precedence ≤ child.binding.threshold := by
  rcases parent with op | op <;> rcases child with op' | op' <;> cases op <;> cases op' <;>
    first | decide | exact absurd rfl hparent

/-- An operand on the right is put in parentheses where it would not be read above its parent's threshold. -/
theorem bindingNeedsParens_right {parent : Operator} (hparent : parent ≠ .unary .factorial) (child : Operator) :
    bindingNeedsParens parent.binding child.binding .right = false ↔
      child.binding.fixity = .before ∨ parent.binding.threshold < child.binding.precedence := by
  rcases parent with op | op <;> rcases child with op' | op' <;> cases op <;> cases op' <;>
    first | decide | exact absurd rfl hparent

section Numeral

variable [Numeral ν]

theorem exists_operator_of_writtenBinding? {e : Expr ν} {b : Binding} (h : e.writtenBinding? = some b) :
    ∃ op : Operator, op.binding = b := by
  cases e with
  | literal s v =>
    rw [writtenBinding?, literalBinding?] at h
    split at h
    · exact ⟨.binary .div, Option.some.inj h⟩
    · exact ⟨.unary .neg, Option.some.inj h⟩
    · exact ⟨.binary .div, Option.some.inj h⟩
    · exact ⟨.unary .neg, Option.some.inj h⟩
    · cases h
  | binary s op l r => exact ⟨.binary op, Option.some.inj h⟩
  | unary s op e => exact ⟨.unary op, Option.some.inj h⟩
  | _ => cases h

theorem needsParens_left_iff {parent : Operator} (hparent : parent ≠ .unary .neg) (e : Expr ν) :
    needsParens parent.binding e .left = false ↔
      ∀ b ∈ e.writtenBinding?, b.fixity = .after ∨ parent.binding.precedence ≤ b.threshold := by
  rw [needsParens]
  cases hb : e.writtenBinding? with
  | none => simp
  | some b =>
    obtain ⟨child, rfl⟩ := exists_operator_of_writtenBinding? hb
    simp [bindingNeedsParens_left hparent]

theorem needsParens_right_iff {parent : Operator} (hparent : parent ≠ .unary .factorial) (e : Expr ν) :
    needsParens parent.binding e .right = false ↔
      ∀ b ∈ e.writtenBinding?, b.fixity = .before ∨ parent.binding.threshold < b.precedence := by
  rw [needsParens]
  cases hb : e.writtenBinding? with
  | none => simp
  | some b =>
    obtain ⟨child, rfl⟩ := exists_operator_of_writtenBinding? hb
    simp [bindingNeedsParens_right hparent]

end Numeral

end Expr

end Formula
