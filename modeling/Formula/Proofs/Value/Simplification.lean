import Formula.Expr.Simplify
import Formula.Proofs.Value.Derivative

/-!
# `Formula.Proofs.Value.Simplification` — simplifying changes no value

The changes that simplification makes are laws of fields: a zero is added or taken away, a factor is one, a factor is
zero or the dividend is. None of them brings in a divisor. A derivative is carried out over an operand that has been
simplified, which denotes what the operand does, and what comes of it denotes the derivative.

## Contents
- `Denotes.eq_zero`, `Denotes.eq_one` — literals that simplification looks for.
- `denotes_simplifyBinary`, `denotes_simplifyUnary` — one operation on simplified operands.
- `denotes_simplifyWith`, `value_simplify` — the simplified form of an expression.
-/

namespace Formula

namespace Interpretation

open Formula.Expr

variable {F : Type} {K : Type*} [Field F] [Field K] [Algebra F K] {I : Interpretation F K}
variable [Arithmetic F] [ExactArithmetic F] {s : Span} {op : BinaryOp} {e l r : Expr F} {a b : K}

/-! ## Literals -/

theorem Denotes.eq_zero (h : I.Denotes e a) (he : e.isZero = true) : a = 0 := by
  cases e with
  | literal s v =>
    rw [← h.value, Interpretation.value, (RingArithmetic.isZero_iff v).mp he, map_zero]
  | _ => cases he

theorem Denotes.eq_one (h : I.Denotes e a) (he : e.isOne = true) : a = 1 := by
  cases e with
  | literal s v =>
    rw [← h.value, Interpretation.value, (RingArithmetic.isOne_iff v).mp he, map_one]
  | _ => cases he

/-- Operations on literals are carried out in the field of the literals. -/
theorem algebraMap_binary (hI : I.ExtendsLiterals) (op : BinaryOp) (v w : F) :
    algebraMap F K (Arithmetic.binary op v w) = I.applyBinary op (algebraMap F K v) (algebraMap F K w) := by
  cases op with
  | add => rw [RingArithmetic.binary_add, map_add, applyBinary]
  | sub => rw [RingArithmetic.binary_sub, map_sub, applyBinary]
  | mul => rw [RingArithmetic.binary_mul, map_mul, applyBinary]
  | juxtapose => rw [RingArithmetic.binary_juxtapose, map_mul, applyBinary]
  | div => rw [ExactArithmetic.binary_div, map_div₀, applyBinary]
  | pow => exact (hI.pow v w).symm

theorem algebraMap_unary (hI : I.ExtendsLiterals) {op : UnaryOp} {v w : F} (h : Arithmetic.unary op v = some w) :
    algebraMap F K w = I.applyUnary op (algebraMap F K v) := by
  cases op with
  | neg =>
    rw [RingArithmetic.unary_neg] at h
    obtain rfl := Option.some.inj h
    rw [map_neg, applyUnary]
  | factorial => exact (hI.factorial h).symm

/-! ## One operation -/

/-- A product with zero or one, whichever way it is written. -/
theorem denotes_simplifyProduct (hop : op ≠ .div) (hmul : I.applyBinary op a b = a * b) (hl : I.Denotes l a)
    (hr : I.Denotes r b) : I.Denotes (simplifyProduct s op l r) (I.applyBinary op a b) := by
  rw [simplifyProduct]
  split
  · next h =>
    refine hl.of_eq ?_
    rcases Bool.or_eq_true_iff.mp h with hzero | hone
    · rw [hmul, hl.eq_zero hzero, zero_mul]
    · rw [hmul, hr.eq_one hone, mul_one]
  · split
    · next h =>
      refine hr.of_eq ?_
      rcases Bool.or_eq_true_iff.mp h with hzero | hone
      · rw [hmul, hr.eq_zero hzero, mul_zero]
      · rw [hmul, hl.eq_one hone, one_mul]
    · exact hl.binary hr fun h => absurd h hop

/-- The laws of sums, differences, products and quotients. -/
theorem denotes_simplifyOperation (hl : I.Denotes l a) (hr : I.Denotes r b) (hne : op = .div → b ≠ 0) :
    I.Denotes (simplifyOperation s op l r) (I.applyBinary op a b) := by
  have hstays : I.Denotes (.binary s op l r) (I.applyBinary op a b) := hl.binary hr hne
  cases op with
  | add =>
    rw [simplifyOperation]
    split
    · next hzero =>
      refine hl.of_eq ?_
      rw [applyBinary, hr.eq_zero hzero, add_zero]
    · split
      · next hzero =>
        refine hr.of_eq ?_
        rw [applyBinary, hl.eq_zero hzero, zero_add]
      · exact hstays
  | sub =>
    rw [simplifyOperation]
    split
    · next hzero =>
      refine hl.of_eq ?_
      rw [applyBinary, hr.eq_zero hzero, sub_zero]
    · exact hstays
  | mul => exact denotes_simplifyProduct (by decide) rfl hl hr
  | juxtapose => exact denotes_simplifyProduct (by decide) rfl hl hr
  | div =>
    rw [simplifyOperation]
    split
    · next h =>
      refine hl.of_eq ?_
      rcases Bool.or_eq_true_iff.mp h with hzero | hone
      · rw [applyBinary, hl.eq_zero hzero, zero_div]
      · rw [applyBinary, hr.eq_one hone, div_one]
    · exact hstays
  | pow => exact hstays

/-- **One operation on simplified operands denotes what the operation does.** -/
theorem denotes_simplifyBinary (hI : I.ExtendsLiterals) (hl : I.Denotes l a) (hr : I.Denotes r b)
    (hne : op = .div → b ≠ 0) : I.Denotes (simplifyBinary s op l r) (I.applyBinary op a b) := by
  rw [simplifyBinary]
  split
  · next v w hv hw =>
    cases l <;> cases hv
    cases r <;> cases hw
    refine (denotes_literal _).of_eq ?_
    rw [algebraMap_binary hI, ← hl.value, ← hr.value, value, value]
  · exact denotes_simplifyOperation hl hr hne

/-- So does one operation on a simplified operand. -/
theorem denotes_simplifyUnary (hI : I.ExtendsLiterals) {op : UnaryOp} (h : I.Denotes e a) :
    I.Denotes (simplifyUnary s op e) (I.applyUnary op a) := by
  rw [simplifyUnary]
  split
  · next w hw =>
    obtain ⟨v, hv, hw⟩ := Option.bind_eq_some_iff.mp hw
    cases e <;> cases hv
    refine (denotes_literal w).of_eq ?_
    rw [algebraMap_unary hI hw, ← h.value, value]
  · exact h.unary

/-! ## Whole expressions -/

/-- **The simplified form denotes the value of the expression**, if what comes of a derivative is simplified to what
    denotes the same. -/
theorem denotes_simplifyWith (hI : I.ExtendsLiterals) {again : Expr F → Expr F}
    (hagain : ∀ {d a}, I.Denotes d a → I.Denotes (again d) a) {e : Expr F} (he : I.Defined e) :
    I.Denotes (simplifyWith again e) (I.value e) := by
  induction e with
  | paren s e ih => exact ih he
  | constant s c => exact ⟨rfl, trivial⟩
  | imaginary s => exact ⟨rfl, trivial⟩
  | var s x => exact ⟨rfl, trivial⟩
  | literal s v => exact denotes_literal v
  | binary s op l r ihl ihr =>
    obtain ⟨hne, hl, hr⟩ := he
    exact denotes_simplifyBinary hI (ihl hl) (ihr hr) hne
  | unary s op e ih => exact denotes_simplifyUnary hI (ih he)
  | derivative s e x ih =>
    have hoperand := ih he
    rw [simplifyWith]
    split
    · next d hd =>
      have hcarried := denotes_derive _ (Nat.le_refl _) hd hoperand.defined
      rw [hoperand.value] at hcarried
      exact hagain hcarried
    · exact hoperand.derivative
  | integral s e x ihe ihx =>
    obtain ⟨hvalue, hdefined⟩ := ihe he.1
    obtain ⟨hvaluex, hdefinedx⟩ := ihx he.2
    refine ⟨?_, hdefined, hdefinedx⟩
    rw [simplifyWith, value, hvalue, hvaluex, value]
  | definiteIntegral s e x a b ihe ihx iha ihb =>
    obtain ⟨hvalue, hdefined⟩ := ihe he.1
    obtain ⟨hvaluex, hdefinedx⟩ := ihx he.2.1
    obtain ⟨hvaluea, hdefineda⟩ := iha he.2.2.1
    obtain ⟨hvalueb, hdefinedb⟩ := ihb he.2.2.2
    refine ⟨?_, hdefined, hdefinedx, hdefineda, hdefinedb⟩
    rw [simplifyWith, value, hvalue, hvaluex, hvaluea, hvalueb, value]

/-- **Simplifying keeps the value**, derivatives included: where no divisor in an expression is zero, its simplified
    form has the same value, and no divisor in it is zero either. -/
theorem value_simplify (hI : I.ExtendsLiterals) {e : Expr F} (he : I.Defined e) :
    I.value e.simplify = I.value e ∧ I.Defined e.simplify := by
  have hinner : ∀ {d a}, I.Denotes d a → I.Denotes (simplifyWith id d) a := fun h =>
    (denotes_simplifyWith hI id h.defined).of_eq h.value
  obtain ⟨hvalue, hdefined⟩ := denotes_simplifyWith hI hinner he
  exact ⟨hvalue, hdefined⟩

/-- A derivative that is carried out over a simplified operand, and a factorial. -/
theorem value_simplify_derivative :
    let x : Expr ℚ := .var .nowhere "x"
    let y : Expr ℚ := .var .nowhere "y"
    let quotient : Expr ℚ := .binary .nowhere .div (.binary .nowhere .add x (.literal .nowhere 0)) y
    let e : Expr ℚ := .binary .nowhere .mul (.derivative .nowhere quotient "x")
      (.unary .nowhere .factorial (.literal .nowhere 3))
    let simplified : Expr ℚ := .binary .nowhere .mul
      (.binary .nowhere .div y (.binary .nowhere .pow y (.literal .nowhere 2))) (.literal .nowhere 6)
    e.simplify = simplified ∧ rationalFunctions.Defined e ∧
      rationalFunctions.value simplified = rationalFunctions.value e ∧ rationalFunctions.Defined simplified := by
  intro x y quotient e simplified
  have h : e.simplify = simplified := by decide +kernel
  have he : rationalFunctions.Defined e :=
    ⟨nofun, ⟨fun _ => RationalFunction.var_ne_zero "y", ⟨nofun, trivial, trivial⟩, trivial⟩, trivial⟩
  obtain ⟨hvalue, hdefined⟩ := value_simplify rationalFunctions_extendsLiterals he
  rw [h] at hvalue hdefined
  exact ⟨h, he, hvalue, hdefined⟩

end Interpretation

end Formula
