import Formula.Expr.Simplify
import Formula.Proofs.Derivative.Existence
import Formula.Proofs.Value.RationalFunctions

/-!
# `Formula.Proofs.Value.AbsentVariable` — differentiating by a variable that does not occur

The derivative of an expression by a variable that does not occur in it is a tree of zeros and copies of operands, and
it is simplified to the literal zero: a product with zero is zero whatever the other factor, and a quotient of zero is
zero unless the divisor is a literal zero as well.

## Contents
- `FieldArithmetic` — literals as field elements, with nothing said of division by zero.
- `isZero_simplifyBinary_add` … `isZero_simplifyBinary_div` — operations on zeros come to zero.
- `Derives.isZero_simplify` — the derivative by an absent variable is simplified to zero.
- `simplify_derive_of_absent` — the same, of the literal.
-/

namespace Formula

/-- **Field arithmetic**: as far as the divisor is not zero, quotients are those of the field, too. Of powers only the
    second one is asked for, which is the square. -/
class FieldArithmetic (F : Type) [Field F] [Arithmetic F] : Prop extends RingArithmetic F where
  binary_div (a : F) {b : F} : b ≠ 0 → Arithmetic.binary .div a b = a / b
  binary_square (a : F) : Arithmetic.binary .pow a 2 = a ^ 2

instance : FieldArithmetic ℚ where
  binary_div _ _ _ := rfl
  binary_square a := zpow_natCast a 2

namespace Expr

variable {F : Type} [Field F] [Arithmetic F] [FieldArithmetic F] {s : Span} {l r e d : Expr F} {x : String}

open RingArithmetic FieldArithmetic

/-! ## Operations on zeros -/

theorem isZero_literal {v : F} : (literal s v).isZero = true ↔ v = 0 := isZero_iff v

theorem isZero_iff_eq : e.isZero = true ↔ ∃ s, e = literal s 0 := by
  constructor
  · intro h
    cases e with
    | literal s v => exact ⟨s, congrArg (literal s) (isZero_literal.mp h)⟩
    | _ => cases h
  · rintro ⟨s, rfl⟩
    exact isZero_literal.mpr rfl

theorem literal?_of_isZero (h : e.isZero = true) : e.literal? = some 0 := by
  obtain ⟨s, rfl⟩ := isZero_iff_eq.mp h
  rfl

/-- What is not zero is no literal, or another one. -/
theorem ne_zero_of_literal? {v : F} (he : e.isZero = false) (hv : e.literal? = some v) : v ≠ 0 := by
  rintro rfl
  rw [isZero, hv] at he
  exact Bool.false_ne_true (he.symm.trans ((isZero_iff 0).mpr rfl))

/-- Zero is not one, so a factor of zero is not what makes the other factor stay. -/
theorem isOne_of_isZero (h : e.isZero = true) : e.isOne = false := by
  rw [isOne, literal?_of_isZero h, ← Bool.not_eq_true]
  exact fun hone => zero_ne_one ((isOne_iff 0).mp hone)

theorem isZero_simplifyBinary_add (hl : l.isZero = true) (hr : r.isZero = true) :
    (simplifyBinary s .add l r).isZero = true := by
  rw [simplifyBinary_literals (literal?_of_isZero hl) (literal?_of_isZero hr), isZero_literal, binary_add, add_zero]

theorem isZero_simplifyBinary_sub (hl : l.isZero = true) (hr : r.isZero = true) :
    (simplifyBinary s .sub l r).isZero = true := by
  rw [simplifyBinary_literals (literal?_of_isZero hl) (literal?_of_isZero hr), isZero_literal, binary_sub, sub_zero]

theorem isZero_simplifyUnary_neg (he : e.isZero = true) : (simplifyUnary s .neg e).isZero = true := by
  rw [simplifyUnary, literal?_of_isZero he, Option.bind_some, unary_neg]
  exact isZero_literal.mpr neg_zero

/-- A product with zero is zero, whatever stands on the right. -/
theorem isZero_simplifyBinary_mul_left (hl : l.isZero = true) : (simplifyBinary s .mul l r).isZero = true := by
  cases hr : r.literal? with
  | some v => rw [simplifyBinary_literals (literal?_of_isZero hl) hr, isZero_literal, binary_mul, zero_mul]
  | none =>
    rw [simplifyBinary_eq_simplifyOperation (Or.inr hr), simplifyOperation, simplifyProduct, hl]
    exact hl

/-- And whatever stands on the left. -/
theorem isZero_simplifyBinary_mul_right (hr : r.isZero = true) : (simplifyBinary s .mul l r).isZero = true := by
  cases hl : l.literal? with
  | some v => rw [simplifyBinary_literals hl (literal?_of_isZero hr), isZero_literal, binary_mul, mul_zero]
  | none =>
    have hzero : l.isZero = false := by rw [isZero, hl, Option.any_none]
    rw [simplifyBinary_eq_simplifyOperation (Or.inl hl), simplifyOperation, simplifyProduct, hzero, isOne_of_isZero hr, hr]
    exact hr

/-- A quotient of zero is zero, unless the divisor is a zero as well. -/
theorem isZero_simplifyBinary_div (hl : l.isZero = true) (hr : r.isZero = false) :
    (simplifyBinary s .div l r).isZero = true := by
  cases hv : r.literal? with
  | some v =>
    rw [simplifyBinary_literals (literal?_of_isZero hl) hv, isZero_literal, binary_div 0 (ne_zero_of_literal? hr hv),
      zero_div]
  | none =>
    rw [simplifyBinary_eq_simplifyOperation (Or.inr hv), simplifyOperation, hl]
    exact hl

/-- The square of what is not zero is not zero. -/
theorem isZero_simplifyBinary_square (hr : r.isZero = false) :
    (simplifyBinary s .pow r (literal s Arithmetic.two)).isZero = false := by
  cases hv : r.literal? with
  | some v =>
    rw [simplifyBinary_literals hv rfl, two_eq, binary_square, ← Bool.not_eq_true, isZero_literal]
    exact pow_ne_zero 2 (ne_zero_of_literal? hr hv)
  | none =>
    rw [simplifyBinary_eq_simplifyOperation (Or.inl hv)]
    rfl

/-! ## Derivatives -/

/-- The rule for a product whose factors have the derivative zero. -/
theorem isZero_simplify_productRule {dl dr : Expr F} (hdl : dl.simplify.isZero = true) (hdr : dr.simplify.isZero = true) :
    (productRule s l r dl dr).simplify.isZero = true := by
  rw [productRule, simplify_binary, simplify_binary, simplify_binary]
  exact isZero_simplifyBinary_add (isZero_simplifyBinary_mul_left hdl) (isZero_simplifyBinary_mul_right hdr)

/-- The rule for a quotient brings in the square of the divisor. -/
theorem isZero_simplify_quotientRule {dl dr : Expr F} (hdl : dl.simplify.isZero = true)
    (hdr : dr.simplify.isZero = true) (hr : r.simplify.isZero = false) :
    (quotientRule s l r dl dr).simplify.isZero = true := by
  rw [quotientRule, simplify_binary, simplify_binary, simplify_binary, simplify_binary, simplify_binary]
  exact isZero_simplifyBinary_div
    (isZero_simplifyBinary_sub (isZero_simplifyBinary_mul_left hdl) (isZero_simplifyBinary_mul_right hdr))
    (isZero_simplifyBinary_square hr)

/-- A quotient whose divisor is simplified to zero. -/
def DividesByZero : Expr F → Prop
  | binary _ op _ r => op = .div ∧ r.simplify.isZero = true
  | _ => False

/-- **The derivative by a variable that does not occur is simplified to zero.** What comes of a derivative within is
    differentiated by the variable that does not occur there either; and it has no quotients, or there would be no second
    derivative. -/
theorem Derives.isZero_simplify (h : Derives e x d) (habsent : e.Avoids (IsVariable x)) (hdiv : e.Avoids DividesByZero) :
    d.simplify.isZero = true := by
  have hzero : ∀ s : Span, (Expr.literal s (Arithmetic.zero : F)).isZero = true := fun s => isZero_literal.mpr zero_eq
  induction h with
  | paren s h ih => exact ih habsent.2 hdiv.2
  | constant s c x => exact hzero s
  | imaginary s x => exact hzero s
  | var s y x =>
    have hne : ¬ y = x := habsent
    rw [if_neg hne]
    exact hzero s
  | literal s v x => exact hzero s
  | sum s hop hl hr ihl ihr =>
    have hdl := ihl habsent.2.1 hdiv.2.1
    have hdr := ihr habsent.2.2 hdiv.2.2
    rcases hop with rfl | rfl
    · exact isZero_simplifyBinary_add hdl hdr
    · exact isZero_simplifyBinary_sub hdl hdr
  | product s hop hl hr ihl ihr =>
    exact isZero_simplify_productRule (ihl habsent.2.1 hdiv.2.1) (ihr habsent.2.2 hdiv.2.2)
  | quotient s hl hr ihl ihr =>
    have hdivisor := Bool.eq_false_iff.mpr fun h => hdiv.1 ⟨rfl, h⟩
    exact isZero_simplify_quotientRule (ihl habsent.2.1 hdiv.2.1) (ihr habsent.2.2 hdiv.2.2) hdivisor
  | negation s h ih => exact isZero_simplifyUnary_neg (ih habsent.2 hdiv.2)
  | derivative s inner outer ihinner ihouter =>
    have hquotient := inner.avoids_isQuotient outer.avoids_lacksRule
    obtain ⟨habsent', hquotient'⟩ := inner.avoids (foreign_isVariable _) habsent.2 hquotient
    refine ihouter habsent' (hquotient'.mono fun n hn => ?_)
    cases n with
    | binary s op l r => exact hn.1
    | _ => exact hn

/-- **Differentiating by a variable that does not occur gives zero**: if an expression without the variable has a
    derivative by it, and no divisor in the expression is simplified to zero, the simplified derivative is the literal
    zero. -/
theorem simplify_derive_of_absent {e d : Expr F} {x : String} (h : e.derive x = .ok d)
    (habsent : ∀ s, var s x ∉ e.subtrees)
    (hdiv : ∀ s l r, binary s .div l r ∈ e.subtrees → ∀ s', r.simplify ≠ literal s' 0) :
    ∃ s, d.simplify = literal s 0 := by
  have hvar : e.Avoids (IsVariable x) := avoids_iff.mpr fun n hn hx => by
    cases n with
    | var s y => exact habsent s (hx ▸ hn)
    | _ => exact hx
  have hdivisors : e.Avoids DividesByZero := avoids_iff.mpr fun n hn hzero => by
    cases n with
    | binary s op l r =>
      obtain ⟨rfl, hzero⟩ := hzero
      obtain ⟨s', hs'⟩ := isZero_iff_eq.mp hzero
      exact hdiv s l r hn s' hs'
    | _ => exact hzero
  exact isZero_iff_eq.mp ((derives_iff.mpr h).isZero_simplify hvar hdivisors)

/-- A quotient by a variable, of a derivative by another one, differentiated by a third. -/
theorem simplify_derive_of_absent_quotient :
    let x : Expr ℚ := .var .nowhere "x"
    let y : Expr ℚ := .var .nowhere "y"
    let e : Expr ℚ := .binary .nowhere .div (.derivative .nowhere (.binary .nowhere .mul x y) "x") y
    ∃ d, e.derive "z" = .ok d ∧ (∀ s, var s "z" ∉ e.subtrees) ∧
      (∀ s l r, binary s .div l r ∈ e.subtrees → ∀ s', r.simplify ≠ literal s' 0) ∧
      ∃ s, d.simplify = literal s 0 := by
  intro x y e
  have habsent : ∀ s, var s "z" ∉ e.subtrees := by simp [e, x, y, subtrees]
  have hdiv : ∀ s l r, binary s .div l r ∈ e.subtrees → ∀ s', r.simplify ≠ literal s' 0 := by
    intro s l r hn s' hs'
    obtain ⟨-, -, rfl⟩ : s = .nowhere ∧ l = .derivative .nowhere (.binary .nowhere .mul x y) "x" ∧ r = y := by
      simpa [e, x, y, subtrees] using hn
    cases hs'
  exact ⟨_, rfl, habsent, hdiv, simplify_derive_of_absent rfl habsent hdiv⟩

end Expr

end Formula
