import Mathlib
import Formula.Proofs.Value.Interpretation

/-!
# `Formula.Proofs.Value.RationalFunctions` — expressions as rational functions

Expressions over the rational numbers stand for rational functions with complex coefficients, in all variables at once,
and differentiation by a variable is the partial derivative. A partial derivative is carried over from polynomials by
the dual numbers: a polynomial and its derivative make a dual number, which is a unit unless the polynomial is zero, so
quotients of polynomials have one as well.

## Contents
- `Arithmetic ℚ`, `RingArithmetic ℚ`, `ExactArithmetic ℚ` — rational literals.
- `RationalFunction.partialDerivative` — differentiation of rational functions.
- `ExactArithmetic.power`, `ExactArithmetic.factorial` — powers by whole numbers and factorials of natural numbers.
- `rationalFunctions` — the interpretation; `rationalFunctions_extendsLiterals`.
-/

namespace Formula

open MvPolynomial TrivSqZeroExt

/-! ## Literals -/

/-- Rational literals. Powers have whole exponents, and only natural numbers have a factorial. -/
instance : Arithmetic ℚ where
  zero := 0
  one := 1
  two := 2
  isZero a := a == 0
  isOne a := a == 1
  binary
    | .add, a, b => a + b
    | .sub, a, b => a - b
    | .mul, a, b => a * b
    | .juxtapose, a, b => a * b
    | .div, a, b => a / b
    | .pow, a, b => if b.den = 1 then a ^ b.num else 0
  unary
    | .neg, a => some (-a)
    | .factorial, a => if a.num.toNat = a then some a.num.toNat.factorial else none

instance : RingArithmetic ℚ where
  zero_eq := rfl
  one_eq := rfl
  two_eq := rfl
  isZero_iff _ := beq_iff_eq
  isOne_iff _ := beq_iff_eq
  binary_add _ _ := rfl
  binary_sub _ _ := rfl
  binary_mul _ _ := rfl
  binary_juxtapose _ _ := rfl
  unary_neg _ := rfl

instance : ExactArithmetic ℚ where
  binary_div _ _ := rfl

/-! ## Powers and factorials -/

namespace ExactArithmetic

variable {K : Type*} [Field K] [CharZero K]

open Classical in
/-- A power by a whole number. -/
noncomputable def power (a b : K) : K := if h : ∃ n : ℤ, (n : K) = b then a ^ h.choose else 0

theorem power_intCast (a : K) (n : ℤ) : power a n = a ^ n := by
  have h : ∃ m : ℤ, (m : K) = n := ⟨n, rfl⟩
  rw [power, dif_pos h, Int.cast_injective h.choose_spec]

open Classical in
/-- The factorial of a natural number. -/
noncomputable def factorial (a : K) : K := if h : ∃ n : ℕ, (n : K) = a then h.choose.factorial else 0

theorem factorial_natCast (n : ℕ) : factorial (n : K) = n.factorial := by
  have h : ∃ m : ℕ, (m : K) = n := ⟨n, rfl⟩
  rw [factorial, dif_pos h, Nat.cast_injective h.choose_spec]

theorem power_algebraMap (a b : ℚ) :
    power (algebraMap ℚ K a) (algebraMap ℚ K b) = algebraMap ℚ K (Arithmetic.binary .pow a b) := by
  show _ = algebraMap ℚ K (if b.den = 1 then a ^ b.num else 0)
  by_cases hb : b.den = 1
  · have hnum : algebraMap ℚ K b = (b.num : K) := by
      conv_lhs => rw [← Rat.coe_int_num_of_den_eq_one hb]
      exact map_intCast _ _
    rw [if_pos hb, hnum, power_intCast, map_zpow₀]
  · have hnone : ¬ ∃ n : ℤ, (n : K) = algebraMap ℚ K b := by
      rintro ⟨n, hn⟩
      rw [← map_intCast (algebraMap ℚ K)] at hn
      exact hb (by rw [← (algebraMap ℚ K).injective hn, Rat.den_intCast])
    rw [if_neg hb, power, dif_neg hnone, map_zero]

theorem factorial_algebraMap {a b : ℚ} (h : Arithmetic.unary .factorial a = some b) :
    factorial (algebraMap ℚ K a) = algebraMap ℚ K b := by
  change (if (a.num.toNat : ℚ) = a then some (a.num.toNat.factorial : ℚ) else none) = some b at h
  split at h
  · next ha =>
    obtain rfl := Option.some.inj h
    rw [← ha, map_natCast, map_natCast, factorial_natCast, ha]
  · cases h

end ExactArithmetic

/-! ## Partial derivatives -/

/-- Rational functions with complex coefficients, in all variables at once. -/
def RationalFunction : Type := FractionRing (MvPolynomial String ℂ)

namespace RationalFunction

noncomputable instance : Field RationalFunction := inferInstanceAs (Field (FractionRing (MvPolynomial String ℂ)))

noncomputable instance : Algebra (MvPolynomial String ℂ) RationalFunction :=
  inferInstanceAs (Algebra (MvPolynomial String ℂ) (FractionRing (MvPolynomial String ℂ)))

noncomputable instance : Algebra ℂ RationalFunction :=
  inferInstanceAs (Algebra ℂ (FractionRing (MvPolynomial String ℂ)))

instance : IsScalarTower ℂ (MvPolynomial String ℂ) RationalFunction :=
  inferInstanceAs (IsScalarTower ℂ (MvPolynomial String ℂ) (FractionRing (MvPolynomial String ℂ)))

instance : IsFractionRing (MvPolynomial String ℂ) RationalFunction :=
  inferInstanceAs (IsFractionRing (MvPolynomial String ℂ) (FractionRing (MvPolynomial String ℂ)))

instance : CharZero RationalFunction := IsFractionRing.charZero (MvPolynomial String ℂ)

/-- A variable as a rational function. -/
noncomputable def var (x : String) : RationalFunction := algebraMap (MvPolynomial String ℂ) RationalFunction (X x)

theorem var_ne_zero (x : String) : var x ≠ 0 :=
  (map_ne_zero_iff _ (IsFractionRing.injective (MvPolynomial String ℂ) RationalFunction)).mpr (X_ne_zero x)

/-- A polynomial and its partial derivative by a variable, as a dual number. -/
noncomputable def dual (x : String) : MvPolynomial String ℂ →ₐ[ℂ] DualNumber RationalFunction :=
  aeval fun y => inl (var y) + inr (if y = x then 1 else 0)

theorem fst_dual (x : String) (p : MvPolynomial String ℂ) : (dual x p).fst = algebraMap _ RationalFunction p := by
  have h : (fstHom ℂ RationalFunction RationalFunction).comp (dual x) = Algebra.algHom ℂ _ RationalFunction := by
    refine algHom_ext fun y => ?_
    show (dual x (X y)).fst = var y
    rw [dual, aeval_X, fst_add, fst_inl, fst_inr, add_zero]
  exact DFunLike.congr_fun h p

theorem isUnit_dual (x : String) (p : nonZeroDivisors (MvPolynomial String ℂ)) : IsUnit (dual x p) := by
  rw [isUnit_iff_isUnit_fst, fst_dual]
  exact IsLocalization.map_units RationalFunction p

/-- A rational function and its partial derivative by a variable, as a dual number. -/
noncomputable def dualQuotient (x : String) : RationalFunction →ₐ[ℂ] DualNumber RationalFunction :=
  IsLocalization.liftAlgHom (isUnit_dual x)

theorem dualQuotient_algebraMap (x : String) (p : MvPolynomial String ℂ) :
    dualQuotient x (algebraMap _ RationalFunction p) = dual x p := by
  rw [dualQuotient, IsLocalization.liftAlgHom_apply]
  exact IsLocalization.lift_eq (isUnit_dual x) p

theorem fst_dualQuotient (x : String) (f : RationalFunction) : (dualQuotient x f).fst = f := by
  have h : (fstHom ℂ RationalFunction RationalFunction).comp (dualQuotient x) = AlgHom.id ℂ RationalFunction := by
    refine IsLocalization.algHom_ext (nonZeroDivisors (MvPolynomial String ℂ)) (algHom_ext fun y => ?_)
    show (dualQuotient x (algebraMap _ RationalFunction (X y))).fst = algebraMap _ RationalFunction (X y)
    rw [dualQuotient_algebraMap, fst_dual]
  exact DFunLike.congr_fun h f

/-- The partial derivative by a variable. -/
noncomputable def partialDerivative (x : String) : Derivation ℂ RationalFunction RationalFunction :=
  .mk' ((sndHom RationalFunction RationalFunction).restrictScalars ℂ ∘ₗ (dualQuotient x).toLinearMap) fun f g => by
    show (dualQuotient x (f * g)).snd = f • (dualQuotient x g).snd + g • (dualQuotient x f).snd
    rw [map_mul, DualNumber.snd_mul, fst_dualQuotient, fst_dualQuotient, smul_eq_mul, smul_eq_mul, mul_comm g]

theorem partialDerivative_var (x y : String) : partialDerivative x (var y) = if y = x then 1 else 0 := by
  show (dualQuotient x (algebraMap _ RationalFunction (X y))).snd = _
  rw [dualQuotient_algebraMap, dual, aeval_X, snd_add, snd_inl, snd_inr, zero_add]

/-- The number that a constant stands for. -/
noncomputable def ofConstant (c : Constant) : ℂ :=
  if c.name = "pi" then Real.pi else if c.name = "e" then Complex.exp 1 else Real.goldenRatio

end RationalFunction

open ExactArithmetic RationalFunction

/-- **Expressions as rational functions.** -/
noncomputable def rationalFunctions : Interpretation ℚ RationalFunction where
  var := var
  constant c := algebraMap ℂ RationalFunction (ofConstant c)
  imaginary := algebraMap ℂ RationalFunction Complex.I
  pow := power
  factorial := factorial
  integral _ _ := 0
  definiteIntegral _ _ _ _ := 0
  derivation x := (partialDerivative x).restrictScalars ℚ
  pow_two a := by exact_mod_cast power_intCast a 2
  derivation_var_self x := (partialDerivative_var x x).trans (if_pos rfl)
  derivation_var_of_ne h := (partialDerivative_var _ _).trans (if_neg h)
  derivation_constant x _ := (partialDerivative x).map_algebraMap _
  derivation_imaginary x := (partialDerivative x).map_algebraMap _

theorem rationalFunctions_extendsLiterals : rationalFunctions.ExtendsLiterals where
  pow := power_algebraMap
  factorial := factorial_algebraMap

end Formula
