import Mathlib.RingTheory.Derivation.Basic
import Formula.Expr.Basic

/-!
# `Formula.Proofs.Value.Interpretation` — expressions as elements of a field

With exact numbers for literals an expression has a value: an element of a field that extends the literals and has a
derivation for each variable. Nothing is asked of powers but that the second one is the square, and nothing at all of
factorials and integrals.

## Contents
- `RingArithmetic`, `ExactArithmetic` — literals that are the elements of a field.
- `Interpretation` — what variables, constants, derivatives and the remaining operators stand for.
- `Interpretation.value`, `Interpretation.Defined` — the value of an expression, and whether no divisor in it is zero.
- `Interpretation.Denotes` — both at once, with one lemma for each way in which an expression is built.
- `Interpretation.ExtendsLiterals` — powers and factorials of literals are what arithmetic makes of them.
-/

namespace Formula

/-- **Ring arithmetic**: literals are the elements of a field, and sums, differences, products and opposites of them are
    those of the field. Quotients, powers and factorials are left open. -/
class RingArithmetic (F : Type) [Field F] [Arithmetic F] : Prop where
  zero_eq : (Arithmetic.zero : F) = 0
  one_eq : (Arithmetic.one : F) = 1
  two_eq : (Arithmetic.two : F) = 2
  isZero_iff (a : F) : Arithmetic.isZero a = true ↔ a = 0
  isOne_iff (a : F) : Arithmetic.isOne a = true ↔ a = 1
  binary_add (a b : F) : Arithmetic.binary .add a b = a + b
  binary_sub (a b : F) : Arithmetic.binary .sub a b = a - b
  binary_mul (a b : F) : Arithmetic.binary .mul a b = a * b
  binary_juxtapose (a b : F) : Arithmetic.binary .juxtapose a b = a * b
  unary_neg (a : F) : Arithmetic.unary .neg a = some (-a)

/-- **Exact arithmetic**: quotients are those of the field, too. Powers and factorials are left open. -/
class ExactArithmetic (F : Type) [Field F] [Arithmetic F] : Prop extends RingArithmetic F where
  binary_div (a b : F) : Arithmetic.binary .div a b = a / b

/-- **An interpretation of expressions** in a field `K` that extends the literals, which are those of a field `F`.

    A derivation is additive, obeys the product rule and is zero on the literals. -/
structure Interpretation (F : Type) (K : Type*) [Field F] [Field K] [Algebra F K] where
  var : String → K
  constant : Constant → K
  imaginary : K
  pow : K → K → K
  factorial : K → K
  /-- An integral by its integrand and the variable. -/
  integral : K → K → K
  /-- An integral by its integrand, the variable and the bounds. -/
  definiteIntegral : K → K → K → K → K
  /-- Differentiation by a variable. -/
  derivation : String → Derivation F K K
  pow_two (a : K) : pow a 2 = a ^ 2
  derivation_var_self (x : String) : derivation x (var x) = 1
  derivation_var_of_ne {x y : String} : y ≠ x → derivation x (var y) = 0
  derivation_constant (x : String) (c : Constant) : derivation x (constant c) = 0
  derivation_imaginary (x : String) : derivation x imaginary = 0

namespace Interpretation

variable {F : Type} {K : Type*} [Field F] [Field K] [Algebra F K] (I : Interpretation F K)

/-- What a binary operator does to values. -/
def applyBinary : BinaryOp → K → K → K
  | .add, a, b => a + b
  | .sub, a, b => a - b
  | .mul, a, b => a * b
  | .juxtapose, a, b => a * b
  | .div, a, b => a / b
  | .pow, a, b => I.pow a b

/-- What a unary operator does to a value. -/
def applyUnary : UnaryOp → K → K
  | .neg, a => -a
  | .factorial, a => I.factorial a

/-- The value of an expression. -/
def value : Expr F → K
  | .paren _ e => value e
  | .constant _ c => I.constant c
  | .imaginary _ => I.imaginary
  | .var _ x => I.var x
  | .literal _ v => algebraMap F K v
  | .binary _ op l r => I.applyBinary op (value l) (value r)
  | .unary _ op e => I.applyUnary op (value e)
  | .derivative _ e x => I.derivation x (value e)
  | .integral _ e x => I.integral (value e) (value x)
  | .definiteIntegral _ e x a b => I.definiteIntegral (value e) (value x) (value a) (value b)

/-- **No divisor that occurs in an expression has the value zero.** -/
def Defined : Expr F → Prop
  | .paren _ e => Defined e
  | .constant _ _ => True
  | .imaginary _ => True
  | .var _ _ => True
  | .literal _ _ => True
  | .binary _ op l r => (op = .div → I.value r ≠ 0) ∧ Defined l ∧ Defined r
  | .unary _ _ e => Defined e
  | .derivative _ e _ => Defined e
  | .integral _ e x => Defined e ∧ Defined x
  | .definiteIntegral _ e x a b => Defined e ∧ Defined x ∧ Defined a ∧ Defined b

/-- **An expression denotes a value**: it has the value, and no divisor in it is zero. -/
structure Denotes (e : Expr F) (a : K) : Prop where
  value : I.value e = a
  defined : I.Defined e

variable {I} {s : Span} {x : String} {e l r : Expr F} {a b : K}

theorem Denotes.of_eq (h : I.Denotes e a) (hab : a = b) : I.Denotes e b := hab ▸ h

theorem denotes_literal (v : F) : I.Denotes (.literal s v) (algebraMap F K v) := ⟨rfl, trivial⟩

theorem Denotes.binary {op : BinaryOp} (hl : I.Denotes l a) (hr : I.Denotes r b) (hne : op = .div → b ≠ 0) :
    I.Denotes (.binary s op l r) (I.applyBinary op a b) where
  value := by rw [← hl.value, ← hr.value, Interpretation.value]
  defined := by
    rw [← hr.value] at hne
    exact ⟨hne, hl.defined, hr.defined⟩

theorem Denotes.add (hl : I.Denotes l a) (hr : I.Denotes r b) : I.Denotes (.binary s .add l r) (a + b) :=
  hl.binary hr nofun

theorem Denotes.sub (hl : I.Denotes l a) (hr : I.Denotes r b) : I.Denotes (.binary s .sub l r) (a - b) :=
  hl.binary hr nofun

theorem Denotes.mul (hl : I.Denotes l a) (hr : I.Denotes r b) : I.Denotes (.binary s .mul l r) (a * b) :=
  hl.binary hr nofun

theorem Denotes.div (hl : I.Denotes l a) (hr : I.Denotes r b) (hb : b ≠ 0) : I.Denotes (.binary s .div l r) (a / b) :=
  hl.binary hr fun _ => hb

theorem Denotes.unary {op : UnaryOp} (h : I.Denotes e a) : I.Denotes (.unary s op e) (I.applyUnary op a) where
  value := by rw [← h.value, Interpretation.value]
  defined := h.defined

theorem Denotes.derivative (h : I.Denotes e a) : I.Denotes (.derivative s e x) (I.derivation x a) where
  value := by rw [← h.value, Interpretation.value]
  defined := h.defined

variable (I)

/-- Powers and factorials of literals are the literals that arithmetic makes of them. -/
structure ExtendsLiterals [Arithmetic F] : Prop where
  pow (a b : F) : I.pow (algebraMap F K a) (algebraMap F K b) = algebraMap F K (Arithmetic.binary .pow a b)
  factorial {a b : F} :
    Arithmetic.unary .factorial a = some b → I.factorial (algebraMap F K a) = algebraMap F K b

end Interpretation

end Formula
