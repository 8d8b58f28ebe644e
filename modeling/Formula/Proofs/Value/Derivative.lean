import Formula.Expr.Derivative
import Formula.Proofs.Value.RationalFunctions

/-!
# `Formula.Proofs.Value.Derivative` — carrying out derivatives gives the derivative

Differentiating an expression and taking its value is taking its value and applying the derivation. The rules copy
operands, which may have derivatives in them, and a derivative within the operand is differentiated once it has been
carried out; so the induction is on how deeply derivatives are nested, and for each depth on the tree.

## Contents
- `denotes_productRule`, `denotes_quotientRule` — the rules in the field.
- `denotes_derive`, `value_derive` — the value of a derivative.
-/

namespace Formula

namespace Interpretation

open Formula.Expr

variable {F : Type} {K : Type*} [Field F] [Field K] [Algebra F K] {I : Interpretation F K}
variable {s : Span} {x : String} {l r dl dr : Expr F} {a b : K}

/-! ## The rules -/

/-- The rule for a product. -/
theorem denotes_productRule (hl : I.Denotes l a) (hr : I.Denotes r b) (hdl : I.Denotes dl (I.derivation x a))
    (hdr : I.Denotes dr (I.derivation x b)) : I.Denotes (productRule s l r dl dr) (I.derivation x (a * b)) := by
  have hrule : I.Denotes (productRule s l r dl dr) (I.derivation x a * b + a * I.derivation x b) :=
    (hdl.mul hr).add (hl.mul hdr)
  refine hrule.of_eq ?_
  rw [Derivation.leibniz, smul_eq_mul, smul_eq_mul]
  ring

variable [Arithmetic F] [ExactArithmetic F]

/-- The rule for a quotient brings in a divisor, the square of the one that is there. -/
theorem denotes_quotientRule (hl : I.Denotes l a) (hr : I.Denotes r b) (hdl : I.Denotes dl (I.derivation x a))
    (hdr : I.Denotes dr (I.derivation x b)) (hb : b ≠ 0) :
    I.Denotes (quotientRule s l r dl dr) (I.derivation x (a / b)) := by
  have htwo : I.Denotes (.literal s Arithmetic.two) 2 := by
    refine (denotes_literal Arithmetic.two).of_eq ?_
    rw [RingArithmetic.two_eq, map_ofNat]
  have hpower : I.Denotes (.binary s .pow r (.literal s Arithmetic.two)) (I.applyBinary .pow b 2) :=
    hr.binary htwo nofun
  have hsquare : I.Denotes (.binary s .pow r (.literal s Arithmetic.two)) (b ^ 2) := hpower.of_eq (I.pow_two b)
  have hrule : I.Denotes (quotientRule s l r dl dr) ((I.derivation x a * b - a * I.derivation x b) / b ^ 2) :=
    ((hdl.mul hr).sub (hl.mul hdr)).div hsquare (pow_ne_zero 2 hb)
  refine hrule.of_eq ?_
  rw [Derivation.leibniz_div, smul_eq_mul, smul_eq_mul, smul_eq_mul, div_eq_inv_mul, inv_pow]
  ring

/-- What does not change with a variable has the derivative zero. -/
theorem denotes_zero (h : I.derivation x a = 0) : I.Denotes (.literal s Arithmetic.zero) (I.derivation x a) := by
  refine (denotes_literal Arithmetic.zero).of_eq ?_
  rw [h, RingArithmetic.zero_eq, map_zero]

/-- The variable itself has the derivative one, and any other has zero. -/
theorem denotes_derivative_var (y : String) :
    I.Denotes (.literal s (if y = x then Arithmetic.one else Arithmetic.zero)) (I.derivation x (I.var y)) := by
  by_cases hy : y = x
  · rw [if_pos hy, hy, I.derivation_var_self]
    refine (denotes_literal Arithmetic.one).of_eq ?_
    rw [RingArithmetic.one_eq, map_one]
  · rw [if_neg hy]
    exact denotes_zero (I.derivation_var_of_ne hy)

/-- An operation whose operands have their derivatives. -/
theorem denotes_derive_binary {op : BinaryOp} {d : Expr F} (hd : (binary s op l r).derive x = .ok d)
    (hl : I.Denotes l a) (hr : I.Denotes r b) (hne : op = .div → b ≠ 0)
    (hdl : ∀ dl, l.derive x = .ok dl → I.Denotes dl (I.derivation x a))
    (hdr : ∀ dr, r.derive x = .ok dr → I.Denotes dr (I.derivation x b)) :
    I.Denotes d (I.derivation x (I.applyBinary op a b)) := by
  obtain ⟨dl, dr, hderl, hderr, hd⟩ := derive_binary_ok hd
  have hdl := hdl dl hderl
  have hdr := hdr dr hderr
  cases op with
  | add =>
    cases hd
    exact (hdl.add hdr).of_eq (map_add _ a b).symm
  | sub =>
    cases hd
    exact (hdl.sub hdr).of_eq (map_sub _ a b).symm
  | mul =>
    cases hd
    exact denotes_productRule hl hr hdl hdr
  | juxtapose =>
    cases hd
    exact denotes_productRule hl hr hdl hdr
  | div =>
    cases hd
    exact denotes_quotientRule hl hr hdl hdr (hne rfl)
  | pow => cases hd

/-! ## Whole expressions -/

/-- **The derivative of an expression denotes the derivative of its value**, by induction on how deeply derivatives are
    nested, and for each depth on the tree. -/
theorem denotes_derive (n : Nat) : ∀ {e d : Expr F} {x : String}, e.derivativeDepth ≤ n → e.derive x = .ok d →
    I.Defined e → I.Denotes d (I.derivation x (I.value e)) := by
  induction n using Nat.strong_induction_on with
  | _ n ih =>
  intro e
  induction e with
  | paren s e ihe =>
    intro d x hn hd he
    rw [derive_paren] at hd
    exact ihe hn hd he
  | constant s c =>
    intro d x _ hd _
    obtain rfl := Except.ok.inj hd
    exact denotes_zero (I.derivation_constant x c)
  | imaginary s =>
    intro d x _ hd _
    obtain rfl := Except.ok.inj hd
    exact denotes_zero (I.derivation_imaginary x)
  | var s y =>
    intro d x _ hd _
    obtain rfl := Except.ok.inj hd
    exact denotes_derivative_var y
  | literal s v =>
    intro d x _ hd _
    obtain rfl := Except.ok.inj hd
    exact denotes_zero (Derivation.map_algebraMap _ v)
  | binary s op l r ihl ihr =>
    intro d x hn hd he
    obtain ⟨hne, hl, hr⟩ := he
    simp only [derivativeDepth, Nat.max_le] at hn
    exact denotes_derive_binary hd ⟨rfl, hl⟩ ⟨rfl, hr⟩ hne (fun dl hdl => ihl hn.1 hdl hl) fun dr hdr => ihr hn.2 hdr hr
  | unary s op e ihe =>
    intro d x hn hd he
    cases op with
    | neg =>
      obtain ⟨de, hde, rfl⟩ := derive_neg_ok hd
      exact (ihe hn hde he).unary.of_eq (map_neg _ _).symm
    | factorial =>
      rw [derive_factorial] at hd
      cases hd
  | derivative s e y ihe =>
    intro d x hn hd he
    -- what comes of the inner derivative is no part of the tree, but derivatives are nested less deep in it
    obtain ⟨de, hde, hd⟩ := derive_derivative_ok hd
    have hdepth : e.derivativeDepth < n := hn
    have hinner := ih e.derivativeDepth hdepth (Nat.le_refl _) hde he
    have houter := ih e.derivativeDepth hdepth (derivativeDepth_derive hde) hd hinner.defined
    exact houter.of_eq (congrArg (I.derivation x) hinner.value)
  | integral s e y ihe ihy =>
    intro d x _ hd _
    rw [derive_integral] at hd
    cases hd
  | definiteIntegral s e y a b ihe ihy iha ihb =>
    intro d x _ hd _
    rw [derive_definiteIntegral] at hd
    cases hd

/-- **The derivative that is carried out is the derivative**: where no divisor in an expression is zero, its derivative
    by a variable has the value that differentiation by the variable gives, and no divisor in it is zero. -/
theorem value_derive {e d : Expr F} {x : String} (h : e.derive x = .ok d) (he : I.Defined e) :
    I.value d = I.derivation x (I.value e) ∧ I.Defined d := by
  obtain ⟨hvalue, hdefined⟩ := denotes_derive e.derivativeDepth (Nat.le_refl _) h he
  exact ⟨hvalue, hdefined⟩

/-- The derivative of a quotient of a derivative by a variable. -/
theorem value_derive_quotient :
    let x : Expr ℚ := .var .nowhere "x"
    let y : Expr ℚ := .var .nowhere "y"
    let zero : Expr ℚ := .literal .nowhere 0
    let one : Expr ℚ := .literal .nowhere 1
    let e : Expr ℚ := .binary .nowhere .div (.derivative .nowhere (.binary .nowhere .mul x y) "y") y
    let d : Expr ℚ := quotientRule .nowhere (.derivative .nowhere (.binary .nowhere .mul x y) "y") y
      (.binary .nowhere .add (productRule .nowhere zero y zero one) (productRule .nowhere x one zero zero)) one
    e.derive "y" = .ok d ∧ rationalFunctions.Defined e ∧
      rationalFunctions.value d = rationalFunctions.derivation "y" (rationalFunctions.value e) ∧
      rationalFunctions.Defined d := by
  intro x y zero one e d
  have h : e.derive "y" = .ok d := by rfl
  have he : rationalFunctions.Defined e :=
    ⟨fun _ => RationalFunction.var_ne_zero "y", ⟨nofun, trivial, trivial⟩, trivial⟩
  obtain ⟨hvalue, hdefined⟩ := value_derive h he
  exact ⟨h, he, hvalue, hdefined⟩

end Interpretation

end Formula
