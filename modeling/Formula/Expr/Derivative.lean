import Formula.Expr.Basic

/-!
# `Formula.Expr.Derivative` — carrying out derivatives

Sums, differences, products, quotients and negations are differentiated by their rules; powers, factorials and
integrals are not. A derivative within the operand is carried out first, and what comes of it is
differentiated. The result is not simplified, and its new nodes have the span of the node they come from.

## Contents
- `derivativeDepth` — how deeply derivatives are nested. Differentiating does not increase it, so the second
  of two derivatives is taken of a tree with less nesting than the node that asked for both.
- `derive` — the derivative, by recursion on the nesting depth and within each level on the tree.
- `derivativeDepth_derive` — the depth does not increase; `deriveAt_eq_derive` — so the level does not matter.
- `derive_paren` … `derive_derivative` — the equations of `derive`.
- `derive_binary_ok`, `derive_neg_ok`, `derive_derivative_ok` — what a derivative that exists is made of.
-/

namespace Formula

/-- The constructs that have no rule. -/
inductive Unsupported where
  | power
  | factorial
  | integral
deriving DecidableEq, Repr

/-- The missing rule in words. -/
def Unsupported.message : Unsupported → String
  | power => "derivative of exponentiation is not supported"
  | factorial => "derivative of factorial is not supported"
  | integral => "derivative of integral is not supported"

namespace Expr

variable {ν : Type}

/-- The greatest number of derivatives around any node. -/
def derivativeDepth : Expr ν → Nat
  | paren _ e => e.derivativeDepth
  | constant _ _ => 0
  | imaginary _ => 0
  | var _ _ => 0
  | literal _ _ => 0
  | binary _ _ l r => max l.derivativeDepth r.derivativeDepth
  | unary _ _ e => e.derivativeDepth
  | derivative _ e _ => e.derivativeDepth + 1
  | integral _ e x => max e.derivativeDepth x.derivativeDepth
  | definiteIntegral _ e x a b =>
    max (max e.derivativeDepth x.derivativeDepth) (max a.derivativeDepth b.derivativeDepth)

variable [Arithmetic ν]

/-- The rule for a product, explicit or not. -/
def productRule (s : Span) (l r dl dr : Expr ν) : Expr ν :=
  binary s .add (binary s .mul dl r) (binary s .mul l dr)

/-- The rule for a quotient. -/
def quotientRule (s : Span) (l r dl dr : Expr ν) : Expr ν :=
  binary s .div (binary s .sub (binary s .mul dl r) (binary s .mul l dr))
    (binary s .pow r (literal s Arithmetic.two))

/-- The derivative, where `again` differentiates what comes of a derivative within the tree. -/
def deriveWith (again : Expr ν → String → Except Unsupported (Expr ν)) :
    Expr ν → String → Except Unsupported (Expr ν)
  | paren _ e, x => deriveWith again e x
  | constant s _, _ => .ok (literal s Arithmetic.zero)
  | imaginary s, _ => .ok (literal s Arithmetic.zero)
  | var s y, x => .ok (literal s (if y = x then Arithmetic.one else Arithmetic.zero))
  | literal s _, _ => .ok (literal s Arithmetic.zero)
  | binary _ .pow _ _, _ => .error .power
  | binary s op l r, x => do
    let dl ← deriveWith again l x
    let dr ← deriveWith again r x
    match op with
    | .add => .ok (binary s .add dl dr)
    | .sub => .ok (binary s .sub dl dr)
    | .div => .ok (quotientRule s l r dl dr)
    | _ => .ok (productRule s l r dl dr)
  | unary s .neg e, x => (deriveWith again e x).map (unary s .neg)
  | unary _ .factorial _, _ => .error .factorial
  | derivative _ e y, x => do
    let d ← deriveWith again e y
    again d x
  | integral _ _ _, _ => .error .integral
  | definiteIntegral _ _ _ _ _, _ => .error .integral

/-- The derivative of a tree in which derivatives are nested at most `depth` deep. -/
def deriveAt : Nat → Expr ν → String → Except Unsupported (Expr ν)
  | 0 => deriveWith fun e _ => .ok e
  | depth + 1 => deriveWith (deriveAt depth)

/-- The derivative of an expression by a variable. -/
def derive (e : Expr ν) (x : String) : Except Unsupported (Expr ν) := deriveAt e.derivativeDepth e x

/-! ## Nesting depth and the equations of `derive`

`deriveAt` never looks further down than its level allows, so every level from the nesting depth on gives the
same derivative, and `derive` satisfies the equation that one would write for it. -/

/-- Differentiating does not nest derivatives deeper, if `again` does not. -/
theorem derivativeDepth_deriveWith {again : Expr ν → String → Except Unsupported (Expr ν)} {n : Nat}
    (h : ∀ e x d, derivativeDepth e < n → again e x = .ok d → derivativeDepth d ≤ derivativeDepth e) :
    ∀ (e : Expr ν) (x : String) (d : Expr ν), derivativeDepth e ≤ n → deriveWith again e x = .ok d →
      derivativeDepth d ≤ derivativeDepth e := by
  intro e
  induction e with
  | paren s e ih => exact ih
  | constant s c => intro x d _ hd; cases hd; exact Nat.le_refl 0
  | imaginary s => intro x d _ hd; cases hd; exact Nat.le_refl 0
  | var s y => intro x d _ hd; cases hd; exact Nat.le_refl 0
  | literal s v => intro x d _ hd; cases hd; exact Nat.le_refl 0
  | binary s op l r ihl ihr =>
    intro x d hn hd
    simp only [derivativeDepth] at hn
    cases hl : deriveWith again l x with
    | error e => cases op <;> simp [deriveWith, hl, bind, Except.bind] at hd
    | ok dl =>
      cases hr : deriveWith again r x with
      | error e => cases op <;> simp [deriveWith, hl, hr, bind, Except.bind] at hd
      | ok dr =>
        have hl' := ihl x dl (by omega) hl
        have hr' := ihr x dr (by omega) hr
        cases op <;> simp [deriveWith, hl, hr, bind, Except.bind] at hd <;> subst hd <;>
          simp only [derivativeDepth, productRule, quotientRule] <;> omega
  | unary s op e ih =>
    intro x d hn hd
    cases op with
    | neg =>
      cases he : deriveWith again e x with
      | error err => simp [deriveWith, he, Except.map] at hd
      | ok de =>
        simp only [deriveWith, he, Except.map, Except.ok.injEq] at hd
        subst hd
        exact ih x de hn he
    | factorial => simp [deriveWith] at hd
  | derivative s e y ih =>
    intro x d hn hd
    simp only [derivativeDepth] at hn ⊢
    cases he : deriveWith again e y with
    | error err => simp [deriveWith, he, bind, Except.bind] at hd
    | ok de =>
      simp only [deriveWith, he, bind, Except.bind] at hd
      have h1 := ih y de (by omega) he
      have h2 := h de x d (by omega) hd
      omega
  | integral s e x ihe ihx => intro x d _ hd; simp [deriveWith] at hd
  | definiteIntegral s e x a b ihe ihx iha ihb => intro x d _ hd; simp [deriveWith] at hd

/-- At no level does differentiating nest derivatives deeper. -/
theorem derivativeDepth_deriveAt : ∀ (n : Nat) (e : Expr ν) (x : String) (d : Expr ν),
    derivativeDepth e ≤ n → deriveAt n e x = .ok d → derivativeDepth d ≤ derivativeDepth e
  | 0 => derivativeDepth_deriveWith fun _ _ _ h _ => absurd h (Nat.not_lt_zero _)
  | n + 1 => derivativeDepth_deriveWith fun e x d h => derivativeDepth_deriveAt n e x d (Nat.le_of_lt_succ h)

/-- Differentiating does not nest derivatives deeper. -/
theorem derivativeDepth_derive {e d : Expr ν} {x : String} (h : e.derive x = .ok d) :
    d.derivativeDepth ≤ e.derivativeDepth :=
  derivativeDepth_deriveAt e.derivativeDepth e x d (Nat.le_refl _) h

/-- Two ways of differentiating again that agree below the nesting depth give the same derivative. -/
theorem deriveWith_congr {f g : Expr ν → String → Except Unsupported (Expr ν)} {n : Nat}
    (hf : ∀ e x d, derivativeDepth e < n → f e x = .ok d → derivativeDepth d ≤ derivativeDepth e)
    (h : ∀ e x, derivativeDepth e < n → f e x = g e x) :
    ∀ (e : Expr ν) (x : String), derivativeDepth e ≤ n → deriveWith f e x = deriveWith g e x := by
  intro e
  induction e with
  | paren s e ih => exact ih
  | constant s c => intros; rfl
  | imaginary s => intros; rfl
  | var s y => intros; rfl
  | literal s v => intros; rfl
  | binary s op l r ihl ihr =>
    intro x hn
    simp only [derivativeDepth] at hn
    cases op <;> simp only [deriveWith, ihl x (by omega), ihr x (by omega)]
  | unary s op e ih =>
    intro x hn
    cases op with
    | neg => simp only [deriveWith, ih x hn]
    | factorial => rfl
  | derivative s e y ih =>
    intro x hn
    simp only [derivativeDepth] at hn
    simp only [deriveWith, ← ih y (by omega)]
    cases he : deriveWith f e y with
    | error err => rfl
    | ok d =>
      have hd := derivativeDepth_deriveWith hf e y d (by omega) he
      exact h d x (by omega)
  | integral s e x ihe ihx => intros; rfl
  | definiteIntegral s e x a b ihe ihx iha ihb => intros; rfl

/-- From the nesting depth on, all levels give the same derivative. -/
theorem deriveAt_succ : ∀ (n : Nat) (e : Expr ν) (x : String), derivativeDepth e ≤ n →
    deriveAt (n + 1) e x = deriveAt n e x
  | 0 => deriveWith_congr (fun _ _ _ h => absurd h (Nat.not_lt_zero _)) fun _ _ h => absurd h (Nat.not_lt_zero _)
  | n + 1 => deriveWith_congr (fun e x d h => derivativeDepth_deriveAt (n + 1) e x d (Nat.le_of_lt h))
      fun e x h => deriveAt_succ n e x (Nat.le_of_lt_succ h)

/-- Every level from the nesting depth on gives the derivative. -/
theorem deriveAt_eq_derive {n : Nat} {e : Expr ν} (x : String) (h : e.derivativeDepth ≤ n) :
    deriveAt n e x = e.derive x := by
  induction n with
  | zero => rw [derive, Nat.le_zero.mp h]
  | succ n ih =>
    by_cases hn : e.derivativeDepth ≤ n
    · rw [deriveAt_succ n e x hn, ih hn]
    · rw [derive, show e.derivativeDepth = n + 1 by omega]

/-- Trees of one nesting depth are differentiated in one way. -/
theorem exists_derive_eq (e : Expr ν) : ∃ again : Expr ν → String → Except Unsupported (Expr ν),
    ∀ e' : Expr ν, e'.derivativeDepth = e.derivativeDepth → ∀ x, e'.derive x = deriveWith again e' x := by
  cases h : e.derivativeDepth with
  | zero =>
    refine ⟨fun e _ => .ok e, fun e' he x => ?_⟩
    rw [derive, he]
    rfl
  | succ n =>
    refine ⟨deriveAt n, fun e' he x => ?_⟩
    rw [derive, he]
    rfl

@[simp] theorem derive_paren (s : Span) (e : Expr ν) (x : String) : (paren s e).derive x = e.derive x := by
  obtain ⟨again, h⟩ := exists_derive_eq e
  exact (h (paren s e) rfl x).trans (h e rfl x).symm

@[simp] theorem derive_pow (s : Span) (l r : Expr ν) (x : String) :
    (binary s .pow l r).derive x = .error .power := by
  obtain ⟨again, h⟩ := exists_derive_eq (binary s .pow l r)
  exact h (binary s .pow l r) rfl x

@[simp] theorem derive_factorial (s : Span) (e : Expr ν) (x : String) :
    (unary s .factorial e).derive x = .error .factorial := by
  obtain ⟨again, h⟩ := exists_derive_eq e
  exact h (unary s .factorial e) rfl x

@[simp] theorem derive_integral (s : Span) (e y : Expr ν) (x : String) :
    (integral s e y).derive x = .error .integral := by
  obtain ⟨again, h⟩ := exists_derive_eq (integral s e y)
  exact h (integral s e y) rfl x

@[simp] theorem derive_definiteIntegral (s : Span) (e y a b : Expr ν) (x : String) :
    (definiteIntegral s e y a b).derive x = .error .integral := by
  obtain ⟨again, h⟩ := exists_derive_eq (definiteIntegral s e y a b)
  exact h (definiteIntegral s e y a b) rfl x

@[simp] theorem derive_neg (s : Span) (e : Expr ν) (x : String) :
    (unary s .neg e).derive x = (e.derive x).map (unary s .neg) := by
  obtain ⟨again, h⟩ := exists_derive_eq e
  rw [h (unary s .neg e) rfl, h e rfl]
  rfl

/-- Sums, differences, products and quotients need the derivatives of both operands, the left one first. -/
theorem derive_binary (s : Span) {op : BinaryOp} (hop : op ≠ .pow) (l r : Expr ν) (x : String) :
    (binary s op l r).derive x = (do
      let dl ← l.derive x
      let dr ← r.derive x
      match op with
      | .add => .ok (binary s .add dl dr)
      | .sub => .ok (binary s .sub dl dr)
      | .div => .ok (quotientRule s l r dl dr)
      | _ => .ok (productRule s l r dl dr)) := by
  have hl := deriveAt_eq_derive (n := max l.derivativeDepth r.derivativeDepth) (e := l) x (by omega)
  have hr := deriveAt_eq_derive (n := max l.derivativeDepth r.derivativeDepth) (e := r) x (by omega)
  rw [← hl, ← hr, derive]
  simp only [derivativeDepth]
  generalize max l.derivativeDepth r.derivativeDepth = n
  cases n <;> cases op <;> first | rfl | exact absurd rfl hop

/-- The second derivative is taken of the first. -/
theorem derive_derivative (s : Span) (e : Expr ν) (y x : String) :
    (derivative s e y).derive x = (do
      let d ← e.derive y
      d.derive x) := by
  have he := deriveAt_eq_derive (n := e.derivativeDepth + 1) (e := e) y (by omega)
  rw [derive, ← he]
  simp only [derivativeDepth, deriveAt, deriveWith]
  cases hd : deriveWith (deriveAt e.derivativeDepth) e y with
  | error err => rfl
  | ok d =>
    have hdepth := derivativeDepth_deriveAt (e.derivativeDepth + 1) e y d (by omega) hd
    exact deriveAt_eq_derive x hdepth

/-! ## Derivatives that exist -/

/-- The derivative of an operation is put together from those of its operands. -/
theorem derive_binary_ok {s : Span} {x : String} {op : BinaryOp} {l r d : Expr ν}
    (h : (binary s op l r).derive x = .ok d) :
    ∃ dl dr, l.derive x = .ok dl ∧ r.derive x = .ok dr ∧
      match op with
      | .add => d = binary s .add dl dr
      | .sub => d = binary s .sub dl dr
      | .div => d = quotientRule s l r dl dr
      | .mul => d = productRule s l r dl dr
      | .juxtapose => d = productRule s l r dl dr
      | .pow => False := by
  by_cases hop : op = .pow
  · rw [hop, derive_pow] at h
    cases h
  · rw [derive_binary s hop] at h
    cases hl : l.derive x with
    | error err =>
      rw [hl] at h
      cases h
    | ok dl =>
      cases hr : r.derive x with
      | error err =>
        rw [hl, hr] at h
        cases h
      | ok dr =>
        rw [hl, hr] at h
        refine ⟨dl, dr, rfl, rfl, ?_⟩
        cases op with
        | pow => exact hop rfl
        | _ => exact (Except.ok.inj h).symm

theorem derive_neg_ok {s : Span} {x : String} {e d : Expr ν} (h : (unary s .neg e).derive x = .ok d) :
    ∃ de, e.derive x = .ok de ∧ d = unary s .neg de := by
  rw [derive_neg] at h
  cases he : e.derive x with
  | error err =>
    rw [he] at h
    cases h
  | ok de =>
    rw [he] at h
    exact ⟨de, rfl, (Except.ok.inj h).symm⟩

/-- A derivative within the operand is carried out first. -/
theorem derive_derivative_ok {s : Span} {x y : String} {e d : Expr ν} (h : (derivative s e y).derive x = .ok d) :
    ∃ de, e.derive y = .ok de ∧ de.derive x = .ok d := by
  rw [derive_derivative] at h
  cases he : e.derive y with
  | error err =>
    rw [he] at h
    cases h
  | ok de =>
    rw [he] at h
    exact ⟨de, rfl, h⟩

end Expr

end Formula
