import Formula.Expr.Derivative

/-!
# `Formula.Expr.Simplify` — the simplified form of an expression

Only changes that hold for every value are made: operations on literals are carried out, sums and
differences with zero, products with zero or one, a zero dividend and a divisor one disappear, and so do
parentheses. A derivative is carried out if it has a rule, and what comes of it is simplified; else it stays,
over its simplified operand. Simplifying always succeeds.

## Contents
- `simplifyBinary`, `simplifyUnary` — one operation over simplified operands.
- `simplify` — what comes of carrying out a derivative of a simplified operand holds no derivative, so two
  levels of recursion on the tree suffice.
- `simplifyBinary_literals` … `simplify_definiteIntegral` — the equations where no derivative is carried out.
- `settled_simplify` — the derivatives that stay are those without a rule.
- `simplify_derivative` — the equation of `simplify` at a derivative.
-/

namespace Formula.Expr

variable {ν : Type} [Arithmetic ν]

/-- Whether an expression is a literal equal to zero. -/
def isZero (e : Expr ν) : Bool := e.literal?.any Arithmetic.isZero

/-- Whether an expression is a literal equal to one. -/
def isOne (e : Expr ν) : Bool := e.literal?.any Arithmetic.isOne

/-- A product of simplified factors. -/
def simplifyProduct (s : Span) (op : BinaryOp) (l r : Expr ν) : Expr ν :=
  if l.isZero || r.isOne then l else if r.isZero || l.isOne then r else binary s op l r

/-- A binary operation on simplified operands that are not both literals. -/
def simplifyOperation (s : Span) (op : BinaryOp) (l r : Expr ν) : Expr ν :=
  match op with
  | .add => if r.isZero then l else if l.isZero then r else binary s .add l r
  | .sub => if r.isZero then l else binary s .sub l r
  | .mul => simplifyProduct s .mul l r
  | .juxtapose => simplifyProduct s .juxtapose l r
  | .div => if l.isZero || r.isOne then l else binary s .div l r
  | .pow => binary s .pow l r

/-- A binary operation on simplified operands. -/
def simplifyBinary (s : Span) (op : BinaryOp) (l r : Expr ν) : Expr ν :=
  match l.literal?, r.literal? with
  | some a, some b => literal s (Arithmetic.binary op a b)
  | _, _ => simplifyOperation s op l r

/-- A unary operation on a simplified operand. -/
def simplifyUnary (s : Span) (op : UnaryOp) (e : Expr ν) : Expr ν :=
  match e.literal?.bind (Arithmetic.unary op) with
  | some v => literal s v
  | none => unary s op e

/-- The simplified form, where `again` simplifies what comes of carrying out a derivative. -/
def simplifyWith (again : Expr ν → Expr ν) : Expr ν → Expr ν
  | paren _ e => simplifyWith again e
  | constant s c => constant s c
  | imaginary s => imaginary s
  | var s x => var s x
  | literal s v => literal s v
  | binary s op l r => simplifyBinary s op (simplifyWith again l) (simplifyWith again r)
  | unary s op e => simplifyUnary s op (simplifyWith again e)
  | derivative s e x =>
    let e := simplifyWith again e
    match e.derive x with
    | .ok d => again d
    | .error _ => derivative s e x
  | integral s e x => integral s (simplifyWith again e) (simplifyWith again x)
  | definiteIntegral s e x a b =>
    definiteIntegral s (simplifyWith again e) (simplifyWith again x) (simplifyWith again a) (simplifyWith again b)

/-- The simplified form of an expression. -/
def simplify (e : Expr ν) : Expr ν := simplifyWith (simplifyWith id) e

/-! ## Equations -/

/-- An operation on two literals is carried out. -/
theorem simplifyBinary_literals {s : Span} {op : BinaryOp} {l r : Expr ν} {a b : ν} (hl : l.literal? = some a)
    (hr : r.literal? = some b) : simplifyBinary s op l r = literal s (Arithmetic.binary op a b) := by
  rw [simplifyBinary, hl, hr]

/-- With an operand that is no literal there are the rules for each operation. -/
theorem simplifyBinary_eq_simplifyOperation {s : Span} {op : BinaryOp} {l r : Expr ν}
    (h : l.literal? = none ∨ r.literal? = none) : simplifyBinary s op l r = simplifyOperation s op l r := by
  rcases h with hl | hr
  · simp [simplifyBinary, hl]
  · simp [simplifyBinary, hr]

theorem simplify_binary (s : Span) (op : BinaryOp) (l r : Expr ν) :
    (binary s op l r).simplify = simplifyBinary s op l.simplify r.simplify :=
  rfl

theorem simplify_unary (s : Span) (op : UnaryOp) (e : Expr ν) :
    (unary s op e).simplify = simplifyUnary s op e.simplify :=
  rfl

theorem simplify_integral (s : Span) (e x : Expr ν) : (integral s e x).simplify = integral s e.simplify x.simplify :=
  rfl

theorem simplify_definiteIntegral (s : Span) (e x a b : Expr ν) : (definiteIntegral s e x a b).simplify =
    definiteIntegral s e.simplify x.simplify a.simplify b.simplify :=
  rfl

/-! ## The equation of `simplify` at a derivative

Simplification leaves a derivative in place only where no rule applies, and then none applies to a tree around it
either. So the derivative of a simplified tree, if there is one, holds no derivatives, and simplifying it with
`simplifyWith id` is simplifying it. -/

/-- Whether every derivative within an expression is one that cannot be carried out. -/
def Settled : Expr ν → Prop
  | paren _ e => Settled e
  | constant _ _ => True
  | imaginary _ => True
  | var _ _ => True
  | literal _ _ => True
  | binary _ _ l r => Settled l ∧ Settled r
  | unary _ _ e => Settled e
  | derivative _ e x => Settled e ∧ ∀ d, e.derive x ≠ .ok d
  | integral _ e x => Settled e ∧ Settled x
  | definiteIntegral _ e x a b => Settled e ∧ Settled x ∧ Settled a ∧ Settled b

/-- A tree without derivatives is settled. -/
theorem settled_of_derivativeDepth_eq_zero {e : Expr ν} (h : e.derivativeDepth = 0) : e.Settled := by
  induction e <;> simp only [derivativeDepth, Nat.max_eq_zero_iff] at h <;> simp_all [Settled]

/-- A settled tree that has a derivative holds none. -/
theorem Settled.derivativeDepth_eq_zero {e d : Expr ν} {x : String} (he : e.Settled) (h : e.derive x = .ok d) :
    e.derivativeDepth = 0 := by
  induction e generalizing x d with
  | paren s e ih => exact ih he (derive_paren s e x ▸ h)
  | constant s c => rfl
  | imaginary s => rfl
  | var s y => rfl
  | literal s v => rfl
  | binary s op l r ihl ihr =>
    obtain ⟨dl, dr, hl, hr, -⟩ := derive_binary_ok h
    simp [derivativeDepth, ihl he.1 hl, ihr he.2 hr]
  | unary s op e ih =>
    cases op with
    | neg =>
      obtain ⟨de, hd, -⟩ := derive_neg_ok h
      exact ih he hd
    | factorial =>
      rw [derive_factorial] at h
      cases h
  | derivative s e y ih =>
    obtain ⟨de, hd, -⟩ := derive_derivative_ok h
    exact absurd hd (he.2 de)
  | integral s e x ihe ihx =>
    rw [derive_integral] at h
    cases h
  | definiteIntegral s e x a b ihe ihx iha ihb =>
    rw [derive_definiteIntegral] at h
    cases h

/-- What an operation on simplified operands comes to is put together from nothing but the operands. -/
theorem simplifyBinary_of {P : Expr ν → Prop} {s : Span} {op : BinaryOp} {l r : Expr ν}
    (hlit : ∀ v, P (literal s v)) (hop : P (binary s op l r)) (hl : P l) (hr : P r) :
    P (simplifyBinary s op l r) := by
  unfold simplifyBinary
  split
  · exact hlit _
  · cases op <;> simp only [simplifyOperation, simplifyProduct] <;> repeat' split
    all_goals assumption

/-- What an operation on a simplified operand comes to is a literal or the operation. -/
theorem simplifyUnary_of {P : Expr ν → Prop} {s : Span} {op : UnaryOp} {e : Expr ν}
    (hlit : ∀ v, P (literal s v)) (hop : P (unary s op e)) : P (simplifyUnary s op e) := by
  unfold simplifyUnary
  split
  · exact hlit _
  · exact hop

/-- Simplifying a tree without derivatives brings in none. -/
theorem derivativeDepth_simplifyWith {again : Expr ν → Expr ν} {e : Expr ν} (h : e.derivativeDepth = 0) :
    (simplifyWith again e).derivativeDepth = 0 := by
  induction e with
  | paren s e ih => exact ih h
  | constant s c => rfl
  | imaginary s => rfl
  | var s y => rfl
  | literal s v => rfl
  | binary s op l r ihl ihr =>
    simp only [derivativeDepth, Nat.max_eq_zero_iff] at h
    exact simplifyBinary_of (P := fun e => e.derivativeDepth = 0) (fun _ => rfl)
      (by simp only [derivativeDepth, ihl h.1, ihr h.2, Nat.max_self]) (ihl h.1) (ihr h.2)
  | unary s op e ih => exact simplifyUnary_of (P := fun e => e.derivativeDepth = 0) (fun _ => rfl) (ih h)
  | derivative s e y ih => cases h
  | integral s e x ihe ihx =>
    simp only [derivativeDepth, Nat.max_eq_zero_iff] at h
    simp [simplifyWith, derivativeDepth, ihe h.1, ihx h.2]
  | definiteIntegral s e x a b ihe ihx iha ihb =>
    simp only [derivativeDepth, Nat.max_eq_zero_iff] at h
    simp [simplifyWith, derivativeDepth, ihe h.1.1, ihx h.1.2, iha h.2.1, ihb h.2.2]

/-- Without derivatives in the tree there is nothing to simplify again. -/
theorem simplifyWith_congr (f g : Expr ν → Expr ν) {e : Expr ν} (h : e.derivativeDepth = 0) :
    simplifyWith f e = simplifyWith g e := by
  induction e with
  | derivative s e y ih => cases h
  | _ => simp_all [simplifyWith, derivativeDepth]

/-- Simplification leaves only derivatives that cannot be carried out. -/
theorem settled_simplifyWith {again : Expr ν → Expr ν}
    (h : ∀ d, d.derivativeDepth = 0 → (again d).derivativeDepth = 0) (e : Expr ν) :
    (simplifyWith again e).Settled := by
  induction e with
  | paren s e ih => exact ih
  | constant s c => trivial
  | imaginary s => trivial
  | var s y => trivial
  | literal s v => trivial
  | binary s op l r ihl ihr => exact simplifyBinary_of (fun _ => trivial) ⟨ihl, ihr⟩ ihl ihr
  | unary s op e ih => exact simplifyUnary_of (fun _ => trivial) ih
  | derivative s e x ih =>
    simp only [simplifyWith]
    split
    · next d hd =>
      have hdepth := derivativeDepth_derive hd
      rw [ih.derivativeDepth_eq_zero hd] at hdepth
      exact settled_of_derivativeDepth_eq_zero (h d (Nat.le_zero.mp hdepth))
    · next err herr => exact ⟨ih, fun d hd => by rw [hd] at herr; cases herr⟩
  | integral s e x ihe ihx => exact ⟨ihe, ihx⟩
  | definiteIntegral s e x a b ihe ihx iha ihb => exact ⟨ihe, ihx, iha, ihb⟩

/-- The simplified form holds only derivatives that cannot be carried out. -/
theorem settled_simplify (e : Expr ν) : e.simplify.Settled :=
  settled_simplifyWith (fun _ => derivativeDepth_simplifyWith) e

/-- A derivative that can be carried out is simplified to the simplified form of what comes of it. -/
theorem simplify_derivative (s : Span) (e : Expr ν) (x : String) :
    (derivative s e x).simplify = match e.simplify.derive x with
      | .ok d => d.simplify
      | .error _ => derivative s e.simplify x := by
  show (match e.simplify.derive x with
    | .ok d => simplifyWith id d
    | .error _ => derivative s e.simplify x) = _
  cases h : e.simplify.derive x with
  | error err => rfl
  | ok d =>
    have hdepth := derivativeDepth_derive h
    rw [(settled_simplify e).derivativeDepth_eq_zero h] at hdepth
    exact simplifyWith_congr _ _ (Nat.le_zero.mp hdepth)

end Formula.Expr
