import Formula.Expr.InputForm
import Formula.Expr.Latex
import Formula.Expr.Simplify

/-!
# `Formula.Proofs.Expr.Spans` — trees without their spans and without their parentheses

Nothing that is computed from a tree depends on its spans: forgetting them before or after makes no difference.

## Contents
- `unspanned`, `withoutParens`, `nodes`.
- `inputForm_unspanned`, `latex_unspanned` — the written forms do not depend on spans.
- `derive_unspanned`, `unspanned_simplify` — differentiating and simplifying do not look at spans.
- `same_of_unspanned` — trees that differ only in their spans are the same.
-/

namespace Formula.Expr

variable {ν : Type}

/-- The tree with all its spans forgotten. -/
@[simp] def unspanned : Expr ν → Expr ν
  | paren _ e => paren .nowhere e.unspanned
  | constant _ c => constant .nowhere c
  | imaginary _ => imaginary .nowhere
  | var _ x => var .nowhere x
  | literal _ v => literal .nowhere v
  | binary _ op l r => binary .nowhere op l.unspanned r.unspanned
  | unary _ op e => unary .nowhere op e.unspanned
  | derivative _ e x => derivative .nowhere e.unspanned x
  | integral _ e x => integral .nowhere e.unspanned x.unspanned
  | definiteIntegral _ e x a b =>
    definiteIntegral .nowhere e.unspanned x.unspanned a.unspanned b.unspanned

/-- The tree with all its parentheses taken out. -/
@[simp] def withoutParens : Expr ν → Expr ν
  | paren _ e => e.withoutParens
  | constant s c => constant s c
  | imaginary s => imaginary s
  | var s x => var s x
  | literal s v => literal s v
  | binary s op l r => binary s op l.withoutParens r.withoutParens
  | unary s op e => unary s op e.withoutParens
  | derivative s e x => derivative s e.withoutParens x
  | integral s e x => integral s e.withoutParens x.withoutParens
  | definiteIntegral s e x a b =>
    definiteIntegral s e.withoutParens x.withoutParens a.withoutParens b.withoutParens

/-- The number of nodes. -/
def nodes : Expr ν → Nat
  | paren _ e => e.nodes + 1
  | constant _ _ => 1
  | imaginary _ => 1
  | var _ _ => 1
  | literal _ _ => 1
  | binary _ _ l r => l.nodes + r.nodes + 1
  | unary _ _ e => e.nodes + 1
  | derivative _ e _ => e.nodes + 1
  | integral _ e x => e.nodes + x.nodes + 1
  | definiteIntegral _ e x a b => e.nodes + x.nodes + a.nodes + b.nodes + 1

@[simp] theorem isOpenEnded_unspanned (e : Expr ν) : e.unspanned.isOpenEnded = e.isOpenEnded := by
  cases e <;> rfl

@[simp] theorem literal?_unspanned (e : Expr ν) : e.unspanned.literal? = e.literal? := by
  cases e <;> rfl

theorem primaryVariable?_unspanned (e : Expr ν) : e.unspanned.primaryVariable? = e.primaryVariable? := by
  induction e <;> simp_all [unspanned, primaryVariable?]

theorem derivativeDepth_unspanned (e : Expr ν) : e.unspanned.derivativeDepth = e.derivativeDepth := by
  induction e <;> simp_all [unspanned, derivativeDepth]

theorem unspanned_withoutParens (e : Expr ν) : e.withoutParens.unspanned = e.unspanned.withoutParens := by
  induction e <;> simp_all [unspanned, withoutParens]

/-- Trees that differ only in their spans are the same, where literals and constants are equal to themselves. -/
theorem same_of_unspanned [BEq ν] {e e' : Expr ν} (h : e.unspanned = e'.unspanned)
    (hrefl : e.same e = true) : e.same e' = true := by
  induction e generalizing e' with
  | paren s e ih =>
    cases e' <;> simp only [unspanned, reduceCtorEq, paren.injEq, true_and] at h
    exact ih h hrefl
  | constant s c =>
    cases e' <;> simp only [unspanned, reduceCtorEq, constant.injEq, true_and] at h
    subst h
    exact hrefl
  | imaginary s =>
    cases e' <;> simp only [unspanned, reduceCtorEq] at h
    rfl
  | var s x =>
    cases e' <;> simp only [unspanned, reduceCtorEq, var.injEq, true_and] at h
    subst h
    exact hrefl
  | literal s v =>
    cases e' <;> simp only [unspanned, reduceCtorEq, literal.injEq, true_and] at h
    subst h
    exact hrefl
  | binary s op l r ihl ihr =>
    cases e' <;> simp only [unspanned, reduceCtorEq, binary.injEq, true_and] at h
    simp only [same, Bool.and_eq_true] at hrefl ⊢
    exact ⟨⟨beq_iff_eq.mpr h.1, ihl h.2.1 hrefl.1.2⟩, ihr h.2.2 hrefl.2⟩
  | unary s op e ih =>
    cases e' <;> simp only [unspanned, reduceCtorEq, unary.injEq, true_and] at h
    simp only [same, Bool.and_eq_true] at hrefl ⊢
    exact ⟨beq_iff_eq.mpr h.1, ih h.2 hrefl.2⟩
  | derivative s e x ih =>
    cases e' <;> simp only [unspanned, reduceCtorEq, derivative.injEq, true_and] at h
    simp only [same, Bool.and_eq_true] at hrefl ⊢
    exact ⟨ih h.1 hrefl.1, beq_iff_eq.mpr h.2⟩
  | integral s e x ihe ihx =>
    cases e' <;> simp only [unspanned, reduceCtorEq, integral.injEq, true_and] at h
    simp only [same, Bool.and_eq_true] at hrefl ⊢
    exact ⟨ihe h.1 hrefl.1, ihx h.2 hrefl.2⟩
  | definiteIntegral s e x a b ihe ihx iha ihb =>
    cases e' <;> simp only [unspanned, reduceCtorEq, definiteIntegral.injEq, true_and] at h
    simp only [same, Bool.and_eq_true] at hrefl ⊢
    exact ⟨⟨⟨ihe h.1 hrefl.1.1.1, ihx h.2.1 hrefl.1.1.2⟩, iha h.2.2.1 hrefl.1.2⟩, ihb h.2.2.2 hrefl.2⟩

/-! ## Written forms -/

section Written

variable [Numeral ν]

@[simp] theorem writtenBinding?_unspanned (e : Expr ν) : e.unspanned.writtenBinding? = e.writtenBinding? := by
  cases e <;> rfl

@[simp] theorem needsParens_unspanned (b : Binding) (e : Expr ν) (side : Side) :
    needsParens b e.unspanned side = needsParens b e side := by
  rw [needsParens, needsParens, writtenBinding?_unspanned]

@[simp] theorem startsLoose_unspanned (e : Expr ν) : e.unspanned.startsLoose = e.startsLoose := by
  induction e with
  | unary s op e ih => cases op <;> simp [unspanned, startsLoose, ih]
  | _ => simp_all [unspanned, startsLoose]

@[simp] theorem operandNeedsParens_unspanned (op : BinaryOp) (e : Expr ν) (side : Side) :
    operandNeedsParens op e.unspanned side = operandNeedsParens op e side := by
  simp [operandNeedsParens]

theorem inputForm_binary (s : Span) (op : BinaryOp) (l r : Expr ν) : (binary s op l r).inputForm =
    parenthesized (operandNeedsParens op l .left) l.inputForm ++ separator op ++
      parenthesized (operandNeedsParens op r .right) r.inputForm :=
  rfl

theorem inputForm_neg (s : Span) (e : Expr ν) : (unary s .neg e).inputForm =
    "-" ++ parenthesized (needsParens UnaryOp.neg.binding e .right) e.inputForm :=
  rfl

theorem inputForm_factorial (s : Span) (e : Expr ν) : (unary s .factorial e).inputForm =
    parenthesized (needsParens UnaryOp.factorial.binding e .left) e.inputForm ++ "!" :=
  rfl

/-- **The input form does not depend on spans.** -/
theorem inputForm_unspanned (e : Expr ν) : e.unspanned.inputForm = e.inputForm := by
  induction e with
  | paren s e ih =>
    show "(" ++ e.unspanned.inputForm ++ ")" = "(" ++ e.inputForm ++ ")"
    rw [ih]
  | constant s c => rfl
  | imaginary s => rfl
  | var s x => rfl
  | literal s v => rfl
  | binary s op l r ihl ihr =>
    rw [unspanned, inputForm_binary, inputForm_binary, operandNeedsParens_unspanned, operandNeedsParens_unspanned, ihl,
      ihr]
  | unary s op e ih =>
    cases op with
    | neg => rw [unspanned, inputForm_neg, inputForm_neg, needsParens_unspanned, ih]
    | factorial => rw [unspanned, inputForm_factorial, inputForm_factorial, needsParens_unspanned, ih]
  | derivative s e x ih =>
    show "derivative " ++ e.unspanned.inputForm ++ " wrt " ++ x = "derivative " ++ e.inputForm ++ " wrt " ++ x
    rw [ih]
  | integral s e x ihe ihx =>
    show "integrate " ++ e.unspanned.inputForm ++ " d" ++ x.unspanned.inputForm =
      "integrate " ++ e.inputForm ++ " d" ++ x.inputForm
    rw [ihe, ihx]
  | definiteIntegral s e x a b ihe ihx iha ihb =>
    show "integral from " ++ a.unspanned.inputForm ++ " to " ++ b.unspanned.inputForm ++ " of " ++
        e.unspanned.inputForm ++ " d" ++ x.unspanned.inputForm =
      "integral from " ++ a.inputForm ++ " to " ++ b.inputForm ++ " of " ++ e.inputForm ++ " d" ++ x.inputForm
    rw [ihe, ihx, iha, ihb]

theorem latexOperandNeedsParens_unspanned (op : BinaryOp) (e : Expr ν) (side : Side) :
    latexOperandNeedsParens op e.unspanned side = latexOperandNeedsParens op e side := by
  rw [latexOperandNeedsParens, latexOperandNeedsParens, operandNeedsParens_unspanned, isOpenEnded_unspanned]

/-- An operation that is written on the line. -/
theorem latex_binary (s : Span) {op : BinaryOp} (hdiv : op ≠ .div) (hpow : op ≠ .pow) (l r : Expr ν) :
    (binary s op l r).latex = latexParenthesized (latexOperandNeedsParens op l .left) l.latex ++ latexSeparator op ++
      latexParenthesized (latexOperandNeedsParens op r .right) r.latex := by
  cases op <;> first | rfl | exact absurd rfl hdiv | exact absurd rfl hpow

theorem latex_unary (s : Span) (op : UnaryOp) (e : Expr ν) : (unary s op e).latex =
    if op.leads then
      op.symbol ++ latexParenthesized
        (needsParens op.binding e (unarySide op) || (!op.leads && e.isOpenEnded)) e.latex
    else
      latexParenthesized (needsParens op.binding e (unarySide op) || (!op.leads && e.isOpenEnded)) e.latex ++
        op.symbol :=
  rfl

theorem latex_neg (s : Span) (e : Expr ν) :
    (unary s .neg e).latex = "-" ++ latexParenthesized (needsParens UnaryOp.neg.binding e .right) e.latex := by
  simp [latex_unary, UnaryOp.leads, UnaryOp.symbol, unarySide]

theorem latex_factorial (s : Span) (e : Expr ν) : (unary s .factorial e).latex =
    latexParenthesized (needsParens UnaryOp.factorial.binding e .left || e.isOpenEnded) e.latex ++ "!" :=
  rfl

theorem latex_paren (s : Span) (e : Expr ν) : (paren s e).latex = latexParenthesized true e.latex := rfl

theorem latex_div (s : Span) (l r : Expr ν) :
    (binary s .div l r).latex = "\\frac\x7b" ++ l.latex ++ "\x7d\x7b" ++ r.latex ++ "\x7d" :=
  rfl

theorem latex_pow (s : Span) (l r : Expr ν) : (binary s .pow l r).latex =
    latexParenthesized (latexOperandNeedsParens .pow l .left) l.latex ++ "^\x7b" ++ r.latex ++ "\x7d" :=
  rfl

theorem latex_derivative (s : Span) (e : Expr ν) (x : String) : (derivative s e x).latex =
    "\\frac\x7b\\mathrm\x7bd\x7d\x7d\x7b\\mathrm\x7bd\x7d" ++ latexName x ++ "\x7d\\," ++ latexParenthesized true e.latex :=
  rfl

theorem latex_integral (s : Span) (e x : Expr ν) :
    (integral s e x).latex = "\\int\x7b\x7d" ++ e.latex ++ "\\,\\mathrm\x7bd\x7d" ++ x.latex :=
  rfl

theorem latex_definiteIntegral (s : Span) (e x a b : Expr ν) : (definiteIntegral s e x a b).latex =
    "\\int_\x7b" ++ a.latex ++ "\x7d^\x7b" ++ b.latex ++ "\x7d" ++ e.latex ++ "\\,\\mathrm\x7bd\x7d" ++ x.latex :=
  rfl

/-- **Nor does the LaTeX.** -/
theorem latex_unspanned (e : Expr ν) : e.unspanned.latex = e.latex := by
  induction e with
  | paren s e ih => rw [unspanned, latex_paren, latex_paren, ih]
  | constant s c => rfl
  | imaginary s => rfl
  | var s x => rfl
  | literal s v => rfl
  | binary s op l r ihl ihr =>
    by_cases hdiv : op = .div
    · subst hdiv
      rw [unspanned, latex_div, latex_div, ihl, ihr]
    · by_cases hpow : op = .pow
      · subst hpow
        rw [unspanned, latex_pow, latex_pow, latexOperandNeedsParens_unspanned, ihl, ihr]
      · rw [unspanned, latex_binary _ hdiv hpow, latex_binary _ hdiv hpow, latexOperandNeedsParens_unspanned,
          latexOperandNeedsParens_unspanned, ihl, ihr]
  | unary s op e ih => rw [unspanned, latex_unary, latex_unary, needsParens_unspanned, isOpenEnded_unspanned, ih]
  | derivative s e x ih => rw [unspanned, latex_derivative, latex_derivative, ih]
  | integral s e x ihe ihx => rw [unspanned, latex_integral, latex_integral, ihe, ihx]
  | definiteIntegral s e x a b ihe ihx iha ihb =>
    rw [unspanned, latex_definiteIntegral, latex_definiteIntegral, ihe, ihx, iha, ihb]

end Written

/-! ## Differentiating and simplifying -/

section Simplify

variable [Arithmetic ν]

/-- Differentiating does not look at spans, if `again` does not. -/
theorem deriveWith_unspanned {again : Expr ν → String → Except Unsupported (Expr ν)}
    (h : ∀ e x, again (unspanned e) x = (again e x).map unspanned) (e : Expr ν) :
    ∀ x, deriveWith again e.unspanned x = (deriveWith again e x).map unspanned := by
  induction e with
  | paren s e ih => exact ih
  | binary s op l r ihl ihr =>
    intro x
    cases hl : deriveWith again l x <;> cases hr : deriveWith again r x <;> cases op <;>
      simp [unspanned, deriveWith, ihl, ihr, hl, hr, Except.map, bind, Except.bind, productRule, quotientRule]
  | unary s op e ih =>
    intro x
    cases op with
    | neg => cases he : deriveWith again e x <;> simp [unspanned, deriveWith, ih, he, Except.map]
    | factorial => rfl
  | derivative s e y ih =>
    intro x
    cases he : deriveWith again e y <;> simp [unspanned, deriveWith, ih, he, Except.map, bind, Except.bind, h]
  | var s y =>
    intro x
    simp [unspanned, deriveWith, Except.map]
  | _ => intro x; rfl

theorem deriveAt_unspanned (n : Nat) : ∀ (e : Expr ν) (x : String),
    deriveAt n e.unspanned x = (deriveAt n e x).map unspanned := by
  induction n with
  | zero => exact deriveWith_unspanned fun _ _ => rfl
  | succ n ih => exact deriveWith_unspanned ih

/-- **Differentiating does not look at spans.** -/
theorem derive_unspanned (e : Expr ν) (x : String) : e.unspanned.derive x = (e.derive x).map unspanned := by
  rw [derive, derive, derivativeDepth_unspanned, deriveAt_unspanned]

@[simp] theorem isZero_unspanned (e : Expr ν) : e.unspanned.isZero = e.isZero := by
  rw [isZero, isZero, literal?_unspanned]

@[simp] theorem isOne_unspanned (e : Expr ν) : e.unspanned.isOne = e.isOne := by
  rw [isOne, isOne, literal?_unspanned]

theorem unspanned_simplifyBinary (s : Span) (op : BinaryOp) (l r : Expr ν) :
    (simplifyBinary s op l r).unspanned = simplifyBinary .nowhere op l.unspanned r.unspanned := by
  have hoperation : (simplifyOperation s op l r).unspanned =
      simplifyOperation .nowhere op l.unspanned r.unspanned := by
    cases op <;> simp only [simplifyOperation, simplifyProduct, isZero_unspanned, isOne_unspanned,
      apply_ite unspanned, unspanned]
  rw [simplifyBinary, simplifyBinary, literal?_unspanned, literal?_unspanned]
  split
  · rfl
  · exact hoperation

theorem unspanned_simplifyUnary (s : Span) (op : UnaryOp) (e : Expr ν) :
    (simplifyUnary s op e).unspanned = simplifyUnary .nowhere op e.unspanned := by
  rw [simplifyUnary, simplifyUnary, literal?_unspanned]
  split <;> rfl

/-- Simplifying does not look at spans, if `again` does not. -/
theorem unspanned_simplifyWith {again : Expr ν → Expr ν} (h : ∀ e, (again e).unspanned = again e.unspanned)
    (e : Expr ν) : (simplifyWith again e).unspanned = simplifyWith again e.unspanned := by
  induction e with
  | paren s e ih => exact ih
  | binary s op l r ihl ihr => rw [simplifyWith, unspanned_simplifyBinary, ihl, ihr, unspanned, simplifyWith]
  | unary s op e ih => rw [simplifyWith, unspanned_simplifyUnary, ih, unspanned, simplifyWith]
  | derivative s e x ih =>
    simp only [simplifyWith, unspanned, ← ih, derive_unspanned]
    cases (simplifyWith again e).derive x with
    | ok d => exact h d
    | error err => rfl
  | _ => simp only [simplifyWith, unspanned, *]

/-- **Simplifying does not look at spans.** -/
theorem unspanned_simplify (e : Expr ν) : e.simplify.unspanned = e.unspanned.simplify :=
  unspanned_simplifyWith (@unspanned_simplifyWith ν _ id fun _ => rfl) e

end Simplify

end Formula.Expr
