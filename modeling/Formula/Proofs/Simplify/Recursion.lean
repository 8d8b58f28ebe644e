import Mathlib.Logic.Relation
import Formula.Expr.Simplify
import Formula.Number.Double
import Formula.Proofs.Derivative.Rules
import Formula.Proofs.Expr.Constructs

/-!
# `Formula.Proofs.Simplify.Recursion` — the recursion of simplification

Simplification as rules, each told for a construct by its children. At a derivative that can be carried out it goes on
with a tree that is no part of the expression. That tree has no derivatives, so that nothing is differentiated while it is
simplified, and every call is for a tree of lower rank.

## Contents
- `Simplifies` — the rules; `SimplifyCall` — the calls that following them makes.
- `SimplifyCall.rank_lt`, `wellFounded_simplifyCall` — every call is for a tree of lower rank.
- `avoids_isDerivative_of_derive_simplify` — what is carried out over a simplified operand holds no derivatives;
  `avoids_isDerivative_of_calls` — nor does anything that is simplified on its account.
- `simplifies_simplify`, `simplifies_iff` — the rules and `simplify` agree.
- `recursions_end` — differentiating and simplifying come to an end, by one measure.
-/

namespace Formula.Expr

variable {ν : Type} [Arithmetic ν]

/-! ## The rules -/

/-- **The rules of simplification**: what the simplified form of an expression is. -/
inductive Simplifies : Expr ν → Expr ν → Prop where
  | paren (s : Span) {e e' : Expr ν} (he : Simplifies e e') : Simplifies (paren s e) e'
  | constant (s : Span) (c : Constant) : Simplifies (constant s c) (constant s c)
  | imaginary (s : Span) : Simplifies (imaginary s) (imaginary s)
  | var (s : Span) (x : String) : Simplifies (var s x) (var s x)
  | literal (s : Span) (v : ν) : Simplifies (literal s v) (literal s v)
  | binary (s : Span) (op : BinaryOp) {l l' r r' : Expr ν} (hl : Simplifies l l') (hr : Simplifies r r') :
      Simplifies (binary s op l r) (simplifyBinary s op l' r')
  | unary (s : Span) (op : UnaryOp) {e e' : Expr ν} (he : Simplifies e e') :
      Simplifies (unary s op e) (simplifyUnary s op e')
  /-- A derivative that has a rule is carried out over the simplified operand, and what comes of it is simplified. -/
  | carried (s : Span) {e e' d d' : Expr ν} {x : String} (he : Simplifies e e') (hd : Derives e' x d)
      (hd' : Simplifies d d') : Simplifies (derivative s e x) d'
  /-- A derivative without a rule is kept. -/
  | kept (s : Span) {e e' : Expr ν} {x : String} {u : Unsupported} (he : Simplifies e e') (hu : Refuses e' x u) :
      Simplifies (derivative s e x) (derivative s e' x)
  | integral (s : Span) {e e' x x' : Expr ν} (he : Simplifies e e') (hx : Simplifies x x') :
      Simplifies (integral s e x) (integral s e' x')
  | definiteIntegral (s : Span) {e e' x x' a a' b b' : Expr ν} (he : Simplifies e e') (hx : Simplifies x x')
      (ha : Simplifies a a') (hb : Simplifies b b') :
      Simplifies (definiteIntegral s e x a b) (definiteIntegral s e' x' a' b')

/-- **The calls of simplification**: `SimplifyCall c e` when simplifying `e` asks for the simplified form of `c`. -/
inductive SimplifyCall : Expr ν → Expr ν → Prop where
  | child {c e : Expr ν} (hc : c ∈ e.children) : SimplifyCall c e
  | carried (s : Span) {e d : Expr ν} {x : String} (hd : e.simplify.derive x = .ok d) : SimplifyCall d (derivative s e x)

variable {e e' d : Expr ν} {x : String}

/-! ## Derivatives that are carried out -/

/-- **What is carried out over a simplified operand holds no derivatives**, and the operand holds none either: those
    that simplification leaves have no rule, and then nothing around them has a derivative. -/
theorem avoids_isDerivative_of_derive_simplify (h : e.simplify.derive x = .ok d) :
    e.simplify.Avoids IsDerivative ∧ d.Avoids IsDerivative := by
  have hdepth := (settled_simplify e).derivativeDepth_eq_zero h
  have hle := derivativeDepth_derive h
  rw [hdepth] at hle
  exact ⟨avoids_isDerivative_iff.mpr hdepth, avoids_isDerivative_iff.mpr (Nat.le_zero.mp hle)⟩

/-- **Every call is for a tree of lower rank.** -/
theorem SimplifyCall.rank_lt {c e : Expr ν} (h : SimplifyCall c e) : c.rank < e.rank := by
  cases h with
  | child hc => exact rank_lt_of_mem_children hc
  | carried s hd =>
    have hdepth := avoids_isDerivative_iff.mp (avoids_isDerivative_of_derive_simplify hd).2
    exact rank_lt_of_depth (hdepth.trans_lt (Nat.succ_pos _))

/-- There is no endless chain of calls. -/
theorem wellFounded_simplifyCall : WellFounded (SimplifyCall (ν := ν)) :=
  Subrelation.wf SimplifyCall.rank_lt (InvImage.wf rank wellFounded_lt)

/-- Without derivatives, nothing but parts of the tree is simplified. -/
theorem SimplifyCall.avoids_isDerivative {c e : Expr ν} (h : SimplifyCall c e) (he : e.Avoids IsDerivative) :
    c.Avoids IsDerivative := by
  cases h with
  | child hc => exact (avoids_iff_children.mp he).2 c hc
  | carried s hd => exact absurd trivial he.1

/-- **Nothing is differentiated while a tree without derivatives is simplified**: no call that simplifying it leads to
    is for a derivative. -/
theorem avoids_isDerivative_of_calls {c : Expr ν} (he : e.Avoids IsDerivative)
    (h : Relation.ReflTransGen SimplifyCall c e) : c.Avoids IsDerivative := by
  induction h using Relation.ReflTransGen.head_induction_on with
  | refl => exact he
  | head hcall _ ih => exact hcall.avoids_isDerivative ih

/-! ## The rules and the function -/

/-- **For every expression the rules are followed to an end**, which is what `simplify` computes, by induction along the
    calls. -/
theorem simplifies_simplify (e : Expr ν) : Simplifies e e.simplify := by
  refine wellFounded_simplifyCall.induction (C := fun e => Simplifies e e.simplify) e ?_
  intro e ih
  have hchildren : ∀ c ∈ e.children, Simplifies c c.simplify := fun c hc => ih c (.child hc)
  cases e with
  | paren s e => exact .paren s (hchildren e (by simp [children]))
  | constant s c => exact .constant s c
  | imaginary s => exact .imaginary s
  | var s x => exact .var s x
  | literal s v => exact .literal s v
  | binary s op l r => exact .binary s op (hchildren l (by simp [children])) (hchildren r (by simp [children]))
  | unary s op e => exact .unary s op (hchildren e (by simp [children]))
  | derivative s e x =>
    have he := hchildren e (by simp [children])
    rw [simplify_derivative]
    cases hd : e.simplify.derive x with
    | ok d => exact .carried s he (derives_iff.mpr hd) (ih d (.carried s hd))
    | error u => exact .kept s he (refuses_iff.mpr hd)
  | integral s e x => exact .integral s (hchildren e (by simp [children])) (hchildren x (by simp [children]))
  | definiteIntegral s e x a b =>
    exact .definiteIntegral s (hchildren e (by simp [children])) (hchildren x (by simp [children]))
      (hchildren a (by simp [children])) (hchildren b (by simp [children]))

theorem Simplifies.simplify (h : Simplifies e e') : e.simplify = e' := by
  induction h with
  | paren s he ih => exact ih
  | constant s c => rfl
  | imaginary s => rfl
  | var s x => rfl
  | literal s v => rfl
  | binary s op hl hr ihl ihr => rw [simplify_binary, ihl, ihr]
  | unary s op he ih => rw [simplify_unary, ih]
  | carried s he hd hd' ihe ihd =>
    rw [simplify_derivative, ihe, hd.derive]
    exact ihd
  | kept s he hu ih => rw [simplify_derivative, ih, hu.derive]
  | integral s he hx ihe ihx => rw [simplify_integral, ihe, ihx]
  | definiteIntegral s he hx ha hb ihe ihx iha ihb => rw [simplify_definiteIntegral, ihe, ihx, iha, ihb]

/-- **The rules give the simplified form**, and no other. -/
theorem simplifies_iff : Simplifies e e' ↔ e.simplify = e' :=
  ⟨Simplifies.simplify, fun h => h ▸ simplifies_simplify e⟩

/-! ## Both recursions -/

/-- **Differentiating and simplifying come to an end**, although both go on with trees that they have just made. A
    derivative has no more levels of derivatives than its expression, so every call of differentiation is for a tree of
    lower rank, and following the rules ends in the outcome that is computed. Neither a simplified expression that has a
    derivative nor that derivative holds derivatives, so none is taken while it is simplified again, every call of
    simplification is for a tree of lower rank, and following the rules ends in the simplified form. -/
theorem recursions_end :
    ((∀ (e d : Expr ν) (x : String), e.derive x = .ok d → d.derivativeDepth ≤ e.derivativeDepth) ∧
      (∀ c k : Expr ν × String, DeriveCall c k → c.1.rank < k.1.rank) ∧ WellFounded (DeriveCall (ν := ν)) ∧
      ∀ (e : Expr ν) (x : String) (r : Except Unsupported (Expr ν)), Concludes e x r ↔ e.derive x = r) ∧
    (∀ (e d : Expr ν) (x : String), e.simplify.derive x = .ok d →
      e.simplify.Avoids IsDerivative ∧ d.Avoids IsDerivative ∧
        ∀ c, Relation.ReflTransGen SimplifyCall c d → c.Avoids IsDerivative) ∧
      (∀ c e : Expr ν, SimplifyCall c e → c.rank < e.rank) ∧ WellFounded (SimplifyCall (ν := ν)) ∧
      ∀ e e' : Expr ν, Simplifies e e' ↔ e.simplify = e' := by
  refine ⟨⟨?_, ?_, wellFounded_deriveCall, ?_⟩, ?_, ?_, wellFounded_simplifyCall, ?_⟩
  · exact fun e d x => derivativeDepth_derive
  · exact fun c k => DeriveCall.rank_lt
  · exact fun e x r => concludes_iff
  · intro e d x h
    obtain ⟨he, hd⟩ := avoids_isDerivative_of_derive_simplify h
    exact ⟨he, hd, fun c => avoids_isDerivative_of_calls hd⟩
  · exact fun c e => SimplifyCall.rank_lt
  · exact fun e e' => simplifies_iff

/-- The second derivative of a square is taken of a tree with more nodes than the whole expression, yet of lower rank, and
    simplifying that tree differentiates nothing. -/
theorem recursions_end_second :
    let x : Expr Float := .var .nowhere "x"
    let one : Expr Float := .literal .nowhere 1.0
    let square : Expr Float := .binary .nowhere .mul x x
    let first : Expr Float := .derivative .nowhere square "x"
    let d : Expr Float := productRule .nowhere x x one one
    DeriveCall (d, "x") (first, "x") ∧ first.nodes < d.nodes ∧ d.rank < first.rank ∧
      square.simplify.derive "x" = .ok d ∧ ∀ c, Relation.ReflTransGen SimplifyCall c d → c.Avoids IsDerivative := by
  intro x one square first d
  have hcall : DeriveCall (d, "x") (first, "x") := .outer .nowhere "x" rfl
  have hsimplified : square.simplify.derive "x" = .ok d := rfl
  obtain ⟨⟨-, hrank, -, -⟩, hcarried, -, -, -⟩ := recursions_end (ν := Float)
  exact ⟨hcall, by decide, hrank _ _ hcall, hsimplified, (hcarried _ _ _ hsimplified).2.2⟩

end Formula.Expr
