import Formula.Proofs.Simplify.Recursion

/-!
# `Formula.Proofs.Simplify.SpanNesting` — spans stay nested

What differentiating and simplifying put in place of a node is made of parts of the node and of new nodes that have its
span. So where every node's span contains those of its children, the same holds of what comes of either, also where a
derivative within the expression is carried out and its result is taken up again.

## Contents
- `SpansNest` — every node's span contains its children's.
- `NestsIn` — the same by recursion on the tree, its root within a given span; `nestsIn_iff`.
- `nestsIn_of_derives`, `nestsIn_of_simplifies` — what is put in place of a tree nests wherever the tree does.
- `spansNest_simplify_derive` — spans stay nested.
-/

namespace Formula.Expr

variable {ν : Type} {s t : Span} {e e' d : Expr ν}

/-- **Spans nest** when the span of every node contains the spans of its children. -/
def SpansNest (e : Expr ν) : Prop :=
  ∀ n ∈ e.subtrees, ∀ c ∈ n.children, n.span.contains c.span = true

/-- Spans nest, and a given span contains the root's. -/
@[simp] def NestsIn (t : Span) : Expr ν → Prop
  | paren s e => t.contains s = true ∧ e.NestsIn s
  | constant s _ => t.contains s = true
  | imaginary s => t.contains s = true
  | var s _ => t.contains s = true
  | literal s _ => t.contains s = true
  | binary s _ l r => t.contains s = true ∧ l.NestsIn s ∧ r.NestsIn s
  | unary s _ e => t.contains s = true ∧ e.NestsIn s
  | derivative s e _ => t.contains s = true ∧ e.NestsIn s
  | integral s e x => t.contains s = true ∧ e.NestsIn s ∧ x.NestsIn s
  | definiteIntegral s e x a b => t.contains s = true ∧ e.NestsIn s ∧ x.NestsIn s ∧ a.NestsIn s ∧ b.NestsIn s

theorem nestsIn_iff : e.NestsIn t ↔ t.contains e.span = true ∧ e.SpansNest := by
  induction e generalizing t <;> simp_all [SpansNest, subtrees, children, span, or_imp, forall_and]
  all_goals tauto

/-- What nests in a span nests in any around it. -/
theorem NestsIn.mono (h : e.NestsIn s) (hs : t.contains s = true) : e.NestsIn t := by
  rw [nestsIn_iff] at *
  exact ⟨Span.contains_trans hs h.1, h.2⟩

variable [Arithmetic ν]

/-- **A derivative nests wherever its expression does.** -/
theorem nestsIn_of_derives {x : String} (h : Derives e x d) (he : e.NestsIn t) : d.NestsIn t := by
  induction h generalizing t with
  | paren s h ih => exact ih (he.2.mono he.1)
  | negation s h ih => exact ⟨he.1, ih he.2⟩
  | sum s hop hl hr ihl ihr => exact ⟨he.1, ihl he.2.1, ihr he.2.2⟩
  | product s hop hl hr ihl ihr =>
    -- The operands are copied below new nodes, all of which have the span of the product.
    obtain ⟨hs, hnl, hnr⟩ := he
    have hself := Span.contains_refl s
    exact ⟨hs, ⟨hself, ihl hnl, hnr⟩, hself, hnl, ihr hnr⟩
  | quotient s hl hr ihl ihr =>
    obtain ⟨hs, hnl, hnr⟩ := he
    have hself := Span.contains_refl s
    exact ⟨hs, ⟨hself, ⟨hself, ihl hnl, hnr⟩, hself, hnl, ihr hnr⟩, hself, hnr, hself⟩
  | derivative s inner outer ihinner ihouter => exact ihouter (ihinner (he.2.mono he.1))
  | _ => exact he

/-- **So does a simplified form.** -/
theorem nestsIn_of_simplifies (h : Simplifies e e') (he : e.NestsIn t) : e'.NestsIn t := by
  induction h generalizing t with
  | paren s h ih => exact ih (he.2.mono he.1)
  | binary s op hl hr ihl ihr =>
    obtain ⟨hs, hnl, hnr⟩ := he
    exact simplifyBinary_of (P := NestsIn t) (fun _ => hs) ⟨hs, ihl hnl, ihr hnr⟩ ((ihl hnl).mono hs)
      ((ihr hnr).mono hs)
  | unary s op h ih => exact simplifyUnary_of (P := NestsIn t) (fun _ => he.1) ⟨he.1, ih he.2⟩
  -- The derivative is taken of what has been simplified and is simplified itself: three hypotheses in a row.
  | carried s h hd hd' ihe ihd => exact ihd (nestsIn_of_derives hd (ihe (he.2.mono he.1)))
  | kept s h hu ih => exact ⟨he.1, ih he.2⟩
  | integral s hi hx ihi ihx => exact ⟨he.1, ihi he.2.1, ihx he.2.2⟩
  | definiteIntegral s hi hx ha hb ihi ihx iha ihb =>
    obtain ⟨hs, hni, hnx, hna, hnb⟩ := he
    exact ⟨hs, ihi hni, ihx hnx, iha hna, ihb hnb⟩
  | _ => exact he

/-- **Spans stay nested.** Where the span of every node contains the spans of its children, the same holds of the
    simplified form and of every derivative, and the root's span contains those of their roots. -/
theorem spansNest_simplify_derive (h : e.SpansNest) :
    (e.simplify.SpansNest ∧ e.span.contains e.simplify.span = true) ∧
    ∀ (x : String) (d : Expr ν), e.derive x = .ok d → d.SpansNest ∧ e.span.contains d.span = true := by
  have hself : e.NestsIn e.span := nestsIn_iff.mpr ⟨Span.contains_refl e.span, h⟩
  refine ⟨?_, fun x d hd => ?_⟩
  · exact (nestsIn_iff.mp (nestsIn_of_simplifies (simplifies_simplify e) hself)).symm
  · exact (nestsIn_iff.mp (nestsIn_of_derives (derives_iff.mpr hd) hself)).symm

/-- What is read from `x - derivative (x y) wrt x`: its derivative by `x` takes a second derivative of the product. -/
theorem spansNest_simplify_derive_second :
    let product : Expr Float := .binary ⟨16, 19⟩ .juxtapose (.var ⟨16, 17⟩ "x") (.var ⟨18, 19⟩ "y")
    let e : Expr Float :=
      .binary ⟨0, 26⟩ .sub (.var ⟨0, 1⟩ "x") (.derivative ⟨4, 26⟩ (.paren ⟨15, 20⟩ product) "x")
    e.SpansNest ∧ (e.simplify.SpansNest ∧ e.span.contains e.simplify.span = true) ∧
      ∃ d, e.derive "x" = .ok d ∧ d.SpansNest ∧ e.span.contains d.span = true := by
  intro product e
  have hnest : e.SpansNest := by
    simp [e, product, SpansNest, subtrees, children, span, Span.contains]
  obtain ⟨hsimplified, hderived⟩ := spansNest_simplify_derive hnest
  obtain ⟨d, hd⟩ : ∃ d, e.derive "x" = .ok d := ⟨_, rfl⟩
  exact ⟨hnest, hsimplified, d, hd, hderived "x" d hd⟩

end Formula.Expr
