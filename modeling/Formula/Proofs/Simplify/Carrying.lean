import Formula.Proofs.Derivative.Existence
import Formula.Proofs.Simplify.Recursion

/-!
# `Formula.Proofs.Simplify.Carrying` — which derivatives simplification carries out

Simplification differentiates operands that it has simplified, with the derivatives within them carried out, whereas
`derive` takes an expression as it stands. Carrying out a derivative brings in no quotient and nothing without a rule,
if the operand holds none of them, and that is just what an expression with a derivative guarantees of the operands of
the derivatives in it. So whatever can be differentiated can be differentiated when it has been simplified.

## Contents
- `Simplifies.avoids` — what the simplified form of an expression with a derivative is free of.
- `exists_derive_simplify` — it has a derivative too.
- `Keeps`, `keeps_of_simplifies` — a derivative that is kept is one of the expression's, over the simplified operand.
- `carried_out_of_derive` — a derivative is kept only if differentiating its own operand fails as well.
-/

namespace Formula.Expr

variable {ν : Type} [Arithmetic ν] {e e' d : Expr ν} {x : String}

/-! ## What simplification leaves -/

/-- **The simplified form of an expression that has a derivative** holds nothing without a rule and no derivatives, and
    quotients only if the expression does. -/
theorem Simplifies.avoids (h : Simplifies e e') (hrule : e.Avoids LacksRule) (hdivides : e.Avoids DerivesQuotient) :
    e'.Avoids LacksRule ∧ e'.Avoids IsDerivative ∧ (e.Avoids IsQuotient → e'.Avoids IsQuotient) := by
  induction h with
  | paren s h ih =>
    obtain ⟨hruled, hcarried, hquotient⟩ := ih hrule.2 hdivides.2
    exact ⟨hruled, hcarried, fun hq => hquotient hq.2⟩
  | binary s op hl hr ihl ihr =>
    obtain ⟨hroot, hrulel, hruler⟩ := hrule
    obtain ⟨-, hdividesl, hdividesr⟩ := hdivides
    obtain ⟨hruledl, hcarriedl, hquotientl⟩ := ihl hrulel hdividesl
    obtain ⟨hruledr, hcarriedr, hquotientr⟩ := ihr hruler hdividesr
    refine ⟨?_, ?_, fun hq => ?_⟩
    · exact simplifyBinary_of (P := Avoids LacksRule) (fun _ => id) ⟨hroot, hruledl, hruledr⟩ hruledl hruledr
    · exact simplifyBinary_of (P := Avoids IsDerivative) (fun _ => id) ⟨id, hcarriedl, hcarriedr⟩ hcarriedl hcarriedr
    · have hql := hquotientl hq.2.1
      have hqr := hquotientr hq.2.2
      exact simplifyBinary_of (P := Avoids IsQuotient) (fun _ => id) ⟨hq.1, hql, hqr⟩ hql hqr
  | unary s op h ih =>
    obtain ⟨hruled, hcarried, hquotient⟩ := ih hrule.2 hdivides.2
    refine ⟨?_, ?_, fun hq => ?_⟩
    · exact simplifyUnary_of (P := Avoids LacksRule) (fun _ => id) ⟨hrule.1, hruled⟩
    · exact simplifyUnary_of (P := Avoids IsDerivative) (fun _ => id) ⟨id, hcarried⟩
    · exact simplifyUnary_of (P := Avoids IsQuotient) (fun _ => id) ⟨id, hquotient hq.2⟩
  | carried s h hd hd' ihe ihd =>
    -- the operand has no quotients, so neither has what comes of it
    obtain ⟨hruled, -, hquotient⟩ := ihe hrule.2 hdivides.2
    obtain ⟨hruled, hquotient⟩ := hd.avoids foreign_lacksRule hruled (hquotient (not_not.mp hdivides.1))
    obtain ⟨hruled', hcarried, hquotient'⟩ := ihd hruled hquotient.derivesQuotient
    exact ⟨hruled', hcarried, fun _ => hquotient' hquotient⟩
  | kept s h hu ih =>
    -- and there is a rule for it, so it is not kept
    obtain ⟨hruled, -, hquotient⟩ := ih hrule.2 hdivides.2
    exact absurd ⟨hruled, (hquotient (not_not.mp hdivides.1)).derivesQuotient⟩ hu.not_avoids
  | integral s he hx ihe ihx => exact absurd trivial hrule.1
  | definiteIntegral s he hx ha hb ihe ihx iha ihb => exact absurd trivial hrule.1
  | _ => exact ⟨id, id, fun _ => id⟩

/-- **What can be differentiated can be differentiated when it has been simplified.** -/
theorem exists_derive_simplify (h : e.derive x = .ok d) : ∃ d', e.simplify.derive x = .ok d' := by
  obtain ⟨hrule, hquotient⟩ := exists_derives_iff.mp ⟨d, derives_iff.mpr h⟩
  obtain ⟨hrule', hderivative, -⟩ := (simplifies_simplify e).avoids hrule hquotient
  have hquotient' : e.simplify.Avoids DerivesQuotient := hderivative.mono fun n hn => by
    cases n with
    | derivative s o y => trivial
    | _ => exact hn
  obtain ⟨d', hd'⟩ := exists_derives_iff.mpr ⟨hrule', hquotient'⟩
  exact ⟨d', derives_iff.mp hd'⟩

/-- Simplifying brings in no derivatives. -/
theorem Avoids.simplify (h : e.Avoids IsDerivative) : e.simplify.Avoids IsDerivative := by
  rw [avoids_isDerivative_iff] at *
  exact derivativeDepth_simplifyWith h

/-! ## The derivatives that are kept -/

/-- **Every derivative in a tree is kept from one of the expression's**: it is taken of the simplified operand, by the same
    variable and with the same span, and the operand as it stood has no derivative. -/
def Keeps (e n : Expr ν) : Prop :=
  ∀ s o' y, derivative s o' y ∈ n.subtrees →
    ∃ o, derivative s o y ∈ e.subtrees ∧ o.simplify = o' ∧ ∃ u, o.derive y = .error u

theorem Keeps.of_child {c n : Expr ν} (hc : c ∈ e.children) (h : Keeps c n) : Keeps e n := by
  intro s o' y hn
  obtain ⟨o, ho, hkept⟩ := h s o' y hn
  exact ⟨o, mem_subtrees_iff.mpr (Or.inr ⟨c, hc, ho⟩), hkept⟩

/-- Below a root that is no derivative there are the derivatives of the children. -/
theorem keeps_of_children {n : Expr ν} (hroot : ¬ n.IsDerivative) (h : ∀ c ∈ n.children, Keeps e c) : Keeps e n := by
  intro s o' y hn
  rcases mem_subtrees_iff.mp hn with rfl | ⟨c, hc, hn⟩
  · exact absurd trivial hroot
  · exact h c hc s o' y hn

theorem keeps_of_avoids {n : Expr ν} (h : n.Avoids IsDerivative) : Keeps e n := fun _ _ _ hn =>
  absurd trivial (avoids_iff.mp h _ hn)

/-- **Simplification keeps derivatives, and puts none in.** -/
theorem keeps_of_simplifies (h : Simplifies e e') : Keeps e e' := by
  induction h with
  | paren s h ih => exact ih.of_child (by simp [children])
  | @binary s op l l' r r' hl hr ihl ihr =>
    have hkeepsl : Keeps (binary s op l r) l' := ihl.of_child (by simp [children])
    have hkeepsr : Keeps (binary s op l r) r' := ihr.of_child (by simp [children])
    have hstays : Keeps (binary s op l r) (binary s op l' r') :=
      keeps_of_children id (by simp [children, hkeepsl, hkeepsr])
    exact simplifyBinary_of (fun _ => keeps_of_avoids id) hstays hkeepsl hkeepsr
  | @unary s op e e' h ih =>
    have hkeeps : Keeps (unary s op e) e' := ih.of_child (by simp [children])
    have hstays : Keeps (unary s op e) (unary s op e') := keeps_of_children id (by simp [children, hkeeps])
    exact simplifyUnary_of (fun _ => keeps_of_avoids id) hstays
  | carried s h hd hd' ihe ihd =>
    -- nothing that is carried out has derivatives in it
    rw [← h.simplify] at hd
    obtain ⟨-, hnone⟩ := avoids_isDerivative_of_derive_simplify hd.derive
    rw [← hd'.simplify]
    exact keeps_of_avoids hnone.simplify
  | @kept s e e' x u h hu ih =>
    intro s' o' y hn
    rcases mem_subtrees_iff.mp hn with hroot | ⟨c, hc, hbelow⟩
    · cases hroot
      refine ⟨e, by simp [subtrees], h.simplify, ?_⟩
      cases hd : e.derive x with
      | error u => exact ⟨u, rfl⟩
      | ok d =>
        obtain ⟨d', hd'⟩ := exists_derive_simplify hd
        rw [h.simplify, hu.derive] at hd'
        cases hd'
    · obtain rfl := List.mem_singleton.mp hc
      exact ih.of_child (e := derivative s e x) (by simp [children]) s' o' y hbelow
  | @integral s e e' x x' he hx ihe ihx =>
    have hkeepse : Keeps (integral s e x) e' := ihe.of_child (by simp [children])
    have hkeepsx : Keeps (integral s e x) x' := ihx.of_child (by simp [children])
    exact keeps_of_children id (by simp [children, hkeepse, hkeepsx])
  | @definiteIntegral s e e' x x' a a' b b' he hx ha hb ihe ihx iha ihb =>
    have hkeepse : Keeps (definiteIntegral s e x a b) e' := ihe.of_child (by simp [children])
    have hkeepsx : Keeps (definiteIntegral s e x a b) x' := ihx.of_child (by simp [children])
    have hkeepsa : Keeps (definiteIntegral s e x a b) a' := iha.of_child (by simp [children])
    have hkeepsb : Keeps (definiteIntegral s e x a b) b' := ihb.of_child (by simp [children])
    exact keeps_of_children id (by simp [children, hkeepse, hkeepsx, hkeepsa, hkeepsb])
  | _ => exact keeps_of_avoids id

/-- **Simplification loses no derivative**: if an expression has one, so has its simplified form, and the derivative of it
    is carried out for good, however many derivatives there are within. So a derivative is kept only if it is one of
    the expression's, and differentiating its operand as it stood fails as well. -/
theorem carried_out_of_derive (e : Expr ν) (x : String) :
    (∀ d, e.derive x = .ok d →
      (∃ d', e.simplify.derive x = .ok d') ∧ ∀ s, (derivative s e x).simplify.Avoids IsDerivative) ∧
    ∀ s o' y, derivative s o' y ∈ e.simplify.subtrees →
      ∃ o, derivative s o y ∈ e.subtrees ∧ o.simplify = o' ∧ ∃ u, o.derive y = .error u := by
  refine ⟨fun d h => ?_, keeps_of_simplifies (simplifies_simplify e)⟩
  obtain ⟨d', hd'⟩ := exists_derive_simplify h
  refine ⟨⟨d', hd'⟩, fun s => ?_⟩
  rw [simplify_derivative, hd']
  exact (avoids_isDerivative_of_derive_simplify hd').2.simplify

/-- A quotient of a derivative, in which simplification carries out the derivative first. -/
theorem carried_out_of_derive_quotient :
    let x : Expr Float := .var .nowhere "x"
    let y : Expr Float := .var .nowhere "y"
    let e : Expr Float := .binary .nowhere .div (.derivative .nowhere (.binary .nowhere .mul x x) "x") y
    let simplified : Expr Float := .binary .nowhere .div (.binary .nowhere .add x x) y
    (∃ d, e.derive "y" = .ok d) ∧ e.simplify = simplified ∧ (∃ d', simplified.derive "y" = .ok d') ∧
      (derivative .nowhere e "y").simplify.Avoids IsDerivative := by
  intro x y e simplified
  have h : ∃ d, e.derive "y" = .ok d := ⟨_, rfl⟩
  have hsimplified : e.simplify = simplified := by decide +kernel
  obtain ⟨d, hd⟩ := h
  obtain ⟨hsimplify, hcarried⟩ := (carried_out_of_derive e "y").1 d hd
  rw [hsimplified] at hsimplify
  exact ⟨⟨d, hd⟩, hsimplified, hsimplify, hcarried .nowhere⟩

end Formula.Expr
