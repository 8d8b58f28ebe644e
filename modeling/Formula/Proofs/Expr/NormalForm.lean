import Formula.Expr.Simplify
import Formula.Number.Double
import Formula.Proofs.Expr.Operands

/-!
# `Formula.Proofs.Expr.NormalForm` — the normal form that simplification reaches

A tree is *normal* when none of the changes that simplification makes applies at any of its nodes: no parentheses,
no operation on literals that can be carried out, no neutral or annihilating literal, and no derivative that has a
rule. Simplification ends in a normal tree, and it leaves a normal tree alone, spans included. That it changes
nothing the second time follows from the two.

## Contents
- `IsReduced`, `Normal` — no change applies at the root, at any node.
- `normal_simplifyBinary`, `normal_simplifyUnary` — one operation over normal operands.
- `normal_simplify` — the simplified form is normal.
- `simplify_of_normal` — a normal tree is its own simplified form.
- `simplify_normal_form` — both, with idempotence.
-/

namespace Formula.Expr

variable {ν : Type} [Arithmetic ν]

/-- **Whether no change that simplification makes applies at the root.** -/
def IsReduced : Expr ν → Prop
  | paren _ _ => False
  | binary _ op l r => (l.literal? = none ∨ r.literal? = none) ∧
    match op with
    | .add => l.isZero = false ∧ r.isZero = false
    | .sub => r.isZero = false
    | .mul => (l.isZero = false ∧ l.isOne = false) ∧ r.isZero = false ∧ r.isOne = false
    | .juxtapose => (l.isZero = false ∧ l.isOne = false) ∧ r.isZero = false ∧ r.isOne = false
    | .div => l.isZero = false ∧ r.isOne = false
    | .pow => True
  | unary _ op e => ∀ v, e.literal? = some v → Arithmetic.unary op v = none
  | derivative _ e x => ∃ err, e.derive x = .error err
  | _ => True

/-- **A normal tree**: no change applies at any node. -/
def Normal (e : Expr ν) : Prop := ∀ n ∈ e.subtrees, n.IsReduced

/-- A tree is normal when its root is reduced and what is below the root is normal. -/
theorem normal_iff (e : Expr ν) : Normal e ↔ e.IsReduced ∧ ∀ c ∈ e.children, Normal c := by
  cases e <;> simp [Normal, subtrees, children, or_imp, forall_and]

theorem not_normal_paren (s : Span) (e : Expr ν) : ¬ Normal (paren s e) := by
  intro h
  exact ((normal_iff _).mp h).1

/-- Nothing below a leaf could be changed. -/
theorem normal_of_children_eq_nil {e : Expr ν} (hroot : e.IsReduced) (hleaf : e.children = []) : Normal e := by
  rw [normal_iff, hleaf]
  exact ⟨hroot, List.forall_mem_nil _⟩

theorem normal_literal (s : Span) (v : ν) : Normal (literal s v) := normal_of_children_eq_nil trivial rfl

@[simp] theorem normal_binary {s : Span} {op : BinaryOp} {l r : Expr ν} :
    Normal (binary s op l r) ↔ (binary s op l r).IsReduced ∧ Normal l ∧ Normal r := by
  rw [normal_iff]
  simp [children]

@[simp] theorem normal_unary {s : Span} {op : UnaryOp} {e : Expr ν} :
    Normal (unary s op e) ↔ (unary s op e).IsReduced ∧ Normal e := by
  rw [normal_iff]
  simp [children]

@[simp] theorem normal_derivative {s : Span} {e : Expr ν} {x : String} :
    Normal (derivative s e x) ↔ (∃ err, e.derive x = .error err) ∧ Normal e := by
  rw [normal_iff]
  simp [children, IsReduced]

@[simp] theorem normal_integral {s : Span} {e x : Expr ν} : Normal (integral s e x) ↔ Normal e ∧ Normal x := by
  rw [normal_iff]
  simp [children, IsReduced]

@[simp] theorem normal_definiteIntegral {s : Span} {e x a b : Expr ν} :
    Normal (definiteIntegral s e x a b) ↔ Normal e ∧ Normal x ∧ Normal a ∧ Normal b := by
  rw [normal_iff]
  simp [children, IsReduced]

/-! ## The simplified form is normal -/

/-- A product of normal factors that are not both literals. -/
theorem normal_simplifyProduct {s : Span} {op : BinaryOp} {l r : Expr ν} (hl : Normal l) (hr : Normal r)
    (hop : (l.isZero = false ∧ l.isOne = false) ∧ r.isZero = false ∧ r.isOne = false → (binary s op l r).IsReduced) :
    Normal (simplifyProduct s op l r) := by
  unfold simplifyProduct
  by_cases hleft : (l.isZero || r.isOne) = true
  · rw [if_pos hleft]
    exact hl
  · by_cases hright : (r.isZero || l.isOne) = true
    · rw [if_neg hleft, if_pos hright]
      exact hr
    · rw [if_neg hleft, if_neg hright]
      simp only [Bool.or_eq_true, not_or, Bool.not_eq_true] at hleft hright
      exact normal_binary.mpr ⟨hop ⟨⟨hleft.1, hright.2⟩, hright.1, hleft.2⟩, hl, hr⟩

/-- What an operation on normal operands comes to is normal: where it stays, every change has been ruled out. -/
theorem normal_simplifyBinary (s : Span) (op : BinaryOp) {l r : Expr ν} (hl : Normal l) (hr : Normal r) :
    Normal (simplifyBinary s op l r) := by
  unfold simplifyBinary
  split
  · exact normal_literal s _
  · next hliterals =>
    have hnone : l.literal? = none ∨ r.literal? = none := by
      cases hlv : l.literal? with
      | none => exact Or.inl rfl
      | some a =>
        cases hrv : r.literal? with
        | none => exact Or.inr rfl
        | some b => exact absurd hrv (hliterals a b hlv)
    cases op with
    | add =>
      simp only [simplifyOperation]
      by_cases hrz : r.isZero = true
      · rwa [if_pos hrz]
      · by_cases hlz : l.isZero = true
        · rwa [if_neg hrz, if_pos hlz]
        · rw [if_neg hrz, if_neg hlz]
          rw [Bool.not_eq_true] at hrz hlz
          exact normal_binary.mpr ⟨⟨hnone, hlz, hrz⟩, hl, hr⟩
    | sub =>
      simp only [simplifyOperation]
      by_cases hrz : r.isZero = true
      · rwa [if_pos hrz]
      · rw [if_neg hrz]
        rw [Bool.not_eq_true] at hrz
        exact normal_binary.mpr ⟨⟨hnone, hrz⟩, hl, hr⟩
    | mul => exact normal_simplifyProduct hl hr fun h => ⟨hnone, h⟩
    | juxtapose => exact normal_simplifyProduct hl hr fun h => ⟨hnone, h⟩
    | div =>
      simp only [simplifyOperation]
      by_cases hdiv : (l.isZero || r.isOne) = true
      · rwa [if_pos hdiv]
      · rw [if_neg hdiv]
        simp only [Bool.or_eq_true, not_or, Bool.not_eq_true] at hdiv
        exact normal_binary.mpr ⟨⟨hnone, hdiv⟩, hl, hr⟩
    | pow => exact normal_binary.mpr ⟨⟨hnone, trivial⟩, hl, hr⟩

theorem normal_simplifyUnary (s : Span) (op : UnaryOp) {e : Expr ν} (he : Normal e) :
    Normal (simplifyUnary s op e) := by
  unfold simplifyUnary
  split
  · exact normal_literal s _
  · next hnone =>
    refine normal_unary.mpr ⟨?_, he⟩
    intro v hv
    rwa [hv] at hnone

/-- Simplification gives a normal tree, if that holds of the derivatives that are carried out. -/
theorem normal_simplifyWith {again : Expr ν → Expr ν} {e : Expr ν}
    (h : e.derivativeDepth = 0 ∨
      ∀ d, d.derivativeDepth = 0 → (again d).derivativeDepth = 0 ∧ Normal (again d)) :
    Normal (simplifyWith again e) := by
  induction e with
  | paren s e ih => exact ih h
  | constant s c => exact normal_of_children_eq_nil trivial rfl
  | imaginary s => exact normal_of_children_eq_nil trivial rfl
  | var s x => exact normal_of_children_eq_nil trivial rfl
  | literal s v => exact normal_literal s v
  | binary s op l r ihl ihr =>
    simp only [derivativeDepth, Nat.max_eq_zero_iff] at h
    have hl := ihl (h.imp And.left id)
    have hr := ihr (h.imp And.right id)
    exact normal_simplifyBinary s op hl hr
  | unary s op e ih => exact normal_simplifyUnary s op (ih h)
  | derivative s e x ih =>
    rcases h with hdepth | hagain
    · cases hdepth
    · have he := ih (Or.inr hagain)
      simp only [simplifyWith]
      split
      · next d hd =>
        -- the operand is settled, so that its derivative holds no derivatives
        have hsettled := settled_simplifyWith (fun d h => (hagain d h).1) e
        have hdepth := derivativeDepth_derive hd
        rw [hsettled.derivativeDepth_eq_zero hd] at hdepth
        exact (hagain d (Nat.le_zero.mp hdepth)).2
      · next err herr => exact normal_derivative.mpr ⟨⟨err, herr⟩, he⟩
  | integral s e x ihe ihx =>
    simp only [derivativeDepth, Nat.max_eq_zero_iff] at h
    have he := ihe (h.imp And.left id)
    have hx := ihx (h.imp And.right id)
    exact normal_integral.mpr ⟨he, hx⟩
  | definiteIntegral s e x a b ihe ihx iha ihb =>
    simp only [derivativeDepth, Nat.max_eq_zero_iff] at h
    have he := ihe (h.imp (·.1.1) id)
    have hx := ihx (h.imp (·.1.2) id)
    have ha := iha (h.imp (·.2.1) id)
    have hb := ihb (h.imp (·.2.2) id)
    exact normal_definiteIntegral.mpr ⟨he, hx, ha, hb⟩

/-- **The simplified form is normal.** -/
theorem normal_simplify (e : Expr ν) : Normal e.simplify := by
  apply normal_simplifyWith
  refine Or.inr fun d hdepth => ⟨derivativeDepth_simplifyWith hdepth, ?_⟩
  exact normal_simplifyWith (Or.inl hdepth)

/-! ## A normal tree is its own simplified form -/

/-- Where the root is reduced, none of the rules for an operation applies. -/
theorem simplifyBinary_of_isReduced {s : Span} {op : BinaryOp} {l r : Expr ν} (h : (binary s op l r).IsReduced) :
    simplifyBinary s op l r = binary s op l r := by
  obtain ⟨hnone, hop⟩ := h
  rw [simplifyBinary_eq_simplifyOperation hnone]
  cases op <;> simp_all [simplifyOperation, simplifyProduct]

theorem simplifyUnary_of_isReduced {s : Span} {op : UnaryOp} {e : Expr ν} (h : (unary s op e).IsReduced) :
    simplifyUnary s op e = unary s op e := by
  have hnone : e.literal?.bind (Arithmetic.unary op) = none := by
    cases hv : e.literal? with
    | none => rfl
    | some v => exact h v hv
  rw [simplifyUnary, hnone]

/-- **A normal tree is left alone**, spans included, by induction on the tree. -/
theorem simplifyWith_of_normal (again : Expr ν → Expr ν) {e : Expr ν} (h : Normal e) : simplifyWith again e = e := by
  induction e with
  | paren s e ih => exact absurd h (not_normal_paren s e)
  | binary s op l r ihl ihr =>
    obtain ⟨hroot, hl, hr⟩ := normal_binary.mp h
    rw [simplifyWith, ihl hl, ihr hr]
    exact simplifyBinary_of_isReduced hroot
  | unary s op e ih =>
    obtain ⟨hroot, he⟩ := normal_unary.mp h
    rw [simplifyWith, ih he]
    exact simplifyUnary_of_isReduced hroot
  | derivative s e x ih =>
    obtain ⟨⟨err, herr⟩, he⟩ := normal_derivative.mp h
    simp only [simplifyWith, ih he, herr]
  | integral s e x ihe ihx =>
    obtain ⟨he, hx⟩ := normal_integral.mp h
    rw [simplifyWith, ihe he, ihx hx]
  | definiteIntegral s e x a b ihe ihx iha ihb =>
    obtain ⟨he, hx, ha, hb⟩ := normal_definiteIntegral.mp h
    rw [simplifyWith, ihe he, ihx hx, iha ha, ihb hb]
  | _ => rfl

theorem simplify_of_normal {e : Expr ν} (h : Normal e) : e.simplify = e := simplifyWith_of_normal _ h

/-- Simplifying is idempotent. -/
theorem simplify_simplify (e : Expr ν) : e.simplify.simplify = e.simplify := simplify_of_normal (normal_simplify e)

/-- **The normal form of an expression**: simplification ends in a normal tree, whatever the expression; a normal tree
    is left alone, spans included; and so the second simplification changes nothing. -/
theorem simplify_normal_form (e : Expr ν) :
    Normal e.simplify ∧ (Normal e → e.simplify = e) ∧ e.simplify.simplify = e.simplify :=
  ⟨normal_simplify e, simplify_of_normal, simplify_simplify e⟩

/-- A derivative without a rule, in a sum below an integral. -/
theorem simplify_normal_form_derivative :
    let x : Expr Float := .var ⟨0, 1⟩ "x"
    let power : Expr Float := .binary ⟨1, 4⟩ .pow x x
    let e : Expr Float := .integral ⟨0, 9⟩ (.binary ⟨0, 8⟩ .add (.derivative ⟨0, 4⟩ power "x") (.literal ⟨5, 8⟩ 2)) x
    Normal e ∧ e.simplify = e := by
  intro x power e
  have hx : Normal x := normal_of_children_eq_nil trivial rfl
  have hpower : Normal power := normal_binary.mpr ⟨⟨Or.inl rfl, trivial⟩, hx, hx⟩
  have hderivative : Normal (.derivative ⟨0, 4⟩ power "x") := normal_derivative.mpr ⟨⟨.power, rfl⟩, hpower⟩
  have htwo : (literal ⟨5, 8⟩ 2 : Expr Float).isZero = false := by decide +kernel
  have hnormal : Normal e :=
    normal_integral.mpr ⟨normal_binary.mpr ⟨⟨Or.inl rfl, rfl, htwo⟩, hderivative, normal_literal _ _⟩, hx⟩
  exact ⟨hnormal, (simplify_normal_form e).2.1 hnormal⟩

end Formula.Expr
