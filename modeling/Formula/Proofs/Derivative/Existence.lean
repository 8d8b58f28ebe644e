import Formula.Number.Double
import Formula.Proofs.Derivative.Rules
import Formula.Proofs.Expr.Constructs

/-!
# `Formula.Proofs.Derivative.Existence` — which expressions have a derivative

Powers, factorials and integrals have no rule, wherever they stand. A quotient has one, but the rule brings in a power,
so that a quotient cannot be differentiated twice: within the operand of a derivative none may stand. That is all; in
particular the variable does not matter.

## Contents
- `Foreign`, `Derives.avoids` — what no rule but that of quotients brings in.
- `Derives.avoids_lacksRule`, `Derives.avoids_isQuotient` — what must be missing for one derivative, and for a second.
- `Derives.avoids_derivesQuotient`, `Refuses.not_avoids` — the condition, from success and from failure.
- `exists_derive_iff` — the condition is exact.
-/

namespace Formula.Expr

variable {ν : Type}

/-- A derivative that is to be taken of an expression with a quotient in it. -/
def DerivesQuotient : Expr ν → Prop
  | derivative _ e _ => ¬ e.Avoids IsQuotient
  | _ => False

/-- Where there are no quotients, none is differentiated. -/
theorem Avoids.derivesQuotient {e : Expr ν} (h : e.Avoids IsQuotient) : e.Avoids DerivesQuotient := by
  induction e <;> simp_all [DerivesQuotient]

/-- In terms of the derivatives in a tree. -/
theorem avoids_derivesQuotient_iff {e : Expr ν} :
    e.Avoids DerivesQuotient ↔ ∀ s o y, derivative s o y ∈ e.subtrees → o.Avoids IsQuotient := by
  rw [avoids_iff]
  constructor
  · intro h s o y ho
    exact not_not.mp (h _ ho)
  · intro h n hn hq
    cases n with
    | derivative s o y => exact hq (h s o y hn)
    | _ => exact hq

/-- **A construct that no rule brings in**, that of quotients apart. -/
structure Foreign (P : Expr ν → Prop) : Prop where
  literal (s : Span) (v : ν) : ¬ P (literal s v)
  operation (s : Span) {op : BinaryOp} (l r : Expr ν) : op = .add ∨ op = .sub ∨ op = .mul → ¬ P (binary s op l r)
  negation (s : Span) (e : Expr ν) : ¬ P (unary s .neg e)

theorem foreign_lacksRule : Foreign (LacksRule (ν := ν)) where
  literal _ _ := id
  operation _ _ _ _ hop := by rcases hop with rfl | rfl | rfl <;> exact nofun
  negation _ _ := nofun

theorem foreign_isQuotient : Foreign (IsQuotient (ν := ν)) where
  literal _ _ := id
  operation _ _ _ _ hop := by rcases hop with rfl | rfl | rfl <;> exact nofun
  negation _ _ := id

theorem foreign_isVariable (y : String) : Foreign (IsVariable (ν := ν) y) where
  literal _ _ := id
  operation _ _ _ _ _ := id
  negation _ _ := id

theorem Foreign.or {P Q : Expr ν → Prop} (hP : Foreign P) (hQ : Foreign Q) : Foreign fun n => P n ∨ Q n where
  literal s v := not_or.mpr ⟨hP.literal s v, hQ.literal s v⟩
  operation s _ l r hop := not_or.mpr ⟨hP.operation s l r hop, hQ.operation s l r hop⟩
  negation s e := not_or.mpr ⟨hP.negation s e, hQ.negation s e⟩

variable [Arithmetic ν] {e d : Expr ν} {x : String} {u : Unsupported}

/-- A derivative avoids what the expression avoids, if quotients are among it and no rule but theirs brings it in. -/
theorem Derives.avoids_of_isQuotient {P : Expr ν → Prop} (hP : Foreign P) (hquotient : ∀ n : Expr ν, n.IsQuotient → P n)
    (h : Derives e x d) (he : e.Avoids P) : d.Avoids P := by
  induction h with
  | paren s h ih => exact ih he.2
  | constant s c x => exact hP.literal s _
  | imaginary s x => exact hP.literal s _
  | var s y x => exact hP.literal s _
  | literal s v x => exact hP.literal s _
  | sum s hop hl hr ihl ihr =>
    obtain ⟨-, hel, her⟩ := he
    exact ⟨hP.operation s _ _ (hop.imp_right Or.inl), ihl hel, ihr her⟩
  | product s hop hl hr ihl ihr =>
    obtain ⟨-, hel, her⟩ := he
    have hmul : ∀ {a b : Expr ν}, a.Avoids P → b.Avoids P → (binary s .mul a b).Avoids P := fun ha hb =>
      ⟨hP.operation s _ _ (Or.inr (Or.inr rfl)), ha, hb⟩
    exact ⟨hP.operation s _ _ (Or.inl rfl), hmul (ihl hel) her, hmul hel (ihr her)⟩
  | quotient s hl hr ihl ihr => exact absurd (hquotient (binary s .div _ _) rfl) he.1
  | negation s h ih => exact ⟨hP.negation s _, ih he.2⟩
  | derivative s inner outer ihinner ihouter => exact ihouter (ihinner he.2)

/-- **The derivative of an expression without quotients** has none either, and avoids whatever else the expression avoids
    and no rule brings in. -/
theorem Derives.avoids {P : Expr ν → Prop} (hP : Foreign P) (h : Derives e x d) (he : e.Avoids P)
    (hquotient : e.Avoids IsQuotient) : d.Avoids P ∧ d.Avoids IsQuotient :=
  avoids_or.mp (h.avoids_of_isQuotient (hP.or foreign_isQuotient) (fun _ => Or.inr) (avoids_or.mpr ⟨he, hquotient⟩))

/-! ## What must be missing -/

/-- **An expression that has a derivative holds nothing without a rule.** -/
theorem Derives.avoids_lacksRule (h : Derives e x d) : e.Avoids LacksRule := by
  induction h with
  | sum s hop hl hr ihl ihr | product s hop hl hr ihl ihr =>
    exact ⟨by rcases hop with rfl | rfl <;> exact nofun, ihl, ihr⟩
  | quotient s hl hr ihl ihr => exact ⟨nofun, ihl, ihr⟩
  | negation s h ih => exact ⟨nofun, ih⟩
  | paren s h ih => exact ⟨id, ih⟩
  | derivative s inner outer ihinner ihouter => exact ⟨id, ihinner⟩
  | _ => exact id

/-- **An expression whose derivative holds nothing without a rule has no quotients**: the rule of each would have brought
    in a power. -/
theorem Derives.avoids_isQuotient (h : Derives e x d) (hd : d.Avoids LacksRule) : e.Avoids IsQuotient := by
  induction h with
  | sum s hop hl hr ihl ihr =>
    obtain ⟨-, hdl, hdr⟩ := hd
    exact ⟨by rcases hop with rfl | rfl <;> exact nofun, ihl hdl, ihr hdr⟩
  | product s hop hl hr ihl ihr =>
    obtain ⟨-, ⟨-, hdl, -⟩, ⟨-, -, hdr⟩⟩ := hd
    exact ⟨by rcases hop with rfl | rfl <;> exact nofun, ihl hdl, ihr hdr⟩
  | quotient s hl hr ihl ihr =>
    obtain ⟨-, -, hpower, -⟩ := hd
    exact absurd rfl hpower
  | negation s h ih => exact ⟨id, ih hd.2⟩
  | paren s h ih => exact ⟨id, ih hd⟩
  | derivative s inner outer ihinner ihouter => exact ⟨id, ihinner outer.avoids_lacksRule⟩
  | _ => exact id

/-- **Nor does it differentiate a quotient**: what comes of the inner derivative has one itself. -/
theorem Derives.avoids_derivesQuotient (h : Derives e x d) : e.Avoids DerivesQuotient := by
  induction h with
  | sum s hop hl hr ihl ihr | product s hop hl hr ihl ihr => exact ⟨id, ihl, ihr⟩
  | quotient s hl hr ihl ihr => exact ⟨id, ihl, ihr⟩
  | negation s h ih | paren s h ih => exact ⟨id, ih⟩
  | derivative s inner outer ihinner ihouter =>
    exact ⟨not_not.mpr (inner.avoids_isQuotient outer.avoids_lacksRule), ihinner⟩
  | _ => exact id

/-- **Where no rule applies, one of the two is there.** A second derivative is refused only on account of a quotient or
    of a construct without a rule in the operand, since a first derivative brings in neither by itself. -/
theorem Refuses.not_avoids (h : Refuses e x u) : ¬ (e.Avoids LacksRule ∧ e.Avoids DerivesQuotient) := by
  induction h with
  | paren s h ih | negation s h ih => exact fun he => ih ⟨he.1.2, he.2.2⟩
  | power s l r x => exact fun he => he.1.1 rfl
  | left s hop r h ih => exact fun he => ih ⟨he.1.2.1, he.2.2.1⟩
  | right s hop hl h ih => exact fun he => ih ⟨he.1.2.2, he.2.2.2⟩
  | factorial s e x => exact fun he => he.1.1 rfl
  | inner s x h ih => exact fun he => ih ⟨he.1.2, he.2.2⟩
  | outer s h hde ih =>
    rintro ⟨⟨-, hrule⟩, hquotient, -⟩
    obtain ⟨hrule, hquotient⟩ := h.avoids foreign_lacksRule hrule (not_not.mp hquotient)
    exact ih ⟨hrule, hquotient.derivesQuotient⟩
  | integral s e y x => exact fun he => he.1.1 trivial
  | definiteIntegral s e y a b x => exact fun he => he.1.1 trivial

/-! ## The condition -/

/-- An expression has a derivative just when it holds nothing without a rule and differentiates no quotient. -/
theorem exists_derives_iff : (∃ d, Derives e x d) ↔ e.Avoids LacksRule ∧ e.Avoids DerivesQuotient := by
  refine ⟨fun ⟨d, h⟩ => ⟨h.avoids_lacksRule, h.avoids_derivesQuotient⟩, fun h => ?_⟩
  cases hd : e.derive x with
  | ok d => exact ⟨d, derives_iff.mpr hd⟩
  | error u => exact absurd h (refuses_iff.mpr hd).not_avoids

/-- **Which expressions have a derivative**: those without powers, factorials and integrals anywhere and without quotients
    in the operands of their derivatives. Whether there is one does not depend on the variable, and a single node
    without a rule makes the whole expression fail. -/
theorem exists_derive_iff (e : Expr ν) (x : String) :
    ((∃ d, e.derive x = .ok d) ↔ (∀ n ∈ e.subtrees, ¬ n.LacksRule) ∧
      ∀ s o y, derivative s o y ∈ e.subtrees → ∀ n ∈ o.subtrees, ¬ n.IsQuotient) ∧
    (∀ y, (∃ d, e.derive x = .ok d) ↔ ∃ d, e.derive y = .ok d) ∧
    ∀ n ∈ e.subtrees, n.LacksRule → ∃ u, e.derive x = .error u := by
  have hiff : ∀ y, (∃ d, e.derive y = .ok d) ↔ e.Avoids LacksRule ∧ e.Avoids DerivesQuotient := fun y => by
    simp only [← derives_iff]
    exact exists_derives_iff
  refine ⟨?_, fun y => (hiff x).trans (hiff y).symm, fun n hn hrule => ?_⟩
  · rw [hiff, avoids_derivesQuotient_iff]
    simp only [avoids_iff]
  · cases hd : e.derive x with
    | ok d => exact absurd hrule (avoids_iff.mp ((hiff x).mp ⟨d, hd⟩).1 n hn)
    | error u => exact ⟨u, rfl⟩

/-- A quotient has one derivative, and no second one. -/
theorem exists_derive_iff_quotient :
    let x : Expr Float := .var .nowhere "x"
    let quotient : Expr Float := .binary .nowhere .div x x
    let first : Expr Float := .derivative .nowhere quotient "x"
    (∃ d, quotient.derive "x" = .ok d) ∧ (∀ n ∈ quotient.subtrees, ¬ n.LacksRule) ∧ ¬ ∃ d, first.derive "x" = .ok d := by
  intro x quotient first
  have hone : ∃ d, quotient.derive "x" = .ok d := ⟨_, rfl⟩
  refine ⟨hone, ((exists_derive_iff quotient "x").1.mp hone).1, fun htwo => ?_⟩
  have hfirst : first ∈ first.subtrees := mem_subtrees_iff.mpr (Or.inl rfl)
  have hquotient : quotient ∈ quotient.subtrees := mem_subtrees_iff.mpr (Or.inl rfl)
  exact ((exists_derive_iff first "x").1.mp htwo).2 _ _ _ hfirst quotient hquotient rfl

end Formula.Expr
