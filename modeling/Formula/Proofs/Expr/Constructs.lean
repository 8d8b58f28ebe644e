import Formula.Expr.Derivative
import Formula.Proofs.Expr.Operands

/-!
# `Formula.Proofs.Expr.Constructs` — what an expression is built of

Whether an expression can be differentiated, and what comes of it, hangs on which constructs occur in it and not on how
they are put together. A construct is a property of single nodes, and a tree *avoids* it when no node has it.

## Contents
- `Avoids` — no node of a tree has a property; `avoids_iff` — in terms of the tree's nodes.
- `LacksRule`, `IsQuotient`, `IsDerivative`, `IsVariable` — the constructs that differentiation tells apart.
- `avoids_isDerivative_iff` — no derivatives are no levels of derivatives.
-/

namespace Formula.Expr

variable {ν : Type} {P Q : Expr ν → Prop}

/-- **No node of a tree has a property.** -/
@[simp] def Avoids (P : Expr ν → Prop) : Expr ν → Prop
  | t@(paren _ e) => ¬ P t ∧ e.Avoids P
  | t@(constant _ _) => ¬ P t
  | t@(imaginary _) => ¬ P t
  | t@(var _ _) => ¬ P t
  | t@(literal _ _) => ¬ P t
  | t@(binary _ _ l r) => ¬ P t ∧ l.Avoids P ∧ r.Avoids P
  | t@(unary _ _ e) => ¬ P t ∧ e.Avoids P
  | t@(derivative _ e _) => ¬ P t ∧ e.Avoids P
  | t@(integral _ e x) => ¬ P t ∧ e.Avoids P ∧ x.Avoids P
  | t@(definiteIntegral _ e x a b) => ¬ P t ∧ e.Avoids P ∧ x.Avoids P ∧ a.Avoids P ∧ b.Avoids P

theorem avoids_iff {e : Expr ν} : e.Avoids P ↔ ∀ n ∈ e.subtrees, ¬ P n := by
  induction e <;> simp_all [subtrees, or_imp, forall_and]

theorem Avoids.mono {e : Expr ν} (h : e.Avoids P) (hPQ : ∀ n, Q n → P n) : e.Avoids Q := by
  rw [avoids_iff] at *
  exact fun n hn hQ => h n hn (hPQ n hQ)

theorem avoids_or {e : Expr ν} : (e.Avoids fun n => P n ∨ Q n) ↔ e.Avoids P ∧ e.Avoids Q := by
  simp only [avoids_iff, not_or, forall_and]

/-- What a tree avoids, its root and its children avoid. -/
theorem avoids_iff_children {e : Expr ν} : e.Avoids P ↔ ¬ P e ∧ ∀ c ∈ e.children, c.Avoids P := by
  cases e <;> simp [children]

/-! ## The constructs -/

/-- Powers, factorials and integrals have no rule. -/
def LacksRule : Expr ν → Prop
  | binary _ op _ _ => op = .pow
  | unary _ op _ => op = .factorial
  | integral _ _ _ => True
  | definiteIntegral _ _ _ _ _ => True
  | _ => False

/-- A quotient, whose rule brings in a power. -/
def IsQuotient : Expr ν → Prop
  | binary _ op _ _ => op = .div
  | _ => False

/-- A derivative that has not been carried out. -/
def IsDerivative : Expr ν → Prop
  | derivative _ _ _ => True
  | _ => False

/-- A variable by its name. -/
def IsVariable (y : String) : Expr ν → Prop
  | var _ z => z = y
  | _ => False

/-- A tree without derivatives has no levels of them. -/
theorem avoids_isDerivative_iff {e : Expr ν} : e.Avoids IsDerivative ↔ e.derivativeDepth = 0 := by
  induction e <;> simp_all [IsDerivative, derivativeDepth]

end Formula.Expr
