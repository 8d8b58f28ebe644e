import Formula.Proofs.Expr.Grouping

/-!
# `Formula.Proofs.Expr.Operands` — the nodes of a tree and the operands that stand bare

A property of a whole tree is often one that each of its nodes has. Here that is the property of an operator's
operands to stand without parentheses where the written form would put none; what it says of the precedences of the
operators involved follows by looking at every pair of them once.

## Contents
- `subtrees` — the nodes of a tree; `induction_on_children`.
- `operands`, `StandsBare` — no operand of the root would be written in parentheses.
- `GroupsByPrecedence`, `StandsBare.groupsByPrecedence` — how operators are nested where operands stand bare.
-/

namespace Formula.Expr

variable {ν : Type}

/-- The nodes of a tree, each with all that is below it. -/
def subtrees : Expr ν → List (Expr ν)
  | t@(paren _ e) => t :: e.subtrees
  | t@(constant _ _) => [t]
  | t@(imaginary _) => [t]
  | t@(var _ _) => [t]
  | t@(literal _ _) => [t]
  | t@(binary _ _ l r) => t :: (l.subtrees ++ r.subtrees)
  | t@(unary _ _ e) => t :: e.subtrees
  | t@(derivative _ e _) => t :: e.subtrees
  | t@(integral _ e x) => t :: (e.subtrees ++ x.subtrees)
  | t@(definiteIntegral _ e x a b) => t :: (e.subtrees ++ x.subtrees ++ a.subtrees ++ b.subtrees)

/-- The nodes of a tree are its root and the nodes of its children. -/
theorem mem_subtrees_iff {n e : Expr ν} : n ∈ e.subtrees ↔ n = e ∨ ∃ c ∈ e.children, n ∈ c.subtrees := by
  cases e <;> simp [subtrees, children]

/-- What a tree has if all its children have it, every tree has. -/
theorem induction_on_children {P : Expr ν → Prop} (step : ∀ e, (∀ c ∈ e.children, P c) → P e) (e : Expr ν) : P e := by
  induction e <;> apply step <;> simp_all [children]

/-- The operands of the root, where it is an operator, each with the side on which it stands. -/
def operands : Expr ν → List (Side × Expr ν)
  | binary _ _ l r => [(.left, l), (.right, r)]
  | unary _ op e => [(unarySide op, e)]
  | _ => []

/-- **How operators are nested.** An operation between operands binds tighter than the operator that it is an
    operand of, or equally on the side to which that operator groups; and a negation is neither the base of a power
    nor the operand of a factorial. -/
def GroupsByPrecedence : Expr ν → Prop
  | binary _ op l r =>
    (∀ s op' a b, l = binary s op' a b → op.binding.precedence < op'.binding.precedence ∨
      op.binding.precedence = op'.binding.precedence ∧ op.binding.grouping = .left) ∧
    (∀ s op' a b, r = binary s op' a b → op.binding.precedence < op'.binding.precedence ∨
      op.binding.precedence = op'.binding.precedence ∧ op.binding.grouping = .right) ∧
    (op = .pow → ∀ s a, l ≠ unary s .neg a)
  | unary _ op e =>
    (∀ s op' a b, e = binary s op' a b → op.binding.precedence < op'.binding.precedence) ∧
    (op = .factorial → ∀ s a, e ≠ unary s .neg a)
  | _ => True

variable [Numeral ν]

/-- **Operands that stand bare**: none of the root's would be written in parentheses, literals apart. -/
def StandsBare (t : Expr ν) : Prop :=
  ∀ parent ∈ t.binding?, ∀ x ∈ t.operands, x.2.literal? = none → needsParens parent x.2 x.1 = false

/-- Nodes without operands have none in parentheses. -/
theorem standsBare_of_binding? {t : Expr ν} (h : t.binding? = none) : t.StandsBare := by
  intro parent hparent
  rw [h] at hparent
  cases hparent

theorem standsBare_binary {s : Span} {op : BinaryOp} {l r : Expr ν}
    (hl : l.literal? = none → needsParens op.binding l .left = false)
    (hr : r.literal? = none → needsParens op.binding r .right = false) : (binary s op l r).StandsBare := by
  intro parent hparent x hx
  obtain rfl := Option.some.inj hparent
  simp only [operands, List.mem_cons, List.not_mem_nil, or_false] at hx
  rcases hx with rfl | rfl
  · exact hl
  · exact hr

theorem standsBare_unary {s : Span} {op : UnaryOp} {e : Expr ν}
    (he : e.literal? = none → needsParens op.binding e (unarySide op) = false) : (unary s op e).StandsBare := by
  intro parent hparent x hx
  obtain rfl := Option.some.inj hparent
  simp only [operands, List.mem_cons, List.not_mem_nil, or_false] at hx
  subst hx
  exact he

/-- Whatever is no literal is written as it binds. -/
theorem writtenBinding?_of_literal? {e : Expr ν} (h : e.literal? = none) : e.writtenBinding? = e.binding? := by
  cases e <;> first | rfl | cases h

/-- **Where operands stand bare, operators are nested by precedence**: every pair of operators is looked at once. -/
theorem StandsBare.groupsByPrecedence {t : Expr ν} (h : t.StandsBare) : t.GroupsByPrecedence := by
  cases t with
  | binary s op l r =>
    have hl := h op.binding rfl (.left, l) List.mem_cons_self
    have hr := h op.binding rfl (.right, r) (List.mem_cons_of_mem _ List.mem_cons_self)
    refine ⟨?_, ?_, ?_⟩
    · rintro s' op' a b rfl
      have hbare : bindingNeedsParens op.binding op'.binding .left = false := hl rfl
      revert hbare
      cases op <;> cases op' <;> decide
    · rintro s' op' a b rfl
      have hbare : bindingNeedsParens op.binding op'.binding .right = false := hr rfl
      revert hbare
      cases op <;> cases op' <;> decide
    · rintro rfl s' a rfl
      cases hl rfl
  | unary s op e =>
    have he := h op.binding rfl (unarySide op, e) List.mem_cons_self
    refine ⟨?_, ?_⟩
    · rintro s' op' a b rfl
      have hbare : bindingNeedsParens op.binding op'.binding (unarySide op) = false := he rfl
      revert hbare
      cases op <;> cases op' <;> decide
    · rintro rfl s' a rfl
      cases he rfl
  | _ => trivial

end Formula.Expr
