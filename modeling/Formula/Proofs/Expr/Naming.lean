import Formula.Expr.Basic
import Formula.Proofs.Lexis.Spelling

/-!
# `Formula.Proofs.Expr.Naming` — expressions whose names are known

Trees can be built over any texts as names and any numbers as constants. What can be told from their written forms is
told of those whose variables have names that the input language could read and whose constants are the ones that can be
looked up; there may be integrals and all kinds of literals in them.

## Contents
- `NamesKnown` — such expressions.
- `Constant.mem_all_of_lookup?`, `Constant.eq_of_name` — what is known of constants that can be looked up.
-/

namespace Formula

namespace Constant

theorem mem_all_of_lookup? {name : String} {c : Constant} (h : lookup? name = some c) : c ∈ all :=
  List.mem_of_find?_eq_some h

/-- Constants that can be looked up are told apart by their names. -/
theorem eq_of_name {c d : Constant} (hc : c ∈ all) (hd : d ∈ all) (h : c.name = d.name) : c = d := by
  simp only [all, List.mem_cons, List.not_mem_nil, or_false] at hc hd
  rcases hc with rfl | rfl | rfl <;> rcases hd with rfl | rfl | rfl <;> first | rfl | exact absurd h (by decide)

end Constant

namespace Expr

variable {ν : Type}

/-- **An expression whose names are known**: its variables have names of the input language, and its constants can be
    looked up. -/
@[simp] def NamesKnown : Expr ν → Prop
  | paren _ e => e.NamesKnown
  | constant _ c => ∃ name, Constant.lookup? name = some c
  | imaginary _ => True
  | var _ x => IsName x
  | literal _ _ => True
  | binary _ _ l r => l.NamesKnown ∧ r.NamesKnown
  | unary _ _ e => e.NamesKnown
  | derivative _ e x => e.NamesKnown ∧ IsName x
  | integral _ e x => e.NamesKnown ∧ x.NamesKnown
  | definiteIntegral _ e x a b => e.NamesKnown ∧ x.NamesKnown ∧ a.NamesKnown ∧ b.NamesKnown

end Expr

end Formula
