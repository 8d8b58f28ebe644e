import Formula.Expr.Basic

/-!
# `Formula.Expr.Outline` — expressions as indented lines

An outline has one line for each node, before the lines of its children. A line is indented by two blanks for
each level and names the node, with a detail for nodes that have one.
-/

namespace Formula.Expr

variable {ν : Type} [Numeral ν]

/-- What a line shows after the node's name. -/
def detail : Expr ν → String
  | constant _ c => " " ++ c.name
  | var _ x => " " ++ x
  | literal _ v => " " ++ Numeral.describe v
  | derivative _ _ x => " wrt " ++ x
  | _ => ""

/-- The line of one node. -/
def outlineLine (depth : Nat) (e : Expr ν) : String :=
  String.ofList (List.replicate (2 * depth) ' ') ++ e.nodeName ++ e.detail

/-- The lines of a tree whose root is at the given depth. -/
def outline (depth : Nat) : Expr ν → List String
  | t@(paren _ e) => outlineLine depth t :: e.outline (depth + 1)
  | t@(constant _ _) => [outlineLine depth t]
  | t@(imaginary _) => [outlineLine depth t]
  | t@(var _ _) => [outlineLine depth t]
  | t@(literal _ _) => [outlineLine depth t]
  | t@(binary _ _ l r) => outlineLine depth t :: (l.outline (depth + 1) ++ r.outline (depth + 1))
  | t@(unary _ _ e) => outlineLine depth t :: e.outline (depth + 1)
  | t@(derivative _ e _) => outlineLine depth t :: e.outline (depth + 1)
  | t@(integral _ e x) => outlineLine depth t :: (e.outline (depth + 1) ++ x.outline (depth + 1))
  | t@(definiteIntegral _ e x a b) => outlineLine depth t ::
      (e.outline (depth + 1) ++ x.outline (depth + 1) ++ a.outline (depth + 1) ++ b.outline (depth + 1))

end Formula.Expr
