import Formula.Constant
import Formula.Operator
import Formula.Number.Numeral
import Formula.Text.Span

/-!
# `Formula.Expr.Basic` — expression trees

An expression is a tree over a type of literals. Every node carries the span of the text that it was read
from; spans serve diagnostics only, and `Expr.same` ignores them.

## Contents
- `Expr`, its `span`, `children` and `nodeName`.
- `literal?`, `binding?`, `bare` — what a node is under its parentheses.
- `primaryVariable?` — the variable that an expression is taken to be about.
- `same` — equality up to spans.
-/

namespace Formula

/-- An expression over literals of type `ν`. -/
inductive Expr (ν : Type) where
  /-- Parentheses that were written, kept so that the written form can be read back. -/
  | paren (span : Span) (inner : Expr ν)
  | constant (span : Span) (value : Constant)
  /-- The imaginary unit. -/
  | imaginary (span : Span)
  /-- A variable; a name with an underscore has a subscript. -/
  | var (span : Span) (name : String)
  | literal (span : Span) (value : ν)
  | binary (span : Span) (op : BinaryOp) (lhs rhs : Expr ν)
  | unary (span : Span) (op : UnaryOp) (operand : Expr ν)
  /-- The derivative of an operand by a variable, not yet carried out. -/
  | derivative (span : Span) (operand : Expr ν) (wrt : String)
  | integral (span : Span) (integrand wrt : Expr ν)
  | definiteIntegral (span : Span) (integrand wrt lower upper : Expr ν)
deriving DecidableEq, Inhabited

namespace Expr

variable {ν : Type}

/-- The span of the root. -/
def span : Expr ν → Span
  | paren s _ => s
  | constant s _ => s
  | imaginary s => s
  | var s _ => s
  | literal s _ => s
  | binary s _ _ _ => s
  | unary s _ _ => s
  | derivative s _ _ => s
  | integral s _ _ => s
  | definiteIntegral s _ _ _ _ => s

/-- The same tree with another span at its root. -/
def withSpan (s : Span) : Expr ν → Expr ν
  | paren _ e => paren s e
  | constant _ c => constant s c
  | imaginary _ => imaginary s
  | var _ x => var s x
  | literal _ v => literal s v
  | binary _ op l r => binary s op l r
  | unary _ op e => unary s op e
  | derivative _ e x => derivative s e x
  | integral _ e x => integral s e x
  | definiteIntegral _ e x a b => definiteIntegral s e x a b

/-- The children, from left to right. -/
def children : Expr ν → List (Expr ν)
  | paren _ e => [e]
  | constant _ _ => []
  | imaginary _ => []
  | var _ _ => []
  | literal _ _ => []
  | binary _ _ l r => [l, r]
  | unary _ _ e => [e]
  | derivative _ e _ => [e]
  | integral _ e x => [e, x]
  | definiteIntegral _ e x a b => [e, x, a, b]

/-- The name of a node with a binary operator. -/
def binaryName : BinaryOp → String
  | .add => "Add"
  | .sub => "Sub"
  | .mul => "Mul"
  | .juxtapose => "ImplicitMul"
  | .div => "Div"
  | .pow => "Exp"

/-- The name of a node with a unary operator. -/
def unaryName : UnaryOp → String
  | .neg => "Negation"
  | .factorial => "Factorial"

/-- The name of the root's kind. -/
def nodeName : Expr ν → String
  | paren _ _ => "Paren"
  | constant _ _ => "SymbolicConstant"
  | imaginary _ => "ImaginaryUnit"
  | var _ _ => "Var"
  | literal _ _ => "NumericLiteral"
  | binary _ op _ _ => binaryName op
  | unary _ op _ => unaryName op
  | derivative _ _ _ => "Derivative"
  | integral _ _ _ => "IndefiniteIntegral"
  | definiteIntegral _ _ _ _ _ => "DefiniteIntegral"

/-- The value of a literal. -/
def literal? : Expr ν → Option ν
  | literal _ v => some v
  | _ => none

/-- How the root binds, where it is an operator. -/
def binding? : Expr ν → Option Binding
  | binary _ op _ _ => some op.binding
  | unary _ op _ => some op.binding
  | _ => none

/-- The innermost node under any number of parentheses. -/
def bare : Expr ν → Expr ν
  | paren _ e => e.bare
  | e => e

/-- The first variable from left to right. A derivative answers with the variable that it is taken by, whatever
    its operand holds. -/
def primaryVariable? : Expr ν → Option String
  | paren _ e => e.primaryVariable?
  | constant _ _ => none
  | imaginary _ => none
  | var _ x => some x
  | literal _ _ => none
  | binary _ _ l r => l.primaryVariable? <|> r.primaryVariable?
  | unary _ _ e => e.primaryVariable?
  | derivative _ _ x => some x
  | integral _ e x => e.primaryVariable? <|> x.primaryVariable?
  | definiteIntegral _ e x a b =>
    e.primaryVariable? <|> x.primaryVariable? <|> a.primaryVariable? <|> b.primaryVariable?

/-- Equality of trees whatever their spans. Literals are compared as numbers. -/
def same [BEq ν] : Expr ν → Expr ν → Bool
  | paren _ e, paren _ e' => e.same e'
  | constant _ c, constant _ c' => c.same c'
  | imaginary _, imaginary _ => true
  | var _ x, var _ x' => x == x'
  | literal _ v, literal _ v' => v == v'
  | binary _ op l r, binary _ op' l' r' => op == op' && l.same l' && r.same r'
  | unary _ op e, unary _ op' e' => op == op' && e.same e'
  | derivative _ e x, derivative _ e' x' => e.same e' && x == x'
  | integral _ e x, integral _ e' x' => e.same e' && x.same x'
  | definiteIntegral _ e x a b, definiteIntegral _ e' x' a' b' =>
    e.same e' && x.same x' && a.same a' && b.same b'
  | _, _ => false

end Expr

end Formula
