import Formula.Expr.Basic

/-!
# `Formula.Expr.Parens` — where written forms need parentheses

An operand is put in parentheses when, read back without them, it would not be that operand:

- an operation between operands, when it binds looser than its parent, or equally on the side to which the
  parent does not group (`a - (b - c)`, `(a ^ b) ^ c`);
- an operator before its operand, when it binds looser and stands on the left (`(-a) ^ b`);
- an operator after its operand, when it binds looser and stands on the right.

A literal binds as it is written: with a minus sign as a negation, infinite or undefined as the quotient that
stands for it.
-/

namespace Formula

/-- Which operand of its parent a child is. -/
inductive Side where
  | left
  | right
deriving DecidableEq, Repr

namespace Expr

variable {ν : Type} [Numeral ν]

/-- How a literal binds as it is written. -/
def literalBinding? (v : ν) : Option Binding :=
  match Numeral.shape v with
  | .undefined => some BinaryOp.div.binding
  | .infinite true => some UnaryOp.neg.binding
  | .infinite false => some BinaryOp.div.binding
  | .finite true => some UnaryOp.neg.binding
  | .finite false => none

/-- How an expression binds as it is written; nothing for what no operator can tear apart. -/
def writtenBinding? : Expr ν → Option Binding
  | literal _ v => literalBinding? v
  | e => e.binding?

/-- The side on which an operand of an equally binding parent is put in parentheses. -/
def regroups (grouping : Grouping) (side : Side) : Bool :=
  match grouping, side with
  | .left, side => side == .right
  | .right, side => side == .left
  | .neither, _ => true

/-- Whether an operand that binds as `child`, on one side of an operator that binds as `parent`, needs
    parentheses. -/
def bindingNeedsParens (parent child : Binding) (side : Side) : Bool :=
  match child.fixity with
  | .between => child.precedence < parent.precedence ||
      (child.precedence == parent.precedence && regroups parent.grouping side)
  | .before => side == .left && child.precedence < parent.precedence
  | .after => side == .right && child.precedence < parent.precedence

/-- Whether a child needs parentheses as an operand of an operator that binds as `parent`. -/
def needsParens (parent : Binding) (child : Expr ν) (side : Side) : Bool :=
  child.writtenBinding?.any (bindingNeedsParens parent · side)

/-- The side on which the operand of a unary operator stands. -/
def unarySide (op : UnaryOp) : Side := if op.leads then .right else .left

/-- Whether the written form begins with a minus sign or a keyword, so that it cannot be juxtaposed to what
    stands before it. -/
def startsLoose : Expr ν → Bool
  | paren _ _ => false
  | constant _ _ => false
  | imaginary _ => false
  | var _ _ => false
  | literal _ v => (Numeral.shape v).isNegative
  | binary _ op l _ => !needsParens op.binding l .left && l.startsLoose
  | unary _ .neg _ => true
  | unary _ .factorial e => !needsParens UnaryOp.factorial.binding e .left && e.startsLoose
  | derivative _ _ _ => true
  | integral _ _ _ => true
  | definiteIntegral _ _ _ _ _ => true

/-- Whether an operand of a binary operator is written in parentheses. -/
def operandNeedsParens (op : BinaryOp) (child : Expr ν) (side : Side) : Bool :=
  needsParens op.binding child side || (op == .juxtapose && side == .right && child.startsLoose)

end Expr

end Formula
