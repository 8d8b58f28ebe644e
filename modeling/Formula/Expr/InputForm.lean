import Formula.Expr.Parens

/-!
# `Formula.Expr.InputForm` — expressions in the input language

The input form of an expression reads back as the same expression. It has parentheses where they were written
and where `Formula.Expr.Parens` asks for them, single blanks around operators between operands, and none
around the others.
-/

namespace Formula.Expr

variable {ν : Type} [Numeral ν]

/-- A literal. One that has no digits is written as the quotient that it is the value of. -/
def literalInput (v : ν) : String :=
  match Numeral.shape v with
  | .undefined => "0 / 0"
  | .infinite true => "-(1 / 0)"
  | .infinite false => "1 / 0"
  | .finite negative => Numeral.sign negative ++ Numeral.digits v

/-- What stands between the operands of a binary operator. -/
def separator (op : BinaryOp) : String :=
  match op with
  | .juxtapose => " "
  | op => " " ++ op.symbol ++ " "

/-- A text, in parentheses where they are wanted. -/
def parenthesized (wanted : Bool) (text : String) : String := if wanted then "(" ++ text ++ ")" else text

/-- The expression in the input language. -/
def inputForm : Expr ν → String
  | paren _ e => "(" ++ e.inputForm ++ ")"
  | constant _ c => c.name
  | imaginary _ => "i"
  | var _ x => x
  | literal _ v => literalInput v
  | binary _ op l r =>
    parenthesized (operandNeedsParens op l .left) l.inputForm ++ separator op ++
      parenthesized (operandNeedsParens op r .right) r.inputForm
  | unary _ op e =>
    let operand := parenthesized (needsParens op.binding e (unarySide op)) e.inputForm
    if op.leads then op.symbol ++ operand else operand ++ op.symbol
  | derivative _ e x => "derivative " ++ e.inputForm ++ " wrt " ++ x
  | integral _ e x => "integrate " ++ e.inputForm ++ " d" ++ x.inputForm
  | definiteIntegral _ e x a b =>
    "integral from " ++ a.inputForm ++ " to " ++ b.inputForm ++ " of " ++ e.inputForm ++ " d" ++ x.inputForm

end Formula.Expr
