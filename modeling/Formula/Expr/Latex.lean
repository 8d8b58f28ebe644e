import Formula.Expr.Parens
import Formula.Text.Alphabetic

/-!
# `Formula.Expr.Latex` — expressions in LaTeX

Operands that LaTeX delimits with braces, in fractions and exponents, need no parentheses. A derivative or an
integral runs on to the right without an end of its own, and is put in parentheses as a factor, as the base of
a power and as the operand of a factorial.
-/

namespace Formula.Expr

/-- Words that name a Greek letter. -/
def greekLetters : List String := [
  "alpha", "beta", "gamma", "delta", "epsilon", "varepsilon", "zeta", "eta", "theta", "vartheta", "iota",
  "kappa", "lambda", "mu", "nu", "xi", "pi", "varpi", "rho", "varrho", "sigma", "varsigma", "tau", "upsilon",
  "phi", "varphi", "chi", "psi", "omega", "Gamma", "Delta", "Theta", "Lambda", "Xi", "Pi", "Sigma", "Upsilon",
  "Phi", "Psi", "Omega"]

/-- A name or a part of one without an underscore: a Greek letter as its macro, any other word of several
    letters upright. -/
def latexWord (cs : List Char) : List Char :=
  if greekLetters.contains (String.ofList cs) then '\\' :: cs ++ ['\x7b', '\x7d']
  else if 1 < cs.length && cs.all isAlphabetic then "\\mathrm\x7b".toList ++ cs ++ ['\x7d']
  else cs

/-- A name, given the reversed part before its next underscore: what follows an underscore is a subscript,
    with further underscores a subscript of that. -/
def latexNameFrom (part : List Char) : List Char → List Char
  | [] => latexWord part.reverse
  | c :: cs =>
    if c = '_' then latexWord part.reverse ++ ['_', '\x7b'] ++ latexNameFrom [] cs ++ ['\x7d']
    else latexNameFrom (c :: part) cs

/-- The name of a variable. -/
def latexName (name : String) : String := String.ofList (latexNameFrom [] name.toList)

/-- A text in parentheses that grow with it, where they are wanted. -/
def latexParenthesized (wanted : Bool) (text : String) : String :=
  if wanted then "\\left(" ++ text ++ "\\right)" else text

variable {ν : Type}

/-- Whether the LaTeX of an expression runs on to the right without an end of its own. -/
def isOpenEnded : Expr ν → Bool
  | derivative _ _ _ => true
  | integral _ _ _ => true
  | definiteIntegral _ _ _ _ _ => true
  | _ => false

/-- Whether an open-ended operand of a binary operator has to be delimited. -/
def delimits (op : BinaryOp) (side : Side) : Bool :=
  match op with
  | .pow => side == .left
  | .mul => true
  | .juxtapose => true
  | .add => false
  | .sub => false
  | .div => false

variable [Numeral ν]

/-- A literal. -/
def latexLiteral (v : ν) : String :=
  match Numeral.shape v with
  | .undefined => "\\mathrm\x7bNaN\x7d"
  | .infinite negative => Numeral.sign negative ++ "\\infty\x7b\x7d"
  | .finite negative => Numeral.sign negative ++ Numeral.digits v

/-- Whether an operand of a binary operator is put in parentheses. -/
def latexOperandNeedsParens (op : BinaryOp) (child : Expr ν) (side : Side) : Bool :=
  operandNeedsParens op child side || (child.isOpenEnded && delimits op side)

/-- What stands between the operands of a binary operator that is written on the line. -/
def latexSeparator : BinaryOp → String
  | .add => " + "
  | .sub => " - "
  | .mul => " \\cdot\x7b\x7d "
  | _ => "\\,\x7b\x7d"

/-- The expression in LaTeX. -/
def latex : Expr ν → String
  | paren _ e => latexParenthesized true e.latex
  | constant _ c => c.latex
  | imaginary _ => "\\mathrm\x7bi\x7d"
  | var _ x => latexName x
  | literal _ v => latexLiteral v
  | binary _ .div l r => "\\frac\x7b" ++ l.latex ++ "\x7d\x7b" ++ r.latex ++ "\x7d"
  | binary _ .pow l r =>
    latexParenthesized (latexOperandNeedsParens .pow l .left) l.latex ++ "^\x7b" ++ r.latex ++ "\x7d"
  | binary _ op l r =>
    latexParenthesized (latexOperandNeedsParens op l .left) l.latex ++ latexSeparator op ++
      latexParenthesized (latexOperandNeedsParens op r .right) r.latex
  | unary _ op e =>
    let wanted := needsParens op.binding e (unarySide op) || (!op.leads && e.isOpenEnded)
    let operand := latexParenthesized wanted e.latex
    if op.leads then op.symbol ++ operand else operand ++ op.symbol
  | derivative _ e x =>
    "\\frac\x7b\\mathrm\x7bd\x7d\x7d\x7b\\mathrm\x7bd\x7d" ++ latexName x ++ "\x7d\\," ++
      latexParenthesized true e.latex
  | integral _ e x => "\\int\x7b\x7d" ++ e.latex ++ "\\,\\mathrm\x7bd\x7d" ++ x.latex
  | definiteIntegral _ e x a b =>
    "\\int_\x7b" ++ a.latex ++ "\x7d^\x7b" ++ b.latex ++ "\x7d" ++ e.latex ++ "\\,\\mathrm\x7bd\x7d" ++ x.latex

end Formula.Expr
