import Formula.Expr.Basic
import Formula.Grammar.Basic
import Formula.Parsing.Cursor

/-!
# `Formula.Parsing.Rules` — what the rules of a grammar build

Each rule consumes its own tokens and reads its operands by a given step `operand`, which takes the threshold
above which the operand's operators have to bind.

## Contents
- `Start.build` — leaves, groups, negations and derivatives.
- `ExtensionRule.build` — operations on an expression that has been read.
-/

namespace Formula

namespace Parsing

variable {ν : Type}

/-- The threshold below every operator. -/
def lowest : Nat := 0

/-- The text of a token as a literal; a literal that is not finite is too large. -/
def readLiteral [Numeral ν] (t : Token) : Parsing (Expr ν) :=
  match (Numeral.read t.text : Except NumeralError ν) with
  | .error reason => throw (.fault (.badNumber t.text reason))
  | .ok v => if Numeral.isFinite v then pure (.literal t.span v) else throw (.complain .numberTooLarge t.span.start)

/-- The text of a token as a constant. -/
def readConstant (t : Token) : Parsing (Expr ν) :=
  match Constant.lookup? t.text with
  | some c => pure (.constant t.span c)
  | none => throw (.complain (.constantUnknown t.text) t.span.start)

/-- The variable that a derivative names, after the keyword for it, with the span of its name. -/
def readVariable : Parsing Token := do
  match ← next? with
  | some t =>
    if t.kind = .name then return t else throw (.complain (.variableMissing (some t.text)) t.span.start)
  | none => throw (.complainAtEnd (.variableMissing none))

/-- A derivative after its keyword and its operand. Where it names no variable it is taken by the operand's
    primary one, or else by `x`. -/
def readDerivative (keyword : Token) (e : Expr ν) : Parsing (Expr ν) := do
  let span := keyword.span.merge e.span
  match ← peek? 0 with
  | some t =>
    if t.isKeyword "wrt" then
      let _ ← next?
      let name ← readVariable
      return .derivative (span.merge name.span) e name.text
    else return .derivative span e (e.primaryVariable?.getD "x")
  | none => return .derivative span e (e.primaryVariable?.getD "x")

end Parsing

open Parsing

variable {ν : Type}

/-- Builds the expression that begins at the next token. -/
def Start.build [Numeral ν] (start : Start) (operand : Nat → Parsing (Expr ν)) : Parsing (Expr ν) :=
  match start with
  | .variable => do
    let t ← current
    return .var t.span t.text
  | .number => do
    let t ← current
    readLiteral t
  | .constant => do
    let t ← current
    readConstant t
  | .group => do
    let opening ← demand "("
    let inner ← operand lowest
    let closing ← expect ")"
    return .paren (opening.span.merge closing.span) inner
  | .negation => do
    let minus ← demand "-"
    let e ← operand UnaryOp.neg.binding.threshold
    return .unary (minus.span.merge e.span) .neg e
  | .derivative => do
    let keyword ← demand "derivative"
    let e ← operand lowest
    readDerivative keyword e
  | .integral => do
    let t ← current
    throw (.complain (.unsupported t.text) t.span.start)

/-- Builds the expression that goes on from `lhs` at the next token. -/
def ExtensionRule.build (rule : ExtensionRule) (operand : Nat → Parsing (Expr ν)) (lhs : Expr ν) :
    Parsing (Expr ν) :=
  match rule.extension with
  | .binary =>
    match rule.operator with
    | .binary op => do
      let _ ← current
      let rhs ← operand op.binding.threshold
      return .binary (lhs.span.merge rhs.span) op lhs rhs
    | .unary _ => throw (.fault .binaryWithUnaryOperator)
  | .unary =>
    match rule.operator with
    | .unary op => do
      let t ← current
      return .unary (lhs.span.merge t.span) op lhs
    | .binary _ => throw (.fault .unaryWithBinaryOperator)
  | .juxtaposed => do
    let rhs ← operand rule.operator.binding.threshold
    return .binary (lhs.span.merge rhs.span) .juxtapose lhs rhs

end Formula
