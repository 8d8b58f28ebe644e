import Formula.Operator
import Formula.Text.Quoted
import Formula.Token.Basic

/-!
# `Formula.Grammar.Basic` — tables of rules for expressions

A grammar is two lists of rules. A *start rule* says how an expression begins at a token: a leaf, a group, a
negation, a derivative. An *extension rule* says how an expression goes on at a token, and carries the operator
whose binding decides whether it may. In either list the first rule that accepts a token is taken.

## Contents
- `TokenMatch`, `Start`, `Extension`, the rules and their written forms.
- `Grammar`, `Grammar.standard`.
-/

namespace Formula

/-- Which tokens a rule accepts. -/
inductive TokenMatch where
  | kind (kind : TokenKind)
  /-- The symbol with exactly this text. -/
  | symbol (text : String)
  /-- The keyword with this text, in any case. -/
  | keyword (text : String)
deriving DecidableEq, Repr

namespace TokenMatch

/-- Whether a token is accepted. -/
def accepts : TokenMatch → Token → Bool
  | kind k, t => t.kind == k
  | symbol text, t => t.isSymbol text
  | keyword text, t => t.isKeyword text

/-- The accepted tokens in words. -/
def describe : TokenMatch → String
  | kind k => "any " ++ k.describe
  | symbol text => "symbol '" ++ text ++ "'"
  | keyword text => "keyword '" ++ text ++ "'"

/-- The kind as the name of a constructor. -/
def kindName : TokenKind → String
  | .keyword => "Keyword"
  | .function => "Function"
  | .constant => "Constant"
  | .name => "Name"
  | .number => "Number"
  | .symbol => "Symbol"

/-- The match as a term. -/
def term : TokenMatch → String
  | kind k => "Kind(" ++ kindName k ++ ")"
  | symbol text => "Symbol(" ++ quoted text ++ ")"
  | keyword text => "Keyword(" ++ quoted text ++ ")"

end TokenMatch

/-- The ways in which an expression begins. -/
inductive Start where
  | variable
  | number
  | constant
  /-- An expression in parentheses. -/
  | group
  | negation
  /-- A derivative, with or without the variable that it is taken by. -/
  | derivative
  /-- Integrals have words but no rule yet. -/
  | integral
deriving DecidableEq, Repr

/-- A rule for the beginning of an expression. -/
structure StartRule where
  token : TokenMatch
  start : Start
deriving DecidableEq, Repr

/-- The rule as a term. -/
def StartRule.term (rule : StartRule) : String := "PrefixRule \x7b matcher: " ++ rule.token.term ++ ", .. \x7d"

/-- The operator of an extension. -/
inductive Operator where
  | binary (op : BinaryOp)
  | unary (op : UnaryOp)
deriving DecidableEq, Repr

namespace Operator

/-- How the operator binds. -/
def binding : Operator → Binding
  | binary op => op.binding
  | unary op => op.binding

/-- The operator as a term. -/
def term : Operator → String
  | binary .add => "Binary(Add)"
  | binary .sub => "Binary(Sub)"
  | binary .mul => "Binary(Mul)"
  | binary .juxtapose => "Binary(ImplicitMul)"
  | binary .div => "Binary(Div)"
  | binary .pow => "Binary(Exp)"
  | unary .neg => "Postfix(Neg)"
  | unary .factorial => "Postfix(Factorial)"

end Operator

/-- The ways in which an expression goes on. -/
inductive Extension where
  /-- The token is an operator, and an operand follows it. -/
  | binary
  /-- The token is an operator after its operand. -/
  | unary
  /-- The token is already the first one of another factor. -/
  | juxtaposed
deriving DecidableEq, Repr

/-- A rule for the continuation of an expression. -/
structure ExtensionRule where
  token : TokenMatch
  operator : Operator
  extension : Extension
deriving DecidableEq, Repr

namespace ExtensionRule

/-- A binary operator written as a token. -/
def binary (token : TokenMatch) (op : BinaryOp) : ExtensionRule := ⟨token, .binary op, .binary⟩

/-- An operator written as a token after its operand. -/
def unary (token : TokenMatch) (op : UnaryOp) : ExtensionRule := ⟨token, .unary op, .unary⟩

/-- A product written by juxtaposition, whose second factor begins with the token. -/
def juxtaposed (token : TokenMatch) : ExtensionRule := ⟨token, .binary .juxtapose, .juxtaposed⟩

/-- The precedence of the rule's operator. -/
def precedence (rule : ExtensionRule) : Nat := rule.operator.binding.precedence

/-- The rule as a term. -/
def term (rule : ExtensionRule) : String :=
  "InfixRule \x7b matcher: " ++ rule.token.term ++ ", oper: " ++ rule.operator.term ++ ", .. \x7d"

end ExtensionRule

/-- Rules in order of preference. -/
structure Grammar where
  starts : List StartRule
  extensions : List ExtensionRule
deriving DecidableEq, Repr

namespace Grammar

/-- The first start rule that accepts a token. -/
def startRule? (g : Grammar) (t : Token) : Option StartRule := g.starts.find? (·.token.accepts t)

/-- The first extension rule that accepts a token. -/
def extensionRule? (g : Grammar) (t : Token) : Option ExtensionRule := g.extensions.find? (·.token.accepts t)

/-- The grammar without rules. -/
def empty : Grammar := ⟨[], []⟩

/-- A grammar with further rules, which yield to those before them. -/
def append (g : Grammar) (starts : List StartRule) (extensions : List ExtensionRule) : Grammar :=
  ⟨g.starts ++ starts, g.extensions ++ extensions⟩

/-- The grammar of the standard input language. -/
def standard : Grammar where
  starts := [
    ⟨.kind .name, .variable⟩,
    ⟨.kind .number, .number⟩,
    ⟨.kind .constant, .constant⟩,
    ⟨.symbol "(", .group⟩,
    ⟨.symbol "-", .negation⟩,
    ⟨.keyword "derivative", .derivative⟩,
    ⟨.keyword "integral", .integral⟩,
    ⟨.keyword "integrate", .integral⟩]
  extensions := [
    .binary (.symbol "+") .add,
    .binary (.symbol "-") .sub,
    .binary (.symbol "*") .mul,
    .binary (.symbol "/") .div,
    .binary (.symbol "^") .pow,
    .unary (.symbol "!") .factorial,
    .juxtaposed (.kind .name),
    .juxtaposed (.kind .constant),
    .juxtaposed (.kind .number),
    .juxtaposed (.symbol "(")]

end Grammar

end Formula
