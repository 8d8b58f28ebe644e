import Formula.Parsing.Rules
import Formula.Token.Table

/-!
# `Formula.Parsing.Parse` — expressions from tokens

An expression is read by precedence climbing. A start rule builds what the next token begins; then, as long as
the next token has an extension rule that binds tighter than the threshold, that rule builds a larger
expression around what has been read. An extension reads its operand from its own threshold, and that alone
makes `1 - 2 - 3` group to the left and `2 ^ 3 ^ 2` to the right.

Reading an operand and applying an extension each enter one level of nesting, and levels are limited, so the
recursion is on the number of levels that are left.

## Contents
- `Parsing.readOperand`, `Parsing.climb` and `Parsing.expression`.
- `parseFront`, `parseAll` — one expression at the front of, or making up, a list of tokens.
- `parseText` — an expression of the standard input language.
-/

namespace Formula

/-- The number of levels to which operands and operators may nest. -/
def maxNesting : Nat := 256

namespace Parsing

variable {ν : Type} [Numeral ν]

mutual

/-- Reads an expression whose operators all bind tighter than `threshold`, with so many levels left. -/
def readOperand (g : Grammar) : Nat → Nat → Parsing (Expr ν)
  | 0, _ => complainHere fun _ => .nestedTooDeeply
  | levels + 1, threshold => do
    match ← peek? 0 with
    | none => complainHere .operandMissing
    | some t =>
      match g.startRule? t with
      | none => complainHere .operandMissing
      | some rule =>
        let lhs ← rule.start.build (readOperand g levels)
        climb g levels threshold lhs

/-- Extends an expression as long as the next token binds tighter than `threshold`, with so many levels
    left. -/
def climb (g : Grammar) : Nat → Nat → Expr ν → Parsing (Expr ν)
  | levels, threshold, lhs => do
    match ← peek? 0 with
    | none => return lhs
    | some t =>
      match g.extensionRule? t with
      | none => return lhs
      | some rule =>
        if rule.precedence ≤ threshold then return lhs
        else
          match levels with
          | 0 => complainHere fun _ => .nestedTooDeeply
          | levels + 1 =>
            let lhs ← rule.build (readOperand g levels) lhs
            climb g levels threshold lhs

end

/-- Reads an expression whose operators all bind tighter than `threshold`. -/
def expression (g : Grammar) (threshold : Nat) : Parsing (Expr ν) := readOperand g maxNesting threshold

end Parsing

variable {ν : Type} [Numeral ν]

/-- One expression at the front of a list of tokens, and the number of tokens that it takes. -/
def parseFront (g : Grammar) (tokens : List Token) : Except ParseError (Expr ν × Nat) :=
  match (Parsing.expression g Parsing.lowest).run (Cursor.start tokens) with
  | .ok e c => .ok (e, c.consumed)
  | .error err _ => .error err

/-- One expression that takes all the tokens. -/
def parseAll (g : Grammar) (tokens : List Token) : Except ParseError (Expr ν) := do
  let (e, consumed) ← parseFront g tokens
  match tokens[consumed]? with
  | some t => .error (.complain .extraneous t.span.start)
  | none => .ok e

/-- The expression that a text of the standard input language stands for. -/
def parseText (text : String) : Except InputError (Expr ν) :=
  match tokensOf text with
  | .error e => .error (.lex e)
  | .ok tokens =>
    match parseAll Grammar.standard tokens with
    | .error e => .error (.parse e)
    | .ok e => .ok e

end Formula
