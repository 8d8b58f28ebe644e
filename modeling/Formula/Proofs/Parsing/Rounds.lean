import Formula.Proofs.Parsing.Steps

/-!
# `Formula.Proofs.Parsing.Rounds` — one round of the parser, whatever keeps count of the levels

The parser reads operands and goes on from them, and each of the two does one thing before it turns to the other or to
itself. Such a round can be told apart from how the levels of nesting are counted: it is given what it turns to, and a
step by which it enters a level. The rounds are those of the parser that runs, which counts the levels down by the
recursion itself, and of others that count them in another way or not at all.

## Contents
- `Start.buildIn`, `ExtensionRule.buildIn` — the rules in any monad that has the steps on tokens.
- `Climber`, `Climber.readRound`, `Climber.loopRound` — the two rounds, and with one way to stop each.
- `limited` — the parser that runs; `readOperand_succ`, `climb_succ` — its rounds.
-/

namespace Formula

open Parsing

section Building

variable {M : Type → Type} [Monad M] [MonadLiftT Parsing M] {ν : Type}

/-- Builds the expression that begins at the next token, in any monad that has the steps on tokens. -/
def Start.buildIn [Numeral ν] (start : Start) (operand : Nat → M (Expr ν)) : M (Expr ν) :=
  match start with
  | .variable => do
    let t ← (current : Parsing Token)
    return .var t.span t.text
  | .number => do
    let t ← (current : Parsing Token)
    (readLiteral t : Parsing (Expr ν))
  | .constant => do
    let t ← (current : Parsing Token)
    (readConstant t : Parsing (Expr ν))
  | .group => do
    let opening ← (demand "(" : Parsing Token)
    let inner ← operand lowest
    let closing ← (expect ")" : Parsing Token)
    return .paren (opening.span.merge closing.span) inner
  | .negation => do
    let minus ← (demand "-" : Parsing Token)
    let e ← operand UnaryOp.neg.binding.threshold
    return .unary (minus.span.merge e.span) .neg e
  | .derivative => do
    let keyword ← (demand "derivative" : Parsing Token)
    let e ← operand lowest
    (readDerivative keyword e : Parsing (Expr ν))
  | .integral => do
    let t ← (current : Parsing Token)
    (throw (.complain (.unsupported t.text) t.span.start) : Parsing (Expr ν))

/-- Builds the expression that goes on from `lhs` at the next token, in any such monad. -/
def ExtensionRule.buildIn (rule : ExtensionRule) (operand : Nat → M (Expr ν)) (lhs : Expr ν) : M (Expr ν) :=
  match rule.extension with
  | .binary =>
    match rule.operator with
    | .binary op => do
      let _ ← (current : Parsing Token)
      let rhs ← operand op.binding.threshold
      return .binary (lhs.span.merge rhs.span) op lhs rhs
    | .unary _ => (throw (.fault .binaryWithUnaryOperator) : Parsing (Expr ν))
  | .unary =>
    match rule.operator with
    | .unary op => do
      let t ← (current : Parsing Token)
      return .unary (lhs.span.merge t.span) op lhs
    | .binary _ => (throw (.fault .unaryWithBinaryOperator) : Parsing (Expr ν))
  | .juxtaposed => do
    let rhs ← operand rule.operator.binding.threshold
    return .binary (lhs.span.merge rhs.span) .juxtapose lhs rhs

/-- Among the steps on tokens themselves the rules build what they always do. -/
theorem Start.buildIn_eq [Numeral ν] (start : Start) (operand : Nat → Parsing (Expr ν)) :
    start.buildIn operand = start.build operand := by
  cases start <;> rfl

theorem ExtensionRule.buildIn_eq (rule : ExtensionRule) (operand : Nat → Parsing (Expr ν)) (lhs : Expr ν) :
    rule.buildIn operand lhs = rule.build operand lhs := by
  obtain ⟨token, operator, extension⟩ := rule
  cases extension <;> cases operator <;> rfl

end Building

namespace Parsing

/-- **The two steps of a parser**: to read an operand above a threshold, and to go on from one. -/
structure Climber (M : Type → Type) (ν : Type) where
  operand : Nat → M (Expr ν)
  loop : Nat → Expr ν → M (Expr ν)

namespace Climber

variable {M : Type → Type} [Monad M] [MonadLiftT Parsing M] {ν : Type}

/-- **One round of reading an operand**: it enters a level, and a start rule hands what it has built to the loop. -/
def readRound [Numeral ν] (enter : M Unit) (g : Grammar) (p : Climber M ν) (threshold : Nat) : M (Expr ν) := do
  enter
  match ← (peek? 0 : Parsing (Option Token)) with
  | none => (complainHere .operandMissing : Parsing (Expr ν))
  | some t =>
    match g.startRule? t with
    | none => (complainHere .operandMissing : Parsing (Expr ν))
    | some rule =>
      let lhs ← rule.start.buildIn p.operand
      p.loop threshold lhs

/-- **One round of the loop**: unless it stops, it enters a level and hands on what an extension rule has built. -/
def loopRound (enter : M Unit) (g : Grammar) (p : Climber M ν) (threshold : Nat) (lhs : Expr ν) : M (Expr ν) := do
  match ← (peek? 0 : Parsing (Option Token)) with
  | none => return lhs
  | some t =>
    match g.extensionRule? t with
    | none => return lhs
    | some rule =>
      if rule.precedence ≤ threshold then return lhs
      else
        enter
        let lhs ← rule.buildIn p.operand lhs
        p.loop threshold lhs

/-- A round of reading an operand, with one way in which it is missing. -/
theorem readRound_eq [Numeral ν] (enter : M Unit) (g : Grammar) (p : Climber M ν) (m : Nat) :
    p.readRound enter g m = (do
      enter
      match nextStart? g (← (peek? 0 : Parsing (Option Token))) with
      | none => (complainHere .operandMissing : Parsing (Expr ν))
      | some rule => rule.start.buildIn p.operand >>= p.loop m) := by
  rw [readRound]
  exact bind_congr fun _ => bind_congr fun next => match_nextStart? next _ _

/-- A round of the loop, with one way in which it stops. -/
theorem loopRound_eq (enter : M Unit) (g : Grammar) (p : Climber M ν) (m : Nat) (lhs : Expr ν) :
    p.loopRound enter g m lhs = (do
      match nextExtension? g m (← (peek? 0 : Parsing (Option Token))) with
      | none => return lhs
      | some rule => do
        enter
        rule.buildIn p.operand lhs >>= p.loop m) := by
  rw [loopRound]
  exact bind_congr fun next => match_nextExtension? next _ _

end Climber

variable {ν : Type} [Numeral ν]

/-- The parser that runs, with so many levels left. -/
def limited (g : Grammar) (n : Nat) : Climber Parsing ν where
  operand := readOperand g n
  loop := climb g n

/-- Its rounds count the levels by the recursion, and entering one does nothing else. -/
theorem readOperand_succ (g : Grammar) (n m : Nat) :
    readOperand (ν := ν) g (n + 1) m = (limited g n).readRound (pure ()) g m := by
  rw [readOperand_succ_eq, Climber.readRound_eq, pure_bind]
  simp only [Start.buildIn_eq]
  rfl

theorem climb_succ (g : Grammar) (n m : Nat) (lhs : Expr ν) :
    climb g (n + 1) m lhs = (limited g n).loopRound (pure ()) g m lhs := by
  rw [climb_succ_eq, Climber.loopRound_eq]
  simp only [pure_bind, ExtensionRule.buildIn_eq]
  rfl

end Parsing

end Formula
