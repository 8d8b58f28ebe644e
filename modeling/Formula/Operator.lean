/-!
# `Formula.Operator` — the operators and how tightly they bind

Every operator stands before, between or after its operands, has a precedence and groups to one side. The
parser reads these bindings to decide how far an operand extends, and the written forms read the same
bindings to decide where parentheses are needed.

| operator | written | stands | precedence | groups |
|---|---|---|---|---|
| sum, difference | `+` `-` | between | 30 | left |
| product, quotient | `*` `/` | between | 50 | left |
| juxtaposition | (a blank) | between | 60 | left |
| negation | `-` | before | 75 | right |
| power | `^` | between | 80 | right |
| factorial | `!` | after | 90 | left |
-/

namespace Formula

/-- Where an operator stands relative to its operands. -/
inductive Fixity where
  | before
  | between
  | after
deriving DecidableEq, Inhabited, Repr

/-- How a chain of operators of one precedence groups. -/
inductive Grouping where
  | neither
  | left
  | right
deriving DecidableEq, Inhabited, Repr

/-- An operator's place, precedence (higher binds tighter) and grouping. -/
structure Binding where
  fixity : Fixity
  precedence : Nat
  grouping : Grouping
deriving DecidableEq, Inhabited, Repr

/-- The threshold from which an operand that follows the operator is read. A right-grouping operator reads one
    level lower, so that the operand takes in operators of the same precedence; any other leaves them to its
    caller. -/
def Binding.threshold (b : Binding) : Nat :=
  match b.grouping with
  | .right => b.precedence - 1
  | .left => b.precedence
  | .neither => b.precedence

/-- The operators with two operands. -/
inductive BinaryOp where
  | add
  | sub
  | mul
  /-- A product written by placing the factors side by side. -/
  | juxtapose
  | div
  | pow
deriving DecidableEq, Inhabited, Repr

namespace BinaryOp

/-- All binary operators, in the order in which they are listed. -/
def all : List BinaryOp := [.add, .sub, .mul, .juxtapose, .div, .pow]

/-- How a binary operator binds. -/
def binding : BinaryOp → Binding
  | add => ⟨.between, 30, .left⟩
  | sub => ⟨.between, 30, .left⟩
  | mul => ⟨.between, 50, .left⟩
  | juxtapose => ⟨.between, 60, .left⟩
  | div => ⟨.between, 50, .left⟩
  | pow => ⟨.between, 80, .right⟩

/-- The operator's symbol. Juxtaposition has none of its own and shares that of the product. -/
def symbol : BinaryOp → String
  | add => "+"
  | sub => "-"
  | mul => "*"
  | juxtapose => "*"
  | div => "/"
  | pow => "^"

theorem binding_fixity (op : BinaryOp) : op.binding.fixity = .between := by
  cases op <;> rfl

end BinaryOp

/-- The operators with one operand. -/
inductive UnaryOp where
  | neg
  | factorial
deriving DecidableEq, Inhabited, Repr

namespace UnaryOp

/-- All unary operators, in the order in which they are listed. -/
def all : List UnaryOp := [.neg, .factorial]

/-- How a unary operator binds. -/
def binding : UnaryOp → Binding
  | neg => ⟨.before, 75, .right⟩
  | factorial => ⟨.after, 90, .left⟩

/-- The operator's symbol. -/
def symbol : UnaryOp → String
  | neg => "-"
  | factorial => "!"

/-- Whether the operator stands before its operand. -/
def leads : UnaryOp → Bool
  | neg => true
  | factorial => false

theorem leads_iff (op : UnaryOp) : op.leads = true ↔ op.binding.fixity = .before := by
  cases op <;> decide

end UnaryOp

end Formula
