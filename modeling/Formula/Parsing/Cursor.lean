import Formula.Diagnosis
import Formula.Token.Basic

/-!
# `Formula.Parsing.Cursor` — moving over a list of tokens

A cursor separates the tokens that have been consumed, which it counts, from those that have not. A parsing
step moves the cursor forwards and gives a value or an error; after an error the cursor stays where the step
had moved it.

## Contents
- `Cursor`, `Parsing`.
- `peek?`, `next?`, `current`, `demand`, `expect` — the steps on single tokens.
-/

namespace Formula

/-- A position in a list of tokens. -/
structure Cursor where
  /-- The number of tokens before the cursor. -/
  consumed : Nat
  /-- The tokens after the cursor. -/
  rest : List Token
deriving DecidableEq, Inhabited, Repr

/-- The cursor before the first token. -/
def Cursor.start (tokens : List Token) : Cursor := ⟨0, tokens⟩

/-- Whether no token is left. -/
def Cursor.isAtEnd (c : Cursor) : Bool := c.rest.isEmpty

/-- A step that moves the cursor. -/
abbrev Parsing := EStateM ParseError Cursor

namespace Parsing

/-- The token that is `k` tokens ahead, which is not consumed. -/
def peek? (k : Nat) : Parsing (Option Token) := do return (← get).rest[k]?

/-- Consumes the next token, if there is one. -/
def next? : Parsing (Option Token) := do
  let c ← get
  match c.rest with
  | [] => return none
  | t :: rest =>
    set (⟨c.consumed + 1, rest⟩ : Cursor)
    return some t

/-- Consumes the next token; a rule is not to be invoked without one. -/
def current : Parsing Token := do
  match ← next? with
  | some t => return t
  | none => throw (.fault .atEnd)

/-- Consumes the next token, which the calling rule was chosen for: any other is a fault. -/
def demand (text : String) : Parsing Token := do
  match ← next? with
  | some t => if t.reads text then return t else throw (.fault (.expected text (some t.text)))
  | none => throw (.fault (.expected text none))

/-- A complaint about the next token, or about the end of the input, which needs one. -/
def complainHere {α : Type} (complaint : Option String → Complaint) : Parsing α := do
  match ← peek? 0 with
  | some t => throw (.complain (complaint (some t.text)) t.span.start)
  | none => throw (.complainAtEnd (complaint none))

/-- Consumes the next token if it reads as `text`; any other is a mistake of the input. -/
def expect (text : String) : Parsing Token := do
  match ← peek? 0 with
  | some t => if t.reads text then current else complainHere (.expected text)
  | none => complainHere (.expected text)

end Parsing

end Formula
