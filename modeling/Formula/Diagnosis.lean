import Formula.Number.Numeral

/-!
# `Formula.Diagnosis` — what can be wrong with an input, and where

A *diagnosis* is a problem of the input: a complaint and a location that a front end can point at. A *fault* is
a mistake in the tables that drive the parser and is not the input's.

## Contents
- `Location`, `Complaint`, `Diagnosis`.
- `Fault`, `ParseError`, `LexError`, `InputError` — and their messages.
-/

namespace Formula

/-- Where in the input a problem lies. -/
inductive Location where
  /-- At a byte offset. -/
  | offset (n : Nat)
  /-- The input ended where more was needed. -/
  | endOfInput
deriving DecidableEq, Repr

/-- The location in words. -/
def Location.describe : Location → String
  | offset n => "at offset " ++ toString n
  | endOfInput => "at end of input"

/-- What is wrong with an input. Where a token stands in the way, its text is kept. -/
inductive Complaint where
  | noToken
  | nestedTooDeeply
  | operandMissing (got : Option String)
  | expected (text : String) (got : Option String)
  | variableMissing (got : Option String)
  | constantUnknown (name : String)
  | numberTooLarge
  | unsupported (word : String)
  | extraneous
  /-- A problem that a caller found, in its own words. -/
  | other (message : String)
deriving DecidableEq, Repr

namespace Complaint

/-- Adds the token that stands in the way, if one does. -/
def but (message : String) (got : Option String) : String :=
  match got with
  | some text => message ++ ", got '" ++ text ++ "'"
  | none => message

/-- The complaint in words. -/
def message : Complaint → String
  | noToken => "no matching token"
  | nestedTooDeeply => "expression is nested too deeply"
  | operandMissing got => but "expected primary expression" got
  | expected text got => but ("expected '" ++ text ++ "'") got
  | variableMissing got => but "expected variable name after 'wrt'" got
  | constantUnknown name => "unrecognized constant '" ++ name ++ "'"
  | numberTooLarge => "number is too large"
  | unsupported word => "'" ++ word ++ "' is not yet supported"
  | extraneous => "extraneous tokens"
  | other message => message

end Complaint

/-- A complaint about a place in the input. -/
structure Diagnosis where
  complaint : Complaint
  location : Location
deriving DecidableEq, Repr

/-- The complaint and its location in words. -/
def Diagnosis.describe (d : Diagnosis) : String := d.complaint.message ++ " " ++ d.location.describe

/-- A rule that does not fit the token or the operator that it was chosen for. -/
inductive Fault where
  | atEnd
  | expected (text : String) (got : Option String)
  | badNumber (text : String) (reason : NumeralError)
  /-- A rule for two operands carries an operator with one. -/
  | binaryWithUnaryOperator
  /-- A rule for one operand carries an operator with two. -/
  | unaryWithBinaryOperator
  /-- A fault that a caller found, in its own words. -/
  | other (message : String)
deriving DecidableEq, Repr

/-- The fault in words. -/
def Fault.message : Fault → String
  | atEnd => "rule invoked at end of input"
  | expected text (some got) => "expected '" ++ text ++ "', got '" ++ got ++ "'"
  | expected text none => "expected '" ++ text ++ "', got end of input"
  | badNumber text reason => "bad number '" ++ text ++ "': " ++ reason.message
  | binaryWithUnaryOperator => "binary builder bound to a postfix operator"
  | unaryWithBinaryOperator => "postfix builder bound to a binary operator"
  | other message => message

/-- Why tokens do not parse. -/
inductive ParseError where
  | diagnosed (d : Diagnosis)
  | fault (f : Fault)
deriving DecidableEq, Repr

namespace ParseError

/-- A diagnosis at a byte offset. -/
def complain (complaint : Complaint) (offset : Nat) : ParseError := .diagnosed ⟨complaint, .offset offset⟩

/-- A diagnosis at the end of the input. -/
def complainAtEnd (complaint : Complaint) : ParseError := .diagnosed ⟨complaint, .endOfInput⟩

/-- The error in words. -/
def describe : ParseError → String
  | diagnosed d => d.describe
  | fault f => "internal parser error: " ++ f.message

end ParseError

/-- No row of a token table matches at an offset. -/
structure LexError where
  offset : Nat
deriving DecidableEq, Repr

/-- The diagnosis of a text that cannot be split into tokens. -/
def LexError.diagnosis (e : LexError) : Diagnosis := ⟨.noToken, .offset e.offset⟩

/-- Why a text is not an expression. -/
inductive InputError where
  | lex (e : LexError)
  | parse (e : ParseError)
deriving DecidableEq, Repr

namespace InputError

/-- What to point out to the author of the input; nothing where the input is not to blame. -/
def diagnosis? : InputError → Option Diagnosis
  | lex e => some e.diagnosis
  | parse (.diagnosed d) => some d
  | parse (.fault _) => none

/-- The error in words. -/
def describe : InputError → String
  | lex e => e.diagnosis.describe
  | parse e => e.describe

end InputError

end Formula
