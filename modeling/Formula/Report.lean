import Formula.Expr.InputForm
import Formula.Expr.Latex
import Formula.Expr.Outline
import Formula.Expr.Simplify
import Formula.Parsing.Parse

/-!
# `Formula.Report` — what is shown for a request

| report | shows |
|---|---|
| tokens | one line for each token |
| analysis | the expression read back, its outline, its LaTeX and that of its simplified form |
| plain expression | its LaTeX between dollar signs, and its input form |
| error | what is wrong with the input, or a request to report a fault |
| group | its members, with a blank line between two |

## Contents
- `Report`, `Report.ofTokens`, `Report.ofAnalysis`, `Report.ofEvaluation`.
- `Report.isError`, `Report.text`.
-/

namespace Formula

/-- What is shown for a request. -/
inductive Report (ν : Type) where
  | group (members : List (Report ν))
  | error (input : String) (error : InputError)
  | tokens (tokens : List Token)
  | analysis (e : Expr ν)
  | plain (e : Expr ν)

namespace Report

variable {ν : Type}

/-- A text as a line. -/
def line (text : String) : String := text ++ "\n"

/-- Several lines. -/
def lines (texts : List String) : String := String.join (texts.map line)

mutual

/-- Whether the report, or a member of it, is an error. -/
def isError : Report ν → Bool
  | group members => anyError members
  | error _ _ => true
  | tokens _ => false
  | analysis _ => false
  | plain _ => false

/-- Whether one of several reports is an error. -/
def anyError : List (Report ν) → Bool
  | [] => false
  | r :: rs => r.isError || anyError rs

end

/-- The report of an input that is not an expression. -/
def errorText (input : String) (error : InputError) : String :=
  match error.diagnosis? with
  | some d => lines ["Sorry, I don't understand.", "'" ++ d.describe ++ "'"]
  | none => lines [
      "Sorry, something went wrong.",
      "Please report this as a bug, including the input and the message below.",
      "input: " ++ input,
      "message: " ++ error.describe]

variable [Arithmetic ν] [Numeral ν]

/-- The report of an expression that is looked into. -/
def analysisText (e : Expr ν) : String :=
  line ("input: " ++ e.inputForm) ++ line "tree:" ++ lines (e.outline 1) ++ line ("latex: " ++ e.latex) ++
    line ("simplified: " ++ e.simplify.latex)

/-- The report of a plain expression. -/
def plainText (e : Expr ν) : String := line ("$$" ++ e.latex ++ "$$") ++ line e.inputForm

mutual

/-- The text of a report. -/
def text : Report ν → String
  | group members => groupText members
  | error input e => errorText input e
  | tokens ts => lines (ts.map Token.describe)
  | analysis e => analysisText e
  | plain e => plainText e

/-- The texts of several reports, with a blank line between two. -/
def groupText : List (Report ν) → String
  | [] => ""
  | r :: rs => r.text ++ followingText rs

/-- The texts of further reports, each after a blank line. -/
def followingText : List (Report ν) → String
  | [] => ""
  | r :: rs => "\n" ++ r.text ++ followingText rs

end

/-! ## Requests -/

/-- Lists the tokens of an input. -/
def ofTokens (input : String) : Report ν :=
  match tokensOf input with
  | .ok ts => tokens ts
  | .error e => error input (.lex e)

/-- Looks into an input. -/
def ofAnalysis (input : String) : Report ν :=
  match (parseText input : Except InputError (Expr ν)) with
  | .ok e => analysis e
  | .error err => error input err

/-- Simplifies an input. -/
def ofEvaluation (input : String) : Report ν :=
  match (parseText input : Except InputError (Expr ν)) with
  | .ok e => plain e.simplify
  | .error err => error input err

end Report

end Formula
