import Formula.Number.Double
import Formula.Report
import Formula.Text.Blank

/-!
# `Formula.CommandLine` — the command line

    lex | parse | eval  [EXPRESSION]  [-i FILE | --input FILE]

A command takes one expression, or a file with one expression on each line; blank lines are left out. The
answer is a report for each expression.

## Contents
- `Invocation.ofArguments` — what the arguments ask for.
- `expressions?` — the expressions of a file.
- `Invocation.answer` — the text that is written and the exit status: 2 where the arguments make no sense, 1
  where there is nothing to read or an expression is not understood.
-/

namespace Formula

/-- The commands. -/
inductive Command where
  | lex
  | parse
  | eval
deriving DecidableEq, Repr

/-- The command of that name. -/
def Command.ofName? : String → Option Command
  | "lex" => some .lex
  | "parse" => some .parse
  | "eval" => some .eval
  | _ => none

/-- The report of a command on one expression. -/
def Command.report {ν : Type} [Arithmetic ν] [Numeral ν] : Command → String → Report ν
  | lex => Report.ofTokens
  | parse => Report.ofAnalysis
  | eval => Report.ofEvaluation

/-- Where a command takes its expressions from; both may be missing, and both may not be given. -/
structure Source where
  expression : Option String
  file : Option String
deriving DecidableEq, Repr

namespace Source

/-- Adds an expression; there may be only one. -/
def addExpression? (s : Source) (text : String) : Option Source :=
  if s.expression.isSome then none else some { s with expression := some text }

/-- Adds a file; there may be only one. -/
def addFile? (s : Source) (path : String) : Option Source :=
  if s.file.isSome then none else some { s with file := some path }

/-- Whether an argument is an option or begins with several. A lone hyphen is an argument like any other. -/
def isOption (arg : String) : Bool :=
  match arg.toList with
  | '-' :: _ :: _ => true
  | _ => false

/-- The value that an argument gives to the file option within itself: `-iFILE`, `-i=FILE` or
    `--input=FILE`. -/
def attachedFile? (arg : String) : Option String :=
  match arg.toList with
  | '-' :: '-' :: 'i' :: 'n' :: 'p' :: 'u' :: 't' :: '=' :: path => some (String.ofList path)
  | '-' :: 'i' :: '=' :: path => some (String.ofList path)
  | '-' :: 'i' :: c :: path => some (String.ofList (c :: path))
  | _ => none

/-- Reads the arguments of a command. After `--` every argument is an expression. -/
def ofArguments? (s : Source) : List String → Option Source
  | [] => some s
  | "--" :: args => args.foldlM addExpression? s
  | arg :: args =>
    if arg = "-i" ∨ arg = "--input" then
      match args with
      | path :: args => if isOption path then none else (s.addFile? path).bind (ofArguments? · args)
      | [] => none
    else
      match attachedFile? arg with
      | some path => (s.addFile? path).bind (ofArguments? · args)
      | none => if isOption arg then none else (s.addExpression? arg).bind (ofArguments? · args)

end Source

/-- What the arguments ask for. -/
inductive Invocation where
  | run (command : Command) (source : Source)
  /-- The arguments make no sense. -/
  | misuse
deriving DecidableEq, Repr

namespace Invocation

/-- Reads the arguments of the program. An expression and a file exclude each other. -/
def ofArguments : List String → Invocation
  | [] => misuse
  | name :: args =>
    match Command.ofName? name, Source.ofArguments? ⟨none, none⟩ args with
    | some command, some source =>
      if source.expression.isSome && source.file.isSome then misuse else run command source
    | _, _ => misuse

/-- The path of the file that has to be read, if one has. -/
def file? : Invocation → Option String
  | run _ source => source.file
  | misuse => none

end Invocation

/-! ## Files -/

/-- Why a file cannot be read as text. -/
inductive FileError where
  | notUtf8
deriving DecidableEq, Repr

/-- The error in words. -/
def FileError.describe : FileError → String
  | notUtf8 => "cannot read input: stream did not contain valid UTF-8"

/-- The lines of a text, given the reversed line before them. A line feed ends a line; blanks at its ends,
    carriage returns among them, are dropped, and so are lines without anything else. -/
def trimmedLines (current : List Char) : List Char → List String
  | [] => keep current
  | c :: cs => if c = '\n' then keep current ++ trimmedLines [] cs else trimmedLines (c :: current) cs
where
  /-- A line as it is kept, if it is. -/
  keep (reversed : List Char) : List String :=
    let line := trimBlanks reversed.reverse
    if line.isEmpty then [] else [String.ofList line]

/-- The expressions of a file: its lines that are not blank. -/
def expressions? (content : ByteArray) : Except FileError (List String) :=
  match String.fromUTF8? content with
  | some text => .ok (trimmedLines [] text.toList)
  | none => .error .notUtf8

/-! ## Answers -/

/-- What a run of the program gives. -/
structure Answer where
  exitStatus : Nat
  output : String
deriving DecidableEq, Repr

/-- The answer to a command on several expressions. -/
def Command.answer (command : Command) (expressions : List String) : Answer :=
  let report : Report Float := .group (expressions.map command.report)
  ⟨if report.isError then 1 else 0, report.text⟩

/-- The answer to an invocation, where `content` holds the bytes of its file, unless they cannot be read. -/
def Invocation.answer (content : Option ByteArray) : Invocation → Answer
  | misuse => ⟨2, ""⟩
  | run command source =>
    match source.expression, source.file with
    | some text, _ => command.answer [text]
    | none, some _ =>
      match content.map expressions? with
      | some (.ok texts) => command.answer texts
      | _ => ⟨1, ""⟩
    | none, none => ⟨1, ""⟩

end Formula
