import Formula.CommandLine
import Mathlib.Data.List.TakeWhile

/-!
# `Formula.Proofs.Files` — a file is answered line by line

A command on a file answers each line that is not blank as it would answer that line alone. The answers stand one after
the other, whatever the lines before them were, and the exit status is that of the worst line. How lines end, how many
blank ones stand between them and what white space is around them makes no difference.

## Contents
- `expressionLines` — the lines that are answered.
- `trimmedLines_eq` — what is read from a file are these lines.
- `Command.Refuses`, `Command.output_answer`, `Command.exitStatus_answer_iff` — the answer to several expressions.
- `Spaced` — lines with blank lines and white space added.
- `file_answered_by_lines` — the answer to a file.
-/

namespace Formula

/-! ## Lines -/

/-- The lines of a text, as they are written. -/
def textLines (text : String) : List (List Char) := text.toList.splitOn '\n'

/-- The lines that are not blank, without the white space around them. -/
def nonBlank (lines : List (List Char)) : List String :=
  ((lines.map trimBlanks).filter fun line => !line.isEmpty).map String.ofList

/-- The lines of a text that are answered. -/
def expressionLines (text : String) : List String := nonBlank (textLines text)

theorem nonBlank_append (ls ms : List (List Char)) : nonBlank (ls ++ ms) = nonBlank ls ++ nonBlank ms := by
  simp [nonBlank]

theorem nonBlank_cons (l : List Char) (ls : List (List Char)) : nonBlank (l :: ls) = nonBlank [l] ++ nonBlank ls :=
  nonBlank_append [l] ls

/-- What is kept of a line. -/
theorem keep_eq (reversed : List Char) : trimmedLines.keep reversed = nonBlank [reversed.reverse] := by
  unfold trimmedLines.keep nonBlank
  by_cases h : (trimBlanks reversed.reverse).isEmpty = true
  · simp [h]
  · simp [h]

/-- **What is read are the lines that are not blank.** The induction is on what is left to read; the line before it
    holds no line feed. -/
theorem trimmedLines_eq {cs current : List Char} (h : '\n' ∉ current) :
    trimmedLines current cs = nonBlank ((current.reverse ++ cs).splitOn '\n') := by
  induction cs generalizing current with
  | nil =>
    rw [trimmedLines, List.append_nil, List.splitOn_eq_singleton (by simpa using h), keep_eq]
  | cons c cs ih =>
    rw [trimmedLines]
    split
    · next hc =>
      subst hc
      rw [List.splitOn_append_cons_self, List.splitOn_eq_singleton (by simpa using h), nonBlank_append, keep_eq,
        ih List.not_mem_nil]
      rfl
    · next hc =>
      have hnext : '\n' ∉ c :: current := by
        rw [List.mem_cons, not_or]
        exact ⟨Ne.symm hc, h⟩
      rw [ih hnext, List.reverse_cons, List.append_assoc, List.singleton_append]

/-- A text is read back from its bytes. -/
theorem fromUTF8?_toUTF8 (text : String) : String.fromUTF8? text.toUTF8 = some text := by
  unfold String.fromUTF8?
  rw [dif_pos (show text.toUTF8.IsValidUTF8 from text.isValidUTF8)]
  rfl

theorem expressions?_toUTF8 (text : String) : expressions? text.toUTF8 = .ok (expressionLines text) := by
  rw [expressions?, fromUTF8?_toUTF8]
  simp only [trimmedLines_eq List.not_mem_nil]
  rfl

theorem textLines_append (a b : String) : textLines (a ++ "\n" ++ b) = textLines a ++ textLines b := by
  have htext : (a ++ "\n" ++ b).toList = a.toList ++ '\n' :: b.toList := by simp
  rw [textLines, htext, List.splitOn_append_cons_self]
  rfl

/-! ## Reports -/

/-- Whether a command does not understand an expression. -/
def Command.Refuses : Command → String → Prop
  | lex, text => ∃ err, tokensOf text = .error err
  | _, text => ∃ err, (parseText text : Except InputError (Expr Float)) = .error err

theorem Command.isError_report (command : Command) (text : String) :
    (command.report text : Report Float).isError = true ↔ command.Refuses text := by
  cases command with
  | lex =>
    unfold Command.report Report.ofTokens Command.Refuses
    cases h : tokensOf text <;> simp [h, Report.isError]
  | parse =>
    unfold Command.report Report.ofAnalysis Command.Refuses
    cases h : (parseText text : Except InputError (Expr Float)) <;> simp [h, Report.isError]
  | eval =>
    unfold Command.report Report.ofEvaluation Command.Refuses
    cases h : (parseText text : Except InputError (Expr Float)) <;> simp [h, Report.isError]

section Report

variable {ν : Type}

theorem Report.anyError_iff (rs : List (Report ν)) : Report.anyError rs = true ↔ ∃ r ∈ rs, r.isError = true := by
  induction rs with
  | nil => simp [anyError]
  | cons r rs ih => simp [anyError, ih]

variable [Arithmetic ν] [Numeral ν]

theorem Report.groupText_eq (rs : List (Report ν)) : Report.groupText rs = "\n".intercalate (rs.map Report.text) := by
  induction rs with
  | nil => rfl
  | cons r rs ih =>
    cases rs with
    | nil => simp [groupText, followingText]
    | cons r' rs =>
      rw [List.map_cons, String.intercalate_cons_of_ne_nil (by simp), ← ih, groupText, followingText, groupText]
      simp [String.append_assoc]

end Report

/-- The texts of the reports, one after the other. -/
theorem Command.output_answer (command : Command) (texts : List String) : (command.answer texts).output =
    "\n".intercalate (texts.map fun text => (command.report text : Report Float).text) := by
  show Report.groupText (texts.map command.report) = _
  rw [Report.groupText_eq, List.map_map]
  rfl

theorem Command.exitStatus_answer (command : Command) (texts : List String) :
    (command.answer texts).exitStatus =
      if Report.anyError (texts.map command.report : List (Report Float)) = true then 1 else 0 :=
  rfl

/-- The exit status tells whether an expression was refused. -/
theorem Command.exitStatus_answer_iff (command : Command) (texts : List String) :
    ((command.answer texts).exitStatus = 1 ↔ ∃ text ∈ texts, command.Refuses text) ∧
      ((command.answer texts).exitStatus = 0 ↔ ¬ ∃ text ∈ texts, command.Refuses text) := by
  have hany : Report.anyError (texts.map command.report : List (Report Float)) = true ↔
      ∃ text ∈ texts, command.Refuses text := by
    simp only [Report.anyError_iff, List.mem_map, exists_exists_and_eq_and, isError_report]
  rw [exitStatus_answer, ← hany]
  split <;> simp_all

/-- **Answers to some expressions and to others make up the answer to all of them.** -/
theorem Command.answer_append (command : Command) (texts others : List String) :
    (command.answer (texts ++ others)).exitStatus =
        max (command.answer texts).exitStatus (command.answer others).exitStatus ∧
      (texts ≠ [] → others ≠ [] → (command.answer (texts ++ others)).output =
        (command.answer texts).output ++ "\n" ++ (command.answer others).output) := by
  constructor
  · have hany : ∀ rs rs' : List (Report Float),
        Report.anyError (rs ++ rs') = (Report.anyError rs || Report.anyError rs') := by
      intro rs rs'
      rw [Bool.eq_iff_iff, Bool.or_eq_true, Report.anyError_iff, Report.anyError_iff, Report.anyError_iff]
      simp only [List.mem_append, or_and_right, exists_or]
    rw [exitStatus_answer, exitStatus_answer, exitStatus_answer, List.map_append, hany]
    cases Report.anyError (texts.map command.report : List (Report Float)) <;>
      cases Report.anyError (others.map command.report : List (Report Float)) <;> rfl
  · intro htexts hothers
    rw [output_answer, output_answer, output_answer, List.map_append,
      String.intercalate_append_of_ne_nil (by simpa using htexts) (by simpa using hothers)]

/-! ## White space -/

/-- White space. -/
def IsBlank (cs : List Char) : Prop := ∀ c ∈ cs, isBlank c = true

/-- **Lines with blank lines and white space added**: before the first and after each line there may be further blank
    ones, and around the text of a line there may be white space, such as a carriage return at its end. -/
inductive Spaced : List (List Char) → List (List Char) → Prop where
  | nil : Spaced [] []
  | blank {w ls ms} : IsBlank w → Spaced ls ms → Spaced ls (w :: ms)
  | line {v w l ls ms} : IsBlank v → IsBlank w → Spaced ls ms → Spaced (l :: ls) ((v ++ l ++ w) :: ms)

theorem trimBlanks_of_isBlank {w : List Char} (h : IsBlank w) : trimBlanks w = [] := by
  rw [trimBlanks, List.dropWhile_eq_nil_iff.mpr h]
  rfl

/-- White space around a line is trimmed. -/
theorem trimBlanks_append {v w : List Char} (hv : IsBlank v) (hw : IsBlank w) (l : List Char) :
    trimBlanks (v ++ l ++ w) = trimBlanks l := by
  have hwr : ∀ c ∈ w.reverse, isBlank c = true := fun c hc => hw c (List.mem_reverse.mp hc)
  rw [trimBlanks, List.append_assoc, List.dropWhile_append_of_pos hv, List.dropWhile_append]
  split
  · next hl =>
    -- nothing but white space
    rw [List.isEmpty_iff] at hl
    rw [List.dropWhile_eq_nil_iff.mpr hw, trimBlanks, hl]
  · rw [List.reverse_append, List.dropWhile_append_of_pos hwr, trimBlanks]

/-- Adding blank lines and white space leaves the lines that are answered. -/
theorem Spaced.nonBlank_eq {ls ms : List (List Char)} (h : Spaced ls ms) : nonBlank ms = nonBlank ls := by
  induction h with
  | nil => rfl
  | @blank w ls ms hw _ ih =>
    have hnone : nonBlank [w] = [] := by simp [nonBlank, trimBlanks_of_isBlank hw]
    rw [nonBlank_cons, hnone, ih]
    rfl
  | @line v w l ls ms hv hw _ ih =>
    have hsame : nonBlank [v ++ l ++ w] = nonBlank [l] := by
      rw [nonBlank, nonBlank, List.map_singleton, List.map_singleton, trimBlanks_append hv hw]
    rw [nonBlank_cons, nonBlank_cons l, hsame, ih]

theorem Spaced.refl (ls : List (List Char)) : Spaced ls ls := by
  have hnil : IsBlank [] := fun c hc => by cases hc
  induction ls with
  | nil => exact .nil
  | cons l ls ih => simpa using Spaced.line (l := l) hnil hnil ih

/-- A text with a carriage return before each line feed. -/
def withReturns (text : String) : String :=
  String.ofList (text.toList.flatMap fun c => if c = '\n' then ['\r', '\n'] else [c])

/-- Carriage returns are white space at the ends of lines. -/
theorem spaced_withReturns (text : String) : Spaced (textLines text) (textLines (withReturns text)) := by
  have hnil : IsBlank [] := fun c hc => by cases hc
  have hreturn : IsBlank ['\r'] := by
    intro c hc
    rw [List.mem_singleton.mp hc]
    decide
  -- the front of a line is passed on until its line feed is reached
  have hlines : ∀ cs front : List Char, '\n' ∉ front → Spaced ((front ++ cs).splitOn '\n')
      ((front ++ cs.flatMap fun c => if c = '\n' then ['\r', '\n'] else [c]).splitOn '\n') := by
    intro cs
    induction cs with
    | nil => exact fun front _ => .refl _
    | cons c cs ih =>
      intro front hfront
      rw [List.flatMap_cons]
      split
      · next hc =>
        subst hc
        have hend : '\n' ∉ front ++ ['\r'] := by simpa using hfront
        have hsplit : front ++ (['\r', '\n'] ++ cs.flatMap fun c => if c = '\n' then ['\r', '\n'] else [c]) =
            (front ++ ['\r']) ++ '\n' :: cs.flatMap fun c => if c = '\n' then ['\r', '\n'] else [c] := by
          simp
        rw [hsplit, List.splitOn_append_cons_self, List.splitOn_append_cons_self, List.splitOn_eq_singleton hfront,
          List.splitOn_eq_singleton hend]
        exact Spaced.line hnil hreturn (ih [] List.not_mem_nil)
      · next hc =>
        have hnext : '\n' ∉ front ++ [c] := by
          rw [List.mem_append, List.mem_singleton, not_or]
          exact ⟨hfront, Ne.symm hc⟩
        have hstep := ih (front ++ [c]) hnext
        rwa [List.append_assoc, List.append_assoc] at hstep
  rw [textLines, textLines, withReturns, String.toList_ofList]
  exact hlines text.toList [] List.not_mem_nil

/-! ## Files -/

/-- The answer to a command on a file that holds a text. -/
def Command.answerFile (command : Command) (path text : String) : Answer :=
  (Invocation.run command ⟨none, some path⟩).answer (some text.toUTF8)

theorem Command.answerFile_eq (command : Command) (path text : String) :
    command.answerFile path text = command.answer (expressionLines text) := by
  unfold Command.answerFile Invocation.answer
  simp only [Option.map_some, expressions?_toUTF8]

/-- **A file is answered line by line.** The output are the texts of the reports on its lines, and the exit status tells
    whether one of them was refused. So the answer to two texts one after the other is made up of the answers to either,
    and added blank lines, white space around lines and carriage returns at their ends change nothing. -/
theorem file_answered_by_lines (command : Command) (path : String) :
    (∀ text, (command.answerFile path text).output = "\n".intercalate
          ((expressionLines text).map fun line => (command.report line : Report Float).text) ∧
        ((command.answerFile path text).exitStatus = 1 ↔ ∃ line ∈ expressionLines text, command.Refuses line) ∧
        ((command.answerFile path text).exitStatus = 0 ↔ ¬ ∃ line ∈ expressionLines text, command.Refuses line)) ∧
      (∀ a b, (command.answerFile path (a ++ "\n" ++ b)).exitStatus =
          max (command.answerFile path a).exitStatus (command.answerFile path b).exitStatus ∧
        (expressionLines a ≠ [] → expressionLines b ≠ [] → (command.answerFile path (a ++ "\n" ++ b)).output =
          (command.answerFile path a).output ++ "\n" ++ (command.answerFile path b).output) ∧
        (expressionLines a = [] → command.answerFile path (a ++ "\n" ++ b) = command.answerFile path b) ∧
        (expressionLines b = [] → command.answerFile path (a ++ "\n" ++ b) = command.answerFile path a)) ∧
      (∀ a b, Spaced (textLines a) (textLines b) → command.answerFile path b = command.answerFile path a) ∧
      ∀ text, command.answerFile path (withReturns text) = command.answerFile path text := by
  have happend : ∀ a b, expressionLines (a ++ "\n" ++ b) = expressionLines a ++ expressionLines b := by
    intro a b
    rw [expressionLines, textLines_append, nonBlank_append]
    rfl
  have hspaced : ∀ a b, Spaced (textLines a) (textLines b) →
      command.answerFile path b = command.answerFile path a := by
    intro a b h
    rw [command.answerFile_eq, command.answerFile_eq, expressionLines, h.nonBlank_eq]
    rfl
  refine ⟨?_, ?_, hspaced, fun text => hspaced _ _ (spaced_withReturns text)⟩
  · intro text
    rw [command.answerFile_eq]
    exact ⟨command.output_answer _, command.exitStatus_answer_iff _⟩
  · intro a b
    obtain ⟨hstatus, houtput⟩ := command.answer_append (expressionLines a) (expressionLines b)
    rw [command.answerFile_eq, command.answerFile_eq, command.answerFile_eq, happend]
    refine ⟨hstatus, houtput, ?_, ?_⟩
    · intro ha
      rw [ha, List.nil_append]
    · intro hb
      rw [hb, List.append_nil]

/-- Two lines of which the first is refused, as they are and with white space, a blank line and a carriage return. -/
theorem file_answered_by_lines_spaced :
    let a := "2 *\n1 + 1"
    let b := " 2 *\r\n\n1 + 1\t"
    Spaced (textLines a) (textLines b) ∧ Command.eval.answerFile "in" b = Command.eval.answerFile "in" a ∧
      expressionLines "2 *" ≠ [] ∧ expressionLines "1 + 1" ≠ [] ∧ expressionLines " " = [] ∧
      (Command.eval.answerFile "in" a).output = (Command.eval.answerFile "in" "2 *").output ++ "\n" ++
        (Command.eval.answerFile "in" "1 + 1").output ∧
      Command.eval.answerFile "in" ("2 *" ++ "\n" ++ " ") = Command.eval.answerFile "in" "2 *" ∧
      Command.eval.answerFile "in" (" " ++ "\n" ++ "2 *") = Command.eval.answerFile "in" "2 *" ∧
      (Command.eval.answerFile "in" a).exitStatus = 1 := by
  intro a b
  have hblank : ∀ c ∈ [' ', '\r', '\t'], IsBlank [c] := by
    intro c hc d hd
    have hall : [' ', '\r', '\t'].all isBlank = true := by decide
    rw [List.mem_singleton.mp hd]
    exact List.all_eq_true.mp hall c hc
  have hnil : IsBlank [] := fun c hc => by cases hc
  have ha : textLines a = ["2 *".toList, "1 + 1".toList] := by decide
  have hb : textLines b = [[' '] ++ "2 *".toList ++ ['\r'], [], [] ++ "1 + 1".toList ++ ['\t']] := by decide
  have hspaced : Spaced (textLines a) (textLines b) := by
    rw [ha, hb]
    exact .line (hblank ' ' (by decide)) (hblank '\r' (by decide))
      (.blank hnil (.line hnil (hblank '\t' (by decide)) .nil))
  obtain ⟨hlines, happend, hsame, -⟩ := file_answered_by_lines .eval "in"
  have hfirst : expressionLines "2 *" ≠ [] := by decide
  have hsecond : expressionLines "1 + 1" ≠ [] := by decide
  have hnone : expressionLines " " = [] := by decide
  have hrefused : Command.eval.Refuses "2 *" := (Command.eval.isError_report "2 *").mp (by decide +kernel)
  have hmem : "2 *" ∈ expressionLines a := by decide
  exact ⟨hspaced, hsame a b hspaced, hfirst, hsecond, hnone, (happend "2 *" "1 + 1").2.1 hfirst hsecond,
    (happend "2 *" " ").2.2.2 hnone, (happend " " "2 *").2.2.1 hnone, (hlines a).2.1.mpr ⟨"2 *", hmem, hrefused⟩⟩

end Formula
