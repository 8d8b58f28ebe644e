import Formula.Proofs.Expr.NormalForm
import Formula.Proofs.Expr.Simplified
import Formula.Proofs.RoundTrip
import Formula.Report

/-!
# `Formula.Proofs.Reevaluation` — reading an input form again keeps its value

Literals that are negative, infinite or no numbers are written as operations, so that an input form may be read as
another tree than it was written from. But the operations are carried out again when the tree is simplified, and to
the same literals. So the simplified form, and with it the report of an evaluation, is the same.

## Contents
- `simplify_of_inputForm` — the simplified form of what is read back.
- `text_ofEvaluation_inputForm` — the report of an input form that a report shows.
- `reevaluation` — both, for doubles.
-/

namespace Formula

open Formula.Expr Parsing

variable {ν : Type} [Numeral ν]

/-- The report of a plain expression does not depend on spans. -/
theorem plainText_of_unspanned {e e' : Expr ν} (h : e.unspanned = e'.unspanned) :
    Report.plainText e = Report.plainText e' := by
  rw [Report.plainText, Report.plainText, ← latex_unspanned e, ← inputForm_unspanned e, h, latex_unspanned,
    inputForm_unspanned]

variable [Arithmetic ν]

/-- The report of an evaluation is that of the simplified form. -/
theorem text_ofEvaluation {text : String} {e : Expr ν} (h : parseText text = .ok e) :
    (Report.ofEvaluation text : Report ν).text = Report.plainText e.simplify := by
  rw [Report.ofEvaluation, h]
  rfl

variable [LawfulNumeral ν]

/-- **What is read back has the same simplified form**, unless the input form is nested too deeply. -/
theorem simplify_of_inputForm {e : Expr ν} (h : Writable (fun _ => True) e) :
    (∃ p, parseText e.inputForm = .ok p ∧ p.simplify.unspanned = e.simplify.unspanned) ∨
      50 < e.nodes ∧ NestedTooDeeply ν e.inputForm := by
  rcases parseText_inputForm h with ⟨p, hp, hspans⟩ | ⟨hle, hnested⟩
  · refine Or.inl ⟨p, hp, ?_⟩
    rw [unspanned_simplify, hspans, ← unspanned_simplify, simplify_written]
  · refine Or.inr ⟨?_, hnested⟩
    -- five levels for each node are within the levels of the parser up to 50 nodes
    have hlevels : e.written.levels < 5 * e.nodes :=
      levels_written (by decide) (h.mono fun v _ s => levels_writtenLiteral s v)
    rw [show maxNesting = 256 from rfl] at hle
    omega

/-- **Evaluating the input form that a report shows gives the report again**, unless it is nested too deeply. -/
theorem text_ofEvaluation_inputForm {text : String} {e : Expr ν} (h : parseText text = .ok e) :
    (Report.ofEvaluation e.simplify.inputForm : Report ν).text = (Report.ofEvaluation text : Report ν).text ∨
      NestedTooDeeply ν e.simplify.inputForm := by
  have hw : Writable (fun _ => True) e.simplify :=
    writable_simplify ((written_of_parseText h).1.mono fun _ _ => trivial)
  rcases simplify_of_inputForm hw with ⟨p, hp, hspans⟩ | ⟨-, hnested⟩
  · refine Or.inl ?_
    rw [text_ofEvaluation hp, text_ofEvaluation h]
    -- the simplified form is simplified already
    rw [simplify_simplify] at hspans
    exact plainText_of_unspanned hspans
  · exact Or.inr hnested

/-! ## Trees over the doubles -/

/-- **Reading an input form again keeps its value**, whatever doubles the tree holds, unless the input form is nested
    too deeply, which that of a tree of at most 50 nodes is not; and so an evaluation that is evaluated again gives the
    same report. -/
theorem reevaluation :
    (∀ e : Expr Float, Writable (fun _ => True) e →
      (¬ NestedTooDeeply Float e.inputForm →
          ∃ p, parseText e.inputForm = .ok p ∧ p.simplify.unspanned = e.simplify.unspanned) ∧
        (e.nodes ≤ 50 → ¬ NestedTooDeeply Float e.inputForm)) ∧
    ∀ (text : String) (e : Expr Float), parseText text = .ok e →
      (¬ NestedTooDeeply Float e.simplify.inputForm →
          (Report.ofEvaluation e.simplify.inputForm : Report Float).text = (Report.ofEvaluation text : Report Float).text) ∧
        (e.simplify.nodes ≤ 50 → ¬ NestedTooDeeply Float e.simplify.inputForm) := by
  have hshallow : ∀ e : Expr Float, Writable (fun _ => True) e → e.nodes ≤ 50 →
      ¬ NestedTooDeeply Float e.inputForm := by
    intro e hw hle
    rcases simplify_of_inputForm hw with ⟨p, hp, -⟩ | ⟨hlt, -⟩
    · exact not_nestedTooDeeply hp
    · exact absurd hle (Nat.not_le.mpr hlt)
  constructor
  · intro e hw
    refine ⟨fun hnested => ?_, hshallow e hw⟩
    rcases simplify_of_inputForm hw with hread | ⟨-, h⟩
    · exact hread
    · exact absurd h hnested
  · intro text e h
    have hw : Writable (fun _ => True) e.simplify :=
      writable_simplify ((written_of_parseText h).1.mono fun _ _ => trivial)
    refine ⟨fun hnested => ?_, hshallow e.simplify hw⟩
    exact (text_ofEvaluation_inputForm h).resolve_right hnested

/-- An infinite power of a negative literal, and a difference that is evaluated to a negative literal. -/
theorem reevaluation_negative :
    let e : Expr Float := .binary .nowhere .pow (.literal .nowhere (-3)) (.literal .nowhere (1 / 0))
    let e' : Expr Float := .binary ⟨0, 5⟩ .sub (.literal ⟨0, 1⟩ 2) (.literal ⟨4, 5⟩ 5)
    (Writable (fun _ => True) e ∧ e.nodes ≤ 50 ∧
      ∃ p, parseText e.inputForm = .ok p ∧ p.simplify.unspanned = e.simplify.unspanned) ∧
    parseText "2 - 5" = .ok e' ∧ e'.simplify.nodes ≤ 50 ∧
      (Report.ofEvaluation e'.simplify.inputForm : Report Float).text = (Report.ofEvaluation "2 - 5" : Report Float).text := by
  intro e e'
  have hw : Writable (fun _ => True) e := ⟨trivial, trivial⟩
  have hnodes : e.nodes ≤ 50 := by decide
  have hparse : parseText "2 - 5" = .ok e' := by decide +kernel
  have hnodes' : e'.simplify.nodes ≤ 50 := by decide +kernel
  obtain ⟨hvalue, hreport⟩ := reevaluation
  exact ⟨⟨hw, hnodes, (hvalue e hw).1 ((hvalue e hw).2 hnodes)⟩, hparse, hnodes',
    (hreport _ e' hparse).1 ((hreport _ e' hparse).2 hnodes')⟩

end Formula
