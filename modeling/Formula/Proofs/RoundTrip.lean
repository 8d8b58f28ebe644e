import Formula.Proofs.Parsing.Nesting
import Formula.Proofs.Parsing.Parsed

/-!
# `Formula.Proofs.RoundTrip` — what is written down is read back

The input form of a tree spells the words of its written tree, which is grouped, so the parser reads that tree back
unless it runs out of levels of nesting. A tree that was read is its own written tree and is nested within the
levels of the parser already; a tree that was built may be nested too deeply, but not if it is small.

## Contents
- `NestedTooDeeply` — the one way in which an input form is refused.
- `parseText_inputForm` — the input form is read back as the written tree, or is nested too deeply.
- `parseText_inputForm_of_parseText` — what was read is read back exactly.
- `parseText_inputForm_of_writable` — what was built is read back up to parentheses.
-/

namespace Formula

open Lexis Formula.Expr Parsing

variable {ν : Type} [Numeral ν]

/-- A text is read as its tokens are. -/
theorem parseText_of_tokens {text : String} {ts : List Token} (hts : tokensOf text = .ok ts) :
    (parseText text : Except InputError (Expr ν)) = (parseAll Grammar.standard ts).mapError InputError.parse := by
  cases hparse : parseAll (ν := ν) Grammar.standard ts <;> simp only [parseText, hts, hparse, Except.mapError]

theorem parseText_of_parseAll {text : String} {ts : List Token} (hts : tokensOf text = .ok ts) {e : Expr ν}
    (h : parseAll Grammar.standard ts = .ok e) : parseText text = .ok e := by
  simp only [parseText_of_tokens hts, h, Except.mapError]

theorem parseText_of_parseAll_error {text : String} {ts : List Token} (hts : tokensOf text = .ok ts) {err : ParseError}
    (h : parseAll (ν := ν) Grammar.standard ts = .error err) :
    (parseText text : Except InputError (Expr ν)) = .error (.parse err) := by
  simp only [parseText_of_tokens hts, h, Except.mapError]

/-- A text that is read as an expression has tokens that are. -/
theorem exists_tokens_of_parseText {text : String} {e : Expr ν} (h : parseText text = .ok e) :
    ∃ ts, tokensOf text = .ok ts ∧ parseAll Grammar.standard ts = .ok e := by
  cases hts : tokensOf text with
  | error err =>
    rw [parseText, hts] at h
    cases h
  | ok ts =>
    cases hparse : parseAll (ν := ν) Grammar.standard ts with
    | error err =>
      rw [parseText_of_parseAll_error hts hparse] at h
      cases h
    | ok e' =>
      rw [parseText_of_parseAll hts hparse] at h
      cases h
      exact ⟨ts, rfl, hparse⟩

variable (ν) in
/-- The text is refused because the expression in it is nested too deeply. -/
def NestedTooDeeply (text : String) : Prop :=
  ∃ err, (parseText text : Except InputError (Expr ν)) = .error (.parse err) ∧ err.NestedTooDeeply

theorem not_nestedTooDeeply {text : String} {e : Expr ν} (h : parseText text = .ok e) : ¬ NestedTooDeeply ν text := by
  rintro ⟨err, herr, -⟩
  rw [h] at herr
  cases herr

variable [Arithmetic ν] [LawfulNumeral ν]

/-- **The input form is read back as the written tree**, unless that is nested too deeply. -/
theorem parseText_inputForm {e : Expr ν} (h : Writable (fun _ => True) e) :
    (∃ p, parseText e.inputForm = .ok p ∧ p.unspanned = e.written.unspanned) ∨
      maxNesting ≤ e.written.levels ∧ NestedTooDeeply ν e.inputForm := by
  obtain ⟨ts, hts, hwords⟩ := (exists_tokensOf_iff e.inputForm e.written.words).mpr (spells_inputForm h)
  have hread := fun {n} (hn : e.written.levels < n) => readOperand_of_grouped (writable_written h) (grouped_written e)
    (fits_zero e.written) hn hwords 0
  simp only [Nat.zero_add] at hread
  by_cases hlevels : e.written.levels < maxNesting
  · obtain ⟨p, hp, hrun⟩ := hread hlevels
    exact Or.inl ⟨p, parseText_of_parseAll hts (parseAll_of_run hrun), hp⟩
  · have hle := Nat.not_lt.mp hlevels
    -- with more levels the tree would be read
    obtain ⟨p, hp, hrun⟩ := hread (Nat.lt_succ_self e.written.levels)
    rcases readOperand_within (ν := ν) Grammar.standard (Nat.le_succ_of_le hle) lowest ⟨0, ts⟩ with heq | ⟨err, c, herr, hnested⟩
    · rw [show (readOperand Grammar.standard (e.written.levels + 1) lowest).run ⟨0, ts⟩ = _ from hrun] at heq
      exact Or.inl ⟨p, parseText_of_parseAll hts (parseAll_of_run heq), hp⟩
    · exact Or.inr ⟨hle, err, parseText_of_parseAll_error hts (parseAll_of_run_error herr), hnested⟩

/-- **What was read is its own written tree.** -/
theorem written_of_parseText {text : String} {e : Expr ν} (h : parseText text = .ok e) :
    Writable IsPlain e ∧ e.written = e ∧ e.levels < maxNesting := by
  obtain ⟨ts, hts, hparse⟩ := exists_tokens_of_parseText h
  obtain ⟨hw, hg, hlevels⟩ := parsed_of_parseAll (genuine_of_tokensOf hts) hparse
  exact ⟨hw, written_eq_self hw hg, hlevels⟩

/-- What was read is read back, up to spans. -/
theorem parseText_inputForm_unspanned {text : String} {e : Expr ν} (h : parseText text = .ok e) :
    ∃ p, parseText e.inputForm = .ok p ∧ p.unspanned = e.unspanned := by
  obtain ⟨hw, hwritten, hlevels⟩ := written_of_parseText h
  rcases parseText_inputForm (hw.mono fun _ _ => trivial) with hread | ⟨hle, -⟩
  · rwa [hwritten] at hread
  · rw [hwritten] at hle
    exact absurd hlevels (Nat.not_lt.mpr hle)

/-- What was built is read back up to spans and parentheses, unless it is nested too deeply. -/
theorem parseText_inputForm_withoutParens {e : Expr ν} (h : Writable IsPlain e) :
    (∃ p, parseText e.inputForm = .ok p ∧ p.withoutParens.unspanned = e.withoutParens.unspanned) ∨
      80 < e.nodes ∧ NestedTooDeeply ν e.inputForm := by
  rcases parseText_inputForm (h.mono fun _ _ => trivial) with ⟨p, hp, hspans⟩ | ⟨hle, herr⟩
  · refine Or.inl ⟨p, hp, ?_⟩
    rw [unspanned_withoutParens, hspans, ← unspanned_withoutParens, withoutParens_written h]
  · refine Or.inr ⟨?_, herr⟩
    -- three levels for each node are within the levels of the parser up to 80 nodes
    have hlevels : e.written.levels < 3 * e.nodes :=
      levels_written (Nat.le_refl 3) (h.mono fun v hv => levels_writtenLiteral_of_plain hv)
    rw [show maxNesting = 256 from rfl] at hle
    omega

/-! ## Trees over the doubles -/

/-- The constants of the input language are equal to themselves. -/
theorem Constant.same_self {c : Constant} (h : c = .pi ∨ c = .e) : c.same c = true := by
  rcases h with rfl | rfl <;> decide +kernel

/-- A tree without signs and without literals that are not numbers is the same as itself. -/
theorem Expr.same_self {e : Expr Float} (h : Writable IsPlain e) : e.same e = true := by
  induction e with
  | paren s e ih => exact ih h
  | constant s c => exact Constant.same_self h
  | imaginary s => rfl
  | var s x => simp [same]
  | literal s v => exact Double.beq_self (Nat.le_of_lt (Double.shape_eq_finite_iff.mp h).1)
  | binary s op l r ihl ihr => simp [same, ihl h.1, ihr h.2]
  | unary s op e ih => simp [same, ih h]
  | derivative s e x ih => simp [same, ih h.1]
  | integral s e x ihe ihx => cases h
  | definiteIntegral s e x a b ihe ihx iha ihb => cases h

/-- **What was read is read back exactly**: whatever text is read as an expression, the expression's input form is
    read as the same expression. -/
theorem parseText_inputForm_of_parseText {text : String} {e : Expr Float} (h : parseText text = .ok e) :
    ∃ p, parseText e.inputForm = .ok p ∧ p.same e = true := by
  obtain ⟨p, hp, hspans⟩ := parseText_inputForm_unspanned h
  exact ⟨p, hp, same_of_unspanned hspans (same_self (written_of_parseText hp).1)⟩

/-- A text with a literal, two minus signs and a factorial. -/
theorem parseText_inputForm_minus :
    let e : Expr Float := .binary ⟨0, 7⟩ .sub (.literal ⟨0, 1⟩ 1)
      (.unary ⟨4, 7⟩ .neg (.unary ⟨5, 7⟩ .factorial (.var ⟨5, 6⟩ "x")))
    parseText "1 - -x!" = .ok e ∧ ∃ p, parseText e.inputForm = .ok p ∧ p.same e = true := by
  intro e
  have h : parseText "1 - -x!" = .ok e := by decide +kernel
  exact ⟨h, parseText_inputForm_of_parseText h⟩

/-- **What was built is read back up to parentheses**, unless it is nested too deeply, which a tree of at most 80
    nodes is not. -/
theorem parseText_inputForm_of_writable {e : Expr Float} (h : Writable IsPlain e) :
    ((∃ p, parseText e.inputForm = .ok p ∧ p.withoutParens.same e.withoutParens = true) ∨
        NestedTooDeeply Float e.inputForm) ∧
      (e.nodes ≤ 80 → ¬ NestedTooDeeply Float e.inputForm) := by
  rcases parseText_inputForm_withoutParens h with ⟨p, hp, hspans⟩ | ⟨hnodes, hnested⟩
  · have hsame := same_of_unspanned hspans (same_self (written_of_parseText hp).1.withoutParens)
    exact ⟨Or.inl ⟨p, hp, hsame⟩, fun _ => not_nestedTooDeeply hp⟩
  · exact ⟨Or.inr hnested, fun hle => absurd hle (Nat.not_le.mpr hnodes)⟩

/-- A power of a difference by a negation, below a factorial. -/
theorem parseText_inputForm_power :
    let e : Expr Float := .unary .nowhere .factorial (.binary .nowhere .pow
      (.binary .nowhere .sub (.var .nowhere "x") (.literal .nowhere 1)) (.unary .nowhere .neg (.var .nowhere "x")))
    Writable IsPlain e ∧ e.nodes ≤ 80 ∧
      ∃ p, parseText e.inputForm = .ok p ∧ p.withoutParens.same e.withoutParens = true := by
  intro e
  have h : Writable IsPlain e := ⟨⟨isName_x, LawfulNumeral.shape_one⟩, isName_x⟩
  have hnodes : e.nodes ≤ 80 := by decide
  obtain ⟨hread, hnested⟩ := parseText_inputForm_of_writable h
  exact ⟨h, hnodes, hread.resolve_right (hnested hnodes)⟩

end Formula
