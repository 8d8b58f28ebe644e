import Formula.Proofs.Lexis.Places
import Formula.Proofs.Parsing.Diagnosed

/-!
# `Formula.Proofs.Diagnosis` — what is said about a text that is no expression

Whatever the text, a front end that cannot read it has something to point at: a character that begins no token, the
start of a token that does not fit, or the end of the text. The text is always to blame, never the tables.
-/

namespace Formula

open Parsing

/-- **Every error has a diagnosis that points into the text.** No error is a fault; a diagnosis with an offset points at
    a character; where there are no tokens, no row of the table matches at that character; and where there are, it is
    the start of one of them. -/
theorem diagnosis_of_parseText {text : String} {err : InputError}
    (h : (parseText text : Except InputError (Expr Float)) = .error err) :
    (∀ f, err ≠ .parse (.fault f)) ∧ ∃ d, err.diagnosis? = some d ∧
      (∀ offset, d.location = .offset offset → IsCharacterOffset text offset) ∧
      (∀ e, err = .lex e → d.location = .offset e.offset ∧ TokenTable.standard.NoMatchAt text e.offset) ∧
      (∀ e, err = .parse e → ∃ ts, tokensOf text = .ok ts ∧
        (d.location = .endOfInput ∨ ∃ t ∈ ts, d.location = .offset t.span.start)) := by
  rw [parseText] at h
  cases htokens : tokensOf text with
  | error e =>
    rw [htokens] at h
    cases h
    have hnone : TokenTable.standard.NoMatchAt text e.offset := TokenTable.noMatchAt_of_tokens htokens
    refine ⟨nofun, e.diagnosis, rfl, ?_, ?_, nofun⟩
    · rintro offset hoffset
      obtain rfl : e.offset = offset := by simpa [LexError.diagnosis] using hoffset
      exact hnone.isCharacterOffset
    · rintro e' he
      cases he
      exact ⟨rfl, hnone⟩
  | ok ts =>
    rw [htokens] at h
    simp only at h
    split at h
    · next e he =>
      cases h
      obtain ⟨d, rfl, hlocation⟩ := pointsInto_of_parseAll (genuine_of_tokensOf htokens) he
      refine ⟨nofun, d, rfl, ?_, nofun, fun _ _ => ⟨ts, rfl, hlocation⟩⟩
      intro offset hoffset
      rcases hlocation with hend | ⟨t, ht, hstart⟩
      · rw [hend] at hoffset
        cases hoffset
      · obtain rfl : t.span.start = offset := by simpa [hstart] using hoffset
        exact TokenTable.isCharacterOffset_of_mem_tokens htokens ht
    · cases h

/-- A letter that begins no token. -/
theorem diagnosis_of_parseText_letter :
    (parseText "2 π" : Except InputError (Expr Float)) = .error (.lex ⟨2⟩) ∧ IsCharacterOffset "2 π" 2 ∧
      TokenTable.standard.NoMatchAt "2 π" 2 := by
  have h : (parseText "2 π" : Except InputError (Expr Float)) = .error (.lex ⟨2⟩) := by decide +kernel
  obtain ⟨-, d, hd, hoffset, hnone, -⟩ := diagnosis_of_parseText h
  cases hd
  exact ⟨h, hoffset 2 rfl, (hnone _ rfl).2⟩

end Formula
