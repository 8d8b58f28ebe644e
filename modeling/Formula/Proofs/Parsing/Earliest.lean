import Formula.Proofs.Parsing.Blame

/-!
# `Formula.Proofs.Parsing.Earliest` — errors are found at the earliest token

Where tokens are no expression, the error is located at the first of them that is wrong: whatever comes after it, the
tokens up to it are refused, while those in front of it are the beginning of an expression.
-/

namespace Formula

open Lexis

namespace Parsing

/-- **Tokens that are no expression fail at the first one that is wrong**: with it they are refused whatever comes
    next, and those in front of it can be completed. -/
theorem blamed_of_parseAll {ν : Type} [Numeral ν] [Arithmetic ν] [LawfulNumeral ν] {ts : List Token} {err : ParseError}
    (hts : Genuine ts) (h : (parseAll .standard ts : Except ParseError (Expr ν)) = .error err) :
    ∃ vs rest, ts = vs ++ rest ∧ (∃ complaint, err = .diagnosed ⟨complaint, locationOf rest⟩) ∧
      (∀ us, us.head? = rest.head? → ∀ e : Expr ν, parseAll .standard (vs ++ us) ≠ .ok e) ∧
      (¬ err.NestedTooDeeply → ∃ ws, Genuine ws ∧ ∃ e : Expr ν, parseAll .standard (vs ++ ws) = .ok e) := by
  cases hrun : (readOperand (ν := ν) .standard maxNesting lowest).run ⟨0, ts⟩ with
  | error err' c =>
    obtain rfl := Except.error.inj ((parseAll_of_run_error hrun).symm.trans h)
    obtain ⟨vs, rest, rfl, hblames⟩ := (loops_failEarly maxNesting).1 lowest 0 ts err' c hts hrun
    refine ⟨vs, rest, rfl, hblames.isAt, fun us hus e hok => ?_, fun hnested => ?_⟩
    · obtain ⟨c, hc⟩ := hblames.fails us hus 0
      cases hok.symm.trans (parseAll_of_run_error hc)
    · obtain ⟨ws, e, hws, -, hcompleted⟩ := hblames.completes hnested [] closing_nil
      rw [List.append_nil] at hcompleted
      exact ⟨ws, hws, e, parseAll_iff_run.mpr hcompleted⟩
  | ok e c =>
    -- an expression was read, and a token comes after it
    obtain ⟨hread, hcounts⟩ := (run_of_loops maxNesting).1 hrun
    obtain ⟨t₀, vs, hvs, hreplay⟩ := hread.replay
    have hconsumed : c.consumed = (t₀ :: vs).length := by
      simp only [Counts, hvs, List.length_cons, List.length_append] at hcounts ⊢
      omega
    have hnext : ts[c.consumed]? = c.rest.head? := by
      rw [hvs, hconsumed, ← List.cons_append, List.getElem?_append_right le_rfl, Nat.sub_self, List.head?_eq_getElem?]
    rw [parseAll_of_run_ok hrun, hnext] at h
    cases ht : c.rest.head? with
    | none =>
      rw [ht] at h
      cases h
    | some t =>
      rw [ht] at h
      cases h
      obtain ⟨ts', hts'⟩ : ∃ ts', c.rest = t :: ts' := ⟨_, List.eq_cons_of_mem_head? ht⟩
      refine ⟨t₀ :: vs, c.rest, hvs, ⟨.extraneous, by rw [hts']; rfl⟩, fun us hus e' hok => ?_, fun _ => ?_⟩
      · -- the same expression is read again, and it leaves tokens
        obtain ⟨k, hagain⟩ := (hreplay us (.of_head hus)).exec 0
        obtain ⟨k', hall⟩ := (parseAll_iff_run.mp hok).exec 0
        cases hagain.symm.trans hall
        rw [ht] at hus
        cases hus
      · have hend := hreplay [] (.nil c.rest)
        exact ⟨[], genuine_nil, e, parseAll_iff_run.mpr hend⟩

/-- **Errors are found at the earliest token.** Tokens up to one that an error is located at are refused whatever comes
    after them; and unless the expression is nested too deeply, those in front of it can be completed. So can all of
    them where the error is located at the end. -/
theorem earliest_of_parseAll {ts : List Token} {err : ParseError} (hts : Genuine ts)
    (hstarts : (ts.map fun t => t.span.start).Nodup)
    (h : (parseAll .standard ts : Except ParseError (Expr Float)) = .error err) :
    (∀ i t complaint, ts[i]? = some t → err = .complain complaint t.span.start →
      (∀ us, ts.take (i + 1) <+: us → ∀ e : Expr Float, parseAll .standard us ≠ .ok e) ∧
      (complaint ≠ .nestedTooDeeply →
        ∃ us, ts.take i <+: us ∧ Genuine us ∧ ∃ e : Expr Float, parseAll .standard us = .ok e)) ∧
    (∀ complaint, err = .complainAtEnd complaint → complaint ≠ .nestedTooDeeply →
      ∃ us, ts <+: us ∧ Genuine us ∧ ∃ e : Expr Float, parseAll .standard us = .ok e) := by
  obtain ⟨vs, rest, rfl, ⟨complaint, rfl⟩, hrefused, hcompleted⟩ := blamed_of_parseAll hts h
  have hcomplete : complaint ≠ .nestedTooDeeply →
      ∃ us, vs <+: us ∧ Genuine us ∧ ∃ e : Expr Float, parseAll .standard us = .ok e := by
    intro hcomplaint
    obtain ⟨ws, hws, e, he⟩ := hcompleted fun ⟨_, hnested⟩ => by
      cases hnested
      exact hcomplaint rfl
    exact ⟨vs ++ ws, List.prefix_append vs ws, hts.left.append hws, e, he⟩
  cases rest with
  | nil =>
    refine ⟨fun i t complaint' _ herr => ?_, fun complaint' herr hcomplaint => ?_⟩
    · cases herr
    · cases herr
      rw [List.append_nil]
      exact hcomplete hcomplaint
  | cons t rest =>
    refine ⟨fun i t' complaint' hi herr => ?_, fun complaint' herr => by cases herr⟩
    obtain ⟨rfl, hstart⟩ : complaint = complaint' ∧ t.span.start = t'.span.start := by
      simpa [ParseError.complain, locationOf] using herr
    -- no other token starts where the error is
    obtain rfl : vs.length = i := by
      rw [← List.getElem?_inj (by simp) hstarts, List.getElem?_map, List.getElem?_map, hi,
        List.getElem?_append_right le_rfl, Nat.sub_self]
      exact congrArg some hstart
    constructor
    · rintro us ⟨us, rfl⟩ e
      rw [List.take_length_add_append, List.append_assoc]
      exact hrefused (t :: us) rfl e
    · rw [List.take_left]
      exact hcomplete

/-- An operand is missing in a group: whatever comes after the parenthesis, and what was read can be completed. -/
theorem earliest_of_parseAll_group :
    let ts : List Token := [⟨.number, "2", ⟨0, 1⟩⟩, ⟨.symbol, "(", ⟨2, 3⟩⟩, ⟨.name, "x", ⟨3, 4⟩⟩,
      ⟨.symbol, "+", ⟨5, 6⟩⟩, ⟨.symbol, ")", ⟨6, 7⟩⟩]
    tokensOf "2 (x +)" = .ok ts ∧
      (parseAll .standard ts : Except ParseError (Expr Float)) = .error (.complain (.operandMissing (some ")")) 6) ∧
      (∀ us, ts <+: us → ∀ e : Expr Float, parseAll .standard us ≠ .ok e) ∧
      ∃ us, ts.take 4 <+: us ∧ Genuine us ∧ ∃ e : Expr Float, parseAll .standard us = .ok e := by
  intro ts
  have htokens : tokensOf "2 (x +)" = .ok ts := by decide +kernel
  have herr : (parseAll .standard ts : Except ParseError (Expr Float)) =
      .error (.complain (.operandMissing (some ")")) 6) := by decide +kernel
  obtain ⟨hat, -⟩ := earliest_of_parseAll (genuine_of_tokensOf htokens) (nodup_starts_of_tokensOf htokens) herr
  obtain ⟨hrefused, hcompleted⟩ := hat 4 _ _ rfl rfl
  exact ⟨htokens, herr, hrefused, hcompleted (by decide)⟩

end Parsing

end Formula
