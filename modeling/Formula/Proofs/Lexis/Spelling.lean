import Formula.Proofs.Lexis.Standing
import Formula.Proofs.Number.Text

/-!
# `Formula.Proofs.Lexis.Spelling` — texts and the words that they spell

The tokens of a text are the words that it spells, one after the other, with spaces and tabs between them left
out. Spelling is a relation that knows nothing of offsets, so that the words of a text put together from parts
are the words of the parts.

## Contents
- `Spells` — a text spells a list of words.
- `exists_tokensOf_iff` — the tokens of a text are the words that it spells.
- `Spells.append` — texts put together.
- `IsWord`, `IsName` — texts that are one word, and what is known about them.
-/

namespace Formula

open Lexis

namespace Lexis

/-- **A text spells words.** -/
inductive Spells : List Char → List Word → Prop where
  | nil : Spells [] []
  | skip {c cs ws} : TokenTable.isSkipped c = true → Spells cs ws → Spells (c :: cs) ws
  | word {cs k n ws} : nextWord? cs = some (k, n) → Spells (cs.drop n) ws →
      Spells cs ((k, String.ofList (cs.take n)) :: ws)

/-! ## Tokens -/

/-- The words that a text spells stand in it, wherever it begins. -/
theorem Spells.exists_stands {cs : List Char} {ws : List Word} (h : Spells cs ws) :
    ∀ o, ∃ ts, Stands o cs ts ∧ ts.map Token.word = ws := by
  induction h with
  | nil => exact fun _ => ⟨[], .nil, rfl⟩
  | @skip c cs ws hc _ ih =>
    intro o
    obtain ⟨ts, hts, hws⟩ := ih (o + c.utf8Size)
    exact ⟨ts, .skip hc hts, hws⟩
  | @word cs k n ws hw _ ih =>
    intro o
    obtain ⟨ts, hts, rfl⟩ := ih (o + bytes (cs.take n))
    exact ⟨_, .word hw hts, rfl⟩

/-- Tokens that stand in a text are spelled by it. -/
theorem Stands.spells {o : Nat} {cs : List Char} {ts : List Token} (h : Stands o cs ts) :
    Spells cs (ts.map Token.word) := by
  induction h with
  | nil => exact .nil
  | skip hc _ ih => exact .skip hc ih
  | word hw _ ih => exact .word hw ih

end Lexis

/-- **The tokens of a text are the words that it spells.** -/
theorem exists_tokensOf_iff (text : String) (ws : List Word) :
    (∃ ts, tokensOf text = .ok ts ∧ ts.map Token.word = ws) ↔ Lexis.Spells text.toList ws := by
  constructor
  · rintro ⟨ts, hts, rfl⟩
    exact (stands_of_tokensOf hts).spells
  · intro h
    obtain ⟨ts, hts, hws⟩ := h.exists_stands 0
    exact ⟨ts, hts.scan none, hws⟩

namespace Lexis

/-! ## Texts put together -/

/-- Where the second text begins with a delimiter, the words of both are the words of each. -/
theorem Spells.append {cs rest : List Char} {ws vs : List Word} (h : Spells cs ws) (hd : Delimited rest)
    (hrest : Spells rest vs) : Spells (cs ++ rest) (ws ++ vs) := by
  obtain ⟨ts, hts, rfl⟩ := h.exists_stands 0
  obtain ⟨us, hus, rfl⟩ := hrest.exists_stands (0 + bytes cs)
  rw [← List.map_append]
  exact (hts.append hd hus).spells

/-- A blank between words is skipped. -/
theorem Spells.blank {cs : List Char} {ws : List Word} (h : Spells cs ws) : Spells (' ' :: cs) ws := .skip rfl h

/-- A symbol is a word whatever follows it. -/
theorem Spells.symbol {c : Char} (hc : c ∈ symbols) {cs : List Char} {ws : List Word} (h : Spells cs ws) :
    Spells (c :: cs) ((.symbol, String.singleton c) :: ws) := by
  have halnum : c.isAlphanum = false := by
    have hall : symbols.all (!·.isAlphanum) = true := by rfl
    simpa using List.all_eq_true.mp hall c hc
  have hnext : nextWord? (c :: cs) = some (.symbol, 1) := by rw [nextWord?_of_not_isAlphanum halnum, if_pos hc]
  exact .word hnext h

/-! ## Texts of one word -/

/-- **A text is one word of a kind.** -/
def IsWord (k : TokenKind) (x : String) : Prop := nextWord? x.toList = some (k, x.toList.length)

theorem IsWord.spells {k : TokenKind} {x : String} (h : IsWord k x) : Spells x.toList [(k, x)] := by
  have hstep := Spells.word h (by rw [List.drop_length]; exact .nil)
  rwa [List.take_length, String.ofList_toList] at hstep

/-- The words that a text spells are words on their own. -/
theorem Spells.isWord {cs : List Char} {ws : List Word} (h : Spells cs ws) : ∀ w ∈ ws, IsWord w.1 w.2 := by
  induction h with
  | nil => simp
  | skip _ _ ih => exact ih
  | @word cs k n ws hw _ ih =>
    have hle := nextWord?_le hw
    have hword : IsWord k (String.ofList (cs.take n)) := by
      rw [IsWord, String.toList_ofList, List.length_take, Nat.min_eq_left hle]
      exact nextWord?_take hw le_rfl
    intro w hw
    rcases List.mem_cons.mp hw with rfl | hw
    · exact hword
    · exact ih w hw

/-- The row that a word comes from. -/
theorem IsWord.row {k : TokenKind} {x : String} (h : IsWord k x) :
    ∃ row ∈ standardWords, row.1 = k ∧ row.2 x.toList = some x.toList.length :=
  exists_of_nextWord? h

/-- A word of a list of words is one of them. -/
theorem mem_of_wordLength? {words : List (List Char)} {cs : List Char} (h : wordLength? words cs = some cs.length) :
    cs ∈ words := by
  obtain ⟨w, hmem, -, htake⟩ := exists_of_wordLength? h
  rw [List.take_length] at htake
  rwa [htake]

theorem IsWord.keyword {x : String} (h : IsWord .keyword x) : x.toList.map Char.toLower ∈ keywords := by
  obtain ⟨row, hmem, hkind, hrow⟩ := h.row
  simp only [standardWords, List.mem_cons, List.not_mem_nil, or_false] at hmem
  -- one row alone gives keywords
  rcases hmem with rfl | rfl | rfl | rfl | rfl | rfl | rfl <;> try cases hkind
  exact mem_of_wordLength? (by simpa [keywordLength?] using hrow)

theorem IsWord.constant {x : String} (h : IsWord .constant x) : x = "pi" ∨ x = "e" := by
  obtain ⟨row, hmem, hkind, hrow⟩ := h.row
  simp only [standardWords, List.mem_cons, List.not_mem_nil, or_false] at hmem
  rcases hmem with rfl | rfl | rfl | rfl | rfl | rfl | rfl <;> try cases hkind
  have hx := mem_of_wordLength? hrow
  simp only [constantNames, List.mem_cons, List.not_mem_nil, or_false] at hx
  exact hx.imp (fun h => String.toList_inj.mp h) (fun h => String.toList_inj.mp h)

theorem IsWord.symbol {x : String} (h : IsWord .symbol x) : ∃ c ∈ symbols, x = String.singleton c := by
  obtain ⟨row, hmem, hkind, hrow⟩ := h.row
  simp only [standardWords, List.mem_cons, List.not_mem_nil, or_false] at hmem
  rcases hmem with rfl | rfl | rfl | rfl | rfl | rfl | rfl <;> try cases hkind
  simp only [symbolLength?] at hrow
  split at hrow
  · next c cs hx =>
    split at hrow
    · next hc =>
      rw [hx, List.length_cons] at hrow
      obtain rfl : cs = [] := List.eq_nil_of_length_eq_zero (by simpa using (Option.some.inj hrow).symm)
      exact ⟨c, hc, String.toList_inj.mp (by rw [hx, String.toList_singleton])⟩
    · cases hrow
  · cases hrow

/-- A constant of the input language. -/
theorem isWord_constant {x : String} (h : x = "pi" ∨ x = "e") : IsWord .constant x := by
  rcases h with rfl | rfl <;> rfl

/-! ## Numbers -/

theorem run_append_of_all {p : Char → Bool} {cs : List Char} (h : ∀ c ∈ cs, p c = true) (rest : List Char) :
    run p (cs ++ rest) = cs.length + run p rest := by
  rw [run, List.takeWhile_append_of_pos h, List.length_append, run]

theorem numberLength?_of_numberText {cs : List Char} (h : NumberText cs) : numberLength? cs = some cs.length := by
  cases h with
  | whole hne hds =>
    have hrun : run Char.isDigit cs = cs.length := by simpa [run] using run_append_of_all hds []
    rw [numberLength?, hrun, if_neg (by simpa using hne), List.drop_length]
    rfl
  | @fraction ds fs hne hds hfs hall =>
    have hrun : run Char.isDigit (ds ++ '.' :: fs) = ds.length := by rw [run_append_of_all hds]; rfl
    have hfrac : run Char.isDigit fs = fs.length := by simpa [run] using run_append_of_all hall []
    rw [numberLength?, hrun, if_neg (by simpa using hne), List.drop_left, fractionLength, hfrac,
      if_neg (by simpa using hfs), List.length_append, List.length_cons]

theorem isWord_number {x : String} (h : NumberText x.toList) : IsWord .number x := by
  obtain ⟨c, cs, hx, hc⟩ := h.exists_cons
  have halpha := isAlpha_eq_false_of_isDigit hc
  have hlen := numberLength?_of_numberText h
  rw [IsWord]
  rw [hx] at hlen ⊢
  rw [nextWord?_of_not_isAlpha halpha, hlen]
  rfl

/-- A text that is a fraction as a whole is a point with digits behind it. -/
theorem exists_of_fractionLength {cs : List Char} (hne : cs ≠ []) (h : fractionLength cs = cs.length) :
    ∃ fs, cs = '.' :: fs ∧ fs ≠ [] ∧ ∀ c ∈ fs, c.isDigit = true := by
  unfold fractionLength at h
  split at h
  · next fs =>
    split at h
    · cases h
    · next hrun =>
      have hall : fs.takeWhile Char.isDigit = fs :=
        (List.takeWhile_prefix Char.isDigit).eq_of_length (Nat.succ.inj h)
      refine ⟨fs, rfl, ?_, fun c hc => List.mem_takeWhile_imp (p := Char.isDigit) (by rw [hall]; exact hc)⟩
      rintro rfl
      exact hrun rfl
  · exact absurd (List.length_eq_zero_iff.mp h.symm) hne

theorem numberText_of_numberLength? {cs : List Char} (h : numberLength? cs = some cs.length) :
    NumberText cs := by
  have hsplit : cs.takeWhile Char.isDigit ++ cs.drop (run Char.isDigit cs) = cs := by
    have htake := List.prefix_iff_eq_take.mp (List.takeWhile_prefix (l := cs) Char.isDigit)
    rw [run]
    conv_lhs => enter [1]; rw [htake]
    exact List.take_append_drop _ cs
  have hds : ∀ c ∈ cs.takeWhile Char.isDigit, c.isDigit = true := fun c hc => List.mem_takeWhile_imp hc
  unfold numberLength? at h
  split at h
  · cases h
  · next hrun =>
    have hne : cs.takeWhile Char.isDigit ≠ [] := fun hnil => hrun (by rw [run, hnil]; rfl)
    have hlen : fractionLength (cs.drop (run Char.isDigit cs)) = (cs.drop (run Char.isDigit cs)).length := by
      have := run_le Char.isDigit cs
      rw [List.length_drop]
      have := Option.some.inj h
      omega
    -- what is left behind the digits is a fraction or nothing
    rw [← hsplit]
    by_cases hrest : cs.drop (run Char.isDigit cs) = []
    · rw [hrest, List.append_nil]
      exact .whole hne hds
    · obtain ⟨fs, hfs, hfne, hfds⟩ := exists_of_fractionLength hrest hlen
      rw [hfs]
      exact .fraction hne hds hfne hfds

theorem IsWord.number {x : String} (h : IsWord .number x) : NumberText x.toList := by
  obtain ⟨row, hmem, hkind, hrow⟩ := h.row
  simp only [standardWords, List.mem_cons, List.not_mem_nil, or_false] at hmem
  rcases hmem with rfl | rfl | rfl | rfl | rfl | rfl | rfl <;> try cases hkind
  exact numberText_of_numberLength? hrow

end Lexis

/-- **A name**: a text that the standard table reads as one token for a name. -/
def IsName (x : String) : Prop := ∃ t, tokensOf x = .ok [t] ∧ t.word = (.name, x)

theorem isName_iff (x : String) : IsName x ↔ IsWord .name x := by
  have hspells := exists_tokensOf_iff x [(.name, x)]
  refine Iff.intro (fun hname => ?_) (fun hword => ?_)
  · obtain ⟨t, ht, hword⟩ := hname
    have hx := hspells.mp ⟨[t], ht, by rw [List.map_singleton, hword]⟩
    exact hx.isWord (.name, x) List.mem_cons_self
  · obtain ⟨ts, hts, hwords⟩ := hspells.mpr hword.spells
    obtain ⟨t, ts', rfl, ht, hnil⟩ := List.map_eq_cons_iff.mp hwords
    rw [List.map_eq_nil_iff] at hnil
    subst hnil
    exact ⟨t, hts, ht⟩

/-- The variable of a derivative without any names. -/
theorem isName_x : IsName "x" := (isName_iff "x").mpr rfl

end Formula
