import Formula.Proofs.Parsing.Diagnosed
import Formula.Proofs.Parsing.Mirroring
import Formula.Proofs.RoundTrip

/-!
# `Formula.Proofs.Blanks` — blanks between tokens

Blanks may be put into a text before, between and behind its tokens, wherever that is not within one of them, and
the text keeps its words. For a word is the same wherever behind it the text is cut off, and the first blank put
behind it cuts the text off. With the same words the text is parsed alike: as the same expression, or with the same
diagnosis about the token of the same number.

## Contents
- `insertAt`, `insertBlanks` — a text with more blanks.
- `Lexis.Stands.spells_insertAt` — the words stay the same.
- `parseText_insertBlanks` — what the text is read as stays the same.
-/

namespace Formula

open Lexis Parsing

/-- Puts texts into another one, which begins at an offset: at each offset the one that is meant for it. -/
def insertAt (gaps : Nat → List Char) : Nat → List Char → List Char
  | o, [] => gaps o
  | o, c :: cs => gaps o ++ c :: insertAt gaps (o + c.utf8Size) cs

/-- A text into which others have been put, at each offset the one that is meant for it. -/
def insertBlanks (gaps : Nat → List Char) (text : String) : String := String.ofList (insertAt gaps 0 text.toList)

namespace Lexis

/-! ## Words -/

/-- A blank ends every word. -/
theorem delimited_of_isSkipped {c : Char} (h : TokenTable.isSkipped c = true) (cs : List Char) :
    Delimited (c :: cs) := by
  intro d hd
  cases hd
  rcases isSkipped_iff.mp h with rfl | rfl <;> decide

/-- Blanks in front of a text are skipped. -/
theorem Spells.blanks {bs cs : List Char} {ws : List Word} (hbs : ∀ c ∈ bs, TokenTable.isSkipped c = true)
    (h : Spells cs ws) : Spells (bs ++ cs) ws := by
  induction bs with
  | nil => exact h
  | cons b bs ih =>
    obtain ⟨hb, hbs⟩ := List.forall_mem_cons.mp hbs
    exact .skip hb (ih hbs)

/-- A word in front of what has been spelled. -/
theorem Spells.word_append {w cs : List Char} {k : TokenKind} {ws : List Word}
    (hword : nextWord? (w ++ cs) = some (k, w.length)) (h : Spells cs ws) :
    Spells (w ++ cs) ((k, String.ofList w) :: ws) := by
  have hrest : Spells ((w ++ cs).drop w.length) ws := by rwa [List.drop_left]
  have hall := Spells.word hword hrest
  rwa [List.take_left] at hall

variable {gaps : Nat → List Char}

/-- Where nothing is put between the first characters of a text, they stay together. -/
theorem insertAt_append (as cs : List Char) : ∀ o, (∀ x, o ≤ x → x < o + bytes as → gaps x = []) →
    insertAt gaps o (as ++ cs) = as ++ insertAt gaps (o + bytes as) cs := by
  induction as with
  | nil => exact fun o _ => rfl
  | cons a as ih =>
    intro o hgaps
    rw [bytes_cons] at hgaps
    have hpos := Char.utf8Size_pos a
    rw [List.cons_append, insertAt, hgaps o le_rfl (by omega), List.nil_append,
      ih _ (fun x hx hxo => hgaps x (by omega) (by omega)), bytes_cons, Nat.add_assoc, List.cons_append]

/-- The text stays as it is up to the first blank that is put into it. -/
theorem exists_insertAt_eq (hgaps : ∀ o, ∀ c ∈ gaps o, TokenTable.isSkipped c = true) (cs : List Char) :
    ∀ o, ∃ n rest, insertAt gaps o cs = cs.take n ++ rest ∧ Delimited rest := by
  induction cs with
  | nil =>
    intro o
    refine ⟨0, gaps o, rfl, ?_⟩
    cases hg : gaps o with
    | nil => simp [Delimited]
    | cons b bs => exact delimited_of_isSkipped (hgaps o b (by rw [hg]; exact List.mem_cons_self)) bs
  | cons c cs ih =>
    intro o
    cases hg : gaps o with
    | nil =>
      obtain ⟨n, rest, heq, hrest⟩ := ih (o + c.utf8Size)
      refine ⟨n + 1, rest, ?_, hrest⟩
      rw [insertAt, hg, heq]
      rfl
    | cons b bs =>
      refine ⟨0, _, by rw [insertAt, hg]; rfl, ?_⟩
      exact delimited_of_isSkipped (hgaps o b (by rw [hg]; exact List.mem_cons_self)) _

/-- **A word stays the same** where blanks are put into the text behind it. -/
theorem nextWord?_insertAt (hgaps : ∀ o, ∀ c ∈ gaps o, TokenTable.isSkipped c = true) {cs : List Char} {k : TokenKind}
    {n : Nat} (h : nextWord? cs = some (k, n)) (o : Nat) :
    nextWord? (cs.take n ++ insertAt gaps o (cs.drop n)) = some (k, n) := by
  obtain ⟨m, rest, heq, hrest⟩ := exists_insertAt_eq hgaps (cs.drop n) o
  have htake := nextWord?_take h (Nat.le_add_right n m)
  have hne : cs.take (n + m) ≠ [] := by
    intro hnil
    rw [hnil] at htake
    cases htake
  rw [heq, ← List.append_assoc, ← List.take_add, nextWord?_append hne hrest, htake]

/-- **The words of a text stay the same**, by induction on how its tokens stand in it. -/
theorem Stands.spells_insertAt (hgaps : ∀ o, ∀ c ∈ gaps o, TokenTable.isSkipped c = true) {o : Nat} {cs : List Char}
    {ts : List Token} (h : Stands o cs ts)
    (hwithin : ∀ t ∈ ts, ∀ x, t.span.start < x → x < t.span.stop → gaps x = []) :
    Spells (insertAt gaps o cs) (ts.map Token.word) := by
  induction h with
  | @nil o =>
    have hspells := Spells.blanks (hgaps o) .nil
    rwa [List.append_nil] at hspells
  | @skip o c cs ts hc _ ih => exact (Spells.skip hc (ih hwithin)).blanks (hgaps o)
  | @word o cs k n ts hw _ ih =>
    obtain ⟨hfirst, hothers⟩ := List.forall_mem_cons.mp hwithin
    obtain ⟨c, rest, m, rfl, rfl, hm⟩ := exists_cons_of_nextWord? hw
    simp only [List.take_succ_cons, bytes_cons] at hfirst
    have hpos := Char.utf8Size_pos c
    have hword := nextWord?_insertAt hgaps hw (o + bytes ((c :: rest).take (m + 1)))
    rw [List.take_succ_cons, List.drop_succ_cons] at hword
    -- nothing is put between the characters of the word
    have hsplit : insertAt gaps o (c :: rest) =
        gaps o ++ (c :: rest.take m ++ insertAt gaps (o + bytes (c :: rest.take m)) (rest.drop m)) := by
      have hnone : ∀ x, o + c.utf8Size ≤ x → x < o + c.utf8Size + bytes (rest.take m) → gaps x = [] :=
        fun x hx hxo => hfirst x (by omega) (by omega)
      have htail := insertAt_append (rest.take m) (rest.drop m) _ hnone
      rw [List.take_append_drop] at htail
      rw [insertAt, htail, bytes_cons, Nat.add_assoc, List.cons_append]
    rw [hsplit]
    refine Spells.blanks (hgaps o) ?_
    have hlen : (c :: rest.take m).length = m + 1 := by rw [List.length_cons, List.length_take, Nat.min_eq_left hm]
    exact Spells.word_append (hlen ▸ hword) (ih hothers)

end Lexis

/-! ## Whole texts -/

/-- **The same diagnosis on two lists of tokens**: the same complaint, about the end of the input in both, or about the
    token of the same number. -/
def Diagnosis.Same (ts us : List Token) (d d' : Diagnosis) : Prop :=
  d.complaint = d'.complaint ∧
    ((d.location = .endOfInput ∧ d'.location = .endOfInput) ∨
      ∃ t u, Paired ts us t u ∧ d.location = .offset t.span.start ∧ d'.location = .offset u.span.start)

theorem ParseError.Same.diagnosis {ts us : List Token} {d : Diagnosis} {err : ParseError}
    (h : (ParseError.diagnosed d).Same ts us err) : ∃ d', err = .diagnosed d' ∧ d.Same ts us d' := by
  cases h with
  | atEnd c => exact ⟨_, rfl, rfl, Or.inl ⟨rfl, rfl⟩⟩
  | onToken c hpaired => exact ⟨_, rfl, rfl, Or.inr ⟨_, _, hpaired, rfl, rfl⟩⟩

/-- **Blanks between tokens do not matter.** A text that has tokens keeps their kinds and texts where spaces and tabs
    are put into it, if none is put within a token. It is read as the same expression, up to spans, or it is refused
    with the same diagnosis about the token of the same number, or about the end of the input. -/
theorem parseText_insertBlanks {text : String} {ts : List Token} (hts : tokensOf text = .ok ts) {gaps : Nat → List Char}
    (hgaps : ∀ o, ∀ c ∈ gaps o, c = ' ' ∨ c = '\t')
    (hwithin : ∀ t ∈ ts, ∀ o, t.span.start < o → o < t.span.stop → gaps o = []) :
    ∃ us, tokensOf (insertBlanks gaps text) = .ok us ∧ us.map Token.word = ts.map Token.word ∧
      ((∃ e e' : Expr Float, parseText text = .ok e ∧ parseText (insertBlanks gaps text) = .ok e' ∧
          e.unspanned = e'.unspanned ∧ e.same e' = true) ∨
        ∃ d d', (parseText text : Except InputError (Expr Float)) = .error (.parse (.diagnosed d)) ∧
          (parseText (insertBlanks gaps text) : Except InputError (Expr Float)) = .error (.parse (.diagnosed d')) ∧
          d.Same ts us d') := by
  have hskipped : ∀ o, ∀ c ∈ gaps o, TokenTable.isSkipped c = true := fun o c hc => isSkipped_iff.mpr (hgaps o c hc)
  have hspells := (stands_of_tokensOf hts).spells_insertAt hskipped hwithin
  obtain ⟨us, hus, hwords⟩ := (exists_tokensOf_iff (insertBlanks gaps text) (ts.map Token.word)).mpr
    (by rw [insertBlanks, String.toList_ofList]; exact hspells)
  refine ⟨us, hus, hwords, ?_⟩
  rcases parseAll_mirrors (ν := Float) hwords.symm .standard with
    ⟨e, e', he, he', hsame⟩ | ⟨err, err', herr, herr', hsame⟩
  · have hread := parseText_of_parseAll hts he
    exact Or.inl ⟨e, e', hread, parseText_of_parseAll hus he', hsame,
      Expr.same_of_unspanned hsame (Expr.same_self (written_of_parseText hread).1)⟩
  · obtain ⟨d, rfl, -⟩ := pointsInto_of_parseAll (genuine_of_tokensOf hts) herr
    obtain ⟨d', rfl, hd⟩ := hsame.diagnosis
    exact Or.inr ⟨d, d', parseText_of_parseAll_error hts herr, parseText_of_parseAll_error hus herr', hd⟩

/-- A blank between a number and a name that touch, a tab in front of them and blanks behind. -/
theorem parseText_insertBlanks_product :
    let gaps : Nat → List Char :=
      fun o => if o = 0 then ['\t'] else if o = 1 then [' '] else if o = 2 then [' ', ' '] else []
    insertBlanks gaps "2x" = "\t2 x  " ∧
      ∃ us, tokensOf "\t2 x  " = .ok us ∧ us.map Token.word = [(.number, "2"), (.name, "x")] ∧
        ∃ e e' : Expr Float, parseText "2x" = .ok e ∧ parseText "\t2 x  " = .ok e' ∧ e.same e' = true := by
  intro gaps
  let ts : List Token := [⟨.number, "2", ⟨0, 1⟩⟩, ⟨.name, "x", ⟨1, 2⟩⟩]
  have htext : insertBlanks gaps "2x" = "\t2 x  " := by decide
  have htokens : tokensOf "2x" = .ok ts := by decide +kernel
  have hgaps : ∀ o, ∀ c ∈ gaps o, c = ' ' ∨ c = '\t' := by
    intro o c hc
    simp only [gaps] at hc
    split at hc
    · exact Or.inr (List.mem_singleton.mp hc)
    · split at hc
      · exact Or.inl (List.mem_singleton.mp hc)
      · split at hc
        · exact Or.inl (by simpa using hc)
        · cases hc
  have hwithin : ∀ t ∈ ts, ∀ o, t.span.start < o → o < t.span.stop → gaps o = [] := by
    intro t ht o hstart hstop
    simp only [ts, List.mem_cons, List.not_mem_nil, or_false] at ht
    rcases ht with rfl | rfl <;> simp only at hstart hstop <;> omega
  obtain ⟨us, hus, hwords, hread⟩ := parseText_insertBlanks htokens hgaps hwithin
  rw [htext] at hus hread
  refine ⟨htext, us, hus, hwords, ?_⟩
  rcases hread with ⟨e, e', he, he', -, hsame⟩ | ⟨d, d', herr, -⟩
  · exact ⟨e, e', he, he', hsame⟩
  · have hok : (parseAll Grammar.standard ts : Except ParseError (Expr Float)).toOption.isSome = true := by
      decide +kernel
    cases hparse : (parseAll Grammar.standard ts : Except ParseError (Expr Float)) with
    | error err =>
      rw [hparse] at hok
      cases hok
    | ok e =>
      rw [parseText_of_parseAll htokens hparse] at herr
      cases herr

end Formula
