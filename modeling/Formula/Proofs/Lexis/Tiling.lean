import Formula.Proofs.Lexis.Loop

/-!
# `Formula.Proofs.Lexis.Tiling` — the tokens of a text tile it

Whatever the table, the tokens that have been read lie in the text one behind the other, each being what stands under
its span, and all that lies between them are blanks. Reading stops at the end of the text or at a character at which
no row matches. Only a table with a row of which no least length is known can do otherwise: such a row has been let
through although it may match the empty text, and where it wins with that, the loop idles.

## Contents
- `Lexis.Tiles` — tokens and blanks that make up a part of a text; its spans, their order, and the blanks.
- `IsTiled` — the same said of the bytes of a text up to an offset.
- `TokenTable.exists_goes_tiles` — the invariant of the loop.
- `TokenTable.tiled_or_idles_of_rows` — reading any text with any rows; `TokenTable.tiled_or_idles` — with the rows of
  any table that has been accepted.
-/

namespace Formula

open Lexis

namespace Lexis

/-! ## Parts of a text -/

/-- **Tokens and blanks make up a part of a text** that begins at an offset. -/
inductive Tiles : Nat → List Char → List Token → Prop where
  | nil {o : Nat} : Tiles o [] []
  | blank {o : Nat} {c cs ts} : TokenTable.isSkipped c = true → Tiles (o + c.utf8Size) cs ts → Tiles o (c :: cs) ts
  | word {o : Nat} {k w cs ts} : w ≠ [] → Tiles (o + bytes w) cs ts →
      Tiles o (w ++ cs) (⟨k, String.ofList w, ⟨o, o + bytes w⟩⟩ :: ts)

variable {o : Nat} {cs : List Char} {ts : List Token}

/-- A token is what stands under its span. -/
theorem Tiles.exists_append (h : Tiles o cs ts) : ∀ t ∈ ts, ∃ as w bs, cs = as ++ w ++ bs ∧ w ≠ [] ∧
    t.text = String.ofList w ∧ t.span = ⟨o + bytes as, o + bytes as + bytes w⟩ := by
  induction h with
  | nil => simp
  | @blank o c cs ts hc _ ih =>
    intro t ht
    obtain ⟨as, w, bs, rfl, hw, htext, hspan⟩ := ih t ht
    exact ⟨c :: as, w, bs, rfl, hw, htext, by rw [hspan, bytes_cons, Nat.add_assoc]⟩
  | @word o k v cs ts hv _ ih =>
    intro t ht
    rcases List.mem_cons.mp ht with rfl | ht
    · exact ⟨[], v, cs, rfl, hv, rfl, rfl⟩
    · obtain ⟨as, w, bs, rfl, hw, htext, hspan⟩ := ih t ht
      exact ⟨v ++ as, w, bs, by simp, hw, htext, by rw [hspan, bytes_append, Nat.add_assoc]⟩

/-- Every span lies within the part, and is not empty. -/
theorem Tiles.span_bounds (h : Tiles o cs ts) {t : Token} (ht : t ∈ ts) :
    o ≤ t.span.start ∧ t.span.start < t.span.stop ∧ t.span.stop ≤ o + bytes cs := by
  obtain ⟨as, w, bs, rfl, hw, -, hspan⟩ := h.exists_append t ht
  have hpos := bytes_pos hw
  simp only [hspan, bytes_append]
  omega

/-- The tokens stand in the order of the text. -/
theorem Tiles.inOrder (h : Tiles o cs ts) : InOrder ts := by
  refine ⟨fun t ht => (h.span_bounds ht).2.1, ?_⟩
  induction h with
  | nil => exact .nil
  | blank _ _ ih => exact ih
  | word _ hrest ih => exact .cons (fun t ht => (hrest.span_bounds ht).1) ih

/-- A blank takes up one byte. -/
theorem utf8Size_of_isSkipped {c : Char} (h : TokenTable.isSkipped c = true) : c.utf8Size = 1 := by
  rcases isSkipped_iff.mp h with rfl | rfl <;> rfl

/-- **A byte under no span is a blank.** -/
theorem Tiles.blank_of_outside (h : Tiles o cs ts) {x : Nat} (hox : o ≤ x) (hx : x < o + bytes cs)
    (hout : ∀ t ∈ ts, x < t.span.start ∨ t.span.stop ≤ x) :
    ∃ as c bs, cs = as ++ c :: bs ∧ TokenTable.isSkipped c = true ∧ o + bytes as = x := by
  induction h with
  | nil => exact absurd hx (by simp only [bytes, List.map_nil, List.sum_nil]; omega)
  | @blank o c cs ts hc _ ih =>
    have hsize := utf8Size_of_isSkipped hc
    rw [bytes_cons] at hx
    by_cases hxo : x = o
    · exact ⟨[], c, cs, rfl, hc, hxo.symm⟩
    · obtain ⟨as, d, bs, rfl, hd, heq⟩ := ih (by omega) (by omega) hout
      exact ⟨c :: as, d, bs, rfl, hd, by rw [bytes_cons, ← heq]; omega⟩
  | @word o k w cs ts _ _ ih =>
    rw [bytes_append] at hx
    have hfirst := hout _ List.mem_cons_self
    simp only at hfirst
    obtain ⟨as, d, bs, rfl, hd, heq⟩ := ih (by omega) (by omega) fun t ht => hout t (List.mem_cons_of_mem _ ht)
    exact ⟨w ++ as, d, bs, by simp, hd, by rw [bytes_append, ← heq]; omega⟩

end Lexis

/-! ## Texts -/

/-- **Tokens tile a text up to an offset**: each of them is what stands in the text under its span, which is not empty
    and begins and ends between characters; they stand in the order of the text and do not overlap; and every byte
    before the offset that is under none of the spans is a space or a tab. -/
structure IsTiled (text : String) (stop : Nat) (ts : List Token) : Prop where
  spans : ∀ t ∈ ts, ∃ before after : String, text = before ++ t.text ++ after ∧
    t.span = ⟨before.utf8ByteSize, (before ++ t.text).utf8ByteSize⟩ ∧ t.span.stop ≤ stop
  inOrder : InOrder ts
  blanks : ∀ x < stop, (∀ t ∈ ts, x < t.span.start ∨ t.span.stop ≤ x) → ∃ before after : String,
    (text = before ++ " " ++ after ∨ text = before ++ "\t" ++ after) ∧ before.utf8ByteSize = x

theorem Lexis.Tiles.isTiled {text : String} {n : Nat} {ts : List Token} (h : Tiles 0 (text.toList.take n) ts) :
    IsTiled text (bytes (text.toList.take n)) ts := by
  have htext {part : List Char} (hpart : text.toList.take n = part) :
      text = String.ofList (part ++ text.toList.drop n) := by
    rw [← hpart, List.take_append_drop, String.ofList_toList]
  refine ⟨fun t ht => ?_, h.inOrder, fun x hx hout => ?_⟩
  · have hstop := (h.span_bounds ht).2.2
    obtain ⟨as, w, bs, hpart, -, hw, hspan⟩ := h.exists_append t ht
    refine ⟨.ofList as, .ofList (bs ++ text.toList.drop n), ?_, ?_, by omega⟩
    · rw [hw, ← String.ofList_append, ← String.ofList_append, ← List.append_assoc, ← htext hpart]
    · rw [hw, hspan, String.utf8ByteSize_append, utf8ByteSize_ofList, utf8ByteSize_ofList, Nat.zero_add]
  · obtain ⟨as, c, bs, hpart, hc, heq⟩ := h.blank_of_outside (Nat.zero_le x) (by omega) hout
    refine ⟨.ofList as, .ofList (bs ++ text.toList.drop n), ?_, by rw [utf8ByteSize_ofList, ← heq, Nat.zero_add]⟩
    have hsplit : text = String.ofList as ++ String.singleton c ++ String.ofList (bs ++ text.toList.drop n) := by
      rw [String.singleton_eq_ofList, ← String.ofList_append, ← String.ofList_append]
      simpa using htext hpart
    rcases isSkipped_iff.mp hc with rfl | rfl
    · exact Or.inl hsplit
    · exact Or.inr hsplit

/-! ## The loop -/

namespace TokenTable

variable {table : TokenTable}

/-- **The invariant of the loop**, by induction on what is left of the text: what lies behind is tiled by the tokens,
    and the loop ends or idles. -/
theorem exists_goes_tiles (hrows : ∀ row ∈ table.rows, row.pattern.leastLength? ≠ some 0) (k : Nat) :
    ∀ p : Place, p.rest.length ≤ k → ∃ ts n, table.Goes p ts (p.advance n) ∧ Tiles p.offset (p.rest.take n) ts ∧
      (table.Ends (p.advance n) ∨
        ∃ row ∈ table.rows, row.pattern.leastLength? = none ∧ table.Idles row (p.advance n)) := by
  induction k with
  | zero =>
    intro p hk
    exact ⟨[], 0, .stay, .nil, Or.inl (Or.inl (List.eq_nil_of_length_eq_zero (Nat.le_zero.mp hk)))⟩
  | succ k ih =>
    intro p hk
    cases hp : p.rest with
    | nil => exact ⟨[], 0, .stay, .nil, Or.inl (Or.inl hp)⟩
    | cons c cs =>
      rw [hp, List.length_cons] at hk
      cases hc : isSkipped c with
      | true =>
        obtain ⟨ts, n, hgoes, htiles, hend⟩ := ih (p.after c cs) (Nat.le_of_succ_le_succ hk)
        rw [← Place.advance_succ hp] at hgoes hend
        exact ⟨ts, n + 1, .blank hp hc hgoes, .blank hc htiles, hend⟩
      | false =>
        cases hrace : table.race? p with
        | none => exact ⟨[], 0, .stay, .nil, Or.inl (Or.inr ⟨c, cs, hp, hc, hrace⟩)⟩
        | some m =>
          obtain ⟨row, q⟩ := m
          rcases race?_reaches hp hc hrace with ⟨rfl, hskip, hidle⟩ | ⟨m, hm, rfl⟩
          · -- a pattern that matches the empty text has no least length, or it would be zero
            obtain ⟨before, after, hsplit, -, -⟩ := race?_eq_some_iff.mp hrace
            have hrow : row ∈ table.rows := by rw [hsplit]; exact List.mem_append_right _ List.mem_cons_self
            refine ⟨[], 0, .stay, .nil, Or.inr ⟨row, hrow, ?_, hidle⟩⟩
            cases hleast : row.pattern.leastLength? with
            | none => rfl
            | some x =>
              have hpos : 0 < x := Nat.pos_of_ne_zero fun hx => hrows row hrow (hx ▸ hleast)
              rw [Pattern.skippable_route hleast hpos] at hskip
              cases hskip
          · have hlen : (p.advance (m + 1)).rest.length ≤ k := by
              rw [Place.rest_advance, hp, List.length_drop, List.length_cons]
              omega
            obtain ⟨ts, n, hgoes, htiles, hend⟩ := ih (p.advance (m + 1)) hlen
            rw [← Place.advance_add] at hgoes hend
            refine ⟨_, m + 1 + n, .word hp hc hrace hgoes, ?_, hend⟩
            rw [Place.offset_advance, Place.rest_advance] at htiles
            rw [token, Place.upTo_advance, Place.offset_advance, ← hp, List.take_add]
            exact .word (by rw [hp, List.take_succ_cons]; exact List.cons_ne_nil _ _) htiles

/-- **Reading any text with any rows**, of which none is known to match the empty text. The loop comes to a place such
    that the tokens found so far tile the text up to there. That place is the end of the text, which then has these
    tokens; or a character at which there is none; or else the loop idles there, with a row of which no least length is
    known. -/
theorem tiled_or_idles_of_rows (hrows : ∀ row ∈ table.rows, row.pattern.leastLength? ≠ some 0) (text : String) :
    ∃ ts q, table.Goes (.start text.toList) ts q ∧ IsTiled text q.offset ts ∧
      ((q.offset = text.utf8ByteSize ∧ table.tokens text = .ok ts) ∨
        (table.NoMatchAt text q.offset ∧ table.tokens text = .error ⟨q.offset⟩) ∨
        ∃ row ∈ table.rows, row.pattern.leastLength? = none ∧ table.Idles row q) := by
  obtain ⟨ts, n, hgoes, htiles, hend⟩ := exists_goes_tiles hrows _ (.start text.toList) le_rfl
  have hoffset : ((Place.start text.toList).advance n).offset = bytes (text.toList.take n) := by
    rw [Place.offset_advance]
    exact Nat.zero_add _
  refine ⟨ts, _, hgoes, hoffset ▸ Tiles.isTiled htiles, ?_⟩
  rcases hend with hends | hidles
  · have htokens := tokens_of_goes hgoes hends
    by_cases hrest : ((Place.start text.toList).advance n).rest = []
    · rw [if_pos hrest] at htokens
      have hall : text.toList.take n = text.toList := by
        rw [Place.rest_advance, List.drop_eq_nil_iff] at hrest
        exact List.take_of_length_le hrest
      have hsize := utf8ByteSize_ofList text.toList
      rw [String.ofList_toList] at hsize
      exact Or.inl ⟨by rw [hoffset, hall, hsize], htokens⟩
    · rw [if_neg hrest] at htokens
      exact Or.inr (Or.inl ⟨noMatchAt_of_tokens htokens, htokens⟩)
  · exact Or.inr (Or.inr hidles)

/-- **Reading any text with any table that has been accepted**, whatever the tables of properties that its patterns were
    read with: none of its rows is known to match the empty text. -/
theorem tiled_or_idles [PropertyTables] {rules : List TokenRule} (h : ofRules rules = .ok table) (text : String) :
    ∃ ts q, table.Goes (.start text.toList) ts q ∧ IsTiled text q.offset ts ∧
      ((q.offset = text.utf8ByteSize ∧ table.tokens text = .ok ts) ∨
        (table.NoMatchAt text q.offset ∧ table.tokens text = .error ⟨q.offset⟩) ∨
        ∃ row ∈ table.rows, row.pattern.leastLength? = none ∧ table.Idles row q) := by
  have hrows : ∀ row ∈ table.rows, row.pattern.leastLength? ≠ some 0 := fun row hrow => (read_of_ofRules h row hrow).2
  exact tiled_or_idles_of_rows hrows text

/-- Words of small letters, one of them also being a keyword. -/
theorem tiled_or_idles_words : ∃ table, ofRules [⟨.keyword, "let"⟩, ⟨.name, "[a-z]+"⟩] = .ok table ∧
    ∃ ts q, table.Goes (.start "a let 2".toList) ts q ∧ IsTiled "a let 2" q.offset ts ∧
      ((q.offset = "a let 2".utf8ByteSize ∧ table.tokens "a let 2" = .ok ts) ∨
        (table.NoMatchAt "a let 2" q.offset ∧ table.tokens "a let 2" = .error ⟨q.offset⟩) ∨
        ∃ row ∈ table.rows, row.pattern.leastLength? = none ∧ table.Idles row q) := by
  have haccepted : (ofRules [⟨.keyword, "let"⟩, ⟨.name, "[a-z]+"⟩]).toOption.any (fun _ => true) = true := by
    decide +kernel
  obtain ⟨table, h, -⟩ := exists_of_any_ofRules haccepted
  exact ⟨table, h, tiled_or_idles h "a let 2"⟩

/-- A rule whose pattern may be repeated no times at all. It has no least length, since one of the alternatives is a set
    without characters: the complement of the range of all characters. -/
def looseRule : TokenRule :=
  ⟨.number, "(?:b|[^" ++ String.ofList [Char.ofNat 0, '-', Char.ofNat 0x10ffff] ++ "])*"⟩

/-- At the text `c` the loose rule wins with the empty text. -/
theorem race?_looseRule : (ofRules [looseRule]).toOption.any
    (fun table => (table.race? (.start ['c'])).any fun m => decide (m.2 = .start ['c'])) = true := by
  decide +kernel

/-- **Not every table that is accepted can be read with**: the loose rule is let through, and on the text `c` the loop
    does not come to an end. -/
theorem loop_without_end : ∃ table, ofRules [looseRule] = .ok table ∧
    ¬ ∃ ts q, table.Goes (.start "c".toList) ts q ∧ table.Ends q := by
  obtain ⟨table, h, hrace⟩ := exists_of_any_ofRules race?_looseRule
  obtain ⟨⟨row, q⟩, hwin, hq⟩ := (Option.any_eq_true _ _).mp hrace
  obtain rfl : q = .start ['c'] := of_decide_eq_true hq
  have hidle : table.Idles row (.start "c".toList) := ⟨'c', [], rfl, rfl, hwin⟩
  refine ⟨table, h, ?_⟩
  rintro ⟨ts, q, hgoes, hends⟩
  rw [hgoes.eq_of_idles hidle] at hends
  exact hidle.not_ends hends

end TokenTable

end Formula
