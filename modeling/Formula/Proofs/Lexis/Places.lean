import Formula.Proofs.Search.Joint

/-!
# `Formula.Proofs.Lexis.Places` — where tokens stand and where there are none

Reading a text into tokens goes from place to place. So the offsets that it gives, of tokens and of errors, are offsets
of characters of the text: they lie before its end and never within a character.

## Contents
- `Place.Reaches` — a place further on in the same text.
- `IsCharacterOffset` — the offset of a character; every place with a character after it is at one.
- `TokenTable.Explains`, `explains_scan` — what a scan finds, and why it stops.
- `isCharacterOffset_of_mem_tokens`, `noMatchAt_of_tokens` — whole texts, for any table.
-/

namespace Formula

/-! ## Places of a text -/

/-- A place that is further on in the text than another, or the same. -/
def Place.Reaches (p q : Place) : Prop := ∃ n, q = p.advance n

theorem Place.Reaches.refl (p : Place) : p.Reaches p := ⟨0, rfl⟩

/-- What is reached from behind the next character is reached. -/
theorem Place.Reaches.of_after {p q : Place} {c : Char} {cs : List Char} (hp : p.rest = c :: cs)
    (h : (p.after c cs).Reaches q) : p.Reaches q := by
  obtain ⟨n, rfl⟩ := h
  exact ⟨n + 1, (Place.advance_succ hp n).symm⟩

theorem Place.rest_advance (n : Nat) : ∀ p : Place, (p.advance n).rest = p.rest.drop n := by
  induction n with
  | zero => exact fun p => rfl
  | succ n ih =>
    intro p
    cases hp : p.rest with
    | nil =>
      rw [Place.advance]
      simp only [hp, List.drop_nil]
    | cons c cs =>
      rw [Place.advance_succ hp, ih]
      rfl

/-- **The offset of a character of a text**: it lies before the end of the text, and not within a character. -/
def IsCharacterOffset (text : String) (offset : Nat) : Prop :=
  offset < text.utf8ByteSize ∧ (⟨offset⟩ : String.Pos.Raw).IsValid text

theorem utf8ByteSize_ofList (cs : List Char) : (String.ofList cs).utf8ByteSize = (cs.map Char.utf8Size).sum := by
  induction cs with
  | nil => rfl
  | cons c cs ih =>
    rw [String.ofList_cons, String.utf8ByteSize_append, String.utf8ByteSize_singleton, ih, List.map_cons, List.sum_cons]

/-- A place with a character after it is at the offset of a character. -/
theorem Place.Reaches.isCharacterOffset {text : String} {p : Place} (h : (Place.start text.toList).Reaches p)
    (hrest : p.rest ≠ []) : IsCharacterOffset text p.offset := by
  obtain ⟨n, rfl⟩ := h
  rw [Place.rest_advance] at hrest
  obtain ⟨c, cs, hdrop⟩ := List.exists_cons_of_ne_nil hrest
  change text.toList.drop n = c :: cs at hdrop
  have htext : text = String.ofList (text.toList.take n) ++ String.ofList (c :: cs) := by
    rw [← String.ofList_append, ← hdrop, List.take_append_drop, String.ofList_toList]
  have hoffset : ((Place.start text.toList).advance n).offset = (String.ofList (text.toList.take n)).utf8ByteSize := by
    rw [Place.offset_advance, utf8ByteSize_ofList]
    exact Nat.zero_add _
  rw [hoffset]
  constructor
  · have hpos := Char.utf8Size_pos c
    conv_rhs => rw [htext, String.utf8ByteSize_append, utf8ByteSize_ofList (c :: cs), List.map_cons, List.sum_cons]
    omega
  · exact String.Pos.Raw.isValid_iff_exists_append.mpr ⟨_, _, htext, rfl⟩

/-! ## Scanning -/

namespace TokenTable

variable {table : TokenTable} {p : Place}

/-- **What a scan from a place comes to**: tokens that start at characters further on, or an error at a character that
    is not skipped and at which no row matches. -/
def Explains (table : TokenTable) (p : Place) (result : Except LexError (List Token)) : Prop :=
  match result with
  | .ok ts => ∀ t ∈ ts, ∃ q, p.Reaches q ∧ q.rest ≠ [] ∧ t.span.start = q.offset
  | .error e => ∃ q c rest, p.Reaches q ∧ q.rest = c :: rest ∧ isSkipped c = false ∧ table.match? q = none ∧
      e.offset = q.offset

theorem Explains.of_after {c : Char} {cs : List Char} {result : Except LexError (List Token)} (hp : p.rest = c :: cs)
    (h : table.Explains (p.after c cs) result) : table.Explains p result := by
  cases result with
  | ok ts =>
    intro t ht
    obtain ⟨q, hq, hstart⟩ := h t ht
    exact ⟨q, hq.of_after hp, hstart⟩
  | error e =>
    obtain ⟨q, d, rest, hq, hnone⟩ := h
    exact ⟨q, d, rest, hq.of_after hp, hnone⟩

/-- A token that starts at the place itself comes first. -/
theorem Explains.cons {t : Token} {result : Except LexError (List Token)} (h : table.Explains p result)
    (hp : p.rest ≠ []) (ht : t.span.start = p.offset) : table.Explains p (result.map (t :: ·)) := by
  cases result with
  | ok ts =>
    intro t' ht'
    rcases List.mem_cons.mp ht' with rfl | ht'
    · exact ⟨p, .refl p, hp, ht⟩
    · exact h t' ht'
  | error e => exact h

/-- **Scanning finds what it should**, by induction on the text. -/
theorem explains_scan (table : TokenTable) (cs : List Char) : ∀ (before : Option Char) (offset covered : Nat),
    table.Explains ⟨before, cs, offset⟩ (table.scan before offset covered cs) := by
  induction cs with
  | nil =>
    intro before offset covered t ht
    cases ht
  | cons c cs ih =>
    intro before offset covered
    have hnext (covered : Nat) : table.Explains ⟨before, c :: cs, offset⟩
        (table.scan (some c) (offset + c.utf8Size) covered cs) :=
      .of_after rfl (ih (some c) (offset + c.utf8Size) covered)
    cases covered with
    | succ n => exact hnext n
    | zero =>
      rw [scan_cons]
      split
      · exact hnext 0
      · next hskip =>
        split
        · next hnone => exact ⟨_, c, cs, .refl _, rfl, Bool.eq_false_iff.mpr hskip, hnone, rfl⟩
        · exact (hnext _).cons (List.cons_ne_nil c cs) rfl

/-! ## Whole texts -/

/-- **Every token starts at a character of the text.** -/
theorem isCharacterOffset_of_mem_tokens {text : String} {ts : List Token} (h : table.tokens text = .ok ts) {t : Token}
    (ht : t ∈ ts) : IsCharacterOffset text t.span.start := by
  have hscan := explains_scan table text.toList none 0 0
  rw [show table.scan none 0 0 text.toList = .ok ts from h] at hscan
  obtain ⟨p, hp, hrest, hstart⟩ := hscan t ht
  rw [hstart]
  exact hp.isCharacterOffset hrest

/-- **Why there is no token at an offset of a text**: the character there is neither a space nor a tab, and no row of
    the table matches at its place. -/
def NoMatchAt (table : TokenTable) (text : String) (offset : Nat) : Prop :=
  ∃ p c rest, (Place.start text.toList).Reaches p ∧ p.offset = offset ∧ p.rest = c :: rest ∧ c ≠ ' ' ∧ c ≠ '\t' ∧
    ∀ row ∈ table.rows, row.route.match? p = none

theorem NoMatchAt.isCharacterOffset {text : String} {offset : Nat} (h : table.NoMatchAt text offset) :
    IsCharacterOffset text offset := by
  obtain ⟨p, c, rest, hp, rfl, hrest, -⟩ := h
  refine hp.isCharacterOffset ?_
  rw [hrest]
  exact List.cons_ne_nil c rest

/-- **A text that has no tokens has a character at which there is none.** -/
theorem noMatchAt_of_tokens {text : String} {e : LexError} (h : table.tokens text = .error e) :
    table.NoMatchAt text e.offset := by
  have hscan := explains_scan table text.toList none 0 0
  rw [show table.scan none 0 0 text.toList = .error e from h] at hscan
  obtain ⟨p, c, rest, hp, hrest, hskip, hnone, hoffset⟩ := hscan
  simp only [isSkipped, Bool.or_eq_false_iff, beq_eq_false_iff_ne] at hskip
  refine ⟨p, c, rest, hp, hoffset.symm, hrest, hskip.1, hskip.2, fun row hrow => ?_⟩
  have hmatch := List.findSome?_eq_none_iff.mp hnone row hrow
  exact Option.map_eq_none_iff.mp hmatch

end TokenTable

end Formula
