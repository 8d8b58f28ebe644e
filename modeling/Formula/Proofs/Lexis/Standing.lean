import Formula.Proofs.Lexis.Rows
import Formula.Proofs.Search.Joint

/-!
# `Formula.Proofs.Lexis.Standing` — where the words of a text stand

Scanning a text gives each token the span of the characters that it was read from. So the tokens stand in the order of
the text and do not overlap; and what is cut out of the text from the start of one token to the end of another is read
into just the tokens between them, since a word is the same wherever behind it the text is cut off.

## Contents
- `Word`, `Token.word`, `bytes`.
- `Stands`, `stands_of_scan`, `Stands.scan` — the tokens of a text with the places at which they stand.
- `Stands.append` — texts put together.
- `InOrder`, `Stands.inOrder`; `nodup_starts_of_tokensOf`.
- `Stands.drop`, `Stands.take` — cutting a text off at tokens.
-/

namespace Formula

open Lexis

/-- A word: a kind and a text. -/
abbrev Word := TokenKind × String

/-- The token without its span. -/
def Token.word (t : Token) : Word := (t.kind, t.text)

/-- **Tokens in the order of a text**: none is empty, and each stops before the next ones start. -/
def InOrder (ts : List Token) : Prop :=
  (∀ t ∈ ts, t.span.start < t.span.stop) ∧ ts.Pairwise fun a b => a.span.stop ≤ b.span.start

namespace Lexis

/-- The number of bytes of a text. -/
abbrev bytes (cs : List Char) : Nat := (cs.map Char.utf8Size).sum

theorem bytes_append (cs ds : List Char) : bytes (cs ++ ds) = bytes cs + bytes ds := by
  rw [bytes, List.map_append, List.sum_append]

theorem bytes_cons (c : Char) (cs : List Char) : bytes (c :: cs) = c.utf8Size + bytes cs := by
  rw [bytes, List.map_cons, List.sum_cons]

theorem bytes_pos {cs : List Char} (h : cs ≠ []) : 0 < bytes cs := by
  obtain ⟨c, cs, rfl⟩ := List.exists_cons_of_ne_nil h
  have hpos := Char.utf8Size_pos c
  rw [bytes_cons]
  omega

/-- **Tokens stand in a text** that begins at an offset. -/
inductive Stands : Nat → List Char → List Token → Prop where
  | nil {o} : Stands o [] []
  | skip {o c cs ts} : TokenTable.isSkipped c = true → Stands (o + c.utf8Size) cs ts → Stands o (c :: cs) ts
  | word {o cs k n ts} : nextWord? cs = some (k, n) → Stands (o + bytes (cs.take n)) (cs.drop n) ts →
      Stands o cs (⟨k, String.ofList (cs.take n), ⟨o, o + bytes (cs.take n)⟩⟩ :: ts)

/-! ## Scanning -/

/-- The characters that are skipped are the blanks. -/
theorem isSkipped_iff {c : Char} : TokenTable.isSkipped c = true ↔ c = ' ' ∨ c = '\t' := by
  simp [TokenTable.isSkipped]

/-- No word begins with a blank. -/
theorem nextWord?_of_isSkipped {c : Char} (h : TokenTable.isSkipped c = true) (cs : List Char) :
    nextWord? (c :: cs) = none := by
  rcases isSkipped_iff.mp h with rfl | rfl <;> exact nextWord?_of_not_isAlphanum rfl cs

theorem isSkipped_of_nextWord? {c : Char} {cs : List Char} {w : TokenKind × Nat}
    (h : nextWord? (c :: cs) = some w) : TokenTable.isSkipped c = false := by
  cases hs : TokenTable.isSkipped c with
  | false => rfl
  | true =>
    rw [nextWord?_of_isSkipped hs] at h
    cases h

/-- A word is not empty, and lies within its text. -/
theorem exists_cons_of_nextWord? {cs : List Char} {k : TokenKind} {n : Nat} (h : nextWord? cs = some (k, n)) :
    ∃ c rest m, cs = c :: rest ∧ n = m + 1 ∧ m ≤ rest.length := by
  have hpos := nextWord?_pos h
  have hle := nextWord?_le h
  obtain ⟨m, rfl⟩ := Nat.exists_eq_succ_of_ne_zero (Nat.ne_of_gt hpos)
  cases cs with
  | nil => cases hle
  | cons c rest => exact ⟨c, rest, m, rfl, rfl, Nat.le_of_succ_le_succ hle⟩

theorem take_ne_nil_of_nextWord? {cs : List Char} {k : TokenKind} {n : Nat} (h : nextWord? cs = some (k, n)) :
    cs.take n ≠ [] := by
  obtain ⟨c, rest, m, rfl, rfl, -⟩ := exists_cons_of_nextWord? h
  exact List.cons_ne_nil c _

/-- The characters of the token found last are passed over. -/
theorem scan_covered (table : TokenTable) (n : Nat) :
    ∀ (cs : List Char) (before : Option Char) (offset : Nat), ∃ before',
      table.scan before offset n cs = table.scan before' (offset + bytes (cs.take n)) 0 (cs.drop n) := by
  induction n with
  | zero => exact fun cs before offset => ⟨before, rfl⟩
  | succ n ih =>
    intro cs before offset
    cases cs with
    | nil => exact ⟨before, rfl⟩
    | cons c cs =>
      obtain ⟨before', heq⟩ := ih cs (some c) (offset + c.utf8Size)
      refine ⟨before', ?_⟩
      rw [List.take_succ_cons, List.drop_succ_cons, bytes_cons, ← Nat.add_assoc, ← heq]
      rfl

/-- One word of a scan. -/
theorem scan_word {cs : List Char} {k : TokenKind} {n : Nat} (h : nextWord? cs = some (k, n)) (before : Option Char)
    (offset : Nat) : ∃ before', TokenTable.standard.scan before offset 0 cs =
      (TokenTable.standard.scan before' (offset + bytes (cs.take n)) 0 (cs.drop n)).map
        (⟨k, String.ofList (cs.take n), ⟨offset, offset + bytes (cs.take n)⟩⟩ :: ·) := by
  obtain ⟨c, rest, m, rfl, rfl, hm⟩ := exists_cons_of_nextWord? h
  let p : Place := ⟨before, c :: rest, offset⟩
  have hmatch : TokenTable.standard.match? p = some (k, p.advance (m + 1)) := by
    rw [TokenTable.match?_standard, h]
    rfl
  have hupTo : p.upTo (p.advance (m + 1)) = (c :: rest).take (m + 1) := Place.upTo_advance p (m + 1)
  have htoken : TokenTable.token k p (p.advance (m + 1)) =
      ⟨k, String.ofList ((c :: rest).take (m + 1)), ⟨offset, offset + bytes ((c :: rest).take (m + 1))⟩⟩ := by
    rw [TokenTable.token, hupTo, Place.offset_advance]
  obtain ⟨before', hrest⟩ := scan_covered TokenTable.standard m rest (some c) (offset + c.utf8Size)
  refine ⟨before', ?_⟩
  have hcover : (p.upTo (p.advance (m + 1))).length - 1 = m := by
    rw [hupTo, List.length_take, List.length_cons]
    omega
  rw [TokenTable.scan_cons, isSkipped_of_nextWord? h]
  simp only [Bool.false_eq_true, if_false]
  rw [show (⟨before, c :: rest, offset⟩ : Place) = p from rfl, hmatch]
  simp only [hcover, hrest, htoken, List.take_succ_cons, List.drop_succ_cons, bytes_cons, Nat.add_assoc]

/-- **What a scan finds stands in the text.** The induction is on a bound of the text's length, since a word is passed
    over at once. -/
theorem stands_of_scan (n : Nat) : ∀ {cs : List Char} {before : Option Char} {offset : Nat} {ts : List Token},
    cs.length ≤ n → TokenTable.standard.scan before offset 0 cs = .ok ts → Stands offset cs ts := by
  induction n with
  | zero =>
    intro cs before offset ts hn h
    obtain rfl := List.eq_nil_of_length_eq_zero (Nat.le_zero.mp hn)
    cases h
    exact .nil
  | succ n ih =>
    intro cs before offset ts hn h
    cases cs with
    | nil =>
      cases h
      exact .nil
    | cons c cs =>
      rw [List.length_cons] at hn
      cases hc : TokenTable.isSkipped c with
      | true =>
        rw [TokenTable.scan, hc] at h
        exact .skip hc (ih (by omega) h)
      | false =>
        cases hw : nextWord? (c :: cs) with
        | none =>
          rw [TokenTable.scan_cons, hc] at h
          simp only [Bool.false_eq_true, if_false, TokenTable.match?_standard, hw] at h
          cases h
        | some w =>
          obtain ⟨k, m⟩ := w
          -- a word is not empty, so that the rest of the text is shorter
          have hpos := nextWord?_pos hw
          obtain ⟨before', hscan⟩ := scan_word hw before offset
          rw [hscan] at h
          cases hrest : TokenTable.standard.scan before' (offset + bytes ((c :: cs).take m)) 0 ((c :: cs).drop m) with
          | error e =>
            rw [hrest] at h
            cases h
          | ok ts' =>
            rw [hrest] at h
            cases h
            refine .word hw (ih ?_ hrest)
            rw [List.length_drop, List.length_cons]
            omega

/-- The tokens of a text stand in it. -/
theorem stands_of_tokensOf {text : String} {ts : List Token} (h : tokensOf text = .ok ts) : Stands 0 text.toList ts :=
  stands_of_scan _ le_rfl h

/-- **Tokens that stand in a text are what a scan finds**, whatever character stands before the text. -/
theorem Stands.scan {o : Nat} {cs : List Char} {ts : List Token} (h : Stands o cs ts) :
    ∀ before : Option Char, TokenTable.standard.scan before o 0 cs = .ok ts := by
  induction h with
  | nil => exact fun _ => rfl
  | @skip o c cs ts hc _ ih =>
    intro before
    rw [TokenTable.scan, hc]
    exact ih (some c)
  | @word o cs k n ts hw _ ih =>
    intro before
    obtain ⟨before', hscan⟩ := scan_word hw before o
    rw [hscan, ih before']
    rfl

/-- **Texts put together**: where the second begins with a delimiter, its tokens stand behind those of the first, which
    stay where they are. -/
theorem Stands.append {o : Nat} {cs rest : List Char} {ts us : List Token} (h : Stands o cs ts) (hd : Delimited rest)
    (hrest : Stands (o + bytes cs) rest us) : Stands o (cs ++ rest) (ts ++ us) := by
  induction h with
  | nil => exact hrest
  | @skip o c cs ts hc _ ih =>
    rw [bytes_cons, ← Nat.add_assoc] at hrest
    exact .skip hc (ih hrest)
  | @word o cs k n ts hw _ ih =>
    obtain ⟨c, cs', m, hcs, -, -⟩ := exists_cons_of_nextWord? hw
    have hle := nextWord?_le hw
    -- a delimiter behind the text does not change its first word
    have hnext : nextWord? (cs ++ rest) = some (k, n) := by
      rw [nextWord?_append (by rw [hcs]; exact List.cons_ne_nil c cs') hd, hw]
    have hbytes : o + bytes cs = o + bytes (cs.take n) + bytes (cs.drop n) := by
      rw [Nat.add_assoc, ← bytes_append, List.take_append_drop]
    rw [hbytes] at hrest
    have hstep := Stands.word (o := o) hnext
      (by rw [List.take_append_of_le_length hle, List.drop_append_of_le_length hle]; exact ih hrest)
    rwa [List.take_append_of_le_length hle] at hstep

/-! ## Order -/

/-- No token starts before the text. -/
theorem Stands.le_start {o : Nat} {cs : List Char} {ts : List Token} (h : Stands o cs ts) :
    ∀ t ∈ ts, o ≤ t.span.start := by
  induction h with
  | nil =>
    intro t ht
    cases ht
  | skip _ _ ih =>
    intro t ht
    have hle := ih t ht
    omega
  | word _ _ ih =>
    intro t ht
    rcases List.mem_cons.mp ht with rfl | ht
    · exact Nat.le_refl _
    · have hle := ih t ht
      omega

theorem Stands.inOrder {o : Nat} {cs : List Char} {ts : List Token} (h : Stands o cs ts) : InOrder ts := by
  induction h with
  | nil => exact ⟨fun t ht => (List.not_mem_nil ht).elim, List.Pairwise.nil⟩
  | skip _ _ ih => exact ih
  | @word o cs k n ts hw hstands ih =>
    have hpos := bytes_pos (take_ne_nil_of_nextWord? hw)
    refine ⟨fun t ht => ?_, .cons (fun t ht => hstands.le_start t ht) ih.2⟩
    rcases List.mem_cons.mp ht with rfl | ht
    · exact Nat.lt_add_of_pos_right hpos
    · exact ih.1 t ht

/-- No two tokens start at the same place. -/
theorem nodup_starts_of_tokensOf {text : String} {ts : List Token} (h : tokensOf text = .ok ts) :
    (ts.map fun t => t.span.start).Nodup := by
  obtain ⟨hpos, hpairs⟩ := (stands_of_tokensOf h).inOrder
  rw [List.Nodup, List.pairwise_map]
  exact hpairs.imp_of_mem fun ha _ hab => Nat.ne_of_lt (Nat.lt_of_lt_of_le (hpos _ ha) hab)

/-! ## Cutting off -/

/-- What is in front of a token is cut off. -/
theorem Stands.drop {o : Nat} {cs : List Char} {ts : List Token} (h : Stands o cs ts) :
    ∀ (us vs : List Token) (t : Token), ts = us ++ t :: vs →
      ∃ before rest, cs = before ++ rest ∧ t.span.start = o + bytes before ∧ Stands t.span.start rest (t :: vs) := by
  induction h with
  | nil =>
    intro us vs t hts
    exact absurd hts.symm (List.append_ne_nil_of_right_ne_nil us (List.cons_ne_nil t vs))
  | @skip o c cs ts hc _ ih =>
    intro us vs t hts
    obtain ⟨before, rest, rfl, hstart, hstands⟩ := ih us vs t hts
    refine ⟨c :: before, rest, rfl, ?_, hstands⟩
    rw [hstart, bytes_cons, Nat.add_assoc]
  | @word o cs k n ts hw hstands ih =>
    intro us vs t hts
    cases us with
    | nil =>
      obtain ⟨rfl, rfl⟩ := List.cons.inj hts
      exact ⟨[], cs, rfl, rfl, .word hw hstands⟩
    | cons u us =>
      obtain ⟨-, htail⟩ := List.cons.inj hts
      obtain ⟨before, rest, hdrop, hstart, hstands⟩ := ih us vs t htail
      refine ⟨cs.take n ++ before, rest, ?_, ?_, hstands⟩
      · rw [List.append_assoc, ← hdrop, List.take_append_drop]
      · rw [hstart, bytes_append, Nat.add_assoc]

/-- What is behind a token is cut off: the words before it do not change. -/
theorem Stands.take {o : Nat} {cs : List Char} {ts : List Token} (h : Stands o cs ts) :
    ∀ (us vs : List Token) (t : Token), ts = us ++ t :: vs →
      ∃ part after, cs = part ++ after ∧ t.span.stop = o + bytes part ∧ Stands o part (us ++ [t]) := by
  induction h with
  | nil =>
    intro us vs t hts
    exact absurd hts.symm (List.append_ne_nil_of_right_ne_nil us (List.cons_ne_nil t vs))
  | @skip o c cs ts hc _ ih =>
    intro us vs t hts
    obtain ⟨part, after, rfl, hstop, hstands⟩ := ih us vs t hts
    refine ⟨c :: part, after, rfl, ?_, .skip hc hstands⟩
    rw [hstop, bytes_cons, Nat.add_assoc]
  | @word o cs k n ts hw hstands ih =>
    intro us vs t hts
    have hle := nextWord?_le hw
    cases us with
    | nil =>
      obtain ⟨rfl, rfl⟩ := List.cons.inj hts
      have hword := Stands.word (o := o) (nextWord?_take hw le_rfl) (by rw [List.drop_take_self]; exact .nil)
      rw [List.take_take, Nat.min_self] at hword
      exact ⟨cs.take n, cs.drop n, (List.take_append_drop n cs).symm, rfl, hword⟩
    | cons u us =>
      obtain ⟨rfl, htail⟩ := List.cons.inj hts
      obtain ⟨part, after, hdrop, hstop, hstands⟩ := ih us vs t htail
      have hlength : (cs.take n).length = n := List.length_take_of_le hle
      have hsplit : cs = cs.take n ++ part ++ after := by rw [List.append_assoc, ← hdrop, List.take_append_drop]
      refine ⟨cs.take n ++ part, after, hsplit, ?_, ?_⟩
      · rw [hstop, bytes_append, Nat.add_assoc]
      · -- the first word ends where it did
        have hnext : nextWord? (cs.take n ++ part) = some (k, n) := by
          have hfront : cs.take n ++ part = cs.take (n + part.length) := by
            rw [List.take_add, hdrop, List.take_left]
          rw [hfront]
          exact nextWord?_take hw (Nat.le_add_right n _)
        have hword := Stands.word (o := o) hnext
          (by rw [List.take_left' hlength, List.drop_left' hlength]; exact hstands)
        rwa [List.take_left' hlength] at hword

/-- **The text from the start of a token to the end of another** is read into the tokens between. -/
theorem Stands.cut {o : Nat} {cs : List Char} {us vs ws : List Token} (h : Stands o cs (us ++ vs ++ ws)) {a b : Token}
    (ha : a ∈ vs.head?) (hb : b ∈ vs.getLast?) : ∃ before part after, cs = before ++ part ++ after ∧
      a.span.start = o + bytes before ∧ b.span.stop = o + bytes (before ++ part) ∧ Stands a.span.start part vs := by
  obtain ⟨vs', rfl⟩ : ∃ vs', vs = a :: vs' := ⟨_, List.eq_cons_of_mem_head? ha⟩
  obtain ⟨before, rest, rfl, hstart, hrest⟩ := h.drop us (vs' ++ ws) a (by simp)
  obtain ⟨vs'', hvs⟩ : ∃ vs'', a :: vs' = vs'' ++ [b] := ⟨_, (List.dropLast_append_getLast? b hb).symm⟩
  obtain ⟨part, after, rfl, hstop, hpart⟩ := hrest.take vs'' ws b
    (by rw [← List.cons_append, hvs, List.append_assoc]; rfl)
  refine ⟨before, part, after, (List.append_assoc _ _ _).symm, hstart, ?_, ?_⟩
  · rw [hstop, hstart, bytes_append, Nat.add_assoc]
  · rwa [hvs]

end Lexis

end Formula
