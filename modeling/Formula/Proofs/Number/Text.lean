import Mathlib
import Formula.Number.Decimal

/-!
# `Formula.Proofs.Number.Text` — decimals read back from their texts

The text of a decimal is digits with an optional fraction, and what is read from it is the decimal's coefficient
and its places.

## Contents
- `NumberText` — digits with an optional fraction; `numberText_text`.
- `Scientific.read?_text` — a decimal is read back from its text.
- `Scientific.exists_read?` — every text of digits with an optional fraction can be read.
-/

namespace Formula

/-- Digits with an optional fraction. -/
inductive NumberText : List Char → Prop where
  | whole {ds} : ds ≠ [] → (∀ c ∈ ds, c.isDigit = true) → NumberText ds
  | fraction {ds fs} : ds ≠ [] → (∀ c ∈ ds, c.isDigit = true) → fs ≠ [] → (∀ c ∈ fs, c.isDigit = true) →
      NumberText (ds ++ '.' :: fs)

/-- A text of digits with an optional fraction begins with a digit. -/
theorem NumberText.exists_cons {cs : List Char} (h : NumberText cs) :
    ∃ c rest, cs = c :: rest ∧ c.isDigit = true := by
  cases h with
  | whole hne hds =>
    obtain ⟨c, rest, rfl⟩ := List.exists_cons_of_ne_nil hne
    exact ⟨c, rest, rfl, hds c List.mem_cons_self⟩
  | @fraction ds fs hne hds _ _ =>
    obtain ⟨c, rest, rfl⟩ := List.exists_cons_of_ne_nil hne
    exact ⟨c, rest ++ '.' :: fs, rfl, hds c List.mem_cons_self⟩

theorem NumberText.isDigit_or_point {cs : List Char} (h : NumberText cs) :
    ∀ c ∈ cs, (c.isDigit || c == '.') = true := by
  intro c hc
  cases h with
  | whole hne hds => rw [hds c hc, Bool.true_or]
  | fraction hne hds hfne hfs =>
    rcases List.mem_append.mp hc with hmem | hmem
    · rw [hds c hmem, Bool.true_or]
    · rcases List.mem_cons.mp hmem with rfl | hmem
      · rfl
      · rw [hfs c hmem, Bool.true_or]

/-! ## Digits -/

theorem isDigit_of_mem_toDigits {n : Nat} : ∀ c ∈ Nat.toDigits 10 n, c.isDigit = true :=
  fun _ hc => Nat.isDigit_of_mem_toDigits (by decide) (by decide) hc

theorem digitsValue_toDigits (n : Nat) : digitsValue (Nat.toDigits 10 n) = n := Nat.ofDigitChars_ten_toDigits

/-- The number of a run of digits put together from two. -/
theorem digitsValue_append (a b : List Char) :
    digitsValue (a ++ b) = 10 ^ b.length * digitsValue a + digitsValue b := by
  have happend : digitsValue (a ++ b) = Nat.ofDigitChars 10 b (digitsValue a) := Nat.ofDigitChars_append 0
  rw [happend, Nat.ofDigitChars_eq_ofDigitChars_zero]
  rfl

/-- Zeros in front change nothing. -/
theorem digitsValue_leftpad (n : Nat) (cs : List Char) : digitsValue (cs.leftpad n '0') = digitsValue cs := by
  have hzero : digitsValue (List.replicate (n - cs.length) '0') = 0 := Nat.ofDigitChars_replicate_zero
  rw [List.leftpad, digitsValue_append, hzero, Nat.mul_zero, Nat.zero_add]

/-- The digits after the point. -/
theorem length_fraction {c p : Nat} (hp : p ≠ 0) :
    ((Nat.toDigits 10 (c % 10 ^ p)).leftpad p '0').length = p := by
  have hlt : c % 10 ^ p < 10 ^ p := Nat.mod_lt c (Nat.pow_pos (by decide))
  have hle := (Nat.length_toDigits_le_iff (b := 10) (by decide) (Nat.pos_of_ne_zero hp)).mpr hlt
  rw [List.length_leftpad]
  omega

theorem isDigit_of_mem_fraction {n p : Nat} : ∀ c ∈ (Nat.toDigits 10 n).leftpad p '0', c.isDigit = true := by
  intro c hc
  rw [List.leftpad, List.mem_append] at hc
  rcases hc with hc | hc
  · rw [(List.mem_replicate.mp hc).2]
    rfl
  · exact isDigit_of_mem_toDigits c hc

theorem Decimal.text_eq (d : Decimal) : d.text =
    if d.places = 0 then Nat.toDigits 10 d.coefficient
    else Nat.toDigits 10 (d.coefficient / 10 ^ d.places) ++
      '.' :: (Nat.toDigits 10 (d.coefficient % 10 ^ d.places)).leftpad d.places '0' :=
  rfl

/-- **The text of a decimal** is digits with an optional fraction. -/
theorem numberText_text (d : Decimal) : NumberText d.text := by
  rw [Decimal.text_eq]
  split
  · exact .whole Nat.toDigits_ne_nil isDigit_of_mem_toDigits
  · next hp =>
    refine .fraction Nat.toDigits_ne_nil isDigit_of_mem_toDigits ?_ isDigit_of_mem_fraction
    intro hnil
    have hlen := length_fraction (c := d.coefficient) hp
    rw [hnil] at hlen
    exact hp hlen.symm

/-! ## Reading -/

namespace Scientific

theorem takeWhile_isDigit {ds : List Char} (hds : ∀ c ∈ ds, c.isDigit = true) (rest : List Char)
    (hrest : ∀ c ∈ rest.head?, c.isDigit = false) :
    (ds ++ rest).takeWhile Char.isDigit = ds ∧ (ds ++ rest).dropWhile Char.isDigit = rest := by
  rw [List.takeWhile_append_of_pos hds, List.dropWhile_append_of_pos hds]
  cases rest with
  | nil => simp
  | cons c rest => simp [hrest c rfl]

/-- What is read from digits. -/
theorem read?_whole {ds : List Char} (hne : ds ≠ []) (hds : ∀ c ∈ ds, c.isDigit = true) :
    read? ds = some ⟨digitsValue ds, 0⟩ := by
  have htake := takeWhile_isDigit hds [] (by simp)
  rw [List.append_nil] at htake
  simp [read?, htake.1, htake.2, readFraction, readExponent?, hne]

/-- What is read from digits with a fraction. -/
theorem read?_fraction {ds fs : List Char} (hne : ds ≠ []) (hds : ∀ c ∈ ds, c.isDigit = true)
    (hfs : ∀ c ∈ fs, c.isDigit = true) :
    read? (ds ++ '.' :: fs) = some ⟨digitsValue (ds ++ fs), -(fs.length : Int)⟩ := by
  have htake := takeWhile_isDigit hds ('.' :: fs) (by simp)
  have hfrac := takeWhile_isDigit hfs [] (by simp)
  rw [List.append_nil] at hfrac
  simp [read?, htake.1, htake.2, readFraction, hfrac.1, hfrac.2, readExponent?, hne]

/-- **A decimal is read back from its text.** -/
theorem read?_text (d : Decimal) : read? d.text = some ⟨d.coefficient, -(d.places : Int)⟩ := by
  rw [Decimal.text_eq]
  split
  · next hp =>
    rw [read?_whole Nat.toDigits_ne_nil isDigit_of_mem_toDigits, digitsValue_toDigits, hp]
    rfl
  · next hp =>
    rw [read?_fraction Nat.toDigits_ne_nil isDigit_of_mem_toDigits isDigit_of_mem_fraction, digitsValue_append,
      digitsValue_leftpad, digitsValue_toDigits, digitsValue_toDigits, length_fraction hp, Nat.div_add_mod]

/-- Digits with an optional fraction can be read. -/
theorem exists_read? {cs : List Char} (h : NumberText cs) : ∃ s, read? cs = some s := by
  cases h with
  | whole hne hds => exact ⟨_, read?_whole hne hds⟩
  | fraction hne hds _ hfs => exact ⟨_, read?_fraction hne hds hfs⟩

end Scientific

end Formula
