import Formula.Number.Double
import Formula.Proofs.Number.Bits
import Formula.Proofs.Number.Exact
import Formula.Proofs.Text.Ascii

/-!
# `Formula.Proofs.Number.Lawful` — literals that can be written and read back

What the written forms and the parser rely on, for any type of literals: a finite literal that is not negative is
read back from its digits, and each other literal is the value of the operation that it is written as.

## Contents
- `LawfulNumeral` — the laws; the doubles obey them.
-/

namespace Formula

/-- **Literals that are read back as they were written.** -/
class LawfulNumeral (ν : Type) [Arithmetic ν] [Numeral ν] : Prop where
  /-- A finite literal is written with digits and an optional fraction. -/
  numberText_digits {v : ν} {negative : Bool} :
    Numeral.shape v = .finite negative → NumberText (Numeral.digits v).toList
  /-- It is read back from them, unless it is negative. -/
  read_digits {v : ν} : Numeral.shape v = .finite false → Numeral.read (Numeral.digits v) = .ok v
  /-- All digits with an optional fraction are read; what is read is not negative, and infinite if too large. -/
  exists_read {x : String} : NumberText x.toList →
    ∃ v : ν, Numeral.read x = .ok v ∧ (Numeral.shape v = .finite false ∨ Numeral.shape v = .infinite false)
  /-- A negative literal is the negation of one with the same digits. -/
  exists_neg {v : ν} : Numeral.shape v = .finite true → ∃ w : ν, Numeral.shape w = .finite false ∧
    Numeral.digits w = Numeral.digits v ∧ Arithmetic.unary .neg w = some v
  /-- An infinite literal is a quotient by zero, or the negation of one. -/
  div_zero {v : ν} : Numeral.shape v = .infinite false → Arithmetic.binary .div Arithmetic.one Arithmetic.zero = v
  neg_div_zero {v : ν} : Numeral.shape v = .infinite true →
    Arithmetic.unary .neg (Arithmetic.binary .div Arithmetic.one Arithmetic.zero : ν) = some v
  /-- A literal that is not a number is the quotient of zeros. -/
  zero_div_zero {v : ν} : Numeral.shape v = .undefined →
    Arithmetic.binary .div Arithmetic.zero Arithmetic.zero = v
  shape_zero : Numeral.shape (Arithmetic.zero : ν) = .finite false
  digits_zero : Numeral.digits (Arithmetic.zero : ν) = "0"
  shape_one : Numeral.shape (Arithmetic.one : ν) = .finite false
  digits_one : Numeral.digits (Arithmetic.one : ν) = "1"

namespace Double

/-! ## Shapes -/

theorem shape_eq_finite_iff {x : Float} {negative : Bool} :
    shape x = .finite negative ↔ rank x < Binary64.infinityRank ∧ isNegative x = negative := by
  unfold shape
  split
  · simp
    omega
  · split
    · simp
      omega
    · simp
      omega

theorem shape_eq_infinite_iff {x : Float} {negative : Bool} :
    shape x = .infinite negative ↔ rank x = Binary64.infinityRank ∧ isNegative x = negative := by
  unfold shape
  split
  · simp
    omega
  · split
    · next h => simp [h]
    · next h => simp [h]

theorem rank_of_shape_undefined {x : Float} (h : shape x = .undefined) : Binary64.infinityRank < rank x := by
  unfold shape at h
  split at h
  · assumption
  · split at h <;> cases h

theorem shape_ofRank {r : Nat} (h : r < Binary64.infinityRank) (negative : Bool) :
    shape (ofRank negative r) = .finite negative := by
  rw [shape_eq_finite_iff, rank_ofRank (Nat.le_of_lt h), isNegative_ofRank (Nat.le_of_lt h)]
  exact ⟨h, rfl⟩

theorem shape_ofRank_infinity (negative : Bool) :
    shape (ofRank negative Binary64.infinityRank) = .infinite negative := by
  rw [shape_eq_infinite_iff, rank_ofRank (Nat.le_refl _), isNegative_ofRank (Nat.le_refl _)]
  exact ⟨rfl, rfl⟩

/-! ## Reading -/

theorem ofScientific_le (s : Scientific) : Binary64.ofScientific s ≤ Binary64.infinityRank := by
  unfold Binary64.ofScientific
  split
  · exact Nat.zero_le _
  · simp only
    split
    · exact Nat.le_refl _
    · split
      · exact Nat.zero_le _
      · split <;> exact Nat.min_le_right _ _

/-- Digits with an optional fraction are read as a decimal. -/
theorem read_of_numberText {x : String} {s : Scientific} (h : NumberText x.toList)
    (hs : Scientific.read? x.toList = some s) : read x = .ok (ofRank false (Binary64.ofScientific s)) := by
  obtain ⟨c, cs, hx, hc⟩ := h.exists_cons
  have hne : x.isEmpty = false := by
    rw [Bool.eq_false_iff, Ne, String.isEmpty_iff]
    rintro rfl
    cases hx
  have hsign : readSign x.toList = (false, x.toList) := by
    rw [hx]
    unfold readSign
    split
    · next heq =>
      cases heq
      cases hc
    · next heq =>
      cases heq
      cases hc
    · rfl
  have hlower : c.toLower = c := Char.toLower_eq_of_not_isUpper (by rw [isUpper_eq_false_of_isDigit hc]; decide)
  have hword : ∀ (d : Char) (w : String), w.toList.head? = some d → d.isDigit = false →
      String.ofList (x.toList.map Char.toLower) ≠ w := by
    intro d w hw hd heq
    rw [← heq, String.toList_ofList, hx, List.map_cons, List.head?_cons, hlower] at hw
    rw [Option.some.inj hw, hd] at hc
    cases hc
  rw [read, hne, hsign]
  simp only [Bool.false_eq_true, if_false, readUnsigned?]
  rw [if_neg (not_or.mpr ⟨hword 'i' "inf" rfl rfl, hword 'i' "infinity" rfl rfl⟩), if_neg (hword 'n' "nan" rfl rfl), hs]
  rfl

/-- **The doubles are read back as they were written.** -/
instance : LawfulNumeral Float where
  numberText_digits {v _} _ := by
    show NumberText (String.ofList (Binary64.shortest (rank v)).text).toList
    rw [String.toList_ofList]
    exact numberText_text _
  read_digits {v} h := by
    obtain ⟨hlt, hsign⟩ := shape_eq_finite_iff.mp h
    have htext : (digits v).toList = (Binary64.shortest (rank v)).text := String.toList_ofList
    have hread := read_of_numberText (x := digits v) (by rw [htext]; exact numberText_text _)
      (by rw [htext]; exact Scientific.read?_text _)
    have hrank : Binary64.ofScientific
        ⟨(Binary64.shortest (rank v)).coefficient, -((Binary64.shortest (rank v)).places : Int)⟩ = rank v :=
      Binary64.ofDecimal_shortest hlt
    show read (digits v) = .ok v
    rw [hread, hrank, ← hsign, ofRank_rank (Nat.le_of_lt hlt)]
  exists_read {x} h := by
    obtain ⟨s, hs⟩ := Scientific.exists_read? h
    refine ⟨_, read_of_numberText h hs, ?_⟩
    rcases Nat.lt_or_eq_of_le (ofScientific_le s) with hlt | heq
    · exact Or.inl (shape_ofRank hlt false)
    · rw [heq]
      exact Or.inr (shape_ofRank_infinity false)
  exists_neg {v} h := by
    obtain ⟨hlt, hsign⟩ := shape_eq_finite_iff.mp h
    refine ⟨ofRank false (rank v), shape_ofRank hlt false, ?_, ?_⟩
    · show digits (ofRank false (rank v)) = digits v
      rw [digits, digits, rank_ofRank (Nat.le_of_lt hlt)]
    · show some (-(ofRank false (rank v))) = some v
      rw [neg_ofRank (Nat.le_of_lt hlt), Bool.not_false, ← hsign, ofRank_rank (Nat.le_of_lt hlt)]
  div_zero {v} h := by
    obtain ⟨hrank, hsign⟩ := shape_eq_infinite_iff.mp h
    rw [eq_ofRank hrank hsign (Nat.le_refl _)]
    decide +kernel
  neg_div_zero {v} h := by
    obtain ⟨hrank, hsign⟩ := shape_eq_infinite_iff.mp h
    rw [eq_ofRank hrank hsign (Nat.le_refl _)]
    decide +kernel
  zero_div_zero {v} h := (eq_undefined (rank_of_shape_undefined h)).symm
  shape_zero := by decide +kernel
  digits_zero := by decide +kernel
  shape_one := by decide +kernel
  digits_one := by decide +kernel

end Double

end Formula
