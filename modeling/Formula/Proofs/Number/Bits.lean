import Mathlib
import Formula.Number.Double

/-!
# `Formula.Proofs.Number.Bits` — doubles and their bit patterns

A double that is a number is given by its rank and its sign, and each rank up to that of infinity belongs to a
double of either sign; only what is not a number is one double for many patterns. Negation changes the sign
and keeps the rank.

## Contents
- `components` — the bit pattern of a sign, an exponent and a mantissa; `pack_unpack_components`.
- `rank_ofRank`, `isNegative_ofRank`, `ofRank_rank` — doubles and ranks.
- `neg_ofRank` — negation.
-/

namespace Formula.Double

open Float.Model Float.Model.UnpackedFloat

/-! ## Bit patterns -/

/-- The bit pattern of a sign, an exponent and a mantissa. -/
def components (s : Sign) (e : BitVec 11) (m : BitVec 52) : BitVec 64 := packComponents Format.binary64 s e m

theorem toNat_components (s : Sign) (e : BitVec 11) (m : BitVec 52) :
    (components s e m).toNat = s.toBitVec.toNat * 2 ^ 63 + e.toNat * 2 ^ 52 + m.toNat := by
  have happend : components s e m = s.toBitVec ++ e ++ m := rfl
  rw [happend, BitVec.toNat_append, BitVec.toNat_append, ← Nat.shiftLeft_add_eq_or_of_lt m.isLt,
    ← Nat.shiftLeft_add_eq_or_of_lt e.isLt]
  simp only [Nat.shiftLeft_eq]
  omega

/-- A pattern is put together from its parts. -/
theorem exists_components (b : BitVec 64) : ∃ s e m, b = components s e m :=
  ⟨_, _, _, (@packComponents_unpackSign_unpackExponent_unpackMantissa Format.binary64 b).symm⟩

/-- What a pattern stands for. -/
theorem unpack_components (s : Sign) (e : BitVec 11) (m : BitVec 52) :
    UnpackedFloat.unpack Format.binary64 (components s e m) =
      if e = -1#11 then if m = 0#52 then .infinity s else .notANumber
      else if e = 0#11 then
        if h : m = 0#52 then .zero s
        else .finite s m.toNat (-1074) (Nat.pos_of_ne_zero fun hz => h (BitVec.eq_of_toNat_eq hz))
      else .finite s (2 ^ 52 + m.toNat) (e.toNat - 1075) (by omega) := by
  have hone : (1#1 ++ m).toNat = 2 ^ 52 + m.toNat := by
    rw [BitVec.toNat_append, ← Nat.shiftLeft_add_eq_or_of_lt m.isLt]
    rfl
  unfold UnpackedFloat.unpack
  simp only [components, unpackSign_packComponents, unpackMantissa_packComponents, unpackExponent_packComponents,
    Sign.ofBitVec_toBitVec, hone]
  split
  · rfl
  · split
    · next he =>
      split
      · rfl
      · congr 1
        rw [he]
        rfl
    · rfl

/-- **Packing what has been unpacked** gives the same bits, unless they are those of no number. -/
theorem pack_unpack_components (s : Sign) {e : BitVec 11} {m : BitVec 52} (h : e = -1#11 → m = 0#52) :
    UnpackedFloat.pack Format.binary64 (UnpackedFloat.unpack Format.binary64 (components s e m)) =
      components s e m := by
  have hnumber : @isNaNBits Format.binary64 (components s e m) = false := by
    rw [isNaNBits, components, unpackExponent_packComponents, unpackMantissa_packComponents]
    exact decide_eq_false fun hnan => hnan.2 (h hnan.1)
  rw [pack_unpack, hnumber]
  rfl

/-- Negation changes the sign of a pattern. -/
theorem neg_unpack_components (s : Sign) {e : BitVec 11} {m : BitVec 52} (h : e = -1#11 → m = 0#52) :
    (UnpackedFloat.unpack Format.binary64 (components s e m)).neg =
      UnpackedFloat.unpack Format.binary64 (components (-s) e m) := by
  rw [unpack_components, unpack_components]
  split
  · next he =>
    rw [if_pos (h he), if_pos (h he)]
    rfl
  · split
    · split <;> rfl
    · rfl

/-! ## Ranks -/

/-- A pattern whose rank is that of a number, or of infinity. -/
theorem mantissa_eq_zero {s : Sign} {e : BitVec 11} {m : BitVec 52}
    (h : (components s e m).toNat % 2 ^ 63 ≤ Binary64.infinityRank) : e = -1#11 → m = 0#52 := by
  rintro rfl
  have hm := m.isLt
  have hs := s.toBitVec.isLt
  rw [toNat_components] at h
  have he : (-1#11).toNat = 2047 := rfl
  rw [he, Binary64.infinityRank] at h
  apply BitVec.eq_of_toNat_eq
  show m.toNat = 0
  omega

theorem toBits_ofBits {u : UInt64} (h : u.toNat % 2 ^ 63 ≤ Binary64.infinityRank) : (Float.ofBits u).toBits = u := by
  obtain ⟨s, e, m, hu⟩ := exists_components u.toBitVec
  have hzero := mantissa_eq_zero (s := s) (e := e) (m := m) (by rw [← hu]; exact h)
  show UInt64.ofBitVec (UnpackedFloat.pack Format.binary64 (UnpackedFloat.unpack Format.binary64 u.toBitVec)) = u
  rw [hu, pack_unpack_components s hzero, ← hu]

theorem rank_eq (x : Float) : rank x = x.toBits.toNat % 2 ^ 63 := rfl

theorem isNegative_eq (x : Float) : isNegative x = decide (2 ^ 63 ≤ x.toBits.toNat) := rfl

theorem ofRank_eq (negative : Bool) (r : Nat) :
    ofRank negative r = Float.ofBits (UInt64.ofNat (if negative then r + 2 ^ 63 else r)) :=
  rfl

/-- The bits of the double of a rank and a sign. -/
theorem toNat_toBits_ofRank {r : Nat} (h : r ≤ Binary64.infinityRank) (negative : Bool) :
    (ofRank negative r).toBits.toNat = if negative then r + 2 ^ 63 else r := by
  have hr : r < 2 ^ 63 := Nat.lt_of_le_of_lt h (by decide)
  have hnat : (UInt64.ofNat (if negative then r + 2 ^ 63 else r)).toNat = if negative then r + 2 ^ 63 else r := by
    rw [UInt64.toNat_ofNat']
    cases negative
    · exact Nat.mod_eq_of_lt (by show r < _; omega)
    · exact Nat.mod_eq_of_lt (by show r + 2 ^ 63 < _; omega)
  rw [ofRank_eq, toBits_ofBits, hnat]
  rw [hnat]
  cases negative
  · show r % 2 ^ 63 ≤ _
    omega
  · show (r + 2 ^ 63) % 2 ^ 63 ≤ _
    omega

theorem rank_ofRank {r : Nat} (h : r ≤ Binary64.infinityRank) (negative : Bool) : rank (ofRank negative r) = r := by
  have hr : r < 2 ^ 63 := Nat.lt_of_le_of_lt h (by decide)
  rw [rank_eq, toNat_toBits_ofRank h]
  split <;> omega

theorem isNegative_ofRank {r : Nat} (h : r ≤ Binary64.infinityRank) (negative : Bool) :
    isNegative (ofRank negative r) = negative := by
  have hr : r < 2 ^ 63 := Nat.lt_of_le_of_lt h (by decide)
  rw [isNegative_eq, toNat_toBits_ofRank h]
  cases negative
  · exact decide_eq_false (by show ¬ 2 ^ 63 ≤ r; omega)
  · exact decide_eq_true (by show 2 ^ 63 ≤ r + 2 ^ 63; omega)

/-- **A double that is a number** is the double of its rank and its sign. -/
theorem ofRank_rank {x : Float} (h : rank x ≤ Binary64.infinityRank) : ofRank (isNegative x) (rank x) = x := by
  apply Float.toBits_inj.mp
  apply UInt64.toNat_inj.mp
  rw [toNat_toBits_ofRank h]
  have hx := x.toBits.toNat_lt
  by_cases hs : 2 ^ 63 ≤ x.toBits.toNat
  · rw [isNegative_eq, decide_eq_true hs, if_pos rfl, rank_eq]
    omega
  · rw [isNegative_eq, decide_eq_false hs, rank_eq, if_neg (by simp)]
    omega

/-- Two doubles of one rank and sign are equal. -/
theorem eq_ofRank {x : Float} {negative : Bool} {r : Nat} (hr : rank x = r) (hs : isNegative x = negative)
    (h : r ≤ Binary64.infinityRank) : x = ofRank negative r := by
  rw [← hr, ← hs]
  exact (ofRank_rank (by rw [hr]; exact h)).symm

/-- **Negation** keeps the rank. -/
theorem neg_ofRank {r : Nat} (h : r ≤ Binary64.infinityRank) (negative : Bool) :
    -(ofRank negative r) = ofRank (!negative) r := by
  have hr : r < 2 ^ 63 := Nat.lt_of_le_of_lt h (by decide)
  obtain ⟨s, e, m, hu⟩ := exists_components (ofRank negative r).toBits.toBitVec
  have hnat := toNat_toBits_ofRank h negative
  have hbits : (ofRank negative r).toBits.toNat = (components s e m).toNat := by rw [← hu]; rfl
  have hrank := rank_ofRank h negative
  rw [rank_eq, hbits] at hrank
  have hzero : e = -1#11 → m = 0#52 := mantissa_eq_zero (s := s) (by rw [hrank]; exact h)
  apply Float.toBits_inj.mp
  apply UInt64.toNat_inj.mp
  rw [toNat_toBits_ofRank h]
  show (UnpackedFloat.pack Format.binary64
    (UnpackedFloat.unpack Format.binary64 (ofRank negative r).toBits.toBitVec).neg).toNat = _
  rw [hu, neg_unpack_components s hzero, pack_unpack_components (-s) hzero, toNat_components]
  rw [hbits, toNat_components] at hnat
  have hm := m.isLt
  have he := e.isLt
  -- the sign of the components is that of the double
  cases s <;> cases negative
  · exfalso
    change 1 * 2 ^ 63 + _ + _ = r at hnat
    omega
  · change 1 * 2 ^ 63 + _ + _ = r + 2 ^ 63 at hnat
    show 0 * 2 ^ 63 + _ + _ = r
    omega
  · change 0 * 2 ^ 63 + _ + _ = r at hnat
    show 1 * 2 ^ 63 + _ + _ = r + 2 ^ 63
    omega
  · exfalso
    change 0 * 2 ^ 63 + _ + _ = r + 2 ^ 63 at hnat
    omega

/-- There is one double that is not a number. -/
theorem eq_undefined {x : Float} (h : Binary64.infinityRank < rank x) : x = undefined := by
  obtain ⟨s, e, m, hu⟩ := exists_components x.toBits.toBitVec
  have hm := m.isLt
  have hs := s.toBitVec.isLt
  have hbits : x.toBits.toNat = (components s e m).toNat := by rw [← hu]; rfl
  rw [rank_eq, hbits, toNat_components, Binary64.infinityRank] at h
  have hlt := e.isLt
  have he : e = -1#11 := BitVec.eq_of_toNat_eq (by show e.toNat = 2047; omega)
  have hne : m ≠ 0#52 := by
    rintro rfl
    rw [he] at h
    change 2047 * 2 ^ 52 < (_ * 2 ^ 63 + 2047 * 2 ^ 52 + 0) % 2 ^ 63 at h
    omega
  -- of all bit patterns that are no numbers a double has only the one that is packed
  have hvalid : Format.binary64.Valid x.toBits.toBitVec := x.toModel.valid
  have hnan : x.toBits.toBitVec = packedNaN Format.binary64 := by
    apply hvalid.eq_packedNaN
    · rw [hu]
      exact unpackExponent_packComponents.trans he
    · rw [hu]
      exact fun hz => hne (unpackMantissa_packComponents.symm.trans hz)
  apply Float.toBits_inj.mp
  apply UInt64.toBitVec_inj.mp
  rw [hnan]
  rfl

/-- A double that is a number is equal to itself. -/
theorem beq_self {x : Float} (h : rank x ≤ Binary64.infinityRank) : (x == x) = true := by
  rw [Float.beq_self_iff]
  rintro rfl
  exact absurd h (by decide +kernel)

end Formula.Double
