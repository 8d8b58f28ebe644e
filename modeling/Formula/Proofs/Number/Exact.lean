import Formula.Number.Binary64
import Formula.Proofs.Number.Text

/-!
# `Formula.Proofs.Number.Exact` — the decimal of a rank reads back as the rank

The shortest decimal is found by trying, so it reads back by the way it is found, unless none is found; then the
exact value is taken, and rounding an exact value changes nothing.

## Contents
- `log2_units`, `nearest_exact` — rounding the exact value of a rank gives the rank.
- `size_bounds` — no exact value is so large or so small that its size decides what it reads as.
- `ofDecimal_exact`, `ofDecimal_shortest`.
-/

namespace Formula.Binary64

/-! ## Exact values -/

theorem units_eq (r : Nat) : units r = significand r * 2 ^ exponent r := Nat.shiftLeft_eq _ _

/-- The significand of a rank takes up 53 bits, or the exponent is zero. -/
theorem significand_bounds (r : Nat) :
    (exponent r = 0 ∧ significand r < 2 ^ 53) ∨ (2 ^ 52 ≤ significand r ∧ significand r < 2 ^ 53) := by
  simp only [significand, exponent]
  omega

theorem exponent_mul_add_significand (r : Nat) : exponent r * 2 ^ 52 + significand r = r := by
  simp only [significand, exponent]
  omega

/-- The binary exponent of a rank's exact value is that of the rank. -/
theorem log2_units (r : Nat) : Nat.log2 (units r) - 52 = exponent r := by
  rcases significand_bounds r with ⟨he, hlt⟩ | ⟨hge, hlt⟩
  · rw [units_eq, he, Nat.pow_zero, Nat.mul_one]
    by_cases hz : significand r = 0
    · rw [hz]
      rfl
    · have := (Nat.log2_lt hz).mpr hlt
      omega
  · have hlog : Nat.log2 (units r) = 52 + exponent r := by
      have hpos : 0 < significand r * 2 ^ exponent r :=
        Nat.mul_pos (Nat.lt_of_lt_of_le (by decide) hge) (Nat.two_pow_pos _)
      rw [units_eq, Nat.log2_eq_iff (Nat.ne_of_gt hpos), Nat.pow_add, Nat.add_right_comm, Nat.pow_add]
      exact ⟨Nat.mul_le_mul_right _ hge, Nat.mul_lt_mul_of_pos_right hlt (Nat.two_pow_pos _)⟩
    rw [hlog, Nat.add_sub_cancel_left]

/-- **An exact value is rounded to its rank.** -/
theorem nearest_exact {num den r : Nat} (hden : 0 < den) (h : num * one = units r * den) : nearest num den = r := by
  have hquot : num * one / den = units r := by rw [h, Nat.mul_div_cancel _ hden]
  have hround : roundHalfEven (num * one) (den * 2 ^ exponent r) = significand r := by
    have hsplit : num * one = significand r * (den * 2 ^ exponent r) := by
      rw [h, units_eq, Nat.mul_assoc, Nat.mul_comm (2 ^ exponent r)]
    have hpos : 0 < den * 2 ^ exponent r := Nat.mul_pos hden (Nat.two_pow_pos _)
    rw [roundHalfEven, hsplit, Nat.mul_div_cancel _ hpos, Nat.mul_mod_left]
    simp [hpos]
  simp only [nearest, hquot, log2_units, Nat.shiftLeft_eq, hround]
  exact exponent_mul_add_significand r

/-! ## The exact decimal -/

/-- Dropping zeros keeps the value. -/
theorem trimPlaces_spec (p : Nat) : ∀ c : Nat, ∃ k, k ≤ p ∧ (Decimal.trimPlaces c p).places = p - k ∧
    (Decimal.trimPlaces c p).coefficient * 10 ^ k = c := by
  induction p with
  | zero => exact fun c => ⟨0, Nat.le_refl 0, rfl, Nat.mul_one c⟩
  | succ p ih =>
    intro c
    rw [Decimal.trimPlaces]
    split
    · next hc =>
      obtain ⟨k, hk, hplaces, hcoeff⟩ := ih (c / 10)
      refine ⟨k + 1, by omega, by omega, ?_⟩
      rw [Nat.pow_succ, ← Nat.mul_assoc, hcoeff]
      omega
    · exact ⟨0, Nat.zero_le _, rfl, Nat.mul_one c⟩

/-- No finite double is as large as `2 ^ 1025`. -/
theorem units_lt {r n : Nat} (hn : n = 1074) (h : r < infinityRank) : units r < 2 ^ (1025 + n) := by
  have hsig : significand r < 2 ^ 53 := by rcases significand_bounds r with h | h <;> exact h.2
  have hexp : 53 + exponent r ≤ 1025 + n := by
    rw [infinityRank] at h
    simp only [exponent]
    omega
  rw [units_eq]
  calc significand r * 2 ^ exponent r < 2 ^ 53 * 2 ^ exponent r := Nat.mul_lt_mul_of_pos_right hsig (Nat.two_pow_pos _)
    _ = 2 ^ (53 + exponent r) := (Nat.pow_add 2 53 (exponent r)).symm
    _ ≤ 2 ^ (1025 + n) := Nat.pow_le_pow_right (by decide) hexp

theorem units_pos {r : Nat} (h : r ≠ 0) : 0 < units r := by
  rw [units_eq]
  -- if the significand were zero, so would the exponent be, and with them the rank
  refine Nat.mul_pos ?_ (Nat.two_pow_pos _)
  have := exponent_mul_add_significand r
  rcases significand_bounds r with ⟨he, -⟩ | ⟨hge, -⟩
  · rw [he] at this
    omega
  · omega

/-- How many digits the exact decimal of a rank has in front of the point, or how many zeros behind it. -/
theorem size_bounds {c k n u : Nat} (hn : n = 1074) (hk : k ≤ n) (hc : c * 10 ^ k = u * 5 ^ n) (hpos : 0 < u)
    (hu : u < 2 ^ (1025 + n)) :
    (Nat.toDigits 10 c).length ≤ 400 + (n - k) ∧ n - k ≤ (Nat.toDigits 10 c).length + 400 := by
  have h5 : 0 < 5 ^ n := Nat.pow_pos (by decide)
  have h10 : 0 < 10 ^ k := Nat.pow_pos (by decide)
  have hpow : ∀ m, (2 ^ 3) ^ m ≤ 10 ^ m := Nat.pow_le_pow_left (by decide)
  constructor
  · rw [Nat.length_toDigits_le_iff (by decide) (by omega)]
    refine Nat.lt_of_mul_lt_mul_right (a := 10 ^ k) ?_
    calc c * 10 ^ k < 2 ^ (1025 + n) * 5 ^ n := by rw [hc]; exact Nat.mul_lt_mul_of_pos_right hu h5
      _ ≤ 2 ^ (3 * 400 + n) * 5 ^ n := Nat.mul_le_mul_right _ (Nat.pow_le_pow_right (by decide) (by omega))
      _ = (2 ^ 3) ^ 400 * 10 ^ n := by rw [Nat.pow_add, Nat.mul_assoc, ← Nat.mul_pow, Nat.pow_mul]
      _ ≤ 10 ^ 400 * 10 ^ n := Nat.mul_le_mul_right _ (hpow 400)
      _ = 10 ^ (400 + (n - k)) * 10 ^ k := by
        rw [← Nat.pow_add, ← Nat.pow_add, Nat.add_assoc, Nat.sub_add_cancel hk]
  · refine Nat.le_of_not_lt fun hlt => ?_
    have hlen : c < 10 ^ (Nat.toDigits 10 c).length :=
      (Nat.length_toDigits_le_iff (by decide) Nat.length_toDigits_pos).mp (Nat.le_refl _)
    -- a power of ten between the value and itself
    have habove : c * 10 ^ k < 10 ^ (2 * 337) := by
      calc c * 10 ^ k < 10 ^ (Nat.toDigits 10 c).length * 10 ^ k := Nat.mul_lt_mul_of_pos_right hlen h10
        _ = 10 ^ ((Nat.toDigits 10 c).length + k) := (Nat.pow_add _ _ _).symm
        _ ≤ 10 ^ (2 * 337) := Nat.pow_le_pow_right (by decide) (by omega)
    have hbelow : 10 ^ (2 * 337) ≤ c * 10 ^ k := by
      calc 10 ^ (2 * 337) = (10 ^ 2) ^ 337 := Nat.pow_mul _ _ _
        _ ≤ (5 ^ 3) ^ 337 := Nat.pow_le_pow_left (by decide) _
        _ = 5 ^ (3 * 337) := (Nat.pow_mul _ _ _).symm
        _ ≤ 5 ^ n := Nat.pow_le_pow_right (by decide) (by omega)
        _ ≤ u * 5 ^ n := Nat.le_mul_of_pos_left _ hpos
        _ = c * 10 ^ k := hc.symm
    exact absurd habove (Nat.not_lt.mpr hbelow)

/-- A decimal that is the exact value of a rank, with trailing zeros dropped. -/
theorem ofDecimal_trimPlaces {r n : Nat} (hn : n = 1074) (h0 : r ≠ 0) (h : r < infinityRank) :
    ofDecimal (Decimal.trimPlaces (units r * 5 ^ n) n) = r := by
  obtain ⟨k, hk, hplaces, hcoeff⟩ := trimPlaces_spec n (units r * 5 ^ n)
  generalize (Decimal.trimPlaces (units r * 5 ^ n) n) = d at hplaces hcoeff
  have hone : one = 2 ^ n := by
    rw [show one = 1 <<< n by rw [hn]; rfl, Nat.one_shiftLeft]
  have hvalue : d.coefficient * one = units r * 10 ^ (n - k) := by
    apply Nat.eq_of_mul_eq_mul_right (Nat.pow_pos (n := k) (show 0 < 10 by decide))
    calc d.coefficient * one * 10 ^ k = d.coefficient * 10 ^ k * 2 ^ n := by rw [hone, Nat.mul_right_comm]
      _ = units r * 10 ^ n := by rw [hcoeff, Nat.mul_assoc, ← Nat.mul_pow]
      _ = units r * 10 ^ (n - k) * 10 ^ k := by rw [Nat.mul_assoc, ← Nat.pow_add, Nat.sub_add_cancel hk]
  have hpos : d.coefficient ≠ 0 := by
    intro hz
    have := Nat.mul_pos (units_pos h0) (Nat.pow_pos (n := n) (show 0 < 5 by decide))
    rw [hz, Nat.zero_mul] at hcoeff
    exact absurd hcoeff.symm (Nat.ne_of_gt this)
  -- neither bound on the size of a text that is read applies
  obtain ⟨hupper, hlower⟩ := size_bounds hn hk hcoeff (units_pos h0) (units_lt hn h)
  rw [ofDecimal, ofScientific, hplaces, if_neg hpos]
  simp only
  rw [if_neg (by omega), if_neg (by omega)]
  cases hp : n - k with
  | zero =>
    rw [hp, Nat.pow_zero, Nat.mul_one] at hvalue
    have hnearest : nearest (d.coefficient * Nat.pow 10 0) 1 = r :=
      nearest_exact Nat.one_pos (by rw [Nat.pow_eq, Nat.pow_zero, Nat.mul_one, Nat.mul_one, hvalue])
    show min (nearest (d.coefficient * Nat.pow 10 0) 1) infinityRank = r
    rw [hnearest, Nat.min_eq_left (Nat.le_of_lt h)]
  | succ p =>
    rw [hp] at hvalue
    have hnearest : nearest d.coefficient (Nat.pow 10 (p + 1)) = r := nearest_exact (Nat.pow_pos (by decide)) hvalue
    show min (nearest d.coefficient (Nat.pow 10 (p + 1))) infinityRank = r
    rw [hnearest, Nat.min_eq_left (Nat.le_of_lt h)]

/-- **The exact value of a rank reads back as the rank.** -/
theorem ofDecimal_exact {r : Nat} (h0 : r ≠ 0) (h : r < infinityRank) : ofDecimal (exact r) = r :=
  ofDecimal_trimPlaces rfl h0 h

/-- **The shortest decimal of a rank reads back as the rank.** -/
theorem ofDecimal_shortest {r : Nat} (h : r < infinityRank) : ofDecimal (shortest r) = r := by
  unfold shortest
  split
  · next h0 =>
    rw [h0]
    rfl
  · next h0 =>
    simp only
    cases hfind : (List.range 17).findSome? fun (i : Nat) =>
        (neighbours r ((i : Int) + 1 - magnitude r)).find? fun d => ofDecimal d == r with
    | none =>
      rw [Option.getD_none]
      -- nothing short reads back, and the exact value is taken
      exact ofDecimal_exact h0 h
    | some d =>
      obtain ⟨i, -, hi⟩ := List.exists_of_findSome?_eq_some hfind
      exact beq_iff_eq.mp (List.find?_some (p := fun d => ofDecimal d == r) hi)

end Formula.Binary64
