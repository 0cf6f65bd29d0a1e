import ProofSize.Binary64.Text
import ProofSize.Proofs.Binary64.Distance

/-!
# Natural numbers of the format

A natural number is rounded to a natural number: where it has more than 53 bits, the gaps between numbers
of the format are whole. A word is moved by 1024 at most. Cut to a word again, it keeps its place among
the other words, also where it was rounded to a number above all words. With decimal places a natural
number is written with zeros behind the point.

## Key results

- `roundedNat_mul_one`, `roundedNat_eq`, `roundedNat_near`: what a natural number is rounded to
- `wordOf_near`, `wordOf_le_wordOf`, `wordOf_eq`: words that are rounded and cut to words
- `fixed_of_whole`: whole numbers with decimal places
-/

namespace ProofSize

namespace Binary64

/-- The natural number that a natural number is rounded to. -/
def roundedNat (k : Nat) : Nat := unitsOf k / one

section

variable {k j : Nat}

/-- From `2 ^ 53` on the gaps between numbers of the format are whole. -/
private theorem one_dvd_unitsOf (k : Nat) : one ∣ unitsOf k := by
  -- below that the number itself is one of the format
  rcases Nat.lt_or_ge k (Nat.pow 2 precision) with hlt | hle
  · rw [unitsOf_eq hlt]
    exact Nat.dvd_mul_left _ _
  · have hgap : one ∣ gap (k * one / 1) := by
      rw [Nat.div_one]
      have hlt := lt_two_pow_gapExponent (k * one)
      unfold gap
      unfold one at hlt ⊢
      generalize unitPlaces = places at *
      have hpow : Nat.pow 2 (precision + places) <
          Nat.pow 2 (precision + gapExponent (k * Nat.pow 2 places)) := by
        rw [← two_pow_mul_two_pow]
        exact Nat.lt_of_le_of_lt (Nat.mul_le_mul_right _ hle) hlt
      have hexponent := (Nat.pow_lt_pow_iff_right (by decide)).1 hpow
      exact Nat.pow_dvd_pow 2 (by omega)
    exact Nat.dvd_trans hgap (Nat.dvd_mul_left _ _)

/-- The units that a natural number is rounded to are a whole number of ones. -/
theorem roundedNat_mul_one (k : Nat) : roundedNat k * one = unitsOf k :=
  Nat.div_mul_cancel (one_dvd_unitsOf k)

/-- The value of the rounded units is the rounded number. -/
theorem valueOf_unitsOf (k : Nat) : valueOf (unitsOf k) = roundedNat k := by
  rw [← roundedNat_mul_one, valueOf_mul_one]

/-- A number of the format is not moved. -/
theorem roundedNat_eq (h : Exact k) : roundedNat k = k := by
  rw [roundedNat, unitsOf_of_exact h, Nat.mul_div_cancel _ one_pos]

/-- Rounding keeps the order of natural numbers. -/
theorem roundedNat_le_roundedNat (h : k ≤ j) : roundedNat k ≤ roundedNat j :=
  Nat.div_le_div_right (unitsOf_le_unitsOf h)

/-- The gap between numbers of the format below `2 ^ 64` is `2 ^ 11` at most. -/
private theorem gap_le_of_lt (h : k < 2 ^ 64) : gap (k * one) ≤ 2048 * one := by
  unfold one gap
  generalize unitPlaces = places
  have hlt : k * Nat.pow 2 places < Nat.pow 2 (precision + (11 + places)) := by
    have hpow : Nat.pow 2 (precision + (11 + places)) = Nat.pow 2 64 * Nat.pow 2 places := by
      rw [two_pow_mul_two_pow, ← Nat.add_assoc]
      rfl
    rw [hpow]
    exact Nat.mul_lt_mul_of_pos_right h (two_pow_pos places)
  have hpow : 2048 * Nat.pow 2 places = Nat.pow 2 (11 + places) := two_pow_mul_two_pow 11 places
  rw [hpow]
  exact Nat.pow_le_pow_right (by decide) (gapExponent_le hlt)

/-- Words are moved by half of the greatest gap at most. -/
theorem roundedNat_near (h : k < 2 ^ 64) : roundedNat k ≤ k + 1024 ∧ k ≤ roundedNat k + 1024 := by
  have hgap := gap_le_of_lt h
  have hunits : roundUnits (k * one) 1 = roundedNat k * one := (roundedNat_mul_one k).symm
  obtain ⟨hhigh, hlow⟩ := roundUnits_near (n := k * one) Nat.one_pos
  rw [hunits, Nat.one_mul, Nat.mul_one, Nat.div_one] at hhigh hlow
  have hpos := one_pos
  generalize one = units at *
  constructor
  · apply Nat.le_of_mul_le_mul_right _ hpos
    rw [Nat.add_mul]
    omega
  · apply Nat.le_of_mul_le_mul_right _ hpos
    rw [Nat.add_mul]
    omega

end

/-! ### Words again -/

/-- Cut to a word, a number that is not negative loses what is behind the point. -/
theorem toNat_toWord_finite (m : Magnitude) :
    (finite false m).toWord.toNat = min m.whole (UInt64.size - 1) :=
  UInt64.toNat_ofNat_of_lt' (by have : 0 < UInt64.size := by decide
                                omega)

section

variable {k j : Nat}

/-- The word that a natural number becomes when it is rounded and cut. -/
def wordOf (k : Nat) : Nat := (ofNat k).toWord.toNat

/-- A word that is rounded above all words is cut to the greatest one. -/
theorem wordOf_eq_min (h : k < 2 ^ 64) : wordOf k = min (roundedNat k) (2 ^ 64 - 1) := by
  obtain ⟨m, hm, hfinite⟩ := exists_ofNat (j := 64) (Nat.le_of_lt h) (by decide)
  rw [wordOf, hfinite, toNat_toWord_finite, Magnitude.whole, hm]
  rfl

/-- A word is moved by 1024 at most. -/
theorem wordOf_near (h : k < 2 ^ 64) : wordOf k ≤ k + 1024 ∧ k ≤ wordOf k + 1024 := by
  have hnear := roundedNat_near h
  rw [wordOf_eq_min h]
  omega

/-- Words keep their order. -/
theorem wordOf_le_wordOf (h : k ≤ j) (hlt : j < 2 ^ 64) : wordOf k ≤ wordOf j := by
  have hle := roundedNat_le_roundedNat h
  rw [wordOf_eq_min (Nat.lt_of_le_of_lt h hlt), wordOf_eq_min hlt]
  omega

/-- Words up to `2 ^ 53` are not moved. -/
theorem wordOf_eq (h : k ≤ 2 ^ 53) : wordOf k = k := by
  have hlt : k < 2 ^ 64 := Nat.lt_of_le_of_lt h (by decide)
  rw [wordOf_eq_min hlt, roundedNat_eq (exact_of_le h)]
  omega

end

/-! ### Decimal places -/

/-- The digits of a multiple of a power of ten. -/
theorem toDigits_mul_pow {k : Nat} (hk : 0 < k) (places : Nat) :
    Nat.toDigits 10 (k * Nat.pow 10 places) = Nat.toDigits 10 k ++ List.replicate places '0' := by
  induction places with
  | zero => rw [List.replicate_zero, List.append_nil]; exact congrArg _ (Nat.mul_one k)
  | succ places ih =>
    have hpos : 0 < k * Nat.pow 10 places := Nat.mul_pos hk (Nat.pow_pos (by decide))
    have hzero : Nat.toDigits 10 0 = ['0'] := by decide
    have hnext : k * Nat.pow 10 (places + 1) = 10 * (k * Nat.pow 10 places) + 0 := by
      rw [Nat.add_zero, Nat.mul_comm 10, Nat.mul_assoc]
      rfl
    rw [hnext, ← Nat.toDigits_append_toDigits (by decide) hpos (by decide), ih, hzero,
      List.replicate_succ', List.append_assoc]

/-- A whole number has zeros behind the point. -/
theorem fixed_of_whole {m : Magnitude} {k : Nat} (hm : m.units = k * one) (hk : 0 < k) (places : Nat) :
    m.fixed places = Nat.toDigits 10 k ++ '.' :: List.replicate places '0' := by
  have hdigits : Nat.toDigits 10 (roundDiv (m.units * Nat.pow 10 places) one) =
      Nat.toDigits 10 k ++ List.replicate places '0' := by
    rw [hm, Nat.mul_right_comm, roundDiv_mul_right one_pos, toDigits_mul_pow hk]
  have hlength : 0 < (Nat.toDigits 10 k).length := List.length_pos_iff.2 Nat.toDigits_ne_nil
  -- there are more digits than places, so no zeros are put in front
  have hpadding : places + 1 - (Nat.toDigits 10 k ++ List.replicate places '0').length = 0 := by
    rw [List.length_append, List.length_replicate]
    omega
  have hwhole : (Nat.toDigits 10 k ++ List.replicate places '0').length - places =
      (Nat.toDigits 10 k).length := by
    rw [List.length_append, List.length_replicate, Nat.add_sub_cancel]
  rw [Magnitude.fixed, hdigits, hpadding, List.replicate_zero, List.nil_append, hwhole,
    List.take_left, List.drop_left]

end Binary64

end ProofSize
