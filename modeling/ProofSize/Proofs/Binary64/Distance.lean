import Mathlib.Algebra.Order.Field.Basic
import Mathlib.Algebra.Order.Field.Rat
import Mathlib.Tactic.FieldSimp
import Mathlib.Tactic.Linarith
import Mathlib.Tactic.Ring
import ProofSize.Proofs.Binary64.Nearest

/-!
# Distances of numbers

Numbers of the format have values among the rationals, so a rounding can be measured. A ratio is rounded
to the number at the least distance, and one that is not too small is moved by less than its last bit of
53.

## Key results

- `isRounding_of_isNearest`: what is nearest by middles is nearest by distance
- `unitsOf_of_exact`, `isRounding_ofNat`: natural numbers that are kept, and how the others are rounded
- `roundUnits_near`, `abs_roundUnits_sub_le`: the distance by the gap, and in relation to what is rounded
-/

namespace ProofSize.Binary64

/-! ### Values -/

/-- The value of a number of units. -/
def valueOf (units : Nat) : ℚ := units / one

/-- The value of a finite number. -/
def value? : Binary64 → Option ℚ
  | finite negative m => some (if negative then -valueOf m.units else valueOf m.units)
  | _ => none

section

variable {n d k j : Nat}

/-- The number one has units. -/
theorem cast_one_pos : (0 : ℚ) < one := Nat.cast_pos.2 one_pos

/-- No number of units has a negative value. -/
theorem valueOf_nonneg (n : Nat) : 0 ≤ valueOf n := div_nonneg n.cast_nonneg one.cast_nonneg

/-- Only no units at all have the value zero. -/
theorem valueOf_eq_zero_iff : valueOf n = 0 ↔ n = 0 := by
  have hone : (one : ℚ) ≠ 0 := Nat.cast_ne_zero.2 (Nat.ne_of_gt one_pos)
  rw [valueOf, div_eq_zero_iff, or_iff_left hone, Nat.cast_eq_zero]

/-- No units have the value zero. -/
theorem valueOf_zero : valueOf 0 = 0 := valueOf_eq_zero_iff.2 rfl

/-- More units have no smaller value. -/
theorem valueOf_le_valueOf (h : n ≤ k) : valueOf n ≤ valueOf k :=
  div_le_div_of_nonneg_right (Nat.cast_le.2 h) one.cast_nonneg

/-- More units have a greater value. -/
theorem valueOf_lt_valueOf (h : n < k) : valueOf n < valueOf k :=
  div_lt_div_of_pos_right (Nat.cast_lt.2 h) cast_one_pos

/-- Units are known from their value. -/
theorem valueOf_inj : valueOf n = valueOf k ↔ n = k := by
  rw [valueOf, valueOf, div_left_inj' (ne_of_gt cast_one_pos), Nat.cast_inj]

/-- As many units as make up a natural number have its value. -/
theorem valueOf_mul_one (k : Nat) : valueOf (k * one) = k := by
  rw [valueOf, Nat.cast_mul, mul_div_cancel_right₀ _ (ne_of_gt cast_one_pos)]

/-- The value of a number is that of units of the format, or below zero as far. -/
theorem value?_eq_some {b : Binary64} {w : ℚ} (h : b.value? = some w) :
    ∃ k, gap k ∣ k ∧ (w = valueOf k ∨ w = -valueOf k) := by
  cases b with
  | nan => exact nomatch h
  | infinite _ => exact nomatch h
  | finite negative m =>
    refine ⟨m.units, m.representable.1, ?_⟩
    obtain rfl := Option.some.inj h
    cases negative with
    | false => exact .inl rfl
    | true => exact .inr rfl

/-! ### The least distance -/

/-- The magnitude is the number of the format nearest to `x`. Where another number is as near, the last
    of its 53 bits is zero. -/
structure IsRounding (x : ℚ) (m : Magnitude) : Prop where
  nearest : ∀ (b : Binary64) (w : ℚ), b.value? = some w → |valueOf m.units - x| ≤ |w - x|
  even : ∀ (b : Binary64) (w : ℚ), b.value? = some w → w ≠ valueOf m.units →
    |w - x| = |valueOf m.units - x| → m.units / gap m.units % 2 = 0

section

variable {x a b : ℚ}

/-- Above the middle of two numbers, the greater is the nearer. -/
private theorem abs_sub_le_of_add_le (hab : a ≤ b) (h : a + b ≤ 2 * x) : |b - x| ≤ |a - x| := by
  rw [abs_sub_comm a, abs_of_nonneg (by linarith : 0 ≤ x - a), abs_le]
  constructor <;> linarith

/-- Below the middle of two numbers, the smaller is the nearer. -/
private theorem abs_sub_le_of_le_add (hab : a ≤ b) (h : 2 * x ≤ a + b) : |a - x| ≤ |b - x| := by
  rw [abs_of_nonneg (by linarith : 0 ≤ b - x), abs_le]
  constructor <;> linarith

/-- Only the middle of two numbers is as near to one as to the other. -/
private theorem add_eq_of_abs_sub_eq (hab : a ≠ b) (h : |a - x| = |b - x|) : 2 * x = a + b := by
  rcases abs_eq_abs.1 h with heq | heq
  · exact absurd (by linarith : a = b) hab
  · linarith

end

/-- The double of a ratio, in the units in which middles are compared. -/
private theorem two_mul_ratio (hd : 0 < d) : 2 * (valueOf n / d) * (d * one) = ((2 * n : Nat) : ℚ) := by
  have hdpos : (0 : ℚ) < d := Nat.cast_pos.2 hd
  have hone := cast_one_pos
  rw [valueOf]
  field_simp
  push_cast
  ring

/-- The sum of two numbers, in the units in which middles are compared. -/
private theorem valueOf_add (k j : Nat) (d : Nat) :
    (valueOf k + valueOf j) * (d * one) = (((k + j) * d : Nat) : ℚ) := by
  have hone := cast_one_pos
  rw [valueOf, valueOf]
  field_simp
  push_cast
  ring

/-- What is nearest by middles is nearest by distance. -/
theorem isRounding_of_isNearest (hd : 0 < d) {m : Magnitude} (h : IsNearest n d m.units) :
    IsRounding (valueOf n / d) m := by
  have hscale : (0 : ℚ) < d * one := mul_pos (Nat.cast_pos.2 hd) cast_one_pos
  have hratio : 0 ≤ valueOf n / d := div_nonneg (valueOf_nonneg n) d.cast_nonneg
  -- middles and the ratio are compared in the same units
  have hnearest (k : Nat) (hk : gap k ∣ k) :
      |valueOf m.units - valueOf n / d| ≤ |valueOf k - valueOf n / d| := by
    -- on either side the middle decides which of the two is nearer
    rcases Nat.lt_trichotomy k m.units with hlt | rfl | hlt
    · refine abs_sub_le_of_add_le (valueOf_le_valueOf (Nat.le_of_lt hlt)) ?_
      rw [← mul_le_mul_iff_of_pos_right hscale, valueOf_add, two_mul_ratio hd]
      exact Nat.cast_le.2 (h.above k hk hlt)
    · exact le_refl _
    · refine abs_sub_le_of_le_add (valueOf_le_valueOf (Nat.le_of_lt hlt)) ?_
      rw [← mul_le_mul_iff_of_pos_right hscale, valueOf_add, two_mul_ratio hd]
      exact Nat.cast_le.2 (h.below k hk hlt)
  have heven (k : Nat) (hk : gap k ∣ k) (hne : valueOf k ≠ valueOf m.units)
      (htie : |valueOf k - valueOf n / d| = |valueOf m.units - valueOf n / d|) :
      m.units / gap m.units % 2 = 0 := by
    refine h.even k hk (fun heq => hne (congrArg valueOf heq)) ?_
    have hmiddle := add_eq_of_abs_sub_eq hne htie
    rw [← mul_left_inj' (ne_of_gt hscale), valueOf_add, two_mul_ratio hd] at hmiddle
    exact Nat.cast_injective hmiddle
  -- zero is nearer than what is below it
  have hzero := valueOf_zero
  have hbelow (k : Nat) : |valueOf 0 - valueOf n / d| ≤ |-valueOf k - valueOf n / d| := by
    have hk := valueOf_nonneg k
    exact abs_sub_le_of_add_le (by linarith) (by linarith)
  constructor
  · intro b w hw
    obtain ⟨k, hk, rfl | rfl⟩ := value?_eq_some hw
    · exact hnearest k hk
    · exact le_trans (hnearest 0 (Nat.dvd_zero _)) (hbelow k)
  · intro b w hw hne htie
    obtain ⟨k, hk, rfl | rfl⟩ := value?_eq_some hw
    · exact heven k hk hne htie
    · have hzeroTie : |valueOf 0 - valueOf n / d| = |valueOf m.units - valueOf n / d| :=
        le_antisymm (htie ▸ hbelow k) (hnearest 0 (Nat.dvd_zero _))
      -- so the number below zero is zero too
      have hk : -valueOf k = valueOf 0 := by
        have hsame := htie.trans hzeroTie.symm
        by_contra hk
        have := add_eq_of_abs_sub_eq hk hsame
        have := valueOf_nonneg k
        exact hk (by linarith)
      exact heven 0 (Nat.dvd_zero _) (hk ▸ hne) hzeroTie

/-- A smaller number is no nearer to the ratio than its rounding, so the middle of the two is not above
    the ratio. -/
theorem IsRounding.add_mul_le (hd : 0 < d) {m k : Magnitude} (h : IsRounding (valueOf n / d) m)
    (hlt : k.units < m.units) : (k.units + m.units) * d ≤ 2 * n := by
  have hscale : (0 : ℚ) < d * one := mul_pos (Nat.cast_pos.2 hd) cast_one_pos
  have hvalues := valueOf_lt_valueOf hlt
  have hnearest := h.nearest (finite false k) _ rfl
  rw [if_neg Bool.false_ne_true] at hnearest
  have hmiddle : valueOf k.units + valueOf m.units ≤ 2 * (valueOf n / d) := by
    by_contra habove
    -- the ratio would be below the middle then, on the side of the smaller number
    rw [not_le] at habove
    have hnear : |valueOf m.units - valueOf n / d| = valueOf m.units - valueOf n / d :=
      abs_of_nonneg (by linarith)
    rw [hnear, le_abs] at hnearest
    rcases hnearest with hle | hle <;> linarith
  rw [← mul_le_mul_iff_of_pos_right hscale, valueOf_add, two_mul_ratio hd] at hmiddle
  exact Nat.cast_le.1 hmiddle

end

/-! ### Natural numbers -/

/-- The natural number is one of the format: the first of its bits that are not zero and the last one are
    less than 53 places apart. -/
def Exact (k : Nat) : Prop := ∃ places, Nat.pow 2 places ∣ k ∧ k < Nat.pow 2 (precision + places)

section

variable {n d k j : Nat}

/-- The natural numbers up to the 53rd power of two are in the format. -/
theorem exact_of_le (h : k ≤ Nat.pow 2 precision) : Exact k := by
  rcases Nat.lt_or_eq_of_le h with hlt | rfl
  · exact ⟨0, Nat.one_dvd k, hlt⟩
  -- the power itself has a single bit, in front of 53 zeros
  · exact ⟨precision, Nat.dvd_refl _, Nat.pow_lt_pow_right (by decide) (by decide)⟩

/-- The units of a natural number of the format are a multiple of their gap. -/
theorem gap_dvd_of_exact (h : Exact k) : gap (k * one) ∣ k * one := by
  obtain ⟨places, ⟨j, rfl⟩, hlt⟩ := h
  have hj : j < Nat.pow 2 precision := by
    rw [← two_pow_mul_two_pow, Nat.mul_comm] at hlt
    exact Nat.lt_of_mul_lt_mul_right hlt
  unfold one
  generalize unitPlaces = further
  rw [Nat.mul_right_comm, two_pow_mul_two_pow, Nat.mul_comm]
  exact gap_dvd_mul_two_pow hj (places + further)

/-- Natural numbers of the format are kept. -/
theorem unitsOf_of_exact (h : Exact k) : unitsOf k = k * one := by
  have hexact := roundUnits_mul_right Nat.one_pos (gap_dvd_of_exact h)
  rwa [Nat.mul_one] at hexact

/-- A natural number is rounded to the number of the format nearest to it. -/
theorem isRounding_ofNat (h : k ≤ Nat.pow 2 j) (hj : j < 1024) :
    ∃ m : Magnitude, m.units = unitsOf k ∧ ofNat k = finite false m ∧ IsRounding k m := by
  obtain ⟨m, hm, hfinite⟩ := exists_ofNat h hj
  have hnearest : IsNearest (k * one) 1 m.units := hm ▸ isNearest_roundUnits Nat.one_pos
  have hrounding := isRounding_of_isNearest Nat.one_pos hnearest
  rw [valueOf_mul_one, Nat.cast_one, div_one] at hrounding
  exact ⟨m, hm, hfinite, hrounding⟩

/-- A natural number of the format is its own rounding. -/
theorem IsRounding.valueOf_eq {m : Magnitude} (h : IsRounding k m) (hexact : Exact k)
    (hk : k ≤ Nat.pow 2 j) (hj : j < 1024) : valueOf m.units = k := by
  obtain ⟨kept, hkept, -, -⟩ := isRounding_ofNat hk hj
  have hvalue : valueOf kept.units = k := by rw [hkept, unitsOf_of_exact hexact, valueOf_mul_one]
  have hnearest := h.nearest (finite false kept) _ rfl
  rw [if_neg Bool.false_ne_true, hvalue, sub_self, abs_zero] at hnearest
  exact sub_eq_zero.1 (abs_nonpos_iff.1 hnearest)

/-! ### Gaps and relative distances -/

/-- A ratio is moved by half of the gap at most. -/
theorem roundUnits_near (hd : 0 < d) :
    2 * (roundUnits n d * d) ≤ 2 * n + d * gap (n / d) ∧
      2 * n ≤ 2 * (roundUnits n d * d) + d * gap (n / d) := by
  have hunits : roundDiv n (d * gap (n / d)) * (d * gap (n / d)) = roundUnits n d * d := by
    rw [roundUnits, Nat.mul_comm d, Nat.mul_assoc]
  rw [← hunits]
  exact ⟨roundDiv_le_two_mul, two_mul_le_roundDiv (Nat.mul_pos hd (gap_pos (n / d)))⟩

/-- The part of a ratio that it is moved by at most: half of the last of 53 bits. -/
def roundoff : ℚ := 1 / 2 ^ 53

/-- The last bit of what has 53 bits before the point is a small part of it. -/
private theorem gap_le_of_le (hd : 0 < d) (h : 2 ^ 52 * d ≤ n) : 2 ^ 52 * (d * gap (n / d)) ≤ n := by
  rcases gap_eq_one_or (n / d) with hone | hle
  · rwa [hone, Nat.mul_one]
  · have hscaled := (Nat.le_div_iff_mul_le hd).1 hle
    rwa [Nat.mul_assoc, Nat.mul_comm (gap _)] at hscaled

/-- A ratio is moved by at most half of the last of its 53 bits. -/
theorem abs_roundUnits_sub_le (hd : 0 < d) (h : 2 ^ 52 * d ≤ n) :
    |valueOf (roundUnits n d) - valueOf n / d| ≤ roundoff * (valueOf n / d) := by
  have hgap := gap_le_of_le hd h
  obtain ⟨hhigh, hlow⟩ := roundUnits_near (n := n) hd
  have hdpos : (0 : ℚ) < d := Nat.cast_pos.2 hd
  have hone := cast_one_pos
  -- with 52 bits behind the first one, half of the gap is a small part of the ratio
  have hup : (roundUnits n d * d * 2 ^ 53 : ℚ) ≤ n * 2 ^ 53 + n := by
    exact_mod_cast (by omega : roundUnits n d * d * 2 ^ 53 ≤ n * 2 ^ 53 + n)
  have hdown : (n * 2 ^ 53 : ℚ) ≤ roundUnits n d * d * 2 ^ 53 + n := by
    exact_mod_cast (by omega : n * 2 ^ 53 ≤ roundUnits n d * d * 2 ^ 53 + n)
  -- distances are brought to the denominator that both sides share
  have hdistance : valueOf (roundUnits n d) - valueOf n / d =
      (roundUnits n d * d - n) / (d * one) := by
    rw [valueOf, valueOf]
    field_simp
  have hpart : roundoff * (valueOf n / d) = n / 2 ^ 53 / (d * one) := by
    rw [valueOf, roundoff]
    field_simp
  rw [hdistance, hpart, abs_div, abs_of_pos (mul_pos hdpos hone)]
  refine div_le_div_of_nonneg_right (abs_le.2 ⟨?_, ?_⟩) (le_of_lt (mul_pos hdpos hone))
  · linarith
  · linarith

/-- A natural number is moved by at most half of the last of its 53 bits. -/
theorem abs_unitsOf_sub_le (k : Nat) : |valueOf (unitsOf k) - k| ≤ roundoff * k := by
  rcases Nat.eq_zero_or_pos k with rfl | hk
  · rw [unitsOf_zero, valueOf_zero, Nat.cast_zero, mul_zero, sub_zero, abs_zero]
  -- from one on, a natural number has more units than 52 bits
  · have hlarge : 2 ^ 52 * 1 ≤ k * one :=
      calc 2 ^ 52 * 1 ≤ one := two_pow_le_one (j := 52) (by decide)
        _ ≤ k * one := Nat.le_mul_of_pos_left one hk
    have hdistance := abs_roundUnits_sub_le Nat.one_pos hlarge
    rwa [valueOf_mul_one, Nat.cast_one, div_one] at hdistance

end

end ProofSize.Binary64
