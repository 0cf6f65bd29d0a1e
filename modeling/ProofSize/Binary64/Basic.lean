import ProofSize.Rounding

/-! # Numbers of the binary64 format

A finite number of the format is a sign and a whole number of *units*, the unit being the least
positive number `2 ^ -1074`. A number of units is a magnitude of the format when it has at most 53
significant bits and lies below `2 ^ 1024`. Every operation takes the exact result, a ratio of
natural numbers, and rounds it once to the nearest magnitude, a tie going to the one with an even
last bit.

## Key results
- `gap_dvd_roundUnits`: rounding gives at most 53 significant bits
- `roundUnits_mul_right`: what is representable already is kept
- `Magnitude.ofRatio?_units`: each magnitude is its own rounding
- `ofRatio_congr`: equal ratios round to the same number
- `ofDecimal_mul_pow`: zeros at the end of the digits may go to the power of ten
-/

namespace ProofSize

namespace Binary64

/-- The significant bits of a number. -/
def precision : Nat := 53

/-- The binary places of the unit behind the point. -/
def unitPlaces : Nat := 1074

/-- The units that make up the number one. -/
def one : Nat := Nat.pow 2 unitPlaces

/-- The units that make up `2 ^ 1024`, the first power of two above all finite numbers. -/
def limit : Nat := Nat.pow 2 (1024 + unitPlaces)

/-- Powers of two are positive. -/
theorem two_pow_pos (k : Nat) : 0 < Nat.pow 2 k := Nat.two_pow_pos k

/-- The number one has units. -/
theorem one_pos : 0 < one := by apply two_pow_pos

/-- There are numbers below the limit. -/
theorem limit_pos : 0 < limit := by apply two_pow_pos

/-- The base-two exponent of the distance between neighbouring magnitudes at `n` units. -/
def gapExponent (n : Nat) : Nat := n.log2 + 1 - precision

/-- The distance between neighbouring magnitudes at `n` units. -/
def gap (n : Nat) : Nat := Nat.pow 2 (gapExponent n)

/-- `n` units are a magnitude of the format. -/
def Representable (n : Nat) : Prop := gap n ∣ n ∧ n < limit

/-- The ratio `n / d` of units rounded to 53 significant bits. -/
def roundUnits (n d : Nat) : Nat := roundDiv n (d * gap (n / d)) * gap (n / d)

/-- Neighbours are not the same. -/
theorem gap_pos (n : Nat) : 0 < gap n := two_pow_pos (gapExponent n)

/-- A number has at most 53 bits from the last place of its gap on. -/
theorem lt_two_pow_gapExponent (n : Nat) : n < Nat.pow 2 (precision + gapExponent n) := by
  refine Nat.lt_of_lt_of_le Nat.lt_log2_self (Nat.pow_le_pow_right (by decide) ?_)
  unfold gapExponent
  omega

/-- The gap of a number with fewer bits is no greater. -/
theorem gapExponent_le {n k : Nat} (h : n < Nat.pow 2 (precision + k)) : gapExponent n ≤ k := by
  unfold gapExponent
  rcases Nat.eq_zero_or_pos n with rfl | hn
  · simp [precision]
  · have := (Nat.log2_lt (by omega)).2 h
    omega

/-- Rounding keeps at most 53 significant bits. -/
theorem roundDiv_gap_le (n d : Nat) : roundDiv n (d * gap (n / d)) ≤ Nat.pow 2 precision := by
  refine Nat.le_trans (roundDiv_le_div_add_one _ _) ?_
  -- the quotient has 53 bits from its gap on, and one may be added
  rw [← Nat.div_div_eq_div_mul]
  have h := lt_two_pow_gapExponent (n / d)
  rw [Nat.pow_eq, Nat.pow_add, Nat.mul_comm] at h
  exact Nat.div_lt_of_lt_mul h

/-- What has been rounded has at most 53 significant bits. -/
theorem gap_dvd_roundUnits (n d : Nat) : gap (roundUnits n d) ∣ roundUnits n d := by
  have hle := roundDiv_gap_le n d
  simp only [roundUnits, gap, Nat.pow_eq] at hle ⊢
  generalize gapExponent (n / d) = e at hle
  generalize roundDiv n (d * 2 ^ e) = m at hle
  -- rounding up may lead to the next power of two, which has one bit more
  rcases Nat.lt_or_eq_of_le hle with hlt | rfl
  · have h : m * 2 ^ e < 2 ^ (precision + e) := by
      rw [Nat.pow_add]
      exact Nat.mul_lt_mul_of_pos_right hlt (Nat.two_pow_pos e)
    exact Nat.dvd_trans (Nat.pow_dvd_pow 2 (gapExponent_le h)) (Nat.dvd_mul_left _ _)
  · rw [← Nat.pow_add]
    refine Nat.pow_dvd_pow 2 ?_
    unfold gapExponent
    rw [Nat.log2_two_pow, precision]
    omega

/-- What has at most 53 significant bits already is kept. -/
theorem roundUnits_mul_right {n d : Nat} (hd : 0 < d) (h : gap n ∣ n) :
    roundUnits (n * d) d = n := by
  unfold roundUnits
  rw [Nat.mul_div_cancel _ hd]
  obtain ⟨k, hk⟩ := h
  have hpos : 0 < d * gap n := Nat.mul_pos hd (gap_pos n)
  have hn : n * d = k * (d * gap n) := by
    conv => lhs; rw [hk]
    rw [Nat.mul_comm (gap n) k, Nat.mul_assoc, Nat.mul_comm (gap n) d]
  rw [hn, roundDiv_mul_right hpos, Nat.mul_comm, ← hk]

/-- The ratio decides, however it is written. -/
theorem roundUnits_mul_mul_right {k : Nat} (hk : 0 < k) (n d : Nat) :
    roundUnits (n * k) (d * k) = roundUnits n d := by
  unfold roundUnits
  rw [Nat.mul_div_mul_right n d hk, Nat.mul_right_comm d k, roundDiv_mul_mul_right hk]

/-- The size of a finite number. -/
structure Magnitude where
  /-- The number of units. -/
  units : Nat
  representable : Representable units
  deriving DecidableEq

namespace Magnitude

/-- The magnitude nearest to the ratio `n / d` of units, unless that lies beyond the greatest. -/
def ofRatio? (n d : Nat) : Option Magnitude :=
  if h : roundUnits n d < limit then some ⟨roundUnits n d, gap_dvd_roundUnits n d, h⟩ else none

def zero : Magnitude := ⟨0, Nat.dvd_zero _, limit_pos⟩

/-- Each magnitude is its own rounding. -/
theorem ofRatio?_units (m : Magnitude) {d : Nat} (hd : 0 < d) :
    ofRatio? (m.units * d) d = some m := by
  have h := roundUnits_mul_right hd m.representable.1
  simp only [ofRatio?, h]
  rw [dif_pos m.representable.2]

/-- Ratios with the same rounding have the same magnitude. -/
theorem ofRatio?_congr {n d n' d' : Nat} (h : roundUnits n d = roundUnits n' d') :
    ofRatio? n d = ofRatio? n' d' := by
  unfold ofRatio?
  -- both are below the limit, or both are not
  by_cases hlt : roundUnits n d < limit
  · rw [dif_pos hlt, dif_pos (h ▸ hlt)]
    exact congrArg some (mk.injEq .. ▸ h)
  · rw [dif_neg hlt, dif_neg (h ▸ hlt)]

end Magnitude

end Binary64

/-- A number of the binary64 format. -/
inductive Binary64 where
  | nan
  | infinite (negative : Bool)
  | finite (negative : Bool) (magnitude : Binary64.Magnitude)
  deriving DecidableEq

namespace Binary64

/-- The number nearest to the ratio `n / d` of units, with the given sign. -/
def ofRatio (negative : Bool) (n d : Nat) : Binary64 :=
  match Magnitude.ofRatio? n d with
  | some m => finite negative m
  | none => infinite negative

/-- The number nearest to a natural number. -/
def ofNat (n : Nat) : Binary64 := ofRatio false (n * one) 1

/-- The number nearest to a 64-bit word. -/
def ofWord (w : UInt64) : Binary64 := ofNat w.toNat

/-- The number nearest to `digits * 10 ^ exponent`. -/
def ofDecimal (negative : Bool) (digits : Nat) (exponent : Int) : Binary64 :=
  ofRatio negative (digits * Nat.pow 10 exponent.toNat * one) (Nat.pow 10 (-exponent).toNat)

/-- A ratio may be expanded before it is rounded. -/
theorem ofRatio_mul_mul_right {k : Nat} (hk : 0 < k) (negative : Bool) (n d : Nat) :
    ofRatio negative (n * k) (d * k) = ofRatio negative n d := by
  unfold ofRatio
  rw [Magnitude.ofRatio?_congr (roundUnits_mul_mul_right hk n d)]

/-- Equal ratios round to the same number. -/
theorem ofRatio_congr {n d n' d' : Nat} (hd : 0 < d) (hd' : 0 < d') (h : n * d' = n' * d)
    (negative : Bool) : ofRatio negative n d = ofRatio negative n' d' := by
  rw [← ofRatio_mul_mul_right hd' negative n d, h, Nat.mul_comm d d',
    ofRatio_mul_mul_right hd negative n' d']

/-- Zeros at the end of the digits may go to the power of ten. -/
theorem ofDecimal_mul_pow (negative : Bool) (digits k : Nat) (exponent : Int) :
    ofDecimal negative (digits * Nat.pow 10 k) exponent =
      ofDecimal negative digits (exponent + k) := by
  have hpos (j : Nat) : 0 < Nat.pow 10 j := Nat.pow_pos (by decide)
  refine ofRatio_congr (hpos _) (hpos _) ?_ negative
  -- both sides have the same power of ten once the denominators are multiplied out
  have hexponents : k + exponent.toNat + (-(exponent + k)).toNat =
      (exponent + k).toNat + (-exponent).toNat := by omega
  have hpowers : Nat.pow 10 k * Nat.pow 10 exponent.toNat * Nat.pow 10 (-(exponent + k)).toNat =
      Nat.pow 10 (exponent + k).toNat * Nat.pow 10 (-exponent).toNat := by
    simp only [Nat.pow_eq, ← Nat.pow_add, hexponents]
  generalize Nat.pow 10 k = a at *
  generalize Nat.pow 10 exponent.toNat = b at *
  generalize Nat.pow 10 (-(exponent + k)).toNat = c at *
  generalize Nat.pow 10 (exponent + k).toNat = e at *
  generalize Nat.pow 10 (-exponent).toNat = f at *
  generalize one = u
  calc digits * a * b * u * c = digits * u * (a * b * c) := by ac_rfl
    _ = digits * u * (e * f) := by rw [hpowers]
    _ = digits * e * u * f := by ac_rfl

/-- Zero is the same with every power of ten. -/
theorem ofDecimal_zero (negative : Bool) (exponent exponent' : Int) :
    ofDecimal negative 0 exponent = ofDecimal negative 0 exponent' := by
  have hpos (j : Nat) : 0 < Nat.pow 10 j := Nat.pow_pos (by decide)
  refine ofRatio_congr (hpos _) (hpos _) ?_ negative
  simp only [Nat.zero_mul]

/-- A ratio that has a magnitude is a finite number. -/
theorem ofRatio_eq_finite {m : Magnitude} {n d : Nat} (h : Magnitude.ofRatio? n d = some m)
    (negative : Bool) : ofRatio negative n d = finite negative m := by
  unfold ofRatio
  rw [h]

/-- Whether a number has the minus sign. What is no number has none. -/
def isNegative : Binary64 → Bool
  | nan => false
  | infinite s | finite s _ => s

/-- The product, rounded once. -/
def mul : Binary64 → Binary64 → Binary64
  | finite s a, finite t b => ofRatio (s != t) (a.units * b.units) one
  | nan, _ | _, nan => nan
  | infinite s, infinite t => infinite (s != t)
  | infinite s, finite t b => if b.units = 0 then nan else infinite (s != t)
  | finite s a, infinite t => if a.units = 0 then nan else infinite (s != t)

/-- The quotient, rounded once. -/
def div : Binary64 → Binary64 → Binary64
  | finite s a, finite t b =>
    if b.units = 0 then
      if a.units = 0 then nan else infinite (s != t)
    else ofRatio (s != t) (a.units * one) b.units
  | nan, _ | _, nan => nan
  | infinite _, infinite _ => nan
  | infinite s, finite t _ => infinite (s != t)
  | finite s _, infinite t => finite (s != t) .zero

end Binary64

end ProofSize
