import ProofSize.Binary64.Basic

/-!
# Rounding to the nearest number

A ratio is rounded to the nearest number of the format. Two ratios are in the order of their roundings
then, because each lies on the side of its own rounding from the middle of the two, and a ratio between
two numbers of the format is rounded to one between them.

What is nearest is told by middles rather than by distances. A number is nearest to a ratio if the
middle between it and a smaller number is not above the ratio, and that between it and a greater one is
not below it.

## Key results

- `add_mul_le_of_lt_roundDiv`, `le_add_mul_of_roundDiv_lt`, `roundDiv_even`: a quotient is rounded to
  the nearest integer, a half to the even one
- `isNearest_roundUnits`: a ratio is rounded to the nearest number of 53 bits
- `roundUnits_le_roundUnits`: the order of ratios is kept
- `roundUnits_le`, `le_roundUnits`: numbers of the format bound the roundings of what they bound
- `unitsOf_eq`, `unitsOf_le_unitsOf`, `exists_ofNat`: natural numbers of 53 bits are kept, the others
  keep their order
-/

namespace ProofSize

section

variable {n d k : Nat}

/-- The middle between the result and a smaller integer is not above the quotient. -/
theorem add_mul_le_of_lt_roundDiv (h : k < roundDiv n d) : (k + roundDiv n d) * d ≤ 2 * n := by
  have hresult := roundDiv_le_two_mul (n := n) (d := d)
  have hstep : (k + 1) * d ≤ roundDiv n d * d := Nat.mul_le_mul_right d h
  rw [Nat.add_mul, Nat.one_mul] at hstep
  rw [Nat.add_mul]
  omega

/-- The middle between the result and a greater integer is not below the quotient. -/
theorem le_add_mul_of_roundDiv_lt (hd : 0 < d) (h : roundDiv n d < k) :
    2 * n ≤ (roundDiv n d + k) * d := by
  have hresult := two_mul_le_roundDiv (n := n) hd
  have hstep : (roundDiv n d + 1) * d ≤ k * d := Nat.mul_le_mul_right d h
  rw [Nat.add_mul, Nat.one_mul] at hstep
  rw [Nat.add_mul]
  omega

/-- The middle between the result and an integer not above the quotient is not above it either. -/
theorem add_mul_le_of_mul_le (h : k * d ≤ n) : (k + roundDiv n d) * d ≤ 2 * n := by
  rcases Nat.lt_or_ge k (roundDiv n d) with hlt | hle
  · exact add_mul_le_of_lt_roundDiv hlt
  · have hstep : roundDiv n d * d ≤ k * d := Nat.mul_le_mul_right d hle
    rw [Nat.add_mul]
    omega

/-- One multiple of `d` lies in a range of length `d`. -/
private theorem eq_of_mul_le_of_mul_lt {q : Nat} (hd : 0 < d) (hle : q * d ≤ k * d)
    (hlt : k * d < q * d + d) : k = q := by
  have hnext : k * d < (q + 1) * d := by rwa [Nat.add_mul, Nat.one_mul]
  have hlow := Nat.le_of_mul_le_mul_right hle hd
  have hhigh := Nat.lt_of_mul_lt_mul_right hnext
  omega

/-- In the middle of two integers the result is the even one. -/
theorem roundDiv_even (hd : 0 < d) (hk : k ≠ roundDiv n d) (h : 2 * n = (k + roundDiv n d) * d) :
    roundDiv n d % 2 = 0 := by
  have hn := Nat.div_add_mod n d
  have hm := Nat.mod_lt n hd
  unfold roundDiv at hk h ⊢
  generalize n / d = q at *
  generalize n % d = r at *
  rw [Nat.mul_comm] at hn
  split at h
  · rename_i hdown
    rw [if_pos hdown] at hk ⊢
    rw [Nat.add_mul] at h
    have hhalf : ¬2 * r < d := by
      intro hlt
      -- the other integer would be the result too
      exact hk (eq_of_mul_le_of_mul_lt hd (by omega) (by omega))
    omega
  -- rounded up, so the other integer is the quotient without its rest
  · rename_i hup
    rw [if_neg hup] at hk ⊢
    rw [Nat.add_mul, Nat.add_mul, Nat.one_mul] at h
    obtain rfl := eq_of_mul_le_of_mul_lt (k := k) (q := q) hd (by omega) (by omega)
    omega

end

namespace Binary64

/-! ### Gaps -/

section

variable {n m k : Nat}

/-- The exponents of powers of two add up. -/
theorem two_pow_mul_two_pow (j k : Nat) : Nat.pow 2 j * Nat.pow 2 k = Nat.pow 2 (j + k) :=
  (Nat.pow_add 2 j k).symm

/-- A number has a gap of one, or all its 53 bits before the point. -/
theorem gap_eq_one_or (n : Nat) : gap n = 1 ∨ Nat.pow 2 (precision - 1) * gap n ≤ n := by
  unfold gap gapExponent
  rcases Nat.eq_zero_or_pos (n.log2 + 1 - precision) with hzero | hpos
  · rw [hzero]
    exact .inl rfl
  -- the highest bit stands 52 places above the last one that is kept
  · right
    have hlog : 2 ^ n.log2 ≤ n := by
      apply Nat.log2_self_le
      rintro rfl
      simp [precision] at hpos
    have hexponent : precision - 1 + (n.log2 + 1 - precision) = n.log2 := by
      simp only [precision] at hpos ⊢
      omega
    rwa [two_pow_mul_two_pow, hexponent]

/-- What is no multiple of the gap of a number is below all numbers that have the gap. -/
theorem lt_of_not_gap_dvd (hm : gap m ∣ m) (h : ¬gap n ∣ m) :
    m < Nat.pow 2 (precision - 1) * gap n := by
  have hlt := lt_two_pow_gapExponent m
  -- gaps are powers of two, so of two gaps the smaller divides the greater
  have hexponent : gapExponent m < gapExponent n := by
    apply Nat.lt_of_not_le
    intro hle
    exact h (Nat.dvd_trans (Nat.pow_dvd_pow 2 hle) hm)
  refine Nat.lt_of_lt_of_le hlt ?_
  rw [gap, two_pow_mul_two_pow]
  apply Nat.pow_le_pow_right (by decide)
  simp only [precision]
  omega

/-- A power of two has 53 bits with those behind its only one. -/
theorem gap_two_pow (k : Nat) : gap (Nat.pow 2 k) = Nat.pow 2 (k + 1 - precision) := by
  unfold gap gapExponent
  simp only [Nat.pow_eq, Nat.log2_two_pow]

/-- A number of 53 bits, moved up by any places, is in the format. -/
theorem gap_dvd_mul_two_pow (h : n < Nat.pow 2 precision) (k : Nat) :
    gap (n * Nat.pow 2 k) ∣ n * Nat.pow 2 k := by
  have hlt : n * Nat.pow 2 k < Nat.pow 2 (precision + k) := by
    rw [← two_pow_mul_two_pow]
    exact Nat.mul_lt_mul_of_pos_right h (two_pow_pos k)
  exact Nat.dvd_trans (Nat.pow_dvd_pow 2 (gapExponent_le hlt)) (Nat.dvd_mul_left _ n)

/-- Powers of two are in the format. -/
theorem gap_dvd_two_pow (k : Nat) : gap (Nat.pow 2 k) ∣ Nat.pow 2 k := by
  have hdvd := gap_dvd_mul_two_pow (n := 1) (by decide) k
  rwa [Nat.one_mul] at hdvd

end

/-! ### The nearest number -/

/-- The units `q` are the number of 53 bits nearest to the ratio `n / d`. The ratio lies on the side of
    `q` from the middle to any other number, or is this middle, and then the last bit of `q` is zero. -/
structure IsNearest (n d q : Nat) : Prop where
  gap_dvd : gap q ∣ q
  above : ∀ m, gap m ∣ m → m < q → (m + q) * d ≤ 2 * n
  below : ∀ m, gap m ∣ m → q < m → 2 * n ≤ (q + m) * d
  even : ∀ m, gap m ∣ m → m ≠ q → 2 * n = (m + q) * d → q / gap q % 2 = 0

section

variable {n d n' d' k : Nat}

/-- A number that is no multiple of the gap is too small to be near. -/
private theorem small_of_not_gap_dvd (hd : 0 < d) {m : Nat} (hm : gap m ∣ m)
    (h : ¬gap (n / d) ∣ m) :
    m < roundUnits n d ∧ (m + roundUnits n d) * d < 2 * n := by
  have hlt := lt_of_not_gap_dvd hm h
  -- the gap is not one, so the ratio has all its 53 bits before the point
  have hlarge : Nat.pow 2 (precision - 1) * gap (n / d) * d ≤ n := by
    rcases gap_eq_one_or (n / d) with hone | hle
    · exact absurd (hone ▸ Nat.one_dvd m) h
    · exact (Nat.le_div_iff_mul_le hd).1 hle
  unfold roundUnits
  generalize gap (n / d) = g at *
  generalize Nat.pow 2 (precision - 1) = c at *
  have hg : 0 < g := Nat.pos_of_ne_zero fun hzero => by simp [hzero] at hlt
  have hscaled : c * (d * g) ≤ n := by
    rwa [Nat.mul_comm d g, ← Nat.mul_assoc]
  have hfloor : c ≤ roundDiv n (d * g) :=
    Nat.le_trans ((Nat.le_div_iff_mul_le (Nat.mul_pos hd hg)).2 hscaled) (div_le_roundDiv _ _)
  have hmiddle := add_mul_le_of_mul_le hscaled
  constructor
  · exact Nat.lt_of_lt_of_le hlt (Nat.mul_le_mul_right g hfloor)
  · calc (m + roundDiv n (d * g) * g) * d < (c * g + roundDiv n (d * g) * g) * d :=
          Nat.mul_lt_mul_of_pos_right (Nat.add_lt_add_right hlt _) hd
      _ = (c + roundDiv n (d * g)) * (d * g) := by
          rw [← Nat.add_mul, Nat.mul_assoc, Nat.mul_comm g d]
      _ ≤ 2 * n := hmiddle

/-- With an even number of gaps the result is even itself, also if it has a greater gap. -/
private theorem even_roundUnits (h : roundDiv n (d * gap (n / d)) % 2 = 0) :
    roundUnits n d / gap (roundUnits n d) % 2 = 0 := by
  have hle := roundDiv_gap_le n d
  unfold roundUnits
  generalize roundDiv n (d * gap (n / d)) = r at *
  simp only [gap]
  generalize gapExponent (n / d) = e
  rcases Nat.lt_or_eq_of_le hle with hlt | rfl
  · have hbound : r * Nat.pow 2 e < Nat.pow 2 (precision + e) := by
      rw [← two_pow_mul_two_pow]
      exact Nat.mul_lt_mul_of_pos_right hlt (two_pow_pos e)
    -- the result may have a smaller gap, of which the old one is a multiple
    obtain ⟨t, ht⟩ : Nat.pow 2 (gapExponent (r * Nat.pow 2 e)) ∣ Nat.pow 2 e :=
      Nat.pow_dvd_pow 2 (gapExponent_le hbound)
    have hquotient : r * Nat.pow 2 e / Nat.pow 2 (gapExponent (r * Nat.pow 2 e)) = r * t := by
      apply Nat.div_eq_of_eq_mul_right (two_pow_pos _)
      rw [Nat.mul_left_comm, ← ht]
    rw [hquotient, Nat.mul_mod, h, Nat.zero_mul, Nat.zero_mod]
  · -- the result is a power of two, which has a single significant bit
    have hgap := gap_two_pow (precision + e)
    have hexponent : precision + e - (precision + e + 1 - precision) = precision - 2 + 1 := by
      simp only [precision]
      omega
    rw [gap] at hgap
    rw [two_pow_mul_two_pow, hgap]
    simp only [Nat.pow_eq]
    rw [Nat.pow_div (by simp only [precision]; omega) (by decide), hexponent, Nat.pow_succ,
      Nat.mul_mod_left]

/-- A ratio is rounded to the nearest number of 53 bits. -/
theorem isNearest_roundUnits (hd : 0 < d) : IsNearest n d (roundUnits n d) := by
  have hpos : 0 < d * gap (n / d) := Nat.mul_pos hd (gap_pos _)
  -- among the multiples of the gap the quotient decides
  have hscale (j : Nat) : (gap (n / d) * j + roundUnits n d) * d =
      (j + roundDiv n (d * gap (n / d))) * (d * gap (n / d)) := by
    rw [roundUnits, Nat.mul_comm (gap (n / d)) j, ← Nat.add_mul, Nat.mul_assoc,
      Nat.mul_comm (gap (n / d)) d]
  have hless (j : Nat) : gap (n / d) * j < roundUnits n d ↔ j < roundDiv n (d * gap (n / d)) := by
    rw [roundUnits, Nat.mul_comm, Nat.mul_lt_mul_right (gap_pos _)]
  have hmore (j : Nat) : roundUnits n d < gap (n / d) * j ↔ roundDiv n (d * gap (n / d)) < j := by
    rw [roundUnits, Nat.mul_comm _ j, Nat.mul_lt_mul_right (gap_pos _)]
  refine ⟨gap_dvd_roundUnits n d, ?above, ?below, ?even⟩
  case above =>
    intro m hm hlt
    by_cases hdvd : gap (n / d) ∣ m
    · obtain ⟨j, rfl⟩ := hdvd
      rw [hscale]
      exact add_mul_le_of_lt_roundDiv ((hless j).1 hlt)
    · exact Nat.le_of_lt (small_of_not_gap_dvd hd hm hdvd).2
  case below =>
    intro m hm hlt
    by_cases hdvd : gap (n / d) ∣ m
    · obtain ⟨j, rfl⟩ := hdvd
      rw [Nat.add_comm, hscale, Nat.add_comm]
      exact le_add_mul_of_roundDiv_lt hpos ((hmore j).1 hlt)
    · exact absurd hlt (Nat.lt_asymm (small_of_not_gap_dvd hd hm hdvd).1)
  case even =>
    intro m hm hne htie
    by_cases hdvd : gap (n / d) ∣ m
    · obtain ⟨j, rfl⟩ := hdvd
      have hj : j ≠ roundDiv n (d * gap (n / d)) := by
        rintro rfl
        exact hne (Nat.mul_comm _ _)
      exact even_roundUnits (roundDiv_even hpos hj (htie.trans (hscale j)))
    · exact absurd htie (Nat.ne_of_gt (small_of_not_gap_dvd hd hm hdvd).2)

/-- Rounding keeps the order of ratios. -/
theorem roundUnits_le_roundUnits (hd : 0 < d) (hd' : 0 < d') (h : n * d' ≤ n' * d) :
    roundUnits n d ≤ roundUnits n' d' := by
  apply Nat.le_of_not_lt
  intro hlt
  -- then the middle of the two is between the ratios, which are in the other order
  have hnearest := isNearest_roundUnits (n := n) hd
  have hnearest' := isNearest_roundUnits (n := n') hd'
  have habove := hnearest.above _ hnearest'.gap_dvd hlt
  have hbelow := hnearest'.below _ hnearest.gap_dvd hlt
  have heq : n * d' = n' * d := by
    have hleft := Nat.mul_le_mul_right d' habove
    have hright := Nat.mul_le_mul_right d hbelow
    rw [Nat.mul_right_comm _ d' d] at hright
    have hn : 2 * n * d' = 2 * (n * d') := Nat.mul_assoc _ _ _
    have hn' : 2 * n' * d = 2 * (n' * d) := Nat.mul_assoc _ _ _
    omega
  -- equal ratios are rounded alike, whatever their denominators
  have hsame : roundUnits n d = roundUnits n' d' := by
    rw [← roundUnits_mul_mul_right hd' n d, heq, Nat.mul_comm d d', roundUnits_mul_mul_right hd]
  omega

/-- A number not below a ratio is not below its rounding. -/
theorem roundUnits_le (hd : 0 < d) (hk : gap k ∣ k) (h : n ≤ k * d) : roundUnits n d ≤ k := by
  have hle : roundUnits n d ≤ roundUnits (k * d) d :=
    roundUnits_le_roundUnits hd hd (Nat.mul_le_mul_right d h)
  rwa [roundUnits_mul_right hd hk] at hle

/-- A number not above a ratio is not above its rounding. -/
theorem le_roundUnits (hd : 0 < d) (hk : gap k ∣ k) (h : k * d ≤ n) : k ≤ roundUnits n d := by
  have hle : roundUnits (k * d) d ≤ roundUnits n d :=
    roundUnits_le_roundUnits hd hd (Nat.mul_le_mul_right d h)
  rwa [roundUnits_mul_right hd hk] at hle

end

/-! ### Natural numbers -/

/-- The units of a natural number, rounded to 53 bits. -/
def unitsOf (k : Nat) : Nat := roundUnits (k * one) 1

section

variable {n d k j : Nat}

/-- A ratio that is rounded below the limit is a finite number. -/
theorem exists_ofRatio (h : roundUnits n d < limit) (negative : Bool) :
    ∃ m : Magnitude, m.units = roundUnits n d ∧ ofRatio negative n d = finite negative m :=
  ⟨⟨_, gap_dvd_roundUnits n d, h⟩, rfl, ofRatio_eq_finite (dif_pos h) negative⟩

/-- Zero is kept. -/
theorem roundUnits_zero (hd : 0 < d) : roundUnits 0 d = 0 :=
  Nat.le_zero.1 (roundUnits_le hd (Nat.dvd_zero _) (Nat.zero_le _))

-- the number one has too many units to compute them, so these are proved for any power of two

/-- Natural numbers of 53 bits are in the format. -/
theorem gap_dvd_mul_one (h : k < Nat.pow 2 precision) : gap (k * one) ∣ k * one := by
  unfold one
  generalize unitPlaces = places
  exact gap_dvd_mul_two_pow h places

/-- Natural powers of two are in the format. -/
theorem gap_dvd_two_pow_mul_one (j : Nat) : gap (Nat.pow 2 j * one) ∣ Nat.pow 2 j * one := by
  unfold one
  generalize unitPlaces = places
  rw [two_pow_mul_two_pow]
  exact gap_dvd_two_pow (j + places)

/-- The powers of two up to 1023 are below the limit. -/
theorem two_pow_mul_one_lt (h : j < 1024) : Nat.pow 2 j * one < limit := by
  unfold one limit
  generalize unitPlaces = places
  rw [two_pow_mul_two_pow]
  exact Nat.pow_lt_pow_right (by decide) (Nat.add_lt_add_right h places)

/-- The units of the number one are no fewer than any power of two up to the last place. -/
theorem two_pow_le_one (h : j ≤ unitPlaces) : Nat.pow 2 j ≤ one := by
  unfold one
  generalize unitPlaces = places at *
  exact Nat.pow_le_pow_right (by decide) h

/-- Natural numbers of 53 bits are kept. -/
theorem unitsOf_eq (h : k < Nat.pow 2 precision) : unitsOf k = k * one := by
  have hexact := roundUnits_mul_right Nat.one_pos (gap_dvd_mul_one h)
  rwa [Nat.mul_one] at hexact

/-- The order of natural numbers is kept. -/
theorem unitsOf_le_unitsOf (h : k ≤ j) : unitsOf k ≤ unitsOf j :=
  roundUnits_le_roundUnits Nat.one_pos Nat.one_pos
    (Nat.mul_le_mul_right 1 (Nat.mul_le_mul_right one h))

/-- Powers of two bound the roundings of what they bound. -/
theorem unitsOf_le (h : k ≤ Nat.pow 2 j) : unitsOf k ≤ Nat.pow 2 j * one := by
  apply roundUnits_le Nat.one_pos (gap_dvd_two_pow_mul_one j)
  rw [Nat.mul_one]
  exact Nat.mul_le_mul_right one h

/-- Nothing from one on is rounded below it. -/
theorem one_le_unitsOf (h : 0 < k) : one ≤ unitsOf k := by
  have hle := unitsOf_le_unitsOf (k := 1) h
  rwa [unitsOf_eq (by decide), Nat.one_mul] at hle

/-- Zero has no units. -/
theorem unitsOf_zero : unitsOf 0 = 0 := by
  rw [unitsOf_eq (by decide), Nat.zero_mul]

/-- Only zero is rounded to zero. -/
theorem unitsOf_pos (h : 0 < k) : 0 < unitsOf k := Nat.lt_of_lt_of_le one_pos (one_le_unitsOf h)

/-- Natural numbers up to the 1023rd power of two are rounded to finite numbers. -/
theorem exists_ofNat (h : k ≤ Nat.pow 2 j) (hj : j < 1024) :
    ∃ m : Magnitude, m.units = unitsOf k ∧ ofNat k = finite false m :=
  exists_ofRatio (Nat.lt_of_le_of_lt (unitsOf_le h) (two_pow_mul_one_lt hj)) false

end

end Binary64

end ProofSize
