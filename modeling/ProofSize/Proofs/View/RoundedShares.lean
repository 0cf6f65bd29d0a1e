import ProofSize.Proofs.View.Shares

/-!
# The error of a share

A share has four roundings on its way, of which only that of the quotient is meant to show. It is the
only one as long as the hundredfold of the updates and the number of data structures are numbers of the
format. Otherwise the share may be another number than the one nearest to the exact share; but even then
it is off by a few units of its last place at most.

## Key results

- `exact_of_exact_mul_hundred`: if the hundredfold of the updates is kept, so are the updates
- `isNearest_shareUnits`: shares of numbers that are kept are rounded once
- `abs_shareUnits_sub_le`: the error of any share
- `shares_nearest`: when a share is the nearest number, and how far off it is otherwise
- `shares_miss_nearest`: shares that are not the nearest number
-/

namespace ProofSize

namespace View

open Binary64

/-! ### Multiples that bound a number -/

/-- The number `y` lies between two multiples of `x`. -/
structure Between (lo hi x y : ℚ) : Prop where
  lower : lo * x ≤ y
  upper : y ≤ hi * x

section

variable {lo hi lo' hi' x y z n m e : ℚ}

/-- A number that is off by a part of another lies between multiples of it. -/
theorem between_of_abs_sub_le (h : |y - x| ≤ e * x) : Between (1 - e) (1 + e) x y := by
  obtain ⟨hlow, hhigh⟩ := abs_le.1 h
  constructor <;> linarith

/-- A number between multiples that are close to one is off by a small part at most. -/
theorem Between.abs_sub_le (h : Between lo hi x y) (hx : 0 ≤ x) (hlo : 1 - e ≤ lo) (hhi : hi ≤ 1 + e) :
    |y - x| ≤ e * x := by
  have hlower := mul_le_mul_of_nonneg_right hlo hx
  have hupper := mul_le_mul_of_nonneg_right hhi hx
  rw [abs_le]
  constructor <;> linarith [h.lower, h.upper]

/-- The factors of two steps multiply. -/
theorem Between.trans (h : Between lo hi x y) (h' : Between lo' hi' y z) (hlo : 0 ≤ lo')
    (hhi : 0 ≤ hi') : Between (lo' * lo) (hi' * hi) x z where
  lower :=
    calc lo' * lo * x = lo' * (lo * x) := mul_assoc _ _ _
      _ ≤ lo' * y := mul_le_mul_of_nonneg_left h.lower hlo
      _ ≤ z := h'.lower
  upper :=
    calc z ≤ hi' * y := h'.upper
      _ ≤ hi' * (hi * x) := mul_le_mul_of_nonneg_left h.upper hhi
      _ = hi' * hi * x := (mul_assoc _ _ _).symm

/-- The factors of a quotient are those of its parts, with the bounds of the divisor exchanged. -/
theorem Between.div (h : Between lo hi x y) (h' : Between lo' hi' n m) (hy : 0 ≤ y) (hn : 0 < n)
    (hlo : 0 < lo') : Between (lo / hi') (hi / lo') (x / n) (y / m) where
  lower := by
    have hm : 0 < m := lt_of_lt_of_le (mul_pos hlo hn) h'.lower
    rw [div_mul_div_comm]
    exact div_le_div₀ hy h.lower hm h'.upper
  upper := by
    rw [div_mul_div_comm]
    exact div_le_div₀ (le_trans hy h.upper) h.upper (mul_pos hlo hn) h'.lower

end

section

variable {u n : Nat}

/-- The share that `u` updates are of `n` data structures, in percent. -/
def exactShare (u n : Nat) : ℚ := 100 * u / n

/-! ### One rounding -/

/-- If the hundredfold of a number is one of the format, so is the number itself. -/
theorem exact_of_exact_mul_hundred (h : Exact (100 * u)) : Exact u := by
  obtain ⟨places, hdvd, hlt⟩ := h
  rcases Nat.lt_or_ge places 2 with hsmall | hlarge
  · -- fewer than two zeros at the end are made up for by the factor
    have hle : Nat.pow 2 (precision + places) ≤ Nat.pow 2 (precision + 1) :=
      Nat.pow_le_pow_right (by decide) (by omega)
    have hdouble : Nat.pow 2 (precision + 1) = Nat.pow 2 precision * 2 :=
      (two_pow_mul_two_pow precision 1).symm
    exact exact_of_le (by omega)
  · obtain ⟨more, rfl⟩ := Nat.exists_eq_add_of_le' hlarge
    refine ⟨more, ?_, ?_⟩
    · -- of the factors of a hundred only four is a power of two
      have hfour : Nat.pow 2 more * 4 ∣ 25 * u * 4 := by
        have hpow : Nat.pow 2 more * 4 = Nat.pow 2 (more + 2) := two_pow_mul_two_pow more 2
        rw [hpow, Nat.mul_right_comm]
        exact hdvd
      have hodd : (Nat.pow 2 more).Coprime 25 := Nat.Coprime.pow_left more (by decide)
      exact hodd.dvd_of_dvd_mul_left (Nat.dvd_of_mul_dvd_mul_right (by decide) hfour)
    · have hpow : Nat.pow 2 (precision + (more + 2)) = Nat.pow 2 (precision + more) * 4 :=
        (two_pow_mul_two_pow (precision + more) 2).symm
      omega

/-- Where the product is a number of the format, so is the number, and nothing is rounded. -/
theorem hundredfold_of_exact (h : Exact (100 * u)) : hundredfold u = 100 * u * one := by
  have hhundred : unitsOf 100 = 100 * one := unitsOf_eq (by decide)
  have hproduct : u * one * (100 * one) = 100 * u * one * one := by
    rw [Nat.mul_mul_mul_comm, Nat.mul_comm u, Nat.mul_assoc (100 * u)]
  rw [hundredfold, unitsOf_of_exact (exact_of_exact_mul_hundred h), hhundred, hproduct]
  exact roundUnits_mul_right Binary64.one_pos (gap_dvd_of_exact h)

/-- If the hundredfold of the updates and the number of data structures are kept, only the quotient is
    rounded. -/
theorem isNearest_shareUnits (hu : Exact (100 * u)) (hexact : Exact n) (hn : 0 < n) :
    IsNearest (100 * u * one) n (shareUnits u n) := by
  rw [shareUnits, hundredfold_of_exact hu, unitsOf_of_exact hexact,
    roundUnits_mul_mul_right Binary64.one_pos]
  exact isNearest_roundUnits hn

/-! ### The error of all roundings -/

/-- The product with a hundred is rounded once. -/
private theorem abs_hundredfold_sub_le (u : Nat) :
    |valueOf (hundredfold u) - 100 * valueOf (unitsOf u)| ≤
      roundoff * (100 * valueOf (unitsOf u)) := by
  rcases Nat.eq_zero_or_pos u with rfl | hu
  · rw [hundredfold_zero, unitsOf_zero, valueOf_zero, mul_zero, mul_zero, sub_zero, abs_zero]
  · have hlarge : 2 ^ 52 * one ≤ unitsOf u * unitsOf 100 := by
      rw [Nat.mul_comm]
      refine Nat.mul_le_mul (one_le_unitsOf hu) (Nat.le_trans ?_ (one_le_unitsOf (by decide)))
      exact two_pow_le_one (j := 52) (by decide)
    have hdistance := abs_roundUnits_sub_le Binary64.one_pos hlarge
    have hproduct : valueOf (unitsOf u * unitsOf 100) / one = 100 * valueOf (unitsOf u) := by
      rw [unitsOf_eq (k := 100) (by decide), ← Nat.mul_assoc, valueOf_mul_one, valueOf]
      push_cast
      ring
    rwa [hproduct] at hdistance

/-- The quotient is rounded once. -/
private theorem abs_shareUnits_sub_quotient_le (hn : 0 < n) (hlt : n ≤ Nat.pow 2 64) :
    |valueOf (shareUnits u n) - valueOf (hundredfold u) / valueOf (unitsOf n)| ≤
      roundoff * (valueOf (hundredfold u) / valueOf (unitsOf n)) := by
  have hpos := unitsOf_pos hn
  have hquotient : valueOf (hundredfold u * one) / unitsOf n =
      valueOf (hundredfold u) / valueOf (unitsOf n) := by
    rw [valueOf_mul_one, valueOf, valueOf, div_div_div_cancel_right₀ (ne_of_gt cast_one_pos)]
  rw [← hquotient]
  rcases Nat.eq_zero_or_pos u with rfl | hu
  · rw [shareUnits, hundredfold_zero, Nat.zero_mul, roundUnits_zero hpos, valueOf_zero, zero_div,
      mul_zero, sub_zero, abs_zero]
  · refine abs_roundUnits_sub_le hpos ?_
    -- the quotient is not so small that it loses bits
    have hwords : Nat.pow 2 52 * Nat.pow 2 64 ≤ one := by
      rw [two_pow_mul_two_pow]
      exact two_pow_le_one (by decide)
    have hcount := unitsOf_le hlt
    have hproduct := Nat.le_trans hwords (one_le_hundredfold hu)
    generalize one = units at *
    calc 2 ^ 52 * unitsOf n ≤ 2 ^ 52 * (2 ^ 64 * units) := Nat.mul_le_mul_left _ hcount
      _ = 2 ^ 52 * 2 ^ 64 * units := by rw [Nat.mul_assoc]
      _ ≤ hundredfold u * units := Nat.mul_le_mul_right units hproduct

/-- The four roundings move a share by five parts in `2 ^ 53` at most. -/
theorem abs_shareUnits_sub_le (hn : 0 < n) (hlt : n ≤ Nat.pow 2 64) :
    |valueOf (shareUnits u n) - exactShare u n| ≤ 5 * roundoff * exactShare u n := by
  unfold exactShare
  have hnpos : (0 : ℚ) < n := Nat.cast_pos.2 hn
  have hbelow : 0 < 1 - roundoff := by norm_num [roundoff]
  have habove : 0 < 1 + roundoff := by norm_num [roundoff]
  -- the four roundings, one after the other: the updates, the product, the divisor, the quotient
  have hupdates : Between (1 - roundoff) (1 + roundoff) (100 * u) (100 * valueOf (unitsOf u)) := by
    obtain ⟨hlow, hhigh⟩ := between_of_abs_sub_le (abs_unitsOf_sub_le u)
    constructor <;> linarith
  have hproduct := hupdates.trans (between_of_abs_sub_le (abs_hundredfold_sub_le u))
    (le_of_lt hbelow) (le_of_lt habove)
  have hquotient := hproduct.div (between_of_abs_sub_le (abs_unitsOf_sub_le n)) (valueOf_nonneg _)
    hnpos hbelow
  have hshare := hquotient.trans
    (between_of_abs_sub_le (abs_shareUnits_sub_quotient_le hn hlt)) (le_of_lt hbelow) (le_of_lt habove)
  have hexact : (0 : ℚ) ≤ 100 * u / n :=
    div_nonneg (mul_nonneg (by norm_num) u.cast_nonneg) n.cast_nonneg
  refine hshare.abs_sub_le hexact ?_ ?_
  · norm_num [roundoff]
  · norm_num [roundoff]

end

/-! ### Shares of rows -/

/-- A row with data structures has one share, which is off by five parts in `2 ^ 53` at most. It is the
    nearest number of the format, and the even one of two, if the hundredfold of the updates and the
    number of data structures are numbers of the format. -/
theorem shares_nearest (r : Row) (n : UInt64) (hcount : r.adsCount = some n) (hn : n ≠ 0) :
    ∃ v, (∀ w, IsShare r w ↔ w = v) ∧
      |v - exactShare r.updatesSinceRefresh.toNat n.toNat| ≤
        5 / 2 ^ 53 * exactShare r.updatesSinceRefresh.toNat n.toNat ∧
      (Exact (100 * r.updatesSinceRefresh.toNat) → Exact n.toNat →
        ∃ m : Magnitude, v = valueOf m.units ∧
          IsRounding (exactShare r.updatesSinceRefresh.toNat n.toNat) m) := by
  refine ⟨valueOf (shareUnits r.updatesSinceRefresh.toNat n.toNat), fun w => ?_, ?_, ?_⟩
  · rw [isShare_iff]
    constructor
    · intro ⟨n', hcount', _, hw⟩
      obtain rfl := Option.some.inj (hcount.symm.trans hcount')
      exact hw
    · exact fun hw => ⟨n, hcount, hn, hw⟩
  · have herror := abs_shareUnits_sub_le (u := r.updatesSinceRefresh.toNat) (toNat_pos hn) (toNat_le n)
    rwa [roundoff, mul_one_div] at herror
  · intro hu hexact
    obtain ⟨m, hm, -⟩ := exists_share (r := r) hn
    refine ⟨m, by rw [hm], ?_⟩
    -- with exact operands the quotient is the only thing that is rounded
    have hnearest := hm ▸ isNearest_shareUnits hu hexact (toNat_pos hn)
    have hrounding := isRounding_of_isNearest (toNat_pos hn) hnearest
    rwa [valueOf_mul_one, Nat.cast_mul] at hrounding

/-- A row with counters of its own. -/
private def rowOfCounters (u n : UInt64) : Row := ⟨u, 0, none, 1, 71, 150, 100, 33, 66, 600, some n⟩

/-- A third is rounded once, and so is the share of the greatest number of updates whose hundredfold has
    53 bits. -/
theorem shares_nearest_ofThree :
    (∃ v m, IsShare (rowOfCounters 1 3) v ∧ v = valueOf m.units ∧ IsRounding (100 / 3) m) ∧
    ∃ v m, IsShare (rowOfCounters 360287970189639 9007199254740991) v ∧ v = valueOf m.units ∧
      IsRounding (exactShare 360287970189639 9007199254740991) m := by
  constructor
  · obtain ⟨v, hshare, -, hnearest⟩ := shares_nearest (rowOfCounters 1 3) 3 rfl (by decide)
    obtain ⟨m, hm, hrounding⟩ := hnearest (exact_of_le (by decide)) (exact_of_le (by decide))
    refine ⟨v, m, (hshare v).2 rfl, hm, ?_⟩
    have hexact : exactShare 1 3 = 100 / 3 := by norm_num [exactShare]
    exact hexact ▸ hrounding
  · obtain ⟨v, hshare, -, hnearest⟩ :=
      shares_nearest (rowOfCounters 360287970189639 9007199254740991) 9007199254740991 rfl (by decide)
    obtain ⟨m, hm, hrounding⟩ := hnearest ⟨2, by decide, by decide⟩ (exact_of_le (by decide))
    exact ⟨v, m, (hshare v).2 rfl, hm, hrounding⟩

/-- Neither of the two numbers may be left out. A server of which all structures were updated has a share
    below a hundred, because the hundredfold of the updates is rounded down. The share of one update is
    too large where the number of data structures is rounded down. -/
theorem shares_miss_nearest :
    (∃ v, IsShare (rowOfCounters 400000000000001 400000000000001) v ∧ v < 100 ∧
      exactShare 400000000000001 400000000000001 = 100 ∧
      ¬∃ m : Magnitude, v = valueOf m.units ∧
        IsRounding (exactShare 400000000000001 400000000000001) m) ∧
    ∃ v, IsShare (rowOfCounters 1 9007199254740993) v ∧
      ¬∃ m : Magnitude, v = valueOf m.units ∧ IsRounding (exactShare 1 9007199254740993) m := by
  constructor
  · have hbelow : shareUnits 400000000000001 400000000000001 < 100 * one := by decide +kernel
    have hlt := valueOf_lt_valueOf hbelow
    rw [valueOf_mul_one] at hlt
    have hexact : exactShare 400000000000001 400000000000001 = (100 : Nat) := by norm_num [exactShare]
    refine ⟨_, isShare_iff.2 ⟨400000000000001, rfl, by decide, rfl⟩, hlt, hexact, ?_⟩
    intro ⟨m, hm, hrounding⟩
    -- a hundred is a number of the format itself
    rw [hexact] at hrounding
    have hvalue := hrounding.valueOf_eq (exact_of_le (by decide)) (j := 7) (by decide) (by decide)
    exact ne_of_lt hlt (hm.trans hvalue)
  · refine ⟨_, isShare_iff.2 ⟨9007199254740993, rfl, by decide, rfl⟩, ?_⟩
    intro ⟨m, hm, hrounding⟩
    have hunits : m.units = shareUnits 1 9007199254740993 := (valueOf_inj.1 hm).symm
    -- the rounding of the exact share is smaller
    have hlimit : roundUnits (100 * one) 9007199254740993 < limit := by decide +kernel
    have hless : roundUnits (100 * one) 9007199254740993 < m.units := by
      rw [hunits]
      decide +kernel
    have hratio : exactShare 1 9007199254740993 = valueOf (100 * one) / (9007199254740993 : Nat) := by
      rw [valueOf_mul_one]
      norm_num [exactShare]
    rw [hratio] at hrounding
    have hmiddle : (roundUnits (100 * one) 9007199254740993 + m.units) * 9007199254740993 ≤
        2 * (100 * one) :=
      hrounding.add_mul_le (by decide) (k := ⟨_, gap_dvd_roundUnits _ _, hlimit⟩) hless
    rw [hunits] at hmiddle
    exact absurd hmiddle (by decide +kernel)

end View

end ProofSize
