import ProofSize.Proofs.Binary64.Distance
import ProofSize.Proofs.View.Scale

/-!
# Shares in percent

The share of a row is a number of the format, with a rounding of each counter, one of the product and
one of the quotient. Each of these keeps the order, and none of them leaves the range in which numbers
are finite, so shares are ordered as the exact ones are.

## Key results

- `shareUnits_le_shareUnits`, `shareUnits_eq_zero_iff`: the order of shares, and which are zero
- `exists_share`, `isRoundedShare_shareUnits`: a share is finite, and where it is rounded
- `IsShare.le`, `IsShare.eq_zero_iff`: the values of shares compared
- `percentagesUpdated_eq_error_iff`: which row decides the error
- `percentages_sound`: when rows have shares, and what they are
-/

namespace ProofSize

namespace View

open Binary64

/-! ### The units of a share -/

/-- The units of the updates times a hundred. -/
def hundredfold (u : Nat) : Nat := roundUnits (unitsOf u * unitsOf 100) one

/-- The units of the share that `u` updates are of `n` data structures, in percent. -/
def shareUnits (u n : Nat) : Nat := roundUnits (hundredfold u * one) (unitsOf n)

section

variable {u u' n n' j : Nat}

/-- More updates are no less a hundredfold. -/
theorem hundredfold_le_hundredfold (h : u ≤ u') : hundredfold u ≤ hundredfold u' :=
  roundUnits_le_roundUnits Binary64.one_pos Binary64.one_pos
    (Nat.mul_le_mul_right one (Nat.mul_le_mul_right (unitsOf 100) (unitsOf_le_unitsOf h)))

/-- A hundred is below the seventh power of two. -/
theorem hundredfold_le (h : u ≤ Nat.pow 2 j) : hundredfold u ≤ Nat.pow 2 (j + 7) * one := by
  unfold hundredfold
  apply roundUnits_le Binary64.one_pos (gap_dvd_two_pow_mul_one (j + 7))
  calc unitsOf u * unitsOf 100 ≤ Nat.pow 2 j * one * (Nat.pow 2 7 * one) :=
        Nat.mul_le_mul (unitsOf_le h) (unitsOf_le (by decide))
    _ = Nat.pow 2 (j + 7) * one * one := by
        rw [Nat.mul_mul_mul_comm, two_pow_mul_two_pow, ← Nat.mul_assoc]

/-- No updates are none a hundredfold. -/
theorem hundredfold_zero : hundredfold 0 = 0 := by
  rw [hundredfold, unitsOf_zero, Nat.zero_mul, roundUnits_zero Binary64.one_pos]

/-- The hundredfold of one update or more is not below one. -/
theorem one_le_hundredfold (h : 0 < u) : one ≤ hundredfold u := by
  have hdvd := gap_dvd_mul_one (k := 1) (by decide)
  rw [Nat.one_mul] at hdvd
  apply le_roundUnits Binary64.one_pos hdvd
  exact Nat.mul_le_mul (one_le_unitsOf h) (one_le_unitsOf (by decide))

/-- More updates are no smaller share, and neither are updates of fewer data structures. -/
theorem shareUnits_le_shareUnits (hu : u ≤ u') (hn : 0 < n) (hn' : n ≤ n') :
    shareUnits u n' ≤ shareUnits u' n := by
  apply roundUnits_le_roundUnits (unitsOf_pos (Nat.lt_of_lt_of_le hn hn')) (unitsOf_pos hn)
  exact Nat.mul_le_mul (Nat.mul_le_mul_right one (hundredfold_le_hundredfold hu))
    (unitsOf_le_unitsOf hn')

/-- No share exceeds the updates times a hundred, within a power of two. -/
theorem shareUnits_le (hu : u ≤ Nat.pow 2 j) (hn : 0 < n) :
    shareUnits u n ≤ Nat.pow 2 (j + 7) * one := by
  unfold shareUnits
  apply roundUnits_le (unitsOf_pos hn) (gap_dvd_two_pow_mul_one (j + 7))
  exact Nat.mul_le_mul (hundredfold_le hu) (one_le_unitsOf hn)

/-- Even the smallest share is at least a unit. -/
theorem shareUnits_pos (hu : 0 < u) (hn : 0 < n) (hlt : n ≤ Nat.pow 2 64) :
    0 < shareUnits u n := by
  -- a count is below the 64th power of two, far fewer than the units of one
  have hword : Nat.pow 2 64 ≤ one := two_pow_le_one (by decide)
  apply le_roundUnits (unitsOf_pos hn) (gap_dvd_two_pow 0)
  calc 1 * unitsOf n ≤ Nat.pow 2 64 * one := by
        rw [Nat.one_mul]
        exact unitsOf_le hlt
    _ ≤ hundredfold u * one :=
        Nat.mul_le_mul_right one (Nat.le_trans hword (one_le_hundredfold hu))

/-- Only without updates is a share zero. -/
theorem shareUnits_eq_zero_iff (hn : 0 < n) (hlt : n ≤ Nat.pow 2 64) :
    shareUnits u n = 0 ↔ u = 0 := by
  constructor
  · intro h
    apply Nat.eq_zero_of_not_pos
    intro hu
    exact Nat.ne_of_gt (shareUnits_pos hu hn hlt) h
  · rintro rfl
    rw [shareUnits, hundredfold_zero, Nat.zero_mul, roundUnits_zero (unitsOf_pos hn)]

/-- The number of units is the share of `u` updates of `n` data structures, in percent. The counters,
    the product with a hundred and the quotient are each rounded to the nearest number. -/
def IsRoundedShare (u n quotient : Nat) : Prop :=
  ∃ updates count product, IsNearest (u * one) 1 updates ∧ IsNearest (n * one) 1 count ∧
    IsNearest (updates * (100 * one)) one product ∧ IsNearest (product * one) count quotient

/-- The units of a share are rounded at each step. -/
theorem isRoundedShare_shareUnits (hn : 0 < n) : IsRoundedShare u n (shareUnits u n) := by
  have hproduct : IsNearest (unitsOf u * unitsOf 100) one (hundredfold u) :=
    isNearest_roundUnits Binary64.one_pos
  rw [unitsOf_eq (k := 100) (by decide)] at hproduct
  exact ⟨unitsOf u, unitsOf n, hundredfold u, isNearest_roundUnits Nat.one_pos,
    isNearest_roundUnits Nat.one_pos, hproduct, isNearest_roundUnits (unitsOf_pos hn)⟩

end

/-! ### Shares of rows -/

section

variable {r s : Row} {n m : UInt64} {v w : ℚ}

/-- A word is below the 64th power of two. -/
theorem toNat_le (w : UInt64) : w.toNat ≤ Nat.pow 2 64 := Nat.le_of_lt (UInt64.toNat_lt w)

/-- A word other than zero is positive. -/
theorem toNat_pos (h : n ≠ 0) : 0 < n.toNat :=
  Nat.pos_of_ne_zero fun hzero => h (UInt64.toNat_inj.1 hzero)

/-- A share is finite and not negative. -/
theorem exists_share (hn : n ≠ 0) : ∃ q : Magnitude,
    q.units = shareUnits r.updatesSinceRefresh.toNat n.toNat ∧ share n r = finite false q := by
  obtain ⟨a, ha, hupdates⟩ := exists_ofNat (toNat_le r.updatesSinceRefresh) (by decide)
  obtain ⟨b, hb, hundred⟩ := exists_ofNat (show 100 ≤ Nat.pow 2 7 by decide) (by decide)
  obtain ⟨c, hc, hcount⟩ := exists_ofNat (toNat_le n) (by decide)
  have hcpos : c.units ≠ 0 := by
    rw [hc]
    exact Nat.ne_of_gt (unitsOf_pos (toNat_pos hn))
  -- neither the product nor the quotient comes near the limit of finite numbers
  have hproduct : roundUnits (a.units * b.units) one < limit := by
    rw [ha, hb]
    exact Nat.lt_of_le_of_lt (hundredfold_le (toNat_le _)) (two_pow_mul_one_lt (by decide))
  obtain ⟨p, hp, hmul⟩ := exists_ofRatio hproduct false
  have hpunits : p.units = hundredfold r.updatesSinceRefresh.toNat := by rw [hp, ha, hb, hundredfold]
  have hquotient : roundUnits (p.units * one) c.units < limit := by
    rw [hpunits, hc]
    exact Nat.lt_of_le_of_lt (shareUnits_le (toNat_le _) (toNat_pos hn))
      (two_pow_mul_one_lt (by decide))
  obtain ⟨q, hq, hdiv⟩ := exists_ofRatio hquotient false
  refine ⟨q, by rw [hq, hpunits, hc, shareUnits], ?_⟩
  -- the numbers have no sign, so the roundings are those of the magnitudes
  have hfirst : (finite false a).mul (finite false b) = finite false p := hmul
  have hsecond : (finite false p).div (finite false c) = finite false q := by
    rw [div, if_neg hcpos]
    exact hdiv
  rw [share, ofWord, ofWord, hupdates, hundred, hcount, hfirst, hsecond]

/-- The value of a share is that of its units. -/
theorem value?_share (hn : n ≠ 0) : (share n r).value? =
    some (valueOf (shareUnits r.updatesSinceRefresh.toNat n.toNat)) := by
  obtain ⟨q, hq, hshare⟩ := exists_share (r := r) hn
  rw [hshare, value?, hq, if_neg Bool.false_ne_true]

/-- The row has data structures to take a share of. -/
def HasShare (r : Row) : Prop := ∃ n, r.adsCount = some n ∧ n ≠ 0

/-- The value is given for the row, among the shares of any rows. -/
def IsShare (r : Row) (v : ℚ) : Prop :=
  ∃ (rows : List Row) (xs : List Binary64) (i : Nat), percentagesUpdated rows = .ok xs ∧
    rows[i]? = some r ∧ xs[i]?.bind value? = some v

/-- The share of a row does not depend on the other rows. -/
theorem isShare_iff : IsShare r v ↔ ∃ n, r.adsCount = some n ∧ n ≠ 0 ∧
    v = valueOf (shareUnits r.updatesSinceRefresh.toNat n.toNat) := by
  constructor
  · intro ⟨rows, xs, i, hxs, hr, hv⟩
    obtain ⟨x, hx, hpercent⟩ := (forRows_eq_ok_iff.1 hxs).2 i r hr
    obtain ⟨n, hn, hne, hshare⟩ := percentUpdated_eq_ok_iff.1 hpercent
    rw [hx, Option.bind_some, hshare, value?_share hne] at hv
    exact ⟨n, hn, hne, (Option.some.inj hv).symm⟩
  · intro ⟨n, hn, hne, hv⟩
    -- the row alone has the share already
    obtain ⟨xs, hxs⟩ : ∃ xs, percentagesUpdated [r] = .ok xs :=
      exists_percentagesUpdated_iff.2 (by simp [hn, hne])
    obtain ⟨x, hx, hpercent⟩ := (forRows_eq_ok_iff.1 hxs).2 0 r rfl
    obtain ⟨n', hn', -, hshare⟩ := percentUpdated_eq_ok_iff.1 hpercent
    obtain rfl := Option.some.inj (hn.symm.trans hn')
    refine ⟨[r], xs, 0, hxs, rfl, ?_⟩
    rw [hx, Option.bind_some, hshare, value?_share hne, hv]

/-- The share of no more updates of no fewer data structures is no greater. -/
theorem IsShare.le (hv : IsShare r v) (hw : IsShare s w) (hn : r.adsCount = some n)
    (hm : s.adsCount = some m) (hupdates : r.updatesSinceRefresh ≤ s.updatesSinceRefresh)
    (hcounts : m ≤ n) : v ≤ w := by
  obtain ⟨n', hn', -, rfl⟩ := isShare_iff.1 hv
  obtain ⟨m', hm', hne, rfl⟩ := isShare_iff.1 hw
  obtain rfl := Option.some.inj (hn.symm.trans hn')
  obtain rfl := Option.some.inj (hm.symm.trans hm')
  exact valueOf_le_valueOf (shareUnits_le_shareUnits (UInt64.le_iff_toNat_le.1 hupdates)
    (toNat_pos hne) (UInt64.le_iff_toNat_le.1 hcounts))

/-- A row has the share zero only if it has no updates. -/
theorem IsShare.eq_zero_iff (hv : IsShare r v) : v = 0 ↔ r.updatesSinceRefresh = 0 := by
  obtain ⟨n, -, hne, rfl⟩ := isShare_iff.1 hv
  rw [valueOf_eq_zero_iff, shareUnits_eq_zero_iff (toNat_pos hne) (toNat_le n)]
  exact UInt64.toNat_inj (b := 0)

/-- A row without data structures has no share. -/
private theorem percentUpdated_eq_error_iff {i : Nat} {e : ReportError} :
    r.percentUpdated i = .error e ↔ ¬HasShare r ∧ e = .noAdsCount i := by
  unfold Row.percentUpdated HasShare
  cases r.adsCount with
  | none => simp [eq_comm]
  | some n =>
    by_cases hn : n = 0
    · simp [hn, eq_comm]
    · simp [hn]

/-- The first row without a share decides the error. -/
theorem percentagesUpdated_eq_error_iff {rows : List Row} {e : ReportError} :
    percentagesUpdated rows = .error e ↔
      ∃ i r, IsFirst (fun r => ¬HasShare r) rows i r ∧ e = .noAdsCount i := by
  have hfails : ∀ r ∈ rows, ∀ i, (∃ e, r.percentUpdated i = .error e) ↔ ¬HasShare r := by
    intro r _ i
    simp [percentUpdated_eq_error_iff]
  rw [percentagesUpdated, forRows_eq_error_iff hfails]
  refine exists_congr fun i => exists_congr fun r => and_congr_right fun hfirst => ?_
  rw [percentUpdated_eq_error_iff]
  exact and_iff_right hfirst.holds

/-- Rows have shares if each of them has data structures, and the first one that has none decides the
    error otherwise. Shares are finite and not negative, and rounded to the nearest number at each step.
    They are zero without updates only, grow with the updates, and get smaller with the number of data
    structures. -/
theorem percentages_sound :
    (∀ rows, (∃ xs, percentagesUpdated rows = .ok xs) ↔ ∀ r ∈ rows, HasShare r) ∧
    (∀ rows e, percentagesUpdated rows = .error e ↔
      ∃ i r, IsFirst (fun r => ¬HasShare r) rows i r ∧ e = .noAdsCount i) ∧
    (∀ rows xs, percentagesUpdated rows = .ok xs → xs.length = rows.length ∧
      ∀ x ∈ xs, x.isNegative = false ∧ ∃ v, x.value? = some v) ∧
    (∀ r v, IsShare r v → ∃ n q, r.adsCount = some n ∧
      IsRoundedShare r.updatesSinceRefresh.toNat n.toNat q ∧ v = valueOf q) ∧
    (∀ r v, IsShare r v → 0 ≤ v ∧ (v = 0 ↔ r.updatesSinceRefresh = 0)) ∧
    (∀ r s v w, IsShare r v → IsShare s w → r.adsCount = s.adsCount →
      r.updatesSinceRefresh ≤ s.updatesSinceRefresh → v ≤ w) ∧
    ∀ r s v w n m, IsShare r v → IsShare s w → r.updatesSinceRefresh = s.updatesSinceRefresh →
      r.adsCount = some n → s.adsCount = some m → n ≤ m → w ≤ v := by
  refine ⟨fun rows => exists_percentagesUpdated_iff,
    fun rows e => percentagesUpdated_eq_error_iff, ?finite, ?rounded, ?zero, ?updates, ?counts⟩
  case finite =>
    intro rows xs hxs
    refine ⟨(forRows_eq_ok_iff.1 hxs).1, ?_⟩
    refine forall_of_mapM_eq_ok (p := fun x => x.isNegative = false ∧ ∃ v, x.value? = some v) hxs ?_
    intro z x hx
    obtain ⟨n, -, hne, hshare⟩ := percentUpdated_eq_ok_iff.1 hx
    obtain ⟨q, -, hfinite⟩ := exists_share (r := z.1) hne
    rw [hshare, hfinite]
    exact ⟨rfl, _, rfl⟩
  case rounded =>
    intro r v hv
    obtain ⟨n, hn, hne, hvalue⟩ := isShare_iff.1 hv
    exact ⟨n, _, hn, isRoundedShare_shareUnits (toNat_pos hne), hvalue⟩
  case zero =>
    intro r v hv
    refine ⟨?_, hv.eq_zero_iff⟩
    obtain ⟨n, -, -, rfl⟩ := isShare_iff.1 hv
    exact valueOf_nonneg _
  case updates =>
    intro r s v w hv hw hcounts hle
    obtain ⟨n, hn, -⟩ := isShare_iff.1 hv
    exact hv.le hw hn (hcounts.symm.trans hn) hle (UInt64.le_refl n)
  -- more data structures make the same number of updates a smaller share
  case counts =>
    intro r s v w n m hv hw hupdates hn hm hle
    exact hw.le hv hm hn (UInt64.le_of_eq hupdates.symm) hle

/-- A row with as many updates as a counter holds, of a server of the given size. -/
private def fullRow (count : Option UInt64) : Row :=
  ⟨UInt64.ofNat (2 ^ 64 - 1), 0, none, 1, 71, 150, 100, 33, 66, 600, count⟩

/-- All updates of a single data structure have a share, and those of the largest server no greater
    one. Without a number of data structures there is none. -/
theorem percentages_sound_fullRows :
    (∃ v w, IsShare (fullRow (some 1)) v ∧ IsShare (fullRow (some (UInt64.ofNat (2 ^ 64 - 1)))) w ∧
      0 < w ∧ w ≤ v) ∧
    percentagesUpdated [fullRow (some 1), fullRow none] = .error (.noAdsCount 1) := by
  obtain ⟨-, herror, -, -, hzero, -, hcounts⟩ := percentages_sound
  obtain ⟨v, hv⟩ : ∃ v, IsShare (fullRow (some 1)) v :=
    ⟨_, isShare_iff.2 ⟨1, rfl, by decide, rfl⟩⟩
  obtain ⟨w, hw⟩ : ∃ w, IsShare (fullRow (some (UInt64.ofNat (2 ^ 64 - 1)))) w :=
    ⟨_, isShare_iff.2 ⟨_, rfl, by decide, rfl⟩⟩
  constructor
  -- the updates are not zero, so no share of them is
  · have hne : w ≠ 0 := fun h => absurd ((hzero _ w hw).2.1 h) (by decide)
    exact ⟨v, w, hv, hw, lt_of_le_of_ne (hzero _ w hw).1 hne.symm,
      hcounts _ _ v w _ _ hv hw rfl rfl rfl (by decide)⟩
  · refine (herror _ _).2 ⟨1, fullRow none, ⟨rfl, ?_, ?_⟩, rfl⟩
    · intro ⟨n, hn, _⟩
      exact nomatch hn
    · intro r hr
      obtain rfl := List.mem_singleton.1 hr
      exact not_not_intro ⟨1, rfl, by decide⟩

end

end View

end ProofSize
