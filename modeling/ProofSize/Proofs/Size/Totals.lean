import ProofSize.Proofs.Size

/-!
# Which rows have totals

A total is computed by a checked difference and a checked sum, a total without caching by one more of
each. No step on the way fails where the exact result is a word, so a row has a total if the exact one
exists. The totals of a selection fail for the first row that has none; the ones without caching never
fail later than the others.

## Key results

- `Row.adjustedTotal_eq_error_iff_not_hasTotal`, `Row.uncachedTotal_eq_error_iff_not_hasUncachedTotal`:
  how a row lacks a total
- `isExact_forRows`: sizes of a selection are exact if those of each row are
- `totals_exact`: when there are totals, which ones, and how they fail
-/

namespace ProofSize

namespace Row

/-- The row has an adjusted total: its signatures are a part of its total, and 64 bits hold the
    result. -/
structure HasTotal (o : Overhead) (row : Row) : Prop where
  signatures : row.signatureBytes.toNat ≤ row.totalBytes.toNat
  fits : row.adjusted o < UInt64.size

/-- The row has a total without caching, too: its freshness proof is not smaller without caching, and
    64 bits hold what that adds. -/
structure HasUncachedTotal (o : Overhead) (row : Row) : Prop extends HasTotal o row where
  cached : row.freshnessBytes.toNat ≤ row.uncachedFreshnessBytes.toNat
  fitsUncached : row.adjusted o + row.saved < UInt64.size

section

variable {row : Row} {o : Overhead} {i : Nat} {w : UInt64} {e : ReportError}

/-- A row has a total if its signatures are a part of it and 64 bits hold the new one. -/
theorem hasTotal_iff :
    row.HasTotal o ↔ ¬row.SignaturesExceed ∧ row.adjusted o < UInt64.size := by
  unfold SignaturesExceed
  constructor
  · intro h
    exact ⟨Nat.not_lt.2 h.signatures, h.fits⟩
  · intro ⟨hle, hfits⟩
    exact ⟨Nat.not_lt.1 hle, hfits⟩

instance (o : Overhead) (row : Row) : Decidable (row.HasTotal o) :=
  decidable_of_iff (row.signatureBytes.toNat ≤ row.totalBytes.toNat ∧ row.adjusted o < UInt64.size)
    ⟨fun h => ⟨h.1, h.2⟩, fun h => ⟨h.signatures, h.fits⟩⟩

/-- A row that has a total has none without caching if it offends. -/
theorem HasTotal.hasUncachedTotal_iff (h : row.HasTotal o) :
    row.HasUncachedTotal o ↔ ¬row.Offends o := by
  unfold Offends
  constructor
  · intro hu
    have hcached := hu.cached
    have hfits := hu.fitsUncached
    omega
  · intro hoffends
    exact ⟨h, by omega, by omega⟩

/-- Why a row has no adjusted total. -/
def adjustedFault (row : Row) : Inconsistency :=
  if row.totalBytes.toNat < row.signatureBytes.toNat then
    .signaturesExceedTotal row.signatureBytes row.totalBytes
  else .adjustedTotalOverflow

/-- Why a row has no total without caching. Where it has none with it, that is the reason. -/
def uncachedFault (o : Overhead) (row : Row) : Inconsistency :=
  if row.HasTotal o then row.offence else row.adjustedFault

/-! ### One row -/

/-- A row that has a total has the exact one. -/
theorem adjustedTotal_eq_ok_iff_hasTotal :
    row.adjustedTotal o i = .ok w ↔ row.HasTotal o ∧ w.toNat = row.adjusted o := by
  rw [adjustedTotal_eq_ok_iff, hasTotal_iff]
  constructor
  · intro ⟨hle, hw⟩
    exact ⟨⟨hle, hw ▸ UInt64.toNat_lt_size w⟩, hw⟩
  · intro ⟨⟨hle, _⟩, hw⟩
    exact ⟨hle, hw⟩

/-- A row without a total fails with its own fault. -/
theorem adjustedTotal_eq_error_iff_not_hasTotal :
    row.adjustedTotal o i = .error e ↔
      ¬row.HasTotal o ∧ e = .dataIntegrity i row.adjustedFault := by
  rw [adjustedTotal_eq_error_iff, hasTotal_iff]
  by_cases hexceed : row.SignaturesExceed
  · have hfault : row.adjustedFault =
        .signaturesExceedTotal row.signatureBytes row.totalBytes := if_pos hexceed
    simp [hexceed, hfault]
  · have hfault : row.adjustedFault = .adjustedTotalOverflow := if_neg hexceed
    simp [hexceed, hfault]

/-- A row that has a total without caching has the exact one. -/
theorem uncachedTotal_eq_ok_iff_hasUncachedTotal :
    row.uncachedTotal o i = .ok w ↔
      row.HasUncachedTotal o ∧ w.toNat = row.adjusted o + row.saved := by
  rw [uncachedTotal_eq_ok_iff]
  constructor
  · -- the adjusted total is smaller than the one without caching, so it fits if that does
    intro ⟨hle, hcached, hw⟩
    have hlt := UInt64.toNat_lt_size w
    exact ⟨⟨hasTotal_iff.2 ⟨hle, by omega⟩, hcached, by omega⟩, hw⟩
  · intro ⟨h, hw⟩
    exact ⟨(hasTotal_iff.1 h.toHasTotal).1, h.cached, hw⟩

/-- A row without such a total fails with its own fault. -/
theorem uncachedTotal_eq_error_iff_not_hasUncachedTotal :
    row.uncachedTotal o i = .error e ↔
      ¬row.HasUncachedTotal o ∧ e = .dataIntegrity i (row.uncachedFault o) := by
  by_cases h : row.HasTotal o
  · obtain ⟨hle, hfits⟩ := hasTotal_iff.1 h
    obtain ⟨n, hn⟩ := exists_adjustedTotal_iff.2 ⟨hle, hfits⟩
    have hfault : row.uncachedFault o = row.offence := if_pos h
    rw [uncachedTotal_eq_error_iff (i := i) hn, h.hasUncachedTotal_iff, hfault, not_not]
  · -- the adjusted total comes first, and fails
    have hfault : row.uncachedFault o = row.adjustedFault := if_neg h
    have hfails : row.adjustedTotal o i = .error (.dataIntegrity i row.adjustedFault) :=
      adjustedTotal_eq_error_iff_not_hasTotal.2 ⟨h, rfl⟩
    have hnone : ¬row.HasUncachedTotal o := fun hu => h hu.toHasTotal
    rw [uncachedTotal, hfails, hfault]
    show Except.error _ = _ ↔ _
    rw [Except.error.injEq, and_iff_right hnone, eq_comm]

end

end Row

/-! ### All rows of a selection -/

/-- The sizes of the rows are exact: there are some if each row has one, and then they are these, in the
    order of the rows; otherwise the first row without one decides the error, which tells the place of
    the row and what is wrong with it. -/
structure IsExact (rows : List Row) (sizes : Except ReportError (List UInt64)) (has : Row → Prop)
    (size : Row → Nat) (fault : Row → Inconsistency) : Prop where
  exists_iff : (∃ ws, sizes = .ok ws) ↔ ∀ r ∈ rows, has r
  values : ∀ ws, sizes = .ok ws → ws.map UInt64.toNat = rows.map size
  error_iff : ∀ e, sizes = .error e ↔
    ∃ i r, IsFirst (fun r => ¬has r) rows i r ∧ e = .dataIntegrity i (fault r)

section

variable {f : Row → Nat → Except ReportError UInt64} {has : Row → Prop} {size : Row → Nat}
  {fault : Row → Inconsistency}

/-- The sizes of a selection are exact if the size of each row is. -/
theorem isExact_forRows (hok : ∀ r i w, f r i = .ok w ↔ has r ∧ w.toNat = size r)
    (herror : ∀ r i e, f r i = .error e ↔ ¬has r ∧ e = .dataIntegrity i (fault r))
    (rows : List Row) : IsExact rows (forRows f rows) has size fault where
  exists_iff := by
    apply exists_forRows_eq_ok_iff
    intro r i
    constructor
    · intro ⟨w, hw⟩
      exact ((hok r i w).1 hw).1
    · intro h
      cases hw : f r i with
      | ok w => exact ⟨w, rfl⟩
      | error e => exact absurd h ((herror r i e).1 hw).1
  values ws hws := map_of_forRows_eq_ok hws fun r _ i w hw => ((hok r i w).1 hw).2
  error_iff e := by
    -- whether a row lacks a size does not depend on its place, only the error tells the place
    have hfails : ∀ r ∈ rows, ∀ i, ((∃ e, f r i = .error e) ↔ ¬has r) := by
      intro r _ i
      simp [herror]
    rw [forRows_eq_error_iff hfails]
    refine exists_congr fun i => exists_congr fun r => and_congr_right fun hfirst => ?_
    rw [herror]
    exact and_iff_right hfirst.holds

end

section

variable {o : Overhead} {rows : List Row}

/-- The totals of rows are exact, and the first row without one is at fault. -/
theorem isExact_adjustedTotals (o : Overhead) (rows : List Row) :
    IsExact rows (adjustedTotals o rows) (Row.HasTotal o) (fun r => r.adjusted o)
      Row.adjustedFault :=
  isExact_forRows (f := Row.adjustedTotal o)
    (fun _ _ _ => Row.adjustedTotal_eq_ok_iff_hasTotal)
    (fun _ _ _ => Row.adjustedTotal_eq_error_iff_not_hasTotal) rows

/-- The totals without caching are exact, and the first row without one is at fault. -/
theorem isExact_uncachedTotals (o : Overhead) (rows : List Row) :
    IsExact rows (uncachedTotals o rows) (Row.HasUncachedTotal o)
      (fun r => r.adjusted o + r.saved) (Row.uncachedFault o) :=
  isExact_forRows (f := Row.uncachedTotal o)
    (fun _ _ _ => Row.uncachedTotal_eq_ok_iff_hasUncachedTotal)
    (fun _ _ _ => Row.uncachedTotal_eq_error_iff_not_hasUncachedTotal) rows

/-- The totals without caching fail for the same row as those with it, or for an earlier one. -/
theorem uncachedTotals_eq_error_of_adjustedTotals {i : Nat} {reason : Inconsistency}
    (h : adjustedTotals o rows = .error (.dataIntegrity i reason)) :
    ∃ j reason', uncachedTotals o rows = .error (.dataIntegrity j reason') ∧ j ≤ i ∧
      (j = i → reason' = reason) := by
  obtain ⟨k, r, hr, he⟩ := ((isExact_adjustedTotals o rows).error_iff _).1 h
  obtain ⟨rfl, rfl⟩ := ReportError.dataIntegrity.inj he
  -- the row has no total without caching either, so the first row like that stands before it
  obtain ⟨j, r', hr', hle⟩ := hr.exists_le (q := fun r => ¬r.HasUncachedTotal o) fun r hnone hu =>
    hnone hu.toHasTotal
  refine ⟨j, r'.uncachedFault o,
    ((isExact_uncachedTotals o rows).error_iff _).2 ⟨j, r', hr', rfl⟩, hle, fun hj => ?_⟩
  subst hj
  obtain rfl := Option.some.inj (hr'.getElem?.symm.trans hr.getElem?)
  exact if_neg hr.holds

/-- With its own signatures every row has its own total. -/
theorem adjustedTotals_measured_eq_ok {ws : List UInt64}
    (h : adjustedTotals .measured rows = .ok ws) : ws = rows.map Row.totalBytes := by
  have hrows : ∀ r ∈ rows, ∀ i w, r.adjustedTotal .measured i = .ok w → id w = r.totalBytes := by
    intro r _ i w hw
    obtain ⟨hhas, hw⟩ := Row.adjustedTotal_eq_ok_iff_hasTotal.1 hw
    -- the signatures that are taken off are added again
    have hsum : r.adjusted .measured = r.totalBytes.toNat := Nat.sub_add_cancel hhas.signatures
    exact UInt64.toNat_inj.1 (hw.trans hsum)
  simpa using map_of_forRows_eq_ok h hrows

/-- Totals with caching and without it are exact, and fail only where they must. Without caching they
    fail for the same row or an earlier one. With the rows' own signatures they are the totals of the
    rows, and only rows with too many signature bytes have none. -/
theorem totals_exact (o : Overhead) (rows : List Row) :
    IsExact rows (adjustedTotals o rows) (Row.HasTotal o) (fun r => r.adjusted o)
      Row.adjustedFault ∧
    IsExact rows (uncachedTotals o rows) (Row.HasUncachedTotal o)
      (fun r => r.adjusted o + r.saved) (Row.uncachedFault o) ∧
    (∀ i reason, adjustedTotals o rows = .error (.dataIntegrity i reason) →
      ∃ j reason', uncachedTotals o rows = .error (.dataIntegrity j reason') ∧ j ≤ i ∧
        (j = i → reason' = reason)) ∧
    (∀ ws, adjustedTotals .measured rows = .ok ws → ws = rows.map Row.totalBytes) ∧
    ∀ e, adjustedTotals .measured rows = .error e ↔ ∃ i r,
      IsFirst (fun r => r.totalBytes.toNat < r.signatureBytes.toNat) rows i r ∧
        e = .dataIntegrity i (.signaturesExceedTotal r.signatureBytes r.totalBytes) :=
  ⟨isExact_adjustedTotals o rows, isExact_uncachedTotals o rows,
    fun _ _ => uncachedTotals_eq_error_of_adjustedTotals,
    fun _ => adjustedTotals_measured_eq_ok, fun _ => adjustedTotals_measured_eq_error_iff⟩

/-- A row whose freshness proof would be smaller without caching, and one whose total is as large as
    64 bits allow. -/
private def shrinkingAndLargest : List Row :=
  [⟨0, 0, some 1, 1, 71, 150, 33, 33, 66, 550, none⟩,
    ⟨0, 0, some 2, 2, 142, 250, 66, 66, 33, 600, none⟩,
    ⟨0, 0, some 3, 3, 213, 350, 99, 33, 66, 18446744073709551615, none⟩]

/-- One more signature than the largest row carries does not fit. Without caching an earlier row is at
    fault already. With their own signatures all of the rows have totals. -/
theorem totals_exact_shrinkingAndLargest :
    adjustedTotals (.fixed 284) shrinkingAndLargest =
      .error (.dataIntegrity 2 .adjustedTotalOverflow) ∧
    (∃ j reason, uncachedTotals (.fixed 284) shrinkingAndLargest =
      .error (.dataIntegrity j reason) ∧ j ≤ 2 ∧ (j = 2 → reason = .adjustedTotalOverflow)) ∧
    ∃ ws, adjustedTotals .measured shrinkingAndLargest = .ok ws ∧
      ws = [550, 600, 18446744073709551615] := by
  obtain ⟨-, -, hlater, -, -⟩ := totals_exact (.fixed 284) shrinkingAndLargest
  obtain ⟨hmeasured, -, -, hvalues, -⟩ := totals_exact .measured shrinkingAndLargest
  have hfails : adjustedTotals (.fixed 284) shrinkingAndLargest =
      .error (.dataIntegrity 2 .adjustedTotalOverflow) := by decide +kernel
  have hall : ∀ r ∈ shrinkingAndLargest, r.HasTotal .measured := by decide
  obtain ⟨ws, hws⟩ := hmeasured.exists_iff.2 hall
  exact ⟨hfails, hlater _ _ hfails, ws, hws, hvalues ws hws⟩

end

end ProofSize
