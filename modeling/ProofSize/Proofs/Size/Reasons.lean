import ProofSize.Proofs.Size.Normalizing

/-!
# What errors say of a row

An error for a row that contradicts itself says in words what is wrong, with the sizes of the row. What
it says of totals and of breakdowns is true of the row. Putting a row on another number of signatures
has one reason for an update that has no result, so it blames the row's signatures also where these are
a part of the update and 64 bits do not hold the new one.

## Key results

- `Row.isTrueOf_adjustedFault`, `Row.isTrueOf_uncachedFault`: rows without totals are told why
- `Row.normalize_isTrueOf_iff`: rows on other signatures are told why, unless only the update overflows
- `integrityErrors_isTrueOf`: what is said is true, but for these errors
-/

namespace ProofSize

/-- The text says something true of a row for which `bytes` signature bytes are counted: it tells the
    row's own sizes, and the exact integers are as it says. -/
inductive Inconsistency.IsTrueOf (row : Row) (bytes : Nat) : Inconsistency → String → Prop
  | signaturesExceedTotal : row.totalBytes.toNat < row.signatureBytes.toNat →
      IsTrueOf row bytes (.signaturesExceedTotal row.signatureBytes row.totalBytes)
        ("signature bytes " ++ toString row.signatureBytes.toNat ++ " exceed total proof bytes " ++
          toString row.totalBytes.toNat)
  | adjustedTotalOverflow :
      (UInt64.size : Int) - 1 < row.totalBytes.toNat - row.signatureBytes.toNat + bytes →
      IsTrueOf row bytes .adjustedTotalOverflow "adjusted total overflows u64"
  | uncachedBelowCached : row.uncachedFreshnessBytes.toNat < row.freshnessBytes.toNat →
      IsTrueOf row bytes (.uncachedBelowCached row.uncachedFreshnessBytes row.freshnessBytes)
        ("un-cached freshness proof " ++ toString row.uncachedFreshnessBytes.toNat ++
          " is smaller than cached " ++ toString row.freshnessBytes.toNat)
  | uncachedTotalOverflow :
      (UInt64.size : Int) - 1 < row.totalBytes.toNat - row.signatureBytes.toNat + bytes +
        (row.uncachedFreshnessBytes.toNat - row.freshnessBytes.toNat) →
      IsTrueOf row bytes .uncachedTotalOverflow "un-cached total overflows u64"
  | signaturesExceedUpdate : row.updateBytes.toNat < row.signatureBytes.toNat →
      IsTrueOf row bytes (.signaturesExceedUpdate row.signatureBytes row.updateBytes)
        ("signature bytes " ++ toString row.signatureBytes.toNat ++ " exceed update bytes " ++
          toString row.updateBytes.toNat)

namespace Row

variable {row : Row} {o : Overhead} {size count : UInt64}

/-- The fault of a row without a total is true of the row. -/
theorem isTrueOf_adjustedFault (h : ¬row.HasTotal o) :
    row.adjustedFault.IsTrueOf row (o.bytes row).toNat row.adjustedFault.message := by
  unfold adjustedFault
  split
  · rename_i hexceed
    exact .signaturesExceedTotal hexceed
  · rename_i hexceed
    have hsize : UInt64.size ≤ row.adjusted o := Nat.not_lt.1 fun hlt =>
      h ⟨Nat.not_lt.1 hexceed, hlt⟩
    refine .adjustedTotalOverflow ?_
    unfold adjusted at hsize
    omega

/-- The fault of a row without a total without caching is true of the row. -/
theorem isTrueOf_uncachedFault (h : ¬row.HasUncachedTotal o) :
    (row.uncachedFault o).IsTrueOf row (o.bytes row).toNat (row.uncachedFault o).message := by
  unfold uncachedFault
  split
  · rename_i htotal
    have hwithin := htotal.signatures
    have hoffends : row.Offends o := not_not.1 fun hno => h (htotal.hasUncachedTotal_iff.2 hno)
    unfold offence
    split
    · rename_i hcached
      exact .uncachedBelowCached hcached
    · rename_i hcached
      have hsize := hoffends.resolve_left hcached
      refine .uncachedTotalOverflow ?_
      unfold adjusted saved at hsize
      omega
  · rename_i htotal
    exact isTrueOf_adjustedFault htotal

/-- The row has a total with the new signatures, and its own ones are a part of its update, but 64 bits
    do not hold the update with the new ones. -/
structure OnlyUpdateOverflows (size count : UInt64) (row : Row) : Prop where
  product : size.toNat * count.toNat < UInt64.size
  total : row.signatureBytes.toNat ≤ row.totalBytes.toNat
  fitsTotal : row.totalBytes.toNat - row.signatureBytes.toNat + size.toNat * count.toNat <
    UInt64.size
  update : row.signatureBytes.toNat ≤ row.updateBytes.toNat
  overflows : UInt64.size ≤
    row.updateBytes.toNat - row.signatureBytes.toNat + size.toNat * count.toNat

/-- Signatures that are a part of the update are blamed where only the update overflows. -/
theorem normalize_of_onlyUpdateOverflows (h : row.OnlyUpdateOverflows size count) :
    row.normalize size count =
      .error (.dataIntegrity 0 (.signaturesExceedUpdate row.signatureBytes row.updateBytes)) := by
  have hproduct := h.product
  have htotal := h.total
  have hfits := h.fitsTotal
  have hoverflows := h.overflows
  refine normalize_eq_error_iff_not_normalizable.2 ⟨fun hnorm => ?_, ?_⟩
  · have hfitsUpdate := hnorm.fitsUpdate
    omega
  · rw [normalizeFault, if_neg (by omega), if_neg (by omega)]

/-- In every other case the reason is true. -/
theorem normalize_isTrueOf_iff {i : Nat} {reason : Inconsistency}
    (h : row.normalize size count = .error (.dataIntegrity i reason)) :
    i = 0 ∧ (reason.IsTrueOf row (size.toNat * count.toNat) reason.message ↔
      ¬row.OnlyUpdateOverflows size count) := by
  obtain ⟨hnone, hfault⟩ := normalize_eq_error_iff_not_normalizable.1 h
  unfold normalizeFault at hfault
  split at hfault
  · exact nomatch hfault
  rename_i hproduct
  obtain ⟨bytes, hbytes⟩ := Word.exists_toNat_eq (Nat.not_le.1 hproduct)
  split at hfault
  · -- the total comes first, and what is said of it is true
    rename_i htotal
    obtain ⟨rfl, rfl⟩ := ReportError.dataIntegrity.inj hfault
    have hadjusted : row.adjusted (.fixed bytes) =
        row.totalBytes.toNat - row.signatureBytes.toNat + bytes.toNat := rfl
    have hlacks : ¬row.HasTotal (.fixed bytes) := by
      intro hhas
      have hwithin := hhas.signatures
      have hfits := hhas.fits
      omega
    refine ⟨rfl, fun _ honly => ?_, fun _ => ?_⟩
    · have hwithin := honly.total
      have hfits := honly.fitsTotal
      omega
    · rw [← hbytes]
      exact isTrueOf_adjustedFault hlacks
  · -- the update is at fault, because of its signatures or because the new ones do not fit
    rename_i htotal
    obtain ⟨rfl, rfl⟩ := ReportError.dataIntegrity.inj hfault
    refine ⟨rfl, fun htrue honly => ?_, fun hno => .signaturesExceedUpdate ?_⟩
    · have hwithin := honly.update
      cases htrue with
      | signaturesExceedUpdate hexceed => omega
    · by_contra hwithin
      have hfits : row.updateBytes.toNat - row.signatureBytes.toNat +
          size.toNat * count.toNat < UInt64.size := Nat.not_le.1 fun hoverflows =>
        hno ⟨by omega, by omega, by omega, by omega, hoverflows⟩
      exact hnone ⟨by omega, by omega, by omega, by omega, hfits⟩

end Row

/-- What an error says of a row that contradicts itself is true of this row, for totals with caching and
    without it and for a breakdown. It is true where the row is put on other signatures, too, unless
    only its update overflows; and there the error blames its own signatures. -/
theorem integrityErrors_isTrueOf (o : Overhead) (rows : List Row) (row : Row) (size count : UInt64) :
    (∀ i reason, adjustedTotals o rows = .error (.dataIntegrity i reason) →
      ∃ r, rows[i]? = some r ∧ reason.IsTrueOf r (o.bytes r).toNat reason.message) ∧
    (∀ i reason, uncachedTotals o rows = .error (.dataIntegrity i reason) →
      ∃ r, rows[i]? = some r ∧ reason.IsTrueOf r (o.bytes r).toNat reason.message) ∧
    (∀ what i reason, Breakdown.ofRow? (some row) what = .error (.dataIntegrity i reason) →
      i = 0 ∧ reason.IsTrueOf row row.signatureBytes.toNat reason.message) ∧
    (∀ i reason, row.normalize size count = .error (.dataIntegrity i reason) →
      i = 0 ∧ (reason.IsTrueOf row (size.toNat * count.toNat) reason.message ↔
        ¬row.OnlyUpdateOverflows size count)) ∧
    (row.OnlyUpdateOverflows size count → row.normalize size count =
      .error (.dataIntegrity 0 (.signaturesExceedUpdate row.signatureBytes row.updateBytes))) := by
  refine ⟨fun i reason h => ?_, fun i reason h => ?_, fun what i reason h => ?_,
    fun i reason h => Row.normalize_isTrueOf_iff h, Row.normalize_of_onlyUpdateOverflows⟩
  -- the error is about the first row without a total
  · obtain ⟨k, r, hfirst, he⟩ := ((isExact_adjustedTotals o rows).error_iff _).1 h
    obtain ⟨rfl, rfl⟩ := ReportError.dataIntegrity.inj he
    exact ⟨r, hfirst.getElem?, Row.isTrueOf_adjustedFault hfirst.holds⟩
  · obtain ⟨k, r, hfirst, he⟩ := ((isExact_uncachedTotals o rows).error_iff _).1 h
    obtain ⟨rfl, rfl⟩ := ReportError.dataIntegrity.inj he
    exact ⟨r, hfirst.getElem?, Row.isTrueOf_uncachedFault hfirst.holds⟩
  · obtain ⟨hexceed, he⟩ := Breakdown.ofRow_eq_error_iff.1 h
    obtain ⟨rfl, rfl⟩ := ReportError.dataIntegrity.inj he
    exact ⟨rfl, .signaturesExceedTotal hexceed⟩

/-- A transfer whose update is as large as 64 bits allow. -/
private def largestUpdate : Row :=
  ⟨0, 0, some 2, 1, 71, 18446744073709551615, 100, 33, 66, 600, none⟩

/-- A row whose update is smaller than its signatures, and so is told the truth. -/
private def signaturesOnly : Row := ⟨0, 0, some 2, 2, 142, 100, 100, 33, 66, 600, none⟩

/-- With three signatures in place of one the largest update does not fit, but the one is blamed for
    exceeding it. -/
theorem normalize_blames_signatures :
    largestUpdate.normalize 71 3 =
      .error (.dataIntegrity 0 (.signaturesExceedUpdate 71 18446744073709551615)) ∧
    (Inconsistency.signaturesExceedUpdate 71 18446744073709551615).message =
      "signature bytes 71 exceed update bytes 18446744073709551615" ∧
    ¬(18446744073709551615 : UInt64).toNat < (71 : UInt64).toNat := by
  refine ⟨by decide +kernel, by decide +kernel, by decide⟩

/-- The truth is told of the row with too small an update, and not of the one with the largest. -/
theorem integrityErrors_isTrueOf_ofUpdates :
    (Inconsistency.signaturesExceedUpdate 142 100).IsTrueOf signaturesOnly 213
      "signature bytes 142 exceed update bytes 100" ∧
    ¬(Inconsistency.signaturesExceedUpdate 71 18446744073709551615).IsTrueOf largestUpdate 213
      "signature bytes 71 exceed update bytes 18446744073709551615" := by
  obtain ⟨-, -, -, hsmall, -⟩ := integrityErrors_isTrueOf .measured [] signaturesOnly 71 3
  obtain ⟨-, -, -, hlarge, hblames⟩ := integrityErrors_isTrueOf .measured [] largestUpdate 71 3
  have honly : largestUpdate.OnlyUpdateOverflows 71 3 :=
    ⟨by decide, by decide, by decide, by decide, by decide⟩
  constructor
  · refine (hsmall 0 _ (by decide +kernel)).2.2 fun h => ?_
    exact absurd h.update (by decide)
  · intro htrue
    exact (hlarge 0 _ (hblames honly)).2.1 htrue honly

end ProofSize
