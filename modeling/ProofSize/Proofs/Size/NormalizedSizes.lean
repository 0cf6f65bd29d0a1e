import ProofSize.Proofs.Size.Normalizing

/-!
# Sizes of rows on another number of signatures

There are two ways to the size of a row with other signatures: its size is taken with the bytes of those
signatures in place of its own, or the row is put on those signatures first and measured as it is then.
Both come to the same result, and to the same error where the rest of the row is at fault. The one
difference is that the bytes of signatures that do not fit into 64 bits are an error even if there is no
row to count them for.

## Key results

- `Row.SameRest.adjustedTotal_eq`, `Row.SameRest.uncachedTotal_eq`: rows with the same rest have the same
  sizes
- `forRows_congr`: sizes of rows that correspond to each other
- `normalized_sizes_agree`: what rows and the new rows made of them have in common
- `noRows_lack_overhead`: without rows the two ways can differ
-/

namespace ProofSize

/-- If rows that stand at one place have the same result, the selections have. -/
theorem forRows_congr {α : Type} {f g : Row → Nat → Except ReportError α} {rows rows' : List Row}
    (h : List.Forall₂ (fun r r' => ∀ i, g r' i = f r i) rows rows') :
    forRows g rows' = forRows f rows := by
  -- the tails are numbered from a later place on
  suffices key : ∀ n, (rows'.zipIdx n).mapM (fun z => g z.1 z.2) =
      (rows.zipIdx n).mapM (fun z => f z.1 z.2) from key 0
  induction h with
  | nil => exact fun _ => rfl
  | @cons r r' rows rows' hr _ ih =>
    intro n
    rw [List.zipIdx_cons, List.zipIdx_cons, List.mapM_cons, List.mapM_cons, hr n, ih (n + 1)]

namespace Row

variable {r r' : Row} {o o' : Overhead} {size count : UInt64}

/-- Rows with the same rest have the same total with the same number of bytes for signatures. -/
theorem SameRest.adjustedTotal_eq (h : r.SameRest r') (hr : ¬r.SignaturesExceed)
    (ho : o'.bytes r' = o.bytes r) (i : Nat) : r'.adjustedTotal o' i = r.adjustedTotal o i := by
  have hrest := h.total
  have hr' := h.signaturesExceed_iff.not.2 hr
  have hadjusted : r'.adjusted o' = r.adjusted o := by
    -- neither difference is cut off at zero
    unfold SignaturesExceed at hr
    unfold adjusted
    rw [ho]
    omega
  cases hx : r.adjustedTotal o i with
  | ok w =>
    rw [adjustedTotal_eq_ok_iff] at hx ⊢
    exact ⟨hr', hx.2.trans hadjusted.symm⟩
  | error e =>
    rw [adjustedTotal_eq_error_iff] at hx ⊢
    rcases hx with ⟨hexceed, -⟩ | ⟨-, hsize, he⟩
    · exact absurd hexceed hr
    · exact .inr ⟨hr', hadjusted ▸ hsize, he⟩

/-- The same holds without caching, as the freshness proofs are the same. -/
theorem SameRest.uncachedTotal_eq (h : r.SameRest r') (hr : ¬r.SignaturesExceed)
    (ho : o'.bytes r' = o.bytes r) (i : Nat) : r'.uncachedTotal o' i = r.uncachedTotal o i := by
  have hcached : r'.freshnessBytes = r.freshnessBytes := (congrArg Row.freshnessBytes h.others :)
  have huncached : r'.uncachedFreshnessBytes = r.uncachedFreshnessBytes :=
    (congrArg Row.uncachedFreshnessBytes h.others :)
  rw [uncachedTotal, uncachedTotal, h.adjustedTotal_eq hr ho i, hcached, huncached]

/-- A row meets a condition on the number of data structures with whatever signatures. -/
theorem SameRest.accepts_adsModified (h : r.SameRest r') (n : UInt32) :
    (Selector.adsModified n).accepts r' = (Selector.adsModified n).accepts r := by
  have hmodified : r'.adsModified = r.adsModified := (congrArg Row.adsModified h.others :)
  rw [Selector.accepts, Selector.accepts, hmodified]

end Row

/-- The breakdown shows a row on `count` signatures of `size` bytes each, which are its total together
    with the rest of the row. -/
structure Breakdown.IsOfNormalized (size count : UInt64) (row : Row) (b : Breakdown) : Prop where
  signatureCount : b.signatureCount = count
  signatureBytes : b.signatureBytes.toNat = size.toNat * count.toNat
  total : b.totalBytes.toNat = b.signatureBytes.toNat + b.updateBytes.toNat
  rest : b.updateBytes.toNat + row.signatureBytes.toNat = row.totalBytes.toNat

section

variable {size count bytes : UInt64} {rows normalized : List Row}

/-- A new row has a breakdown, which shows the rest of the old one. -/
theorem exists_isOfNormalized {r r' : Row} (h : r.normalize size count = .ok r') :
    ∃ b, Breakdown.ofRow? (some r') .breakdown = .ok b ∧ b.IsOfNormalized size count r := by
  obtain ⟨-, hcount, hbytes, hrest⟩ := Row.normalize_eq_ok_iff_sameRest.1 h
  obtain ⟨b, hb, -⟩ := Breakdown.exists_ofRow (Row.not_signaturesExceed_of_normalize h)
  obtain ⟨stripped, hstripped, rfl⟩ := Breakdown.ofRow_eq_ok_iff.1 hb
  refine ⟨_, hb, hcount, hbytes, ?_, hrest.add_signatures_iff.1 hstripped⟩
  show r'.totalBytes.toNat = r'.signatureBytes.toNat + stripped.toNat
  omega

/-- What has the same results for a new row and for the old one has them for all rows. -/
theorem forRows_normalized {α : Type} {f g : Row → Nat → Except ReportError α}
    (h : rows.mapM (fun r => r.normalize size count) = .ok normalized)
    (hfg : ∀ r r', r.normalize size count = .ok r' → ∀ i, g r' i = f r i) :
    forRows g normalized = forRows f rows :=
  forRows_congr ((mapM_eq_ok_iff.1 h).imp fun r r' hr' => hfg r r' hr')

/-- Where the overheads come to as many bytes for a new row as for the old one, the new rows have the
    totals of the old ones, with caching and without it. -/
theorem totals_normalized (o o' : Overhead)
    (h : rows.mapM (fun r => r.normalize size count) = .ok normalized)
    (ho : ∀ r r', r.normalize size count = .ok r' → o'.bytes r' = o.bytes r) :
    adjustedTotals o' normalized = adjustedTotals o rows ∧
      uncachedTotals o' normalized = uncachedTotals o rows := by
  constructor
  · refine forRows_normalized h fun r r' hr' i => ?_
    obtain ⟨hnorm, -, -, hrest⟩ := Row.normalize_eq_ok_iff_sameRest.1 hr'
    exact hrest.adjustedTotal_eq (Nat.not_lt.2 hnorm.total) (ho r r' hr') i
  · refine forRows_normalized h fun r r' hr' i => ?_
    obtain ⟨hnorm, -, -, hrest⟩ := Row.normalize_eq_ok_iff_sameRest.1 hr'
    exact hrest.uncachedTotal_eq (Nat.not_lt.2 hnorm.total) (ho r r' hr') i

/-- The bytes of the new signatures fit, if there is a row that has been put on them. -/
theorem exists_ofSignatures (h : rows.mapM (fun r => r.normalize size count) = .ok normalized)
    (hfits : rows = [] → size.toNat * count.toNat < UInt64.size) :
    ∃ bytes : UInt64, bytes.toNat = size.toNat * count.toNat ∧
      Overhead.ofSignatures size count = .ok (.fixed bytes) := by
  have hproduct : size.toNat * count.toNat < UInt64.size := by
    -- a row that has been put on the signatures tells that they fit
    cases rows with
    | nil => exact hfits rfl
    | cons r rows =>
      obtain ⟨r', hr', -⟩ := bind_eq_ok_iff.1 ((List.mapM_cons ..).symm.trans h)
      exact (Row.normalize_eq_ok_iff_sameRest.1 hr').1.product
  obtain ⟨bytes, hbytes⟩ := Word.exists_toNat_eq hproduct
  refine ⟨bytes, hbytes, ?_⟩
  rw [Overhead.ofSignatures, bytesOfSignatures_eq_ok_iff.2 hbytes]
  rfl

end

/-- Rows that have been put on other signatures have the sizes that the old rows have with these, with
    caching and without it; if there are no rows, this takes that the bytes of the signatures fit
    nevertheless. Both have the same sizes, or the same errors, with the same bytes of signatures. The
    same places are selected by a number of data structures, and the breakdown of a new row shows the
    new signatures and the rest of the old row. -/
theorem normalized_sizes_agree {size count : UInt64} {rows normalized : List Row}
    (h : rows.mapM (fun r => r.normalize size count) = .ok normalized) :
    ((rows = [] → size.toNat * count.toNat < UInt64.size) →
      adjustedTotals .measured normalized =
        (Overhead.ofSignatures size count >>= fun o => adjustedTotals o rows) ∧
      uncachedTotals .measured normalized =
        (Overhead.ofSignatures size count >>= fun o => uncachedTotals o rows)) ∧
    (∀ k, adjustedTotals (.fixed k) normalized = adjustedTotals (.fixed k) rows ∧
      uncachedTotals (.fixed k) normalized = uncachedTotals (.fixed k) rows) ∧
    (∀ n, normalized.map (Selector.adsModified n).accepts =
      rows.map (Selector.adsModified n).accepts) ∧
    List.Forall₂ (fun r r' => ∃ b, Breakdown.ofRow? (some r') .breakdown = .ok b ∧
      b.IsOfNormalized size count r) rows normalized := by
  refine ⟨fun hfits => ?_, fun k => totals_normalized (.fixed k) (.fixed k) h fun _ _ _ => rfl,
    fun n => ?_, ?_⟩
  · obtain ⟨bytes, hbytes, ho⟩ := exists_ofSignatures h hfits
    rw [ho]
    -- the new signatures are charged to the old rows, and the new rows carry them
    refine totals_normalized (.fixed bytes) .measured h fun r r' hr' => ?_
    obtain ⟨-, -, hbytes', -⟩ := Row.normalize_eq_ok_iff_sameRest.1 hr'
    exact UInt64.toNat_inj.1 (hbytes'.trans hbytes.symm)
  · refine map_of_mapM_eq_ok h fun r _ r' hr' => ?_
    exact (Row.normalize_eq_ok_iff_sameRest.1 hr').2.2.2.accepts_adsModified n
  · exact (mapM_eq_ok_iff.1 h).imp fun r r' hr' => exists_isOfNormalized hr'

/-- Two rows, of which the second one would have a smaller freshness proof without caching. -/
private def transferAndShrinking : List Row :=
  [⟨0, 0, some 2, 2, 142, 250, 66, 33, 66, 600, none⟩,
    ⟨0, 0, some 3, 3, 213, 350, 99, 33, 32, 700, none⟩]

/-- Both rows can be put on four signatures. Then they have the totals of the old rows with four
    signatures, and the same row lacks a total without caching. -/
theorem normalized_sizes_agree_shrinking :
    ∃ normalized, transferAndShrinking.mapM (fun r => r.normalize 71 4) = .ok normalized ∧
      adjustedTotals .measured normalized = .ok [742, 771] ∧
      uncachedTotals .measured normalized =
        .error (.dataIntegrity 1 (.uncachedBelowCached 32 33)) := by
  have hok : (transferAndShrinking.mapM fun r : Row => r.normalize 71 4).isOk = true := by decide +kernel
  obtain ⟨normalized, h⟩ := exists_ok_of_isOk hok
  obtain ⟨hsizes, -, -, -⟩ := normalized_sizes_agree h
  obtain ⟨hadjusted, huncached⟩ := hsizes (by simp [transferAndShrinking])
  refine ⟨normalized, h, hadjusted.trans ?_, huncached.trans ?_⟩
  · decide +kernel
  · decide +kernel

/-- Without rows there is none that cannot be put on the signatures, so the new rows have totals: none
    at all. The overhead of signatures that do not fit is an error all the same. -/
theorem noRows_lack_overhead :
    ([] : List Row).mapM (fun r => r.normalize 9223372036854775808 2) = .ok [] ∧
      adjustedTotals .measured [] ≠
        (Overhead.ofSignatures 9223372036854775808 2 >>= fun o => adjustedTotals o []) := by
  decide +kernel

end ProofSize
