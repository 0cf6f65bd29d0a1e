import ProofSize.Proofs.FirstError
import ProofSize.Size

/-!
# Derived sizes are exact

The adjusted total of a row is a difference and a sum of natural numbers, and so is its total without
caching. Each of them is computed if the difference exists and 64 bits hold the result; otherwise the
error tells the first of these that fails.

## Key results

- `Row.adjustedTotal_eq_ok_iff`, `Row.adjustedTotal_eq_error_iff`: the adjusted total of a row
- `Row.uncachedTotal_eq_ok_iff`, `Row.uncachedTotal_eq_error_iff`: its total without caching
- `Row.exists_adjustedTotal_iff`, `Row.exists_uncachedTotal_iff`: when a row has these totals
- `Row.normalize_eq_ok_iff`, `Row.normalize_eq_error_iff`: the row on another number of signatures
- `Breakdown.ofRow_eq_ok_iff`, `Breakdown.ofRow_eq_error_iff`: the breakdown of a row
- `forRows_eq_ok_iff`, `forRows_eq_error_iff`: sizes of all rows of a selection
- `exists_forRows_eq_ok_iff`, `map_of_forRows_eq_ok`: whether and which there are, row by row
- `exists_adjustedTotals_eq_ok_iff`, `exists_uncachedTotals_eq_ok_iff`: when all rows have totals
- `adjustedTotals_measured_eq_error_iff`: how totals with the rows' own signatures fail
- `uncachedTotals_eq_error_iff`, `totals_eq_ok`: the totals with caching and without it
-/

namespace ProofSize

/-- The bytes of signatures are their number times their size. -/
theorem bytesOfSignatures_eq_ok_iff {size count bytes : UInt64} :
    bytesOfSignatures size count = .ok bytes ↔ bytes.toNat = size.toNat * count.toNat := by
  rw [bytesOfSignatures, require_eq_ok_iff, Word.mul?_eq_some_iff]

/-- Signatures have no bytes where 64 bits do not hold the product. -/
theorem bytesOfSignatures_eq_error_iff {size count : UInt64} {e : ReportError} :
    bytesOfSignatures size count = .error e ↔
      UInt64.size ≤ size.toNat * count.toNat ∧ e = .overflow (.signatures count size) := by
  rw [bytesOfSignatures, require_eq_error_iff, Word.mul?_eq_none_iff]

namespace Row

/-- The exact adjusted total of a row whose signatures do not exceed its total. -/
def adjusted (row : Row) (o : Overhead) : Nat :=
  row.totalBytes.toNat - row.signatureBytes.toNat + (o.bytes row).toNat

/-- The bytes that caching saves, exactly, for a row whose proof is not smaller without it. -/
def saved (row : Row) : Nat := row.uncachedFreshnessBytes.toNat - row.freshnessBytes.toNat

/-- The row carries more signature bytes than it has bytes in total. -/
def SignaturesExceed (row : Row) : Prop := row.totalBytes.toNat < row.signatureBytes.toNat

/-- The row has no total without caching, although it has one with it. -/
def Offends (o : Overhead) (row : Row) : Prop :=
  row.uncachedFreshnessBytes.toNat < row.freshnessBytes.toNat ∨
    UInt64.size ≤ row.adjusted o + row.saved

/-- Why a row has no total without caching. -/
def offence (row : Row) : Inconsistency :=
  if row.uncachedFreshnessBytes.toNat < row.freshnessBytes.toNat then
    .uncachedBelowCached row.uncachedFreshnessBytes row.freshnessBytes
  else .uncachedTotalOverflow

variable {row : Row} {o : Overhead} {i : Nat} {w : UInt64} {e : ReportError}

/-! ### The total without the row's own signatures -/

/-- The stripped total is the difference of the total and the signatures. -/
theorem strippedTotal_eq_ok_iff :
    row.strippedTotal i = .ok w ↔ w.toNat + row.signatureBytes.toNat = row.totalBytes.toNat := by
  rw [strippedTotal, require_eq_ok_iff, Word.sub?_eq_some_iff]

/-- There is no stripped total where the signatures exceed the total. -/
theorem strippedTotal_eq_error_iff :
    row.strippedTotal i = .error e ↔ row.SignaturesExceed ∧
      e = .dataIntegrity i (.signaturesExceedTotal row.signatureBytes row.totalBytes) := by
  rw [strippedTotal, require_eq_error_iff, Word.sub?_eq_none_iff]
  exact Iff.rfl

/-! ### The adjusted total -/

/-- The difference of the total and the signatures is a word, because the total is. -/
private theorem exists_stripped (row : Row) :
    ∃ stripped : UInt64, stripped.toNat = row.totalBytes.toNat - row.signatureBytes.toNat := by
  have hlt := UInt64.toNat_lt_size row.totalBytes
  exact Word.exists_toNat_eq (by omega)

/-- The adjusted total is exact. -/
theorem adjustedTotal_eq_ok_iff :
    row.adjustedTotal o i = .ok w ↔ ¬row.SignaturesExceed ∧ w.toNat = row.adjusted o := by
  rw [adjustedTotal, bind_eq_ok_iff]
  simp only [strippedTotal_eq_ok_iff, require_eq_ok_iff, Word.add?_eq_some_iff]
  constructor
  · intro ⟨stripped, hstripped, hw⟩
    unfold SignaturesExceed adjusted
    omega
  · intro ⟨hle, hw⟩
    -- the difference exists, and 64 bits hold it
    obtain ⟨stripped, hstripped⟩ := exists_stripped row
    unfold SignaturesExceed at hle
    unfold adjusted at hw
    exact ⟨stripped, by omega, by omega⟩

/-- The signatures exceed the total, or else 64 bits do not hold the adjusted one. -/
theorem adjustedTotal_eq_error_iff :
    row.adjustedTotal o i = .error e ↔
      row.SignaturesExceed ∧
        e = .dataIntegrity i (.signaturesExceedTotal row.signatureBytes row.totalBytes) ∨
      ¬row.SignaturesExceed ∧ UInt64.size ≤ row.adjusted o ∧
        e = .dataIntegrity i .adjustedTotalOverflow := by
  rw [adjustedTotal, bind_eq_error_iff, strippedTotal_eq_error_iff]
  -- the difference fails first, and only then the sum
  refine or_congr Iff.rfl ?_
  simp only [strippedTotal_eq_ok_iff, require_eq_error_iff, Word.add?_eq_none_iff]
  constructor
  · intro ⟨stripped, hstripped, hsize, he⟩
    unfold SignaturesExceed adjusted
    exact ⟨by omega, by omega, he⟩
  · intro ⟨hle, hsize, he⟩
    obtain ⟨stripped, hstripped⟩ := exists_stripped row
    unfold SignaturesExceed at hle
    unfold adjusted at hsize
    exact ⟨stripped, by omega, by omega, he⟩

/-! ### The total without caching -/

/-- The total without caching is the adjusted one and what caching saves. -/
theorem uncachedTotal_eq_ok_iff :
    row.uncachedTotal o i = .ok w ↔ ¬row.SignaturesExceed ∧
      row.freshnessBytes.toNat ≤ row.uncachedFreshnessBytes.toNat ∧
      w.toNat = row.adjusted o + row.saved := by
  rw [uncachedTotal, bind_eq_ok_iff]
  simp only [adjustedTotal_eq_ok_iff, bind_eq_ok_iff, require_eq_ok_iff, Word.sub?_eq_some_iff,
    Word.add?_eq_some_iff]
  constructor
  · intro ⟨adjusted, ⟨hle, hadjusted⟩, extra, hextra, hw⟩
    unfold saved
    exact ⟨hle, by omega, by omega⟩
  · intro ⟨hle, hcached, hw⟩
    -- both summands are words because their sum is one
    have hlt := UInt64.toNat_lt_size w
    obtain ⟨adjusted, hadjusted⟩ := Word.exists_toNat_eq (n := row.adjusted o) (by omega)
    obtain ⟨extra, hextra⟩ := Word.exists_toNat_eq (n := row.saved) (by omega)
    unfold saved at hw hextra
    exact ⟨adjusted, ⟨hle, hadjusted⟩, extra, by omega, by omega⟩

/-- Where there is an adjusted total, the one without caching fails if the row offends. -/
theorem uncachedTotal_eq_error_iff {n : UInt64} (h : row.adjustedTotal o i = .ok n) :
    row.uncachedTotal o i = .error e ↔ row.Offends o ∧ e = .dataIntegrity i row.offence := by
  have hn := (adjustedTotal_eq_ok_iff.1 h).2
  -- the adjusted total is known, so two checks are left
  have hread : row.uncachedTotal o i =
      (ReportError.dataIntegrity i
        (.uncachedBelowCached row.uncachedFreshnessBytes row.freshnessBytes)).require
        (Word.sub? row.uncachedFreshnessBytes row.freshnessBytes) >>= fun extra =>
      (ReportError.dataIntegrity i .uncachedTotalOverflow).require (Word.add? n extra) := by
    rw [uncachedTotal, h]
    rfl
  rw [hread, bind_eq_error_iff, require_eq_error_iff, Word.sub?_eq_none_iff]
  simp only [require_eq_ok_iff, require_eq_error_iff, Word.sub?_eq_some_iff, Word.add?_eq_none_iff]
  by_cases hcached : row.uncachedFreshnessBytes.toNat < row.freshnessBytes.toNat
  · -- the difference does not exist, so nothing is added
    have hoffence : row.offence =
        .uncachedBelowCached row.uncachedFreshnessBytes row.freshnessBytes := if_pos hcached
    rw [hoffence]
    constructor
    · intro hfails
      rcases hfails with ⟨_, he⟩ | ⟨extra, hextra, _⟩
      · exact ⟨.inl hcached, he⟩
      · omega
    · intro ⟨_, he⟩
      exact .inl ⟨hcached, he⟩
  · have hoffence : row.offence = .uncachedTotalOverflow := if_neg hcached
    rw [hoffence]
    constructor
    · intro hfails
      rcases hfails with ⟨hlt, _⟩ | ⟨extra, hextra, hsize, he⟩
      · exact absurd hlt hcached
      · refine ⟨.inr ?_, he⟩
        unfold saved
        omega
    · intro ⟨hoffends, he⟩
      have hsize := hoffends.resolve_left hcached
      have hlt := UInt64.toNat_lt_size row.uncachedFreshnessBytes
      obtain ⟨extra, hextra⟩ := Word.exists_toNat_eq (n := row.saved) (by unfold saved; omega)
      unfold saved at hextra hsize
      exact .inr ⟨extra, by omega, by omega, he⟩

/-- When a row has an adjusted total. -/
theorem exists_adjustedTotal_iff :
    (∃ w, row.adjustedTotal o i = .ok w) ↔
      ¬row.SignaturesExceed ∧ row.adjusted o < UInt64.size := by
  simp only [adjustedTotal_eq_ok_iff]
  constructor
  · intro ⟨w, hle, hw⟩
    exact ⟨hle, hw ▸ UInt64.toNat_lt_size w⟩
  · intro ⟨hle, hlt⟩
    obtain ⟨w, hw⟩ := Word.exists_toNat_eq hlt
    exact ⟨w, hle, hw⟩

/-- When a row has a total without caching. -/
theorem exists_uncachedTotal_iff :
    (∃ w, row.uncachedTotal o i = .ok w) ↔ ¬row.SignaturesExceed ∧
      row.freshnessBytes.toNat ≤ row.uncachedFreshnessBytes.toNat ∧
      row.adjusted o + row.saved < UInt64.size := by
  simp only [uncachedTotal_eq_ok_iff]
  constructor
  · intro ⟨w, hle, hcached, hw⟩
    exact ⟨hle, hcached, hw ▸ UInt64.toNat_lt_size w⟩
  · intro ⟨hle, hcached, hlt⟩
    obtain ⟨w, hw⟩ := Word.exists_toNat_eq hlt
    exact ⟨w, hle, hcached, hw⟩

/-- With its own signatures a row has its own total, so only these can be at fault. -/
theorem adjustedTotal_measured_eq_error_iff :
    row.adjustedTotal .measured i = .error e ↔ row.SignaturesExceed ∧
      e = .dataIntegrity i (.signaturesExceedTotal row.signatureBytes row.totalBytes) := by
  rw [adjustedTotal_eq_error_iff]
  constructor
  · intro h
    rcases h with h | ⟨hle, hsize, -⟩
    · exact h
    -- taking the signatures off and putting them on again gives the total back
    · have hlt := UInt64.toNat_lt_size row.totalBytes
      have hsum : row.adjusted .measured =
          row.totalBytes.toNat - row.signatureBytes.toNat + row.signatureBytes.toNat := rfl
      unfold SignaturesExceed at hle
      omega
  · exact .inl

/-- The row has no update with this many signature bytes: its own ones exceed it, or 64 bits do not
    hold the sum. -/
def UpdateUnfit (bytes : Nat) (row : Row) : Prop :=
  row.updateBytes.toNat < row.signatureBytes.toNat ∨
    UInt64.size ≤ row.updateBytes.toNat - row.signatureBytes.toNat + bytes

variable {size count bytes : UInt64}

/-- The new update is the difference of the old one and its signatures, and the new ones. -/
private theorem update_eq_some_iff {u : UInt64} :
    (Word.sub? row.updateBytes row.signatureBytes).bind (Word.add? · bytes) = some u ↔
      row.signatureBytes.toNat ≤ row.updateBytes.toNat ∧
        u.toNat = row.updateBytes.toNat - row.signatureBytes.toNat + bytes.toNat := by
  rw [Option.bind_eq_some_iff]
  simp only [Word.sub?_eq_some_iff, Word.add?_eq_some_iff]
  constructor
  · intro ⟨rest, hrest, hu⟩
    exact ⟨by omega, by omega⟩
  · intro ⟨hle, hu⟩
    have hlt := UInt64.toNat_lt_size row.updateBytes
    obtain ⟨rest, hrest⟩ :=
      Word.exists_toNat_eq (n := row.updateBytes.toNat - row.signatureBytes.toNat) (by omega)
    exact ⟨rest, by omega, by omega⟩

/-- There is no new update where the difference or the sum does not exist. -/
private theorem update_eq_none_iff :
    (Word.sub? row.updateBytes row.signatureBytes).bind (Word.add? · bytes) = none ↔
      row.UpdateUnfit bytes.toNat := by
  unfold UpdateUnfit
  -- the difference may fail to exist, or the sum
  cases hrest : Word.sub? row.updateBytes row.signatureBytes with
  | none =>
    have hlt := Word.sub?_eq_none_iff.1 hrest
    simp [hlt]
  | some rest =>
    have hle := Word.sub?_eq_some_iff.1 hrest
    rw [Option.bind_some, Word.add?_eq_none_iff]
    omega

/-- A row is put on another number of signatures by exact differences and sums. Nothing else of it
    changes. -/
theorem normalize_eq_ok_iff {row' : Row} :
    row.normalize size count = .ok row' ↔ ∃ bytes total update : UInt64,
      bytes.toNat = size.toNat * count.toNat ∧
      (¬row.SignaturesExceed ∧ total.toNat = row.adjusted (.fixed bytes)) ∧
      (row.signatureBytes.toNat ≤ row.updateBytes.toNat ∧
        update.toNat = row.updateBytes.toNat - row.signatureBytes.toNat + bytes.toNat) ∧
      row' = { row with signatureCount := count, signatureBytes := bytes, updateBytes := update,
                        totalBytes := total } := by
  unfold normalize
  simp only [bind_eq_ok_iff, bytesOfSignatures_eq_ok_iff, adjustedTotal_eq_ok_iff,
    require_eq_ok_iff, update_eq_some_iff]
  constructor
  · intro ⟨bytes, hbytes, total, htotal, update, hupdate, h⟩
    exact ⟨bytes, total, update, hbytes, htotal, hupdate, (Except.ok.inj h).symm⟩
  · intro ⟨bytes, total, update, hbytes, htotal, hupdate, h⟩
    exact ⟨bytes, hbytes, total, htotal, update, hupdate, by rw [h]; rfl⟩

/-- Where the row has a total with the new signatures, only its update can be at fault. -/
theorem normalize_eq_error_iff {n : UInt64} (hbytes : bytesOfSignatures size count = .ok bytes)
    (hn : row.adjustedTotal (.fixed bytes) 0 = .ok n) :
    row.normalize size count = .error e ↔ row.UpdateUnfit bytes.toNat ∧
      e = .dataIntegrity 0 (.signaturesExceedUpdate row.signatureBytes row.updateBytes) := by
  unfold normalize
  rw [hbytes]
  show (row.adjustedTotal (.fixed bytes) 0 >>= _) = _ ↔ _
  rw [hn]
  show ((ReportError.dataIntegrity 0
    (.signaturesExceedUpdate row.signatureBytes row.updateBytes)).require _ >>= _) = _ ↔ _
  rw [bind_eq_error_iff, require_eq_error_iff, update_eq_none_iff]
  constructor
  · intro h
    rcases h with h | ⟨update, -, h⟩
    · exact h
    · exact nomatch h
  · exact .inl

end Row

/-! ### The breakdown of a row -/

/-- The breakdown of a row has its sizes, and the total less the signatures. -/
theorem Breakdown.ofRow_eq_ok_iff {row : Row} {b : Breakdown} :
    ofRow row = .ok b ↔ ∃ stripped : UInt64,
      stripped.toNat + row.signatureBytes.toNat = row.totalBytes.toNat ∧
      b = ⟨row.totalBytes, row.signatureCount, row.signatureBytes, stripped,
        row.updateProofBytes⟩ := by
  unfold ofRow
  rw [bind_eq_ok_iff]
  simp only [Row.strippedTotal_eq_ok_iff]
  constructor
  · intro ⟨stripped, hstripped, h⟩
    exact ⟨stripped, hstripped, (Except.ok.inj h).symm⟩
  · intro ⟨stripped, hstripped, h⟩
    exact ⟨stripped, hstripped, by rw [h]; rfl⟩

/-- A row has no breakdown where its signatures exceed its total. -/
theorem Breakdown.ofRow_eq_error_iff {row : Row} {e : ReportError} :
    ofRow row = .error e ↔ row.SignaturesExceed ∧
      e = .dataIntegrity 0 (.signaturesExceedTotal row.signatureBytes row.totalBytes) := by
  unfold ofRow
  rw [bind_eq_error_iff, Row.strippedTotal_eq_error_iff]
  constructor
  · intro h
    rcases h with h | ⟨stripped, -, h⟩
    · exact h
    · exact nomatch h
  · exact .inl

/-- Every other row has a breakdown, with its total. -/
theorem Breakdown.exists_ofRow {row : Row} (h : ¬row.SignaturesExceed) :
    ∃ b, ofRow row = .ok b ∧ b.totalBytes = row.totalBytes := by
  obtain ⟨stripped, hstripped⟩ := row.exists_stripped
  unfold Row.SignaturesExceed at h
  exact ⟨_, ofRow_eq_ok_iff.2 ⟨stripped, by omega, rfl⟩, rfl⟩

/-! ### All rows of a selection -/

section

variable {α : Type} {f : Row → Nat → Except ReportError α} {rows : List Row}

/-- Rows are numbered by their places. -/
private theorem getElem?_zipIdx_eq_some_iff {i : Nat} {z : Row × Nat} :
    rows.zipIdx[i]? = some z ↔ rows[i]? = some z.1 ∧ z.2 = i := by
  rw [List.getElem?_zipIdx, Nat.zero_add]
  cases rows[i]? with
  | none => simp
  | some r =>
    simp only [Option.map_some, Option.some.injEq, Prod.ext_iff]
    exact and_congr Iff.rfl eq_comm

/-- Something is computed for a selection if it is for every row, at the row's place. -/
theorem forRows_eq_ok_iff {xs : List α} :
    forRows f rows = .ok xs ↔ xs.length = rows.length ∧
      ∀ (i : Nat) (r : Row), rows[i]? = some r → ∃ x, xs[i]? = some x ∧ f r i = .ok x := by
  rw [forRows, mapM_eq_ok_iff, forall₂_iff_getElem?, List.length_zipIdx]
  refine and_congr Iff.rfl ?_
  constructor
  · intro h i r hr
    exact h i (r, i) (getElem?_zipIdx_eq_some_iff.2 ⟨hr, rfl⟩)
  · intro h i z hz
    obtain ⟨hr, hi⟩ := getElem?_zipIdx_eq_some_iff.1 hz
    rw [hi]
    exact h i z.1 hr

/-- What fails for a selection fails for one of its rows. -/
theorem forRows_eq_error {e : ReportError} (h : forRows f rows = .error e) :
    ∃ (i : Nat) (r : Row), rows[i]? = some r ∧ f r i = .error e := by
  obtain ⟨i, z, hfirst, he⟩ := mapM_eq_error_iff.1 h
  obtain ⟨hr, hi⟩ := getElem?_zipIdx_eq_some_iff.1 hfirst.getElem?
  rw [hi] at he
  exact ⟨i, z.1, hr, he⟩

/-- Whether something is computed for a selection is decided row by row. -/
theorem exists_forRows_eq_ok_iff {p : Row → Prop} (hp : ∀ r i, (∃ x, f r i = .ok x) ↔ p r) :
    (∃ xs, forRows f rows = .ok xs) ↔ ∀ r ∈ rows, p r := by
  constructor
  · intro ⟨xs, hxs⟩ r hr
    obtain ⟨i, hi⟩ := List.getElem?_of_mem hr
    obtain ⟨x, -, hx⟩ := (forRows_eq_ok_iff.1 hxs).2 i r hi
    exact (hp r i).1 ⟨x, hx⟩
  · intro h
    cases hxs : forRows f rows with
    | ok xs => exact ⟨xs, rfl⟩
    | error e =>
      obtain ⟨i, r, hi, he⟩ := forRows_eq_error hxs
      obtain ⟨x, hx⟩ := (hp r i).2 (h r (List.mem_of_getElem? hi))
      rw [hx] at he
      exact nomatch he

/-- What is computed for a selection is what the rows have, in their order. -/
theorem map_of_forRows_eq_ok {β : Type} {h : α → β} {g : Row → β} {xs : List α}
    (hxs : forRows f rows = .ok xs) (hg : ∀ r ∈ rows, ∀ i x, f r i = .ok x → h x = g r) :
    xs.map h = rows.map g := by
  have hmap : xs.map h = rows.zipIdx.map (g ∘ Prod.fst) := by
    apply map_of_mapM_eq_ok hxs
    intro z hz x hx
    exact hg z.1 (List.fst_mem_of_mem_zipIdx hz) z.2 x hx
  rw [hmap, ← List.map_map, List.zipIdx_map_fst]

/-- It fails for the first row for which it cannot be computed, if the row alone decides that. -/
theorem forRows_eq_error_iff {p : Row → Prop} (hp : ∀ r ∈ rows, ∀ i, (∃ e, f r i = .error e) ↔ p r)
    {e : ReportError} :
    forRows f rows = .error e ↔ ∃ i r, IsFirst p rows i r ∧ f r i = .error e := by
  have hbad : ∀ z ∈ rows.zipIdx, ((∃ e, f z.1 z.2 = .error e) ↔ p z.1) := fun z hz =>
    hp z.1 (List.fst_mem_of_mem_zipIdx hz) z.2
  rw [forRows, mapM_eq_error_iff]
  constructor
  · intro ⟨i, ⟨r, k⟩, hfirst, he⟩
    obtain ⟨hr, hk⟩ := isFirst_zipIdx_iff.1 (hfirst.congr hbad)
    rw [Nat.zero_add] at hk
    exact ⟨i, r, hr, hk ▸ he⟩
  · intro ⟨i, r, hr, he⟩
    have hfirst := isFirst_zipIdx_iff.2 ⟨hr, (Nat.zero_add i).symm⟩
    exact ⟨i, (r, i), hfirst.congr fun z hz => (hbad z hz).symm, he⟩

end

section

variable {o : Overhead} {rows : List Row} {ns ms : List UInt64} {e : ReportError}

/-- When all rows have adjusted totals. -/
theorem exists_adjustedTotals_eq_ok_iff :
    (∃ ws, adjustedTotals o rows = .ok ws) ↔
      ∀ r ∈ rows, ¬r.SignaturesExceed ∧ r.adjusted o < UInt64.size :=
  exists_forRows_eq_ok_iff fun _ _ => Row.exists_adjustedTotal_iff

/-- With its own signatures a row has its own total, so only its signatures can be at fault. -/
theorem exists_adjustedTotals_measured_iff :
    (∃ ws, adjustedTotals .measured rows = .ok ws) ↔
      ∀ r ∈ rows, r.signatureBytes.toNat ≤ r.totalBytes.toNat := by
  rw [exists_adjustedTotals_eq_ok_iff]
  refine forall_congr' fun r => forall_congr' fun _ => ?_
  have hlt := UInt64.toNat_lt_size r.totalBytes
  show ¬r.totalBytes.toNat < r.signatureBytes.toNat ∧
    r.totalBytes.toNat - r.signatureBytes.toNat + r.signatureBytes.toNat < UInt64.size ↔ _
  omega

/-- The first row with too many signature bytes decides the error. -/
theorem adjustedTotals_measured_eq_error_iff :
    adjustedTotals .measured rows = .error e ↔
      ∃ i r, IsFirst Row.SignaturesExceed rows i r ∧
        e = .dataIntegrity i (.signaturesExceedTotal r.signatureBytes r.totalBytes) := by
  have hfails : ∀ r ∈ rows, ∀ i,
      ((∃ e, r.adjustedTotal .measured i = .error e) ↔ r.SignaturesExceed) := by
    intro r _ i
    simp [Row.adjustedTotal_measured_eq_error_iff]
  rw [adjustedTotals, forRows_eq_error_iff hfails]
  refine exists_congr fun i => exists_congr fun r => and_congr_right fun hfirst => ?_
  rw [Row.adjustedTotal_measured_eq_error_iff]
  exact and_iff_right hfirst.holds

/-- When all rows have totals without caching. -/
theorem exists_uncachedTotals_eq_ok_iff :
    (∃ ws, uncachedTotals o rows = .ok ws) ↔ ∀ r ∈ rows, ¬r.SignaturesExceed ∧
      r.freshnessBytes.toNat ≤ r.uncachedFreshnessBytes.toNat ∧
      r.adjusted o + r.saved < UInt64.size :=
  exists_forRows_eq_ok_iff fun _ _ => Row.exists_uncachedTotal_iff

end

end ProofSize
