import ProofSize.Proofs.Synthetic.Failing

/-!
# More batches

A row depends on its place, on the stream of its place and on the sizes of the settings. The number of
batches is not among them, so a dataset with more batches begins with the rows of one with fewer.

## Key results

- `row_eq_rowOf`: what a row depends on
- `rowsAt_take`: a dataset with fewer batches is the beginning of one with more
- `rows_extend`: datasets that differ in the number of batches
-/

namespace ProofSize.Synthetic

open ProofSize.Random

/-- The row at a place, given the seed advanced by the place, and the sizes of a dataset. -/
def rowOf (advanced : UInt64) (index : Nat) (batchSize adsCount signatureSize : UInt64) :
    Except ReportError Row :=
  (rowFrom uniform ⟨0, batchSize, adsCount, 0, signatureSize⟩ index
    (.ofSeed (advanced * 0x517cc1b727220a95))).1

/-- Neither the number of batches nor the seed is used but for the stream of the row. -/
theorem row_eq_rowOf (c : Settings) (index : Nat) :
    row c index =
      rowOf (c.seed + UInt64.ofNat index) index c.batchSize c.adsCount c.signatureSize := rfl

section

variable {rowAt : Nat → Except ReportError Row} {c d : Settings} {rs : List Row}

/-- With fewer batches the rows are the first ones. -/
theorem rowsAt_take (hle : c.rowCount ≤ d.rowCount) (h : rowsAt rowAt d = .ok rs) :
    rowsAt rowAt c = .ok (rs.take c.rowCount) := by
  obtain ⟨hsize, hrows⟩ := rowsAt_eq_ok_iff.1 h
  refine rowsAt_eq_ok_iff.2 ⟨Nat.lt_of_le_of_lt hle hsize, ?_⟩
  have htake := List.forall₂_take c.rowCount hrows
  rwa [List.take_range, Nat.min_eq_left hle] at htake

end

/-- Of two datasets that differ in the number of batches only, the one with fewer is the beginning of
    the other. If the one with fewer fails for a quantity that is too large, so does the other. For a
    row depends on its place, the seed advanced by the place, and the sizes of the dataset only. -/
theorem rows_extend :
    (∀ (c : Settings) (more : UInt64), c.batches ≤ more →
      (∀ rs', rows { c with batches := more } = .ok rs' →
        ∃ rs, rows c = .ok rs ∧ rs.length = 3 * (c.batches.toNat + 1) ∧
          rs = rs'.take (3 * (c.batches.toNat + 1))) ∧
      ∀ e, rows c = .error e → (∃ what, e = .overflow what) ∧
        ∃ what, rows { c with batches := more } = .error (.overflow what)) ∧
    ∃ f : UInt64 → Nat → UInt64 → UInt64 → UInt64 → Except ReportError Row, ∀ c : Settings,
      (∀ i, row c i = f (c.seed + UInt64.ofNat i) i c.batchSize c.adsCount c.signatureSize) ∧
      ∀ rs, rows c = .ok rs → ∀ (i : Nat) (r : Row), rs[i]? = some r →
        f (c.seed + UInt64.ofNat i) i c.batchSize c.adsCount c.signatureSize = .ok r := by
  refine ⟨fun c more hle => ?_, rowOf, fun c => ⟨row_eq_rowOf c, fun rs hrs i r hr => ?_⟩⟩
  · have hcount : c.rowCount ≤ ({ c with batches := more } : Settings).rowCount :=
      Nat.mul_le_mul_left 3 (Nat.succ_le_succ (UInt64.le_iff_toNat_le.1 hle))
    -- rows are made one by one, so fewer of them are the first of more
    have hfewer : ∀ rs', rows { c with batches := more } = .ok rs' →
        rows c = .ok (rs'.take c.rowCount) := fun rs' => rowsAt_take hcount
    refine ⟨fun rs' hrs' => ?_, fun e he => ?_⟩
    · have hrs := hfewer rs' hrs'
      exact ⟨_, hrs, (rowsAt_eq_ok hrs).1, rfl⟩
    · obtain ⟨-, -, what, hwhat, -⟩ := rows_error_cases he
      refine ⟨⟨what, hwhat⟩, ?_⟩
      cases hmore : rows { c with batches := more } with
      | ok rs' => exact nomatch he.symm.trans (hfewer rs' hmore)
      | error e' =>
        obtain ⟨-, -, what', rfl, -⟩ := rows_error_cases hmore
        exact ⟨what', rfl⟩
  · rw [← row_eq_rowOf]
    exact (rowsAt_eq_ok hrs).2 i r hr

/-- The dataset without a batch is the beginning of the one with a batch. With very large batches there
    is no dataset of one batch, so there is none of two. -/
theorem rows_extend_oneBatch :
    (∃ rs', rows ⟨1, 5, 4, 1, 71⟩ = .ok rs' ∧ rs'.length = 6 ∧
      rows ⟨0, 5, 4, 1, 71⟩ = .ok (rs'.take 3)) ∧
    ∃ what, rows ⟨2, 18446744073709551615, 4, 1, 18446744073709551615⟩ = .error (.overflow what) := by
  constructor
  · have hok : (rows ⟨1, 5, 4, 1, 71⟩).isOk = true := by decide +kernel
    obtain ⟨rs', hrs'⟩ := exists_ok_of_isOk hok
    obtain ⟨rs, hrs, -, rfl⟩ := (rows_extend.1 ⟨0, 5, 4, 1, 71⟩ 1 (by decide)).1 rs' hrs'
    exact ⟨rs', hrs', (rowsAt_eq_ok hrs').1, hrs⟩
  · have herror : rows ⟨1, 18446744073709551615, 4, 1, 18446744073709551615⟩ =
        .error (.overflow .signatureSize) := by decide +kernel
    exact ((rows_extend.1 ⟨1, 18446744073709551615, 4, 1, 18446744073709551615⟩ 2 (by decide)).2
      _ herror).2

end ProofSize.Synthetic
