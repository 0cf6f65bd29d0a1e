import ProofSize.Proofs.Size
import ProofSize.Proofs.View.Scenarios

/-!
# The view by number of signatures

Each configured number of signatures has a series of the rows that carry as many. A number that no row
carries has none, and the view fails for the first such number.

## Key results

- `exists_signatureSeries_iff`: when there are series
- `signatureSeries_eq_error`: a number of signatures without rows
-/

namespace ProofSize.View

variable {config : Config} {rows : List Row} {n : UInt64} {i : Nat} {e : ReportError}

/-- The series of the rows with a number of signatures, drawn as the one at a place. -/
def signatureLine (rows : List Row) (z : UInt64 × Nat) : Except ReportError Series := do
  let selected ← (Selector.signatures z.1).selectSome rows
  let ys ← adjustedTotals .measured selected
  return .ofLists s!"{z.1.toNat} signatures" .updatesSinceRefresh (.ofIndex z.2 .solid)
    (selected.map fun r => .ofWord r.updatesSinceRefresh) (ys.map .ofWord)

/-- A number of signatures has a series if there are rows with as many, which have sizes. -/
theorem exists_signatureLine_iff :
    (∃ line, signatureLine rows (n, i) = .ok line) ↔
      (Selector.signatures n).select rows ≠ [] ∧
        ∀ r ∈ (Selector.signatures n).select rows,
          r.signatureBytes.toNat ≤ r.totalBytes.toNat := by
  unfold signatureLine
  simp only [bind_eq_ok_iff, Selector.selectSome_eq_ok_iff]
  rw [← exists_adjustedTotals_measured_iff]
  constructor
  · intro ⟨_, selected, ⟨hselected, hne⟩, ys, hys, _⟩
    subst hselected
    exact ⟨hne, ys, hys⟩
  · intro ⟨hne, ys, hys⟩
    exact ⟨_, _, ⟨rfl, hne⟩, ys, hys, rfl⟩

/-- There are series if each number of signatures has rows, which have sizes. -/
theorem exists_signatureSeries_iff :
    (∃ series, signatureSeries config rows = .ok series) ↔
      ∀ n ∈ config.signatureCounts, (Selector.signatures n).select rows ≠ [] ∧
        ∀ r ∈ (Selector.signatures n).select rows,
          r.signatureBytes.toNat ≤ r.totalBytes.toNat := by
  have hlines : (∃ series, signatureSeries config rows = .ok series) ↔
      ∀ z ∈ config.signatureCounts.zipIdx, ∃ line, signatureLine rows z = .ok line :=
    exists_mapM_eq_ok_iff
  rw [hlines]
  constructor
  · intro h n hn
    obtain ⟨i, hi⟩ := List.getElem?_of_mem hn
    have hz : config.signatureCounts.zipIdx[i]? = some (n, i) := by simp [hi]
    exact exists_signatureLine_iff.1 (h (n, i) (List.mem_of_getElem? hz))
  · intro h z hz
    exact exists_signatureLine_iff.2 (h z.1 (List.fst_mem_of_mem_zipIdx hz))

/-- The view fails for the first number of signatures that no row carries, if those before have
    series. -/
theorem signatureSeries_eq_error
    (hfirst : IsFirst (fun n => ¬∃ line, signatureLine rows (n, 0) = .ok line)
      config.signatureCounts i n)
    (hnone : (Selector.signatures n).select rows = []) :
    signatureSeries config rows = .error (.emptySelection (.signatures n)) := by
  have hfails : ∀ z : UInt64 × Nat, (¬∃ line, signatureLine rows (z.1, 0) = .ok line) ↔
      ∃ e, signatureLine rows z = .error e := by
    intro z
    -- whether there is a series does not depend on how it is drawn
    rw [exists_signatureLine_iff, ← exists_signatureLine_iff (i := z.2)]
    cases signatureLine rows z <;> simp
  have herror : signatureLine rows (n, i) = .error (.emptySelection (.signatures n)) := by
    rw [signatureLine, Selector.selectSome, hnone]
    rfl
  have hplace := isFirst_zipIdx_iff.2 ⟨hfirst, (Nat.zero_add i).symm⟩
  exact mapM_eq_error_iff.2 ⟨i, (n, i), hplace.congr fun z _ => hfails z, herror⟩

end ProofSize.View
