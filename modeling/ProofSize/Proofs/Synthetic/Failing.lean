import ProofSize.Proofs.Synthetic.Rows

/-!
# Why a dataset cannot be made

A dataset fails only for a quantity that 64 bits may not hold. How large each quantity of a row can be
is known from the place of the row and the settings, whatever is drawn.

## Key results

- `failsFor_makeRow`: a row fails for a quantity that can be too large
- `rowsAt_eq_ok_iff`, `rowsAt_eq_error_iff`: when a dataset is made, row by row
- `rowsAt_error_cases`: a dataset fails for a quantity that can be too large
-/

namespace ProofSize.Synthetic

open ProofSize.Random

/-- How large a quantity can be in the row at a place of the dataset. -/
def greatest (c : Settings) (index : Nat) (what : Quantity) : Nat :=
  let batch := index / 3
  let touched := index % 3 + 1
  let signatureBytes := touched * (c.signatureSize.toNat + 1)
  let updateBytes := signatureBytes + 40 + 34 * touched
  let updateProofBytes := touched * pathBytes c.adsCount + 15
  let freshnessBytes := batch * (resentBytes c.adsCount / 2)
  match what with
  | .rowCount => (c.batches.toNat + 1) * 3
  | .updatesSinceRefresh => batch * c.batchSize.toNat
  | .signatureSize => c.signatureSize.toNat + 1
  | .signatureBytes => signatureBytes
  | .updateBytes => updateBytes
  | .updateProofBytes => updateProofBytes
  | .freshnessBytes => freshnessBytes
  | .uncachedFreshnessBytes => batch * resentBytes c.adsCount
  | .totalBytes => updateBytes + updateProofBytes + freshnessBytes + framingBytes
  -- no row is compared with others
  | .signatures _ _ => 0

/-- The error tells of a quantity that can be too large in the row at a place. -/
def IsExcess (c : Settings) (index : Nat) (e : ReportError) : Prop :=
  ∃ what, e = .overflow what ∧ UInt64.size ≤ greatest c index what

/-! ### One row -/

/-- A row fails for a quantity that can be too large for a word. -/
theorem failsFor_makeRow {σ : Type} {I : σ → Prop} {draw : Source σ} (hdraw : Keeps I draw)
    (c : Settings) (index : Nat) : FailsFor I (makeRow draw c index) (IsExcess c index) := by
  -- a quantity that is not larger than it can be fails for its greatest value
  have hfit {what : Quantity} {n : Nat} (hle : n ≤ greatest c index what) :
      FailsFor I (liftM (fit what n) : Making σ UInt64) (IsExcess c index) :=
    failsFor_fit fun h => ⟨what, rfl, Nat.le_trans h hle⟩
  refine (hfit (Nat.le_refl _)).bind (ensures_fit _ _) fun updates _ => ?_
  refine (hfit (Nat.le_refl _)).bind (ensures_fit _ _) fun largest hlargest => ?_
  have hlargest : largest.toNat = c.signatureSize.toNat + 1 := hlargest
  have hsmallest : (UInt64.ofNat (c.signatureSize.toNat - 1)).toNat = c.signatureSize.toNat - 1 := by
    have hlt := UInt64.toNat_lt_size c.signatureSize
    exact UInt64.toNat_ofNat_of_lt' (by omega)
  refine (failsFor_draw _).bind (ensures_draws hdraw (by omega) _) fun signatures hsignatures => ?_
  rw [hsmallest, hlargest] at hsignatures
  refine (hfit hsignatures.2).bind (ensures_fit _ _) fun signatureBytes hsb => ?_
  have hub : signatureBytes.toNat + 40 + 34 * (index % 3 + 1) ≤ greatest c index .updateBytes :=
    Nat.add_le_add_right (Nat.add_le_add_right (hsb ▸ hsignatures.2) 40) _
  refine (hfit hub).bind (ensures_fit _ _) fun updateBytes hupdate => ?_
  refine (failsFor_draw _).bind (ensures_draw hdraw (by decide)) fun extra hextra => ?_
  have hup : (index % 3 + 1) * pathBytes c.adsCount + extra.toNat ≤
      greatest c index .updateProofBytes := Nat.add_le_add_left hextra.2 _
  refine (hfit hup).bind (ensures_fit _ _) fun updateProofBytes hupdateProof => ?_
  -- a suffix has a hash at least and half of a path at most
  obtain ⟨hrange, hlt⟩ := suffix_range c.adsCount
  have hhalf : (UInt64.ofNat (resentBytes c.adsCount / 2)).toNat = resentBytes c.adsCount / 2 :=
    UInt64.toNat_ofNat_of_lt' hlt
  have hle : (UInt64.ofNat hashBytes).toNat ≤
      (UInt64.ofNat (resentBytes c.adsCount / 2)).toNat := by
    rw [hhalf]
    exact hrange
  refine (failsFor_draw _).bind (ensures_draws hdraw hle _) fun suffixes hsuffixes => ?_
  rw [hhalf] at hsuffixes
  refine (hfit hsuffixes.2).bind (ensures_fit _ _) fun freshnessBytes hfb => ?_
  refine (hfit (Nat.le_refl _)).bind (ensures_fit _ _) fun uncachedFreshnessBytes _ => ?_
  have htotal : updateBytes.toNat + updateProofBytes.toNat + freshnessBytes.toNat + framingBytes ≤
      greatest c index .totalBytes := by
    have hfreshness : freshnessBytes.toNat ≤ greatest c index .freshnessBytes := hfb ▸ hsuffixes.2
    have hsum : updateBytes.toNat + updateProofBytes.toNat ≤
        greatest c index .updateBytes + greatest c index .updateProofBytes :=
      Nat.add_le_add (hupdate ▸ hub) (hupdateProof ▸ hup)
    exact Nat.add_le_add_right (Nat.add_le_add hsum hfreshness) _
  exact (hfit htotal).bind (ensures_fit _ _) fun _ _ => failsFor_pure _

/-- The rows that are made from draws within their ranges belong to their places, and those that are
    not made fail for a quantity that can be too large. -/
theorem rowFrom_cases {σ : Type} {draw : Source σ} (hdraw : draw.Within) (c : Settings) (index : Nat)
    (s : σ) : (∃ r, (rowFrom draw c index s).1 = .ok r ∧ Belongs c index r) ∨
      ∃ e, (rowFrom draw c index s).1 = .error e ∧ IsExcess c index e := by
  -- nothing needs to be kept of the source
  have hkeeps : Keeps (fun _ => True) draw := fun lo hi s h _ => ⟨trivial, hdraw lo hi s h⟩
  cases hrow : (rowFrom draw c index s).1 with
  | ok r => exact .inl ⟨r, rfl, (ensures_makeRow hkeeps c index s trivial).2 r hrow⟩
  | error e => exact .inr ⟨e, rfl, failsFor_makeRow hkeeps c index s trivial e hrow⟩

/-- A place has a row that belongs to it, or a quantity that is too large. -/
theorem row_cases (c : Settings) (index : Nat) :
    (∃ r, row c index = .ok r ∧ Belongs c index r) ∨
      ∃ e, row c index = .error e ∧ IsExcess c index e :=
  rowFrom_cases within_uniform c index _

/-! ### All rows -/

section

variable {rowAt : Nat → Except ReportError Row} {c : Settings} {rs : List Row} {e : ReportError}

/-- The number of rows in a dataset: three for each batch and three more. -/
def Settings.rowCount (c : Settings) : Nat := 3 * (c.batches.toNat + 1)

/-- If a word holds the number of rows, they are made one by one. -/
theorem rowsAt_eq_mapM (h : c.rowCount < UInt64.size) :
    rowsAt rowAt c = (List.range c.rowCount).mapM rowAt := by
  obtain ⟨count, hcount⟩ := Word.exists_toNat_eq h
  have hfit : fit .rowCount ((c.batches.toNat + 1) * 3) = .ok count := by
    refine require_eq_ok_iff.2 (Word.ofNat?_eq_some_iff.2 ?_)
    rw [hcount, Settings.rowCount, Nat.mul_comm]
  rw [rowsAt, hfit]
  show rowsFrom rowAt 0 count.toNat [] = _
  rw [rowsFrom_eq_mapM, hcount, List.range_eq_range']
  cases (List.range' 0 c.rowCount).mapM rowAt with
  | error e => rfl
  | ok rs => rfl

/-- If 64 bits do not hold the number of rows, there is no dataset. -/
theorem rowsAt_eq_error_of_rowCount (h : UInt64.size ≤ c.rowCount) :
    rowsAt rowAt c = .error (.overflow .rowCount) := by
  have hfit : fit .rowCount ((c.batches.toNat + 1) * 3) = .error (.overflow .rowCount) := by
    refine require_eq_error_iff.2 ⟨Word.ofNat?_eq_none_iff.2 ?_, rfl⟩
    rw [Nat.mul_comm]
    exact h
  rw [rowsAt, hfit]
  rfl

/-- A dataset is made if a word holds the number of its rows and each of them is made at its place. -/
theorem rowsAt_eq_ok_iff :
    rowsAt rowAt c = .ok rs ↔ c.rowCount < UInt64.size ∧
      List.Forall₂ (fun i r => rowAt i = .ok r) (List.range c.rowCount) rs := by
  by_cases h : c.rowCount < UInt64.size
  · rw [rowsAt_eq_mapM h, mapM_eq_ok_iff]
    exact (and_iff_right h).symm
  · rw [rowsAt_eq_error_of_rowCount (Nat.le_of_not_lt h)]
    simp [h]

/-- A dataset fails for the number of its rows, or as the first row does that cannot be made. -/
theorem rowsAt_eq_error_iff :
    rowsAt rowAt c = .error e ↔
      UInt64.size ≤ c.rowCount ∧ e = .overflow .rowCount ∨
        c.rowCount < UInt64.size ∧ ∃ i, IsFirst (fun j => ∃ e, rowAt j = .error e)
          (List.range c.rowCount) i i ∧ rowAt i = .error e := by
  by_cases h : c.rowCount < UInt64.size
  · rw [rowsAt_eq_mapM h, mapM_eq_error_iff]
    constructor
    · intro ⟨i, j, hfirst, he⟩
      -- the places are numbered from 0
      obtain rfl : i = j := by
        have hget := hfirst.getElem?
        rw [List.getElem?_eq_some_iff] at hget
        simpa using hget.2
      exact .inr ⟨h, i, hfirst, he⟩
    · intro hcases
      rcases hcases with ⟨hle, -⟩ | ⟨-, i, hfirst, he⟩
      · omega
      · exact ⟨i, i, hfirst, he⟩
  · rw [rowsAt_eq_error_of_rowCount (Nat.le_of_not_lt h)]
    simp [h, eq_comm, Nat.le_of_not_lt h]

/-- A dataset whose rows fail for quantities that can be too large does so itself. -/
theorem rowsAt_error_cases (hrow : ∀ i e, rowAt i = .error e → IsExcess c i e)
    (h : rowsAt rowAt c = .error e) : ∃ i < c.rowCount, IsExcess c i e := by
  rcases rowsAt_eq_error_iff.1 h with ⟨hle, rfl⟩ | ⟨-, i, hfirst, he⟩
  · refine ⟨0, Nat.mul_pos (by decide) (Nat.succ_pos _), .rowCount, rfl, ?_⟩
    exact Nat.le_trans hle (Nat.le_of_eq (Nat.mul_comm _ _))
  · have hmem := List.mem_of_getElem? hfirst.getElem?
    exact ⟨i, List.mem_range.1 hmem, hrow i e he⟩

end

/-- A dataset fails for a quantity that can be too large in one of its rows. -/
theorem rows_error_cases {c : Settings} {e : ReportError} (h : rows c = .error e) :
    ∃ i < c.rowCount, IsExcess c i e := by
  refine rowsAt_error_cases (fun i e he => ?_) h
  rcases row_cases c i with ⟨r, hr, -⟩ | ⟨e', he', hexcess⟩
  · exact nomatch hr.symm.trans he
  · obtain rfl := Except.error.inj (he'.symm.trans he)
    exact hexcess

end ProofSize.Synthetic
