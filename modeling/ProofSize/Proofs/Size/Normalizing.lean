import Mathlib.Data.List.Induction
import ProofSize.Proofs.Size.Totals

/-!
# Rows on another number of signatures

A row that is put on another number of signatures keeps all that does not depend on them: without its
signatures it has the same total and the same update as before. What can be done with a row in this way
is decided by that rest alone, so it does not matter how often a row has been put on other numbers of
signatures before.

## Key results

- `Row.exists_normalize_iff`, `Row.normalize_eq_ok_iff_sameRest`: when there is a new row, and which one
- `Row.normalize_eq_error_iff_not_normalizable`: why there is none
- `Row.SameRest.normalize_eq_ok_iff`: rows with the same rest have the same new rows
- `renew_eq_last`: of many steps the last one that succeeds decides
-/

namespace ProofSize

namespace Row

/-- The row can be put on `count` signatures of `size` bytes each: its own signatures are a part of its
    total and of its update, and 64 bits hold the bytes of the new ones and both results. -/
structure Normalizable (size count : UInt64) (row : Row) : Prop where
  product : size.toNat * count.toNat < UInt64.size
  total : row.signatureBytes.toNat ≤ row.totalBytes.toNat
  fitsTotal : row.totalBytes.toNat - row.signatureBytes.toNat + size.toNat * count.toNat <
    UInt64.size
  update : row.signatureBytes.toNat ≤ row.updateBytes.toNat
  fitsUpdate : row.updateBytes.toNat - row.signatureBytes.toNat + size.toNat * count.toNat <
    UInt64.size

instance (size count : UInt64) (row : Row) : Decidable (row.Normalizable size count) :=
  decidable_of_iff
    (size.toNat * count.toNat < UInt64.size ∧
      row.signatureBytes.toNat ≤ row.totalBytes.toNat ∧
      row.totalBytes.toNat - row.signatureBytes.toNat + size.toNat * count.toNat < UInt64.size ∧
      row.signatureBytes.toNat ≤ row.updateBytes.toNat ∧
      row.updateBytes.toNat - row.signatureBytes.toNat + size.toNat * count.toNat < UInt64.size)
    ⟨fun ⟨hproduct, htotal, hfitsTotal, hupdate, hfitsUpdate⟩ =>
      ⟨hproduct, htotal, hfitsTotal, hupdate, hfitsUpdate⟩,
      fun h => ⟨h.product, h.total, h.fitsTotal, h.update, h.fitsUpdate⟩⟩

/-- The row with nothing in the fields that depend on its signatures. -/
def blank (row : Row) : Row :=
  { row with signatureCount := 0, signatureBytes := 0, updateBytes := 0, totalBytes := 0 }

/-- The rows are the same but for their signatures: without these they have the same total and the same
    update, and the fields that do not depend on signatures are equal. -/
structure SameRest (r r' : Row) : Prop where
  -- differences of integers, as nothing keeps a row from having more signatures than total
  total : (r'.totalBytes.toNat : Int) - r'.signatureBytes.toNat =
    r.totalBytes.toNat - r.signatureBytes.toNat
  update : (r'.updateBytes.toNat : Int) - r'.signatureBytes.toNat =
    r.updateBytes.toNat - r.signatureBytes.toNat
  others : r'.blank = r.blank

variable {r r' r'' : Row} {size count : UInt64}

/-- A row has the rest that it has. -/
theorem SameRest.refl (r : Row) : r.SameRest r := ⟨rfl, rfl, rfl⟩

/-- It does not matter which of the two rows comes first. -/
theorem SameRest.symm (h : r.SameRest r') : r'.SameRest r :=
  ⟨h.total.symm, h.update.symm, h.others.symm⟩

/-- Rows with the rest of one row have the same rest. -/
theorem SameRest.trans (h : r.SameRest r') (h' : r'.SameRest r'') : r.SameRest r'' :=
  ⟨h'.total.trans h.total, h'.update.trans h.update, h'.others.trans h.others⟩

/-- Rows with the same rest both have their signatures within their totals, or neither has. -/
theorem SameRest.signaturesExceed_iff (h : r.SameRest r') :
    r'.SignaturesExceed ↔ r.SignaturesExceed := by
  have htotal := h.total
  unfold SignaturesExceed
  omega

/-- What is left of the total beside the signatures is left of the other total, too. -/
theorem SameRest.add_signatures_iff (h : r.SameRest r') {n : Nat} :
    n + r'.signatureBytes.toNat = r'.totalBytes.toNat ↔
      n + r.signatureBytes.toNat = r.totalBytes.toNat := by
  have htotal := h.total
  omega

/-- A row is known by its signatures, its total, its update and the fields that do not depend on them. -/
theorem eq_of_blank_eq (h : r'.blank = r.blank) :
    r' = { r with signatureCount := r'.signatureCount, signatureBytes := r'.signatureBytes,
                  updateBytes := r'.updateBytes, totalBytes := r'.totalBytes } := by
  cases r
  cases r'
  simp only [blank, Row.mk.injEq] at h ⊢
  simp [h]

/-! ### The new row -/

/-- The new row has the new signatures, and the rest of the old one. -/
theorem normalize_eq_ok_iff_sameRest :
    r.normalize size count = .ok r' ↔ r.Normalizable size count ∧ r'.signatureCount = count ∧
      r'.signatureBytes.toNat = size.toNat * count.toNat ∧ r.SameRest r' := by
  rw [normalize_eq_ok_iff]
  constructor
  · intro ⟨bytes, total, update, hbytes, ⟨hexceed, htotal⟩, ⟨hle, hupdate⟩, hr'⟩
    have hsum : total.toNat = r.totalBytes.toNat - r.signatureBytes.toNat + bytes.toNat := htotal
    have hbytesLt := UInt64.toNat_lt_size bytes
    have htotalLt := UInt64.toNat_lt_size total
    have hupdateLt := UInt64.toNat_lt_size update
    unfold SignaturesExceed at hexceed
    subst hr'
    refine ⟨⟨by omega, by omega, by omega, hle, by omega⟩, rfl, hbytes, ?_, ?_, rfl⟩
    · show (total.toNat : Int) - bytes.toNat = _
      omega
    · show (update.toNat : Int) - bytes.toNat = _
      omega
  · -- the sizes of the new row are those that the exact results leave no choice for
    intro ⟨hnorm, hcount, hbytes, hrest⟩
    have hwithin := hnorm.total
    have hwithinUpdate := hnorm.update
    have htotal := hrest.total
    have hupdate := hrest.update
    refine ⟨r'.signatureBytes, r'.totalBytes, r'.updateBytes, hbytes,
      ⟨Nat.not_lt.2 hwithin, ?_⟩, ⟨hwithinUpdate, by omega⟩, ?_⟩
    · show r'.totalBytes.toNat =
        r.totalBytes.toNat - r.signatureBytes.toNat + r'.signatureBytes.toNat
      omega
    · rw [← hcount]
      exact eq_of_blank_eq hrest.others

/-- There is a new row if the row can be put on the new signatures. -/
theorem exists_normalize_iff :
    (∃ r', r.normalize size count = .ok r') ↔ r.Normalizable size count := by
  constructor
  · intro ⟨r', hr'⟩
    exact (normalize_eq_ok_iff_sameRest.1 hr').1
  · intro h
    obtain ⟨bytes, hbytes⟩ := Word.exists_toNat_eq h.product
    obtain ⟨total, htotal⟩ := Word.exists_toNat_eq h.fitsTotal
    obtain ⟨update, hupdate⟩ := Word.exists_toNat_eq h.fitsUpdate
    rw [← hbytes] at htotal hupdate
    exact ⟨_, normalize_eq_ok_iff.2 ⟨bytes, total, update, hbytes,
      ⟨Nat.not_lt.2 h.total, htotal⟩, ⟨h.update, hupdate⟩, rfl⟩⟩

/-- A new row has its signatures within its total. -/
theorem not_signaturesExceed_of_normalize (h : r.normalize size count = .ok r') :
    ¬r'.SignaturesExceed := by
  obtain ⟨hnorm, -, -, hrest⟩ := normalize_eq_ok_iff_sameRest.1 h
  exact hrest.signaturesExceed_iff.not.2 (Nat.not_lt.2 hnorm.total)

/-- What can be made of a row depends on the rest of it alone. -/
theorem SameRest.normalizable_iff (h : r.SameRest r') :
    r'.Normalizable size count ↔ r.Normalizable size count := by
  -- one direction is enough, as it does not matter which of the rows comes first
  have key : ∀ {r r' : Row}, r.SameRest r' → r.Normalizable size count →
      r'.Normalizable size count := by
    intro r r' h hnorm
    have htotal := h.total
    have hupdate := h.update
    obtain ⟨hproduct, hle, hfits, hleUpdate, hfitsUpdate⟩ := hnorm
    exact ⟨hproduct, by omega, by omega, by omega, by omega⟩
  exact ⟨key h.symm, key h⟩

/-- Rows with the same rest have the same new rows. -/
theorem SameRest.normalize_eq_ok_iff (h : r.SameRest r') :
    r'.normalize size count = .ok r'' ↔ r.normalize size count = .ok r'' := by
  have hrest : r'.SameRest r'' ↔ r.SameRest r'' := ⟨h.trans, h.symm.trans⟩
  rw [normalize_eq_ok_iff_sameRest, normalize_eq_ok_iff_sameRest, h.normalizable_iff, hrest]

/-- Why there is no new row: 64 bits do not hold the new signatures, the row has no total with them, or
    its update cannot have them. -/
def normalizeFault (size count : UInt64) (row : Row) : ReportError :=
  if UInt64.size ≤ size.toNat * count.toNat then .overflow (.signatures count size)
  else if row.totalBytes.toNat < row.signatureBytes.toNat ∨
      UInt64.size ≤
        row.totalBytes.toNat - row.signatureBytes.toNat + size.toNat * count.toNat then
    .dataIntegrity 0 row.adjustedFault
  else .dataIntegrity 0 (.signaturesExceedUpdate row.signatureBytes row.updateBytes)

section

variable {bytes : UInt64}

/-- Where 64 bits hold the new signatures, the row must have a total with them, and an update. -/
private theorem normalizable_iff (hbytes : bytes.toNat = size.toNat * count.toNat) :
    r.Normalizable size count ↔ r.HasTotal (.fixed bytes) ∧ ¬r.UpdateUnfit bytes.toNat := by
  have hlt := UInt64.toNat_lt_size bytes
  have hadjusted : r.adjusted (.fixed bytes) =
      r.totalBytes.toNat - r.signatureBytes.toNat + bytes.toNat := rfl
  unfold UpdateUnfit
  constructor
  · intro ⟨_, htotal, hfits, hupdate, hfitsUpdate⟩
    exact ⟨⟨htotal, by omega⟩, by omega⟩
  · intro ⟨⟨htotal, hfits⟩, hupdate⟩
    exact ⟨by omega, htotal, by omega, by omega, by omega⟩

/-- Where 64 bits hold the new signatures, the fault is with the update if there is a total. -/
private theorem normalizeFault_eq (hbytes : bytes.toNat = size.toNat * count.toNat) :
    r.normalizeFault size count =
      if r.HasTotal (.fixed bytes) then
        .dataIntegrity 0 (.signaturesExceedUpdate r.signatureBytes r.updateBytes)
      else .dataIntegrity 0 r.adjustedFault := by
  have hlt := UInt64.toNat_lt_size bytes
  have hadjusted : r.adjusted (.fixed bytes) =
      r.totalBytes.toNat - r.signatureBytes.toNat + bytes.toNat := rfl
  rw [normalizeFault, if_neg (by omega), ← hbytes]
  by_cases h : r.HasTotal (.fixed bytes)
  · have hwithin := h.signatures
    have hfits := h.fits
    rw [if_pos h, if_neg (by omega)]
  · rw [if_neg h, if_pos]
    by_contra hfits
    exact h ⟨by omega, by omega⟩

/-- A row without a total with the new signatures fails for that. -/
private theorem normalize_of_not_hasTotal (hbytes : bytesOfSignatures size count = .ok bytes)
    (h : ¬r.HasTotal (.fixed bytes)) :
    r.normalize size count = .error (.dataIntegrity 0 r.adjustedFault) := by
  rw [normalize, hbytes]
  show (r.adjustedTotal (.fixed bytes) 0 >>= _) = _
  rw [adjustedTotal_eq_error_iff_not_hasTotal.2 ⟨h, rfl⟩]
  rfl

end

/-- A row that cannot be put on the new signatures fails for the reason that is named. -/
private theorem normalize_eq_error (h : ¬r.Normalizable size count) :
    r.normalize size count = .error (r.normalizeFault size count) := by
  by_cases hproduct : UInt64.size ≤ size.toNat * count.toNat
  · rw [normalize, bytesOfSignatures_eq_error_iff.2 ⟨hproduct, rfl⟩, normalizeFault,
      if_pos hproduct]
    rfl
  · obtain ⟨bytes, hvalue⟩ := Word.exists_toNat_eq (Nat.not_le.1 hproduct)
    have hbytes := bytesOfSignatures_eq_ok_iff.2 hvalue
    rw [normalizeFault_eq hvalue]
    by_cases hhas : r.HasTotal (.fixed bytes)
    · -- the update is all that is left to fail
      obtain ⟨n, hn⟩ := exists_adjustedTotal_iff.2 (hasTotal_iff.1 hhas)
      rw [if_pos hhas, normalize_eq_error_iff hbytes hn]
      exact ⟨not_not.1 fun hunfit => h ((normalizable_iff hvalue).2 ⟨hhas, hunfit⟩), rfl⟩
    · rw [if_neg hhas]
      exact normalize_of_not_hasTotal hbytes hhas

/-- A row that cannot be put on the new signatures fails for the first reason that there is. -/
theorem normalize_eq_error_iff_not_normalizable {e : ReportError} :
    r.normalize size count = .error e ↔
      ¬r.Normalizable size count ∧ e = r.normalizeFault size count := by
  constructor
  · intro he
    have hnone : ¬r.Normalizable size count := fun hnorm => by
      obtain ⟨r', hr'⟩ := exists_normalize_iff.2 hnorm
      exact nomatch he.symm.trans hr'
    exact ⟨hnone, Except.error.inj (he.symm.trans (normalize_eq_error hnone))⟩
  · intro ⟨hnone, he⟩
    rw [he]
    exact normalize_eq_error hnone

/-- It is never the reason that there is no row. -/
theorem normalizeFault_ne_missingRow (size count : UInt64) (row : Row) (what : Representative) :
    row.normalizeFault size count ≠ .missingRow what := by
  unfold normalizeFault
  split
  · exact nofun
  · split
    · exact nofun
    · exact nofun

end Row

/-! ### Many steps -/

/-- A row that is put on one number of signatures after the other: what it is now, and the last step
    that succeeded, a size of signatures and a number of them. -/
structure Renewal where
  row : Row
  last : Option (UInt64 × UInt64)

/-- Puts the row on another number of signatures. If this fails, it stays as it is. -/
def Renewal.step (s : Renewal) (p : UInt64 × UInt64) : Renewal :=
  match s.row.normalize p.1 p.2 with
  | .ok row => ⟨row, some p⟩
  | .error _ => s

/-- The steps one after the other. -/
def Row.renew (r : Row) (steps : List (UInt64 × UInt64)) : Renewal :=
  steps.foldl Renewal.step ⟨r, none⟩

/-- The row is what its last step alone makes of the row that it was at first. -/
inductive Renewal.Follows (r : Row) : Renewal → Prop
  | start : Follows r ⟨r, none⟩
  | step {p : UInt64 × UInt64} {row : Row} :
      r.normalize p.1 p.2 = .ok row → Follows r ⟨row, some p⟩

section

variable {r : Row} {s : Renewal} {p : UInt64 × UInt64} {steps : List (UInt64 × UInt64)}

/-- No step changes what does not depend on signatures. -/
theorem Renewal.Follows.sameRest (h : Follows r s) : r.SameRest s.row := by
  cases h with
  | start => exact Row.SameRest.refl r
  | step hrow => exact (Row.normalize_eq_ok_iff_sameRest.1 hrow).2.2.2

/-- Without a step that succeeded the row is the one that there was at first. -/
theorem Renewal.Follows.row_eq_of_none (h : Follows r s) (hlast : s.last = none) : s.row = r := by
  cases h with
  | start => rfl
  | step => exact nomatch hlast

/-- After a step that succeeded the row is what this step makes of the one that there was at first. -/
theorem Renewal.Follows.normalize_eq_of_some (h : Follows r s) (hlast : s.last = some p) :
    r.normalize p.1 p.2 = .ok s.row := by
  cases h with
  | start => exact nomatch hlast
  | step hrow =>
    obtain rfl := Option.some.inj hlast
    exact hrow

/-- A step does what it would do to the row that there was at first. -/
theorem Renewal.Follows.step_cases (h : Follows r s) (p : UInt64 × UInt64) :
    (∃ row, r.normalize p.1 p.2 = .ok row ∧ s.step p = ⟨row, some p⟩) ∨
      ¬r.Normalizable p.1 p.2 ∧ s.step p = s := by
  cases hrow : s.row.normalize p.1 p.2 with
  | ok row =>
    refine .inl ⟨row, h.sameRest.normalize_eq_ok_iff.1 hrow, ?_⟩
    rw [Renewal.step, hrow]
  | error e =>
    refine .inr ⟨fun hnorm => ?_, by rw [Renewal.step, hrow]⟩
    obtain ⟨row, hok⟩ := Row.exists_normalize_iff.2 (h.sameRest.normalizable_iff.2 hnorm)
    exact nomatch hrow.symm.trans hok

/-- One more step keeps to what a single step makes of the row that there was at first. -/
theorem Renewal.Follows.of_step (h : Follows r s) (p : UInt64 × UInt64) :
    Follows r (s.step p) := by
  rcases h.step_cases p with ⟨row, hrow, hstep⟩ | ⟨-, hstep⟩
  · rw [hstep]
    exact .step hrow
  · rw [hstep]
    exact h

/-- The step at the end of the list is done last. -/
theorem Row.renew_append (r : Row) (steps : List (UInt64 × UInt64)) (p : UInt64 × UInt64) :
    r.renew (steps ++ [p]) = (r.renew steps).step p := by
  simp [renew]

/-- However many steps there are, the row is what the last successful one makes of the first row. -/
theorem Row.follows_renew (r : Row) (steps : List (UInt64 × UInt64)) :
    Renewal.Follows r (r.renew steps) := by
  -- the step that is done last is the last one of the list
  induction steps using List.reverseRecOn with
  | nil => exact .start
  | append_singleton steps p ih =>
    rw [renew_append]
    exact ih.of_step p

/-- The last step that succeeds is the last one that would succeed with the row that there was at
    first. -/
theorem Row.last_renew (r : Row) (steps : List (UInt64 × UInt64)) :
    (r.renew steps).last =
      steps.reverse.find? fun p => decide (r.Normalizable p.1 p.2) := by
  induction steps using List.reverseRecOn with
  | nil => rfl
  | append_singleton steps p ih =>
    rw [renew_append, List.reverse_append, List.reverse_singleton, List.singleton_append,
      List.find?_cons]
    -- the last step counts if it succeeds, and otherwise the last one before it
    rcases (r.follows_renew steps).step_cases p with ⟨row, hrow, hstep⟩ | ⟨hnone, hstep⟩
    · have hnorm := exists_normalize_iff.1 ⟨row, hrow⟩
      simp [hstep, hnorm]
    · simp [hstep, hnone, ih]

/-- However often a row is put on other numbers of signatures, each step succeeds if it would with the
    row that there was at first, and the last one that does makes of the row what it would make of that
    row. What does not depend on signatures never changes. -/
theorem renew_eq_last (r : Row) (steps : List (UInt64 × UInt64)) :
    (∀ i p, steps[i]? = some p →
      ((∃ r', (r.renew (steps.take i)).row.normalize p.1 p.2 = .ok r') ↔
        ∃ r', r.normalize p.1 p.2 = .ok r')) ∧
    ((r.renew steps).last = steps.reverse.find? fun p => decide (r.Normalizable p.1 p.2)) ∧
    ((r.renew steps).last = none → (r.renew steps).row = r) ∧
    (∀ p, (r.renew steps).last = some p →
      r.normalize p.1 p.2 = .ok (r.renew steps).row) ∧
    (∀ i, r.SameRest (r.renew (steps.take i)).row) ∧
    ∀ size count, (∃ r', r.normalize size count = .ok r') ↔ r.Normalizable size count := by
  have hfinal := r.follows_renew steps
  refine ⟨fun i p _ => ?_, r.last_renew steps, hfinal.row_eq_of_none,
    fun _ => hfinal.normalize_eq_of_some, fun i => ?_, fun _ _ => Row.exists_normalize_iff⟩
  · -- the row that a step comes to has the same rest as the first one
    rw [Row.exists_normalize_iff, Row.exists_normalize_iff]
    exact (r.follows_renew (steps.take i)).sameRest.normalizable_iff
  · exact (r.follows_renew (steps.take i)).sameRest

/-- A transfer of two signatures. -/
private def twoSigned : Row := ⟨0, 0, some 2, 2, 142, 250, 66, 33, 66, 600, none⟩

/-- The third step needs more bytes than 64 bits hold, so the second one is the last that counts. -/
theorem renew_eq_last_ofThree :
    (twoSigned.renew [(71, 3), (64, 4), (9223372036854775808, 2)]).last = some (64, 4) ∧
      twoSigned.normalize 64 4 =
        .ok (twoSigned.renew [(71, 3), (64, 4), (9223372036854775808, 2)]).row := by
  obtain ⟨-, hlast, -, hrow, -, -⟩ :=
    renew_eq_last twoSigned [(71, 3), (64, 4), (9223372036854775808, 2)]
  have hfour : (twoSigned.renew [(71, 3), (64, 4), (9223372036854775808, 2)]).last =
      some (64, 4) := by
    rw [hlast]
    decide
  exact ⟨hfour, hrow (64, 4) hfour⟩

end

end ProofSize
