import Mathlib.Algebra.Group.Nat.Defs
import ProofSize.Proofs.Synthetic.Failing
import ProofSize.Proofs.View.Breakdown
import ProofSize.Proofs.View.Optimization
import ProofSize.Proofs.View.Scale
import ProofSize.Proofs.View.Signatures

/-!
# Synthetic datasets can be reported

With a moderate number of batches and moderate signatures only the counter of updates can be too large
for a word, so it decides whether there is a dataset. The sizes of its rows never contradict each other
and leave room for other signatures, and each scenario has rows. So every view shows a dataset, but for
the server size zero and for numbers of signatures that no row carries.

## Key results

- `excess_of_moderate`: the only quantity that can be too large
- `mem_rows_cases`, `exists_mem_rows`: the rows of a dataset are those of its places
- `Belongs.sound`: sizes of a row go together
- `rows_reportable`: when there is a dataset, and which views show it
-/

namespace ProofSize.Synthetic

/-! ### Moderate settings -/

/-- The settings are moderate: a dataset of these has sizes that are far from the greatest word. -/
structure Moderate (c : Settings) : Prop where
  batches : c.batches.toNat ≤ 2 ^ 50
  signatureSize : c.signatureSize.toNat ≤ 2 ^ 60

section

variable {c : Settings} {index : Nat} {e : ReportError} {r : Row} {rs : List Row}

/-- A path has 64 hashes at most. -/
private theorem pathBytes_le (adsCount : UInt64) : pathBytes adsCount ≤ 2112 := by
  have hdepth := treeDepth_le adsCount
  unfold pathBytes hashBytes
  omega

/-- What is sent again has no more bytes than the longest path. -/
private theorem resentBytes_le (adsCount : UInt64) : resentBytes adsCount ≤ 2112 := by
  have hpath := pathBytes_le adsCount
  unfold resentBytes hashBytes
  omega

/-- The place of a row is in one of the batches. -/
private theorem batch_le (h : index < c.rowCount) : index / 3 ≤ c.batches.toNat := by
  unfold Settings.rowCount at h
  omega

/-- What is multiplied by the batch of a row is multiplied by `2 ^ 50` at most. -/
private theorem batch_mul_le (hc : Moderate c) (h : index < c.rowCount) {n : Nat} (hn : n ≤ 2112) :
    index / 3 * n ≤ 2 ^ 50 * 2112 :=
  Nat.mul_le_mul (Nat.le_trans (batch_le h) hc.batches) hn

/-- The signatures of a row are three at most. -/
private theorem touched_mul_le {n m : Nat} (hn : n ≤ m) : (index % 3 + 1) * n ≤ 3 * m :=
  Nat.mul_le_mul (by omega) hn

/-- Only the counter of updates can be too large. -/
theorem excess_of_moderate (hc : Moderate c) (h : index < c.rowCount) (he : IsExcess c index e) :
    e = .overflow .updatesSinceRefresh ∧
      UInt64.size ≤ c.batches.toNat * c.batchSize.toNat := by
  obtain ⟨what, rfl, hsize⟩ := he
  have hbatches := hc.batches
  have hsignature := hc.signatureSize
  have hsignatures : (index % 3 + 1) * (c.signatureSize.toNat + 1) ≤ 3 * (2 ^ 60 + 1) :=
    touched_mul_le (by omega)
  have hproof : (index % 3 + 1) * pathBytes c.adsCount ≤ 3 * 2112 :=
    touched_mul_le (pathBytes_le c.adsCount)
  have hresent := resentBytes_le c.adsCount
  have hsuffixes := batch_mul_le hc h (n := resentBytes c.adsCount / 2) (by omega)
  have huncached := batch_mul_le hc h hresent
  unfold UInt64.size at hsize ⊢
  -- all other quantities are bounded by sums of the bounds above
  cases what with
  | updatesSinceRefresh =>
    exact ⟨rfl, Nat.le_trans hsize (Nat.mul_le_mul_right _ (batch_le h))⟩
  | _ =>
    simp only [greatest, framingBytes] at hsize
    omega

/-! ### The rows of a dataset -/

/-- The rows of a dataset belong to its places. -/
theorem mem_rows_cases (h : rows c = .ok rs) (hr : r ∈ rs) :
    ∃ i < c.rowCount, Belongs c i r := by
  obtain ⟨i, hi⟩ := List.getElem?_of_mem hr
  obtain ⟨hlen, hmade⟩ := rowsAt_eq_ok h
  have hlt : i < rs.length := (List.getElem?_eq_some_iff.1 hi).1
  rcases row_cases c i with ⟨r', hr', hbelongs⟩ | ⟨e, he, -⟩
  · obtain rfl := Except.ok.inj (hr'.symm.trans (hmade i r hi))
    exact ⟨i, by rw [Settings.rowCount, ← hlen]; exact hlt, hbelongs⟩
  · cases he.symm.trans (hmade i r hi)

/-- Each place of a dataset has a row. -/
theorem exists_mem_rows (h : rows c = .ok rs) (index : Nat) (hi : index < c.rowCount) :
    ∃ r ∈ rs, Belongs c index r := by
  obtain ⟨hlen, hmade⟩ := rowsAt_eq_ok h
  have hlt : index < rs.length := by rw [hlen]; exact hi
  have hget : rs[index]? = some rs[index] := List.getElem?_eq_getElem hlt
  refine ⟨rs[index], List.getElem_mem hlt, ?_⟩
  rcases row_cases c index with ⟨r, hr, hbelongs⟩ | ⟨e, he, -⟩
  · obtain rfl := Except.ok.inj (hr.symm.trans (hmade index _ hget))
    exact hbelongs
  · cases he.symm.trans (hmade index _ hget)

/-- There is a dataset if a word holds the counter of updates of the last batch. -/
theorem rows_eq_error (hc : Moderate c) (h : UInt64.size ≤ c.batches.toNat * c.batchSize.toNat) :
    rows c = .error (.overflow .updatesSinceRefresh) := by
  cases hrows : rows c with
  | error e =>
    obtain ⟨i, hi, hexcess⟩ := rows_error_cases hrows
    rw [(excess_of_moderate hc hi hexcess).1]
  | ok rs =>
    -- the counter of the last batch would be a word
    have hlast : 3 * c.batches.toNat < c.rowCount := by unfold Settings.rowCount; omega
    obtain ⟨r, -, hbelongs⟩ := exists_mem_rows hrows _ hlast
    have hlt := UInt64.toNat_lt_size r.updatesSinceRefresh
    rw [hbelongs.updatesSinceRefresh, Nat.mul_div_cancel_left _ (by decide)] at hlt
    omega

/-- There is a dataset if a word holds the product of batches and their size. -/
theorem exists_rows (hc : Moderate c) (h : c.batches.toNat * c.batchSize.toNat < UInt64.size) :
    ∃ rs, rows c = .ok rs := by
  cases hrows : rows c with
  | ok rs => exact ⟨rs, rfl⟩
  | error e =>
    obtain ⟨i, hi, hexcess⟩ := rows_error_cases hrows
    have hle := (excess_of_moderate hc hi hexcess).2
    omega

/-! ### The sizes of a row -/

/-- The sizes of the row go together: the signatures are part of the update and the update of the total,
    caching saves bytes, and three more signatures of standard size can be added. -/
structure Sound (r : Row) : Prop where
  signatures : r.signatureBytes.toNat ≤ r.updateBytes.toNat
  update : r.updateBytes.toNat ≤ r.totalBytes.toNat
  cached : r.freshnessBytes.toNat ≤ r.uncachedFreshnessBytes.toNat
  fits : r.totalBytes.toNat + 213 + r.saved < UInt64.size

/-- With moderate settings the sizes of a row go together. -/
theorem Belongs.sound (hc : Moderate c) (hi : index < c.rowCount) (h : Belongs c index r) :
    Sound r := by
  have hupdate := h.updateBytes
  have htotal := h.totalBytes
  have htwice := h.twice
  refine ⟨by omega, by omega, by omega, ?_⟩
  -- each part is far below a word, so their sum is too
  have hsignature := hc.signatureSize
  have hsignatures : r.signatureBytes.toNat ≤ 3 * (2 ^ 60 + 1) :=
    Nat.le_trans h.signatureBytes.2 (touched_mul_le (by omega))
  have hdepth := treeDepth_le c.adsCount
  have hproof : r.updateProofBytes.toNat ≤ 3 * 2112 + 15 :=
    Nat.le_trans h.updateProofBytes.2 (Nat.add_le_add_right (touched_mul_le (by omega)) 15)
  have huncached : r.uncachedFreshnessBytes.toNat ≤ 2 ^ 50 * 2112 :=
    h.uncachedFreshnessBytes ▸ batch_mul_le hc hi (by omega)
  unfold Row.saved UInt64.size
  omega

/-- With standard signatures or its own ones a sound row has all its totals. -/
theorem Sound.totals (h : Sound r) {o : Overhead} (ho : (o.bytes r).toNat ≤ 213 ∨ o = .measured) :
    ¬r.SignaturesExceed ∧ r.adjusted o + r.saved < UInt64.size := by
  obtain ⟨hsignatures, hupdate, -, hfits⟩ := h
  unfold Row.SignaturesExceed
  refine ⟨by omega, ?_⟩
  rcases ho with ho | rfl
  · unfold Row.adjusted
    omega
  · show r.totalBytes.toNat - r.signatureBytes.toNat + r.signatureBytes.toNat + r.saved < _
    omega

end

/-! ### Views of a dataset -/

section

open View

variable {c : Settings} {rs : List Row} {s : Scenario}

/-- Compared scenarios are charged three signatures of standard size. -/
private theorem standard_overhead (s : Scenario) :
    ∃ o, Config.standard.overhead s = .ok o ∧
      ∀ r : Row, (o.bytes r).toNat ≤ 213 ∨ o = .measured := by
  cases s with
  | issued => exact ⟨.measured, rfl, fun _ => .inr rfl⟩
  | transferred | loaned => exact ⟨.fixed 213, rfl, fun _ => .inl (Nat.le_refl 213)⟩

/-- Each scenario has a row of the first batch. -/
private theorem exists_accepts (h : rows c = .ok rs) (s : Scenario) :
    ∃ r ∈ rs, s.selector.accepts r = true := by
  -- the first three rows touch one, two and three data structures
  have hplace : ∃ i < 3, i + 1 = s.adsModified.toNat := by
    cases s with
    | issued => exact ⟨0, by decide, rfl⟩
    | transferred => exact ⟨1, by decide, rfl⟩
    | loaned => exact ⟨2, by decide, rfl⟩
  obtain ⟨i, hi, htouched⟩ := hplace
  obtain ⟨r, hr, hbelongs⟩ := exists_mem_rows h i (by unfold Settings.rowCount; omega)
  refine ⟨r, hr, ?_⟩
  obtain ⟨n, hn, hnat⟩ := Option.map_eq_some_iff.1 hbelongs.adsModified
  rw [Nat.mod_eq_of_lt hi, htouched] at hnat
  obtain rfl := UInt32.toNat_inj.1 hnat
  simp [Scenario.selector, Selector.accepts, hn]

/-- Each scenario has rows. -/
private theorem select_ne_nil (h : rows c = .ok rs) (s : Scenario) : s.selector.select rs ≠ [] := by
  obtain ⟨r, hr, haccepts⟩ := exists_accepts h s
  exact List.ne_nil_of_mem (List.mem_filter.2 ⟨hr, haccepts⟩)

section

variable (hsound : ∀ r ∈ rs, Sound r)

include hsound

/-- The totals of each scenario can be told. -/
private theorem exists_adjustedSizes (h : rows c = .ok rs) (s : Scenario) :
    ∃ z, scenarioSizes .standard rs adjustedTotals s = .ok z := by
  obtain ⟨o, ho, hbytes⟩ := standard_overhead s
  obtain ⟨ws, hws⟩ : ∃ ws, adjustedTotals o (s.selector.select rs) = .ok ws := by
    refine exists_adjustedTotals_eq_ok_iff.2 fun r hr => ?_
    obtain ⟨hexceed, hsum⟩ := (hsound r (List.mem_filter.1 hr).1).totals (hbytes r)
    exact ⟨hexceed, by omega⟩
  exact ⟨(s, ws), scenarioSizes_eq_ok_iff.2 ⟨select_ne_nil h s, rfl, o, ho, hws⟩⟩

/-- The totals of each scenario can be told without caching as well. -/
private theorem exists_uncachedSizes (h : rows c = .ok rs) (s : Scenario) :
    ∃ z, scenarioSizes .standard rs uncachedTotals s = .ok z := by
  obtain ⟨o, ho, hbytes⟩ := standard_overhead s
  obtain ⟨ws, hws⟩ : ∃ ws, uncachedTotals o (s.selector.select rs) = .ok ws := by
    refine exists_uncachedTotals_eq_ok_iff.2 fun r hr => ?_
    have hr := hsound r (List.mem_filter.1 hr).1
    exact ⟨(hr.totals (hbytes r)).1, hr.cached, (hr.totals (hbytes r)).2⟩
  exact ⟨(s, ws), scenarioSizes_eq_ok_iff.2 ⟨select_ne_nil h s, rfl, o, ho, hws⟩⟩

/-- The view on caching shows sound rows. -/
private theorem exists_optimizationSeries (h : rows c = .ok rs) :
    ∃ series, optimizationSeries .standard rs = .ok series := by
  obtain ⟨cached, hcached⟩ := exists_scenarioSeries (exists_adjustedSizes hsound h)
  obtain ⟨uncached, huncached⟩ := exists_scenarioSeries (exists_uncachedSizes hsound h)
  exact ⟨_, bind_eq_ok_iff.2 ⟨cached, hcached, bind_eq_ok_iff.2 ⟨uncached, huncached, rfl⟩⟩⟩

/-- The breakdown of a sound row cannot fail: its update has room for the signatures compared. -/
private theorem exists_scenarioBreakdown (h : rows c = .ok rs) (s : Scenario) :
    ∃ b, scenarioBreakdown .standard rs s = .ok b := by
  obtain ⟨x, hx, haccepts⟩ := exists_accepts h s
  obtain ⟨r, hfind⟩ : ∃ r, rs.find? s.selector.accepts = some r :=
    Option.isSome_iff_exists.1 (List.find?_isSome.2 ⟨x, hx, haccepts⟩)
  have hr := hsound r (List.mem_of_find?_eq_some hfind)
  obtain ⟨o, ho, hbytes⟩ := standard_overhead s
  obtain ⟨n, hn⟩ : ∃ n, r.adjustedTotal o 0 = .ok n := by
    obtain ⟨hexceed, hsum⟩ := hr.totals (hbytes r)
    exact Row.exists_adjustedTotal_iff.2 ⟨hexceed, by omega⟩
  rw [scenarioBreakdown_eq hfind]
  cases hb : comparedBreakdown .standard s r with
  | ok b => exact ⟨b, rfl⟩
  | error e =>
    -- the update would have to lack room for the signatures, of which there are few
    obtain ⟨⟨-, hlacks⟩, -⟩ := (comparedBreakdown_eq_error_iff ho hn).1 hb
    obtain ⟨hsignatures, hupdate, -, hfits⟩ := hr
    have hcharged : Config.standard.signatureSize.toNat *
        Config.standard.targetSignatures.toNat = 213 := rfl
    unfold LacksUpdate at hlacks
    omega

/-- The breakdowns show sound rows. -/
private theorem exists_breakdowns (h : rows c = .ok rs) :
    ∃ parts, breakdowns .standard rs = .ok parts := by
  refine exists_mapM_eq_ok_iff.2 fun s _ => ?_
  obtain ⟨b, hb⟩ := exists_scenarioBreakdown hsound h s
  exact ⟨⟨s.name, b⟩, bind_eq_ok_iff.2 ⟨b, hb, rfl⟩⟩

/-- The server size of all rows is that of the settings, so it decides. -/
private theorem exists_scaleSeries_rows_iff (h : rows c = .ok rs) :
    (∃ series, scaleSeries rs = .ok series) ↔ 0 < c.adsCount.toNat := by
  -- a word is zero if its value is
  have hne : c.adsCount ≠ 0 ↔ 0 < c.adsCount.toNat := by
    rw [Nat.pos_iff_ne_zero, ← UInt64.toNat_zero, ne_eq, ne_eq, UInt64.toNat_inj]
  rw [exists_scaleSeries_iff, ← hne]
  constructor
  · intro hscalable
    obtain ⟨r, hr, hbelongs⟩ := exists_mem_rows h 0 (by unfold Settings.rowCount; omega)
    obtain ⟨n, hn, hzero⟩ := (hscalable r hr).counted
    obtain rfl := Option.some.inj (hbelongs.adsCount.symm.trans hn)
    exact hzero
  · intro hzero r hr
    obtain ⟨i, -, hbelongs⟩ := mem_rows_cases h hr
    obtain ⟨hsignatures, hupdate, hcached, hfits⟩ := hsound r hr
    refine ⟨⟨_, hbelongs.adsCount, hzero⟩, by omega, hcached, ?_⟩
    show r.totalBytes.toNat + r.saved < _
    omega

omit hsound

/-- A row carries one, two or three signatures, and there are rows with each of these numbers. -/
private theorem select_signatures_ne_nil_iff (h : rows c = .ok rs) (n : UInt64) :
    (Selector.signatures n).select rs ≠ [] ↔ n = 1 ∨ n = 2 ∨ n = 3 := by
  constructor
  · intro hne
    obtain ⟨r, hr⟩ := List.exists_mem_of_ne_nil _ hne
    obtain ⟨hr, haccepts⟩ := List.mem_filter.1 hr
    obtain ⟨i, -, hbelongs⟩ := mem_rows_cases h hr
    have hcount : r.signatureCount = n := by simpa [Selector.accepts] using haccepts
    have hnat := hbelongs.signatureCount
    rw [hcount] at hnat
    simp only [← UInt64.toNat_inj]
    show n.toNat = 1 ∨ n.toNat = 2 ∨ n.toNat = 3
    omega
  · intro hn
    -- the first batch has a row for each of the three numbers
    have hplace : ∃ i < 3, i + 1 = n.toNat := by
      rcases hn with rfl | rfl | rfl
      · exact ⟨0, by decide, rfl⟩
      · exact ⟨1, by decide, rfl⟩
      · exact ⟨2, by decide, rfl⟩
    obtain ⟨i, hi, hcarried⟩ := hplace
    obtain ⟨r, hr, hbelongs⟩ := exists_mem_rows h i (by unfold Settings.rowCount; omega)
    have hnat := hbelongs.signatureCount
    rw [Nat.mod_eq_of_lt hi, hcarried] at hnat
    have hcount : r.signatureCount = n := UInt64.toNat_inj.1 hnat
    exact List.ne_nil_of_mem (List.mem_filter.2 ⟨hr, by simp [Selector.accepts, hcount]⟩)

include hsound

/-- A number of signatures has its line if rows carry as many. -/
private theorem exists_signatureLine_rows_iff (h : rows c = .ok rs) (n : UInt64) (i : Nat) :
    (∃ line, signatureLine rs (n, i) = .ok line) ↔ n = 1 ∨ n = 2 ∨ n = 3 := by
  rw [exists_signatureLine_iff, select_signatures_ne_nil_iff h]
  refine and_iff_left fun r hr => ?_
  obtain ⟨hsignatures, hupdate, -, -⟩ := hsound r (List.mem_filter.1 hr).1
  omega

/-- There are lines for one, two and three signatures, and for no other number. -/
private theorem exists_signatureSeries_rows_iff (h : rows c = .ok rs) (config : Config) :
    (∃ series, signatureSeries config rs = .ok series) ↔
      ∀ n ∈ config.signatureCounts, n = 1 ∨ n = 2 ∨ n = 3 := by
  rw [exists_signatureSeries_iff]
  refine forall_congr' fun n => forall_congr' fun _ => ?_
  rw [← exists_signatureLine_iff (i := 0), exists_signatureLine_rows_iff hsound h]

/-- Two signatures are carried by some rows, four by none. -/
private theorem signatureSeries_standard_rows (h : rows c = .ok rs) :
    signatureSeries .standard rs = .error (.emptySelection (.signatures 4)) := by
  have hline (n : UInt64) := exists_signatureLine_rows_iff hsound h n 0
  have hnone : (Selector.signatures 4).select rs = [] := by
    rw [← not_ne_iff, select_signatures_ne_nil_iff h]
    decide
  refine signatureSeries_eq_error (i := 1) ⟨rfl, ?_, fun n hn => ?_⟩ hnone
  · rw [hline]
    decide
  · obtain rfl : n = 2 := List.mem_singleton.1 hn
    rw [hline]
    decide

end

/-- With `2 ^ 50` batches and signatures of `2 ^ 60` bytes at most there is a dataset if a word holds the
    counter of updates of its last batch, and otherwise the counter is told to be too large. The views
    of proof sizes, of caching and of breakdowns show every dataset, the view by server size shows it if
    there is a structure, and the view by number of signatures for the numbers that rows carry. -/
theorem rows_reportable (c : Settings) (hbatches : c.batches.toNat ≤ 2 ^ 50)
    (hsignature : c.signatureSize.toNat ≤ 2 ^ 60) :
    ((∃ rs, rows c = .ok rs) ↔ c.batches.toNat * c.batchSize.toNat < 2 ^ 64) ∧
    (¬c.batches.toNat * c.batchSize.toNat < 2 ^ 64 →
      rows c = .error (.overflow .updatesSinceRefresh)) ∧
    ∀ rs, rows c = .ok rs →
      (∃ series, proofSizeSeries .standard rs = .ok series) ∧
      (∃ series, optimizationSeries .standard rs = .ok series) ∧
      (∃ parts, breakdowns .standard rs = .ok parts) ∧
      ((∃ series, scaleSeries rs = .ok series) ↔ 0 < c.adsCount.toNat) ∧
      (∀ config : Config, (∃ series, signatureSeries config rs = .ok series) ↔
        ∀ n ∈ config.signatureCounts, n = 1 ∨ n = 2 ∨ n = 3) ∧
      signatureSeries .standard rs = .error (.emptySelection (.signatures 4)) := by
  have hc : Moderate c := ⟨hbatches, hsignature⟩
  have herror : ¬c.batches.toNat * c.batchSize.toNat < 2 ^ 64 →
      rows c = .error (.overflow .updatesSinceRefresh) :=
    fun h => rows_eq_error hc (Nat.le_of_not_lt h)
  refine ⟨⟨fun ⟨rs, hrs⟩ => ?_, exists_rows hc⟩, herror, fun rs h => ?_⟩
  · by_contra h
    exact nomatch hrs.symm.trans (herror h)
  -- the views show any rows whose sizes go together
  · have hsound : ∀ r ∈ rs, Sound r := by
      intro r hr
      obtain ⟨i, hi, hbelongs⟩ := mem_rows_cases h hr
      exact hbelongs.sound hc hi
    exact ⟨exists_scenarioSeries (exists_adjustedSizes hsound h), exists_optimizationSeries hsound h,
      exists_breakdowns hsound h, exists_scaleSeries_rows_iff hsound h,
      exists_signatureSeries_rows_iff hsound h, signatureSeries_standard_rows hsound h⟩

/-- A dataset of one batch without a structure is shown by all views but the one by server size. With a
    larger batch there is none. -/
theorem rows_reportable_noStructure :
    (∃ rs, rows ⟨1, 5, 0, 1, 71⟩ = .ok rs ∧
      (∃ series, optimizationSeries .standard rs = .ok series) ∧
      ¬(∃ series, scaleSeries rs = .ok series) ∧
      ∃ series, signatureSeries { Config.standard with signatureCounts := [3, 1] } rs = .ok series) ∧
    rows ⟨1125899906842624, 16384, 0, 1, 1152921504606846976⟩ =
      .error (.overflow .updatesSinceRefresh) := by
  obtain ⟨hiff, -, hviews⟩ := rows_reportable ⟨1, 5, 0, 1, 71⟩ (by decide) (by decide)
  obtain ⟨rs, hrs⟩ := hiff.2 (by decide)
  obtain ⟨-, hoptimization, -, hscale, hsignatures, -⟩ := hviews rs hrs
  obtain ⟨-, herror, -⟩ := rows_reportable ⟨1125899906842624, 16384, 0, 1, 1152921504606846976⟩
    (by decide) (by decide)
  refine ⟨⟨rs, hrs, hoptimization, fun h => absurd (hscale.1 h) (by decide), ?_⟩,
    herror (by decide)⟩
  refine (hsignatures _).2 fun n hn => ?_
  rcases List.mem_pair.1 (show n ∈ [3, 1] from hn) with rfl | rfl
  · exact .inr (.inr rfl)
  · exact .inl rfl

end

end ProofSize.Synthetic
