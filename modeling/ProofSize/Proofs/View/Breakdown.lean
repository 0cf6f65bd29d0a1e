import ProofSize.Proofs.View.Scenarios

/-!
# Breakdowns and proof sizes

A breakdown is made of the first row of its scenario, which is put on the common number of signatures
beforehand where the scenario is compared on it. The view of proof sizes replaces the signature bytes of
every row instead. Both come to the same total, and a row that has such a size lacks a breakdown only if
its update cannot be put on the common number of signatures.

## Key results

- `scenarioBreakdown_eq`: a breakdown is that of one row
- `comparedBreakdown_totalBytes`, `comparedBreakdown_eq_error_iff`: the breakdown of a row with a size
- `breakdowns_agree_proofSizes`: what the two views have in common
-/

namespace ProofSize

namespace View

/-- The row as the breakdown of a scenario shows it. -/
def comparedRow (config : Config) (s : Scenario) (r : Row) : Except ReportError Row :=
  if s.normalizesSignatures then r.normalize config.signatureSize config.targetSignatures else .ok r

/-- The breakdown of a row of a scenario. -/
def comparedBreakdown (config : Config) (s : Scenario) (r : Row) : Except ReportError Breakdown :=
  comparedRow config s r >>= Breakdown.ofRow

section

variable {config : Config} {rows : List Row} {s : Scenario} {r : Row}

/-- A row keeps its scenario on another number of signatures. -/
theorem accepts_normalize {size count : UInt64} {r' : Row}
    (h : r.normalize size count = .ok r') (hr : s.selector.accepts r = true) :
    s.selector.accepts r' = true := by
  obtain ⟨bytes, total, update, -, -, -, rfl⟩ := Row.normalize_eq_ok_iff.1 h
  exact hr

/-- A breakdown is that of the first row of the scenario. -/
theorem scenarioBreakdown_eq (h : rows.find? s.selector.accepts = some r) :
    scenarioBreakdown config rows s = comparedBreakdown config s r := by
  have haccepts : s.selector.accepts r = true := List.find?_some h
  unfold scenarioBreakdown comparedBreakdown comparedRow
  split
  · have hfirst : (s.selector.select rows).take 1 = [r] := by
      have hhead : (s.selector.select rows).head? = some r := by
        rw [Selector.select, List.head?_filter, h]
      obtain ⟨rest, hrest⟩ := List.head?_eq_some_iff.1 hhead
      rw [hrest]
      rfl
    rw [hfirst, List.mapM_cons, List.mapM_nil]
    cases hnorm : r.normalize config.signatureSize config.targetSignatures with
    | error e => rfl
    | ok r' =>
      -- the new row is found again
      have hfind : [r'].find? s.selector.accepts = some r' := by
        simp [accepts_normalize hnorm haccepts]
      show Breakdown.representative s.selector [r'] = _
      rw [Breakdown.representative, hfind]
      rfl
  · rw [Breakdown.representative, h]
    rfl

/-! ### The breakdown of a row with a size -/

/-- The update of the row cannot be put on the common number of signatures. -/
def LacksUpdate (config : Config) (r : Row) : Prop :=
  r.updateBytes.toNat < r.signatureBytes.toNat ∨
    UInt64.size ≤ r.updateBytes.toNat - r.signatureBytes.toNat +
      config.signatureSize.toNat * config.targetSignatures.toNat

variable {o : Overhead} {n : UInt64}

/-- A compared scenario is charged the signatures of the configuration. -/
private theorem overhead_of_compared (hs : s.normalizesSignatures = true)
    (ho : config.overhead s = .ok o) :
    ∃ bytes, o = .fixed bytes ∧
      bytesOfSignatures config.signatureSize config.targetSignatures = .ok bytes := by
  rw [Config.overhead, if_pos hs, Config.targetBytes, map_eq_ok_iff] at ho
  obtain ⟨bytes, hbytes, rfl⟩ := ho
  exact ⟨bytes, rfl, hbytes⟩

/-- Issues are charged their own signatures. -/
private theorem overhead_of_issued (hs : s.normalizesSignatures = false)
    (ho : config.overhead s = .ok o) : o = .measured := by
  rw [Config.overhead, if_neg (by simp [hs])] at ho
  exact (Except.ok.inj ho).symm

/-- The row of a breakdown has the size of the row for its total, and not more signatures than that. -/
private theorem comparedRow_eq_ok {r' : Row} (ho : config.overhead s = .ok o)
    (hn : r.adjustedTotal o 0 = .ok n) (h : comparedRow config s r = .ok r') :
    r'.totalBytes = n ∧ ¬r'.SignaturesExceed := by
  obtain ⟨hexceed, hadjusted⟩ := Row.adjustedTotal_eq_ok_iff.1 hn
  unfold comparedRow at h
  by_cases hs : s.normalizesSignatures = true
  · rw [if_pos hs] at h
    obtain ⟨bytes, rfl, hbytes⟩ := overhead_of_compared hs ho
    obtain ⟨bytes', total, update, hbytes', ⟨-, htotal⟩, -, rfl⟩ := Row.normalize_eq_ok_iff.1 h
    have hsame : bytes' = bytes := by
      rw [← UInt64.toNat_inj, hbytes', bytesOfSignatures_eq_ok_iff.1 hbytes]
    subst hsame
    constructor
    · exact UInt64.toNat_inj.1 (htotal.trans hadjusted.symm)
    · -- the new signatures are a summand of the new total
      show ¬total.toNat < bytes'.toNat
      have hsum : total.toNat = r.totalBytes.toNat - r.signatureBytes.toNat + bytes'.toNat := htotal
      omega
  · have hs : s.normalizesSignatures = false := by simpa using hs
    rw [hs] at h
    obtain rfl := Except.ok.inj h
    obtain rfl := overhead_of_issued hs ho
    refine ⟨?_, hexceed⟩
    -- taking the signatures off and adding them again changes nothing
    unfold Row.SignaturesExceed at hexceed
    have hsum : n.toNat = r.totalBytes.toNat - r.signatureBytes.toNat + r.signatureBytes.toNat :=
      hadjusted
    rw [← UInt64.toNat_inj]
    omega

/-- The total of a breakdown is the adjusted total of the row. -/
theorem comparedBreakdown_totalBytes {b : Breakdown} (ho : config.overhead s = .ok o)
    (hn : r.adjustedTotal o 0 = .ok n) (h : comparedBreakdown config s r = .ok b) :
    b.totalBytes = n := by
  obtain ⟨r', hr', hb⟩ := bind_eq_ok_iff.1 h
  obtain ⟨stripped, -, rfl⟩ := Breakdown.ofRow_eq_ok_iff.1 hb
  exact (comparedRow_eq_ok ho hn hr').1

/-- A row with a size lacks a breakdown only for its update. -/
theorem comparedBreakdown_eq_error_iff {e : ReportError} (ho : config.overhead s = .ok o)
    (hn : r.adjustedTotal o 0 = .ok n) :
    comparedBreakdown config s r = .error e ↔
      (s.normalizesSignatures = true ∧ LacksUpdate config r) ∧
        e = .dataIntegrity 0 (.signaturesExceedUpdate r.signatureBytes r.updateBytes) := by
  -- a row that has been made has a breakdown
  have hrow : comparedBreakdown config s r = .error e ↔ comparedRow config s r = .error e := by
    rw [comparedBreakdown, bind_eq_error_iff]
    constructor
    · intro h
      rcases h with h | ⟨r', hr', h⟩
      · exact h
      · obtain ⟨b, hb, -⟩ := Breakdown.exists_ofRow (comparedRow_eq_ok ho hn hr').2
        rw [hb] at h
        exact nomatch h
    · exact .inl
  rw [hrow, comparedRow]
  by_cases hs : s.normalizesSignatures = true
  · obtain ⟨bytes, rfl, hbytes⟩ := overhead_of_compared hs ho
    have hlacks : r.UpdateUnfit bytes.toNat ↔ LacksUpdate config r := by
      rw [bytesOfSignatures_eq_ok_iff.1 hbytes]
      exact Iff.rfl
    rw [if_pos hs, Row.normalize_eq_error_iff hbytes hn, hlacks]
    simp [hs]
  · rw [if_neg hs]
    simp [hs]

/-! ### Two views of the same rows -/

/-- The breakdown of a scenario and its series of proof sizes go together: the total of the one is the
    size of the first row of the scenario, which is the height of the first point of the other. -/
structure Agrees (config : Config) (rows : List Row) (s : Scenario) (series : Series)
    (part : ScenarioBreakdown) : Prop where
  names : series.label = s.name ∧ part.scenario = s.name
  total : ∃ r o, rows.find? s.selector.accepts = some r ∧ config.overhead s = .ok o ∧
    r.signatureBytes.toNat ≤ r.totalBytes.toNat ∧
    part.breakdown.totalBytes.toNat =
      r.totalBytes.toNat - r.signatureBytes.toNat + (o.bytes r).toNat
  height : series.points.head?.map Point.y = some (.ofWord part.breakdown.totalBytes)

/-- The scenario is compared on the common number of signatures, and the update of its first row cannot
    be put on it. -/
def LacksBreakdown (config : Config) (rows : List Row) (s : Scenario) : Prop :=
  (s = .transferred ∨ s = .loaned) ∧
    ∃ r, rows.find? s.selector.accepts = some r ∧ LacksUpdate config r

/-- The error is that of the update of the first row of a scenario. -/
def IsUpdateFault (rows : List Row) (s : Scenario) (e : ReportError) : Prop :=
  ∃ r, rows.find? s.selector.accepts = some r ∧
    e = .dataIntegrity 0 (.signaturesExceedUpdate r.signatureBytes r.updateBytes)

/-- A scenario that has sizes has a first row, and this one has the first size. -/
private theorem first_of_scenarioSizes {ys : List UInt64}
    (h : scenarioSizes config rows adjustedTotals s = .ok (s, ys)) :
    ∃ r o n, rows.find? s.selector.accepts = some r ∧ config.overhead s = .ok o ∧
      r.adjustedTotal o 0 = .ok n ∧ (s.selector.select rows)[0]? = some r ∧ ys[0]? = some n := by
  obtain ⟨hne, -, o, ho, hsizes⟩ := scenarioSizes_eq_ok_iff.1 h
  obtain ⟨r, rest, hrest⟩ := List.exists_cons_of_ne_nil hne
  have hr : (s.selector.select rows)[0]? = some r := by simp [hrest]
  have hfind : rows.find? s.selector.accepts = some r := by
    rw [← List.head?_filter, ← Selector.select, hrest, List.head?_cons]
  obtain ⟨n, hget, hn⟩ := (forRows_eq_ok_iff.1 hsizes).2 0 r hr
  exact ⟨r, o, n, hfind, ho, hn, hr, hget⟩

/-- A scenario with sizes and a breakdown has both of its first row. -/
private theorem agrees_presented {ys : List UInt64} {b : Breakdown}
    (h : scenarioSizes config rows adjustedTotals s = .ok (s, ys))
    (hb : scenarioBreakdown config rows s = .ok b) :
    Agrees config rows s
      (presented rows .updatesSinceRefresh Row.updatesSinceRefresh "" .solid (s, ys))
      ⟨s.name, b⟩ := by
  obtain ⟨r, o, n, hfind, ho, hn, hr, hys⟩ := first_of_scenarioSizes h
  rw [scenarioBreakdown_eq hfind] at hb
  have htotal : b.totalBytes = n := comparedBreakdown_totalBytes ho hn hb
  obtain ⟨hexceed, hadjusted⟩ := Row.adjustedTotal_eq_ok_iff.1 hn
  -- the first point of the series is that of the first row
  have hpoint : (presented rows .updatesSinceRefresh Row.updatesSinceRefresh "" .solid
      (s, ys)).points[0]? = some ⟨.ofWord r.updatesSinceRefresh, .ofWord n⟩ :=
    getElem?_points_presented hr hys
  refine ⟨⟨String.append_empty, rfl⟩, ⟨r, o, hfind, ho, Nat.le_of_not_lt hexceed, ?_⟩, ?_⟩
  · show b.totalBytes.toNat = _
    rw [htotal]
    exact hadjusted
  · show _ = some (Binary64.ofWord b.totalBytes)
    rw [List.head?_eq_getElem?, hpoint, htotal, Option.map_some]

/-- A scenario with sizes lacks a breakdown only for the update of its first row. -/
private theorem scenarioBreakdown_eq_error_iff {ys : List UInt64} {e : ReportError}
    (h : scenarioSizes config rows adjustedTotals s = .ok (s, ys)) :
    scenarioBreakdown config rows s = .error e ↔
      LacksBreakdown config rows s ∧ IsUpdateFault rows s e := by
  have hs : s.normalizesSignatures = true ↔ s = .transferred ∨ s = .loaned := by
    cases s <;> decide
  obtain ⟨r, o, n, hfind, ho, hn, -⟩ := first_of_scenarioSizes h
  rw [scenarioBreakdown_eq hfind, comparedBreakdown_eq_error_iff ho hn, hs]
  simp [LacksBreakdown, IsUpdateFault, hfind]

/-- Where there are proof sizes, each scenario has sizes. -/
private theorem exists_scenarioSizes {sizes : List Series}
    (h : proofSizeSeries config rows = .ok sizes) {k : Nat} (hk : Scenario.all[k]? = some s) :
    ∃ ys, scenarioSizes config rows adjustedTotals s = .ok (s, ys) ∧
      sizes[k]? =
        some (presented rows .updatesSinceRefresh Row.updatesSinceRefresh "" .solid (s, ys)) := by
  rw [proofSizeSeries, scenarioSeries_eq_map, map_eq_ok_iff] at h
  obtain ⟨base, hbase, rfl⟩ := h
  obtain ⟨⟨s', ys⟩, hget, hz⟩ := (forall₂_iff_getElem?.1 (mapM_eq_ok_iff.1 hbase)).2 k s hk
  obtain ⟨-, hs, -⟩ := scenarioSizes_eq_ok_iff.1 hz
  obtain rfl : s' = s := hs
  exact ⟨ys, hz, by simp [hget]⟩

/-- The name that is put before a breakdown decides nothing. -/
theorem named_eq_error_iff {e : ReportError} :
    (do return (⟨s.name, ← scenarioBreakdown config rows s⟩ : ScenarioBreakdown)) = .error e ↔
      scenarioBreakdown config rows s = .error e := by
  cases scenarioBreakdown config rows s <;> simp [bind, Except.bind, pure, Except.pure]

/-- Where both views give something, they agree on each scenario. If there are proof sizes and no
    breakdowns, the first row of a transfer or a loan lacks an update, and the first such scenario
    decides the error. -/
theorem breakdowns_agree_proofSizes (config : Config) (rows : List Row) :
    (∀ sizes parts, proofSizeSeries config rows = .ok sizes → breakdowns config rows = .ok parts →
      ∀ (k : Nat) (s : Scenario), Scenario.all[k]? = some s →
        ∃ series part, sizes[k]? = some series ∧ parts[k]? = some part ∧
          Agrees config rows s series part) ∧
    ∀ sizes, proofSizeSeries config rows = .ok sizes →
      ∀ e, breakdowns config rows = .error e ↔
        ∃ k s, IsFirst (LacksBreakdown config rows) Scenario.all k s ∧ IsUpdateFault rows s e := by
  constructor
  · intro sizes parts hsizes hparts k s hk
    obtain ⟨ys, hys, hseries⟩ := exists_scenarioSizes hsizes hk
    obtain ⟨part, hpart, hnamed⟩ := (forall₂_iff_getElem?.1 (mapM_eq_ok_iff.1 hparts)).2 k s hk
    obtain ⟨b, hb, hname⟩ := bind_eq_ok_iff.1 hnamed
    obtain rfl := Except.ok.inj hname
    exact ⟨_, _, hseries, hpart, agrees_presented hys hb⟩
  · intro sizes hsizes e
    -- each scenario has its sizes, so only its update can be at fault
    have hscenario : ∀ s ∈ Scenario.all, ∀ e, scenarioBreakdown config rows s = .error e ↔
        LacksBreakdown config rows s ∧ IsUpdateFault rows s e := by
      intro s hs e
      obtain ⟨k, hk⟩ := List.getElem?_of_mem hs
      obtain ⟨ys, hys, -⟩ := exists_scenarioSizes hsizes hk
      exact scenarioBreakdown_eq_error_iff hys
    refine mapM_eq_error_iff_of_forall (fun s hs e => ?_) fun s _ hlacks => ?_
    · rw [← hscenario s hs e]
      exact named_eq_error_iff
    · obtain ⟨-, r, hr, -⟩ := hlacks
      exact ⟨_, r, hr, rfl⟩

/-- One row for each scenario. The transfer carries two signatures. -/
private def issueTransferLoan : List Row :=
  [⟨0, 0, some 1, 1, 71, 150, 33, 33, 66, 550, none⟩,
    ⟨0, 0, some 2, 2, 142, 250, 66, 33, 66, 600, none⟩,
    ⟨0, 0, some 3, 3, 213, 350, 99, 33, 66, 700, none⟩]

/-- The update of the loan is smaller than its signatures, although its total is not. -/
private def smallLoanUpdate : List Row :=
  [⟨0, 0, some 3, 3, 213, 200, 99, 33, 66, 700, none⟩,
    ⟨0, 0, some 1, 1, 71, 150, 33, 33, 66, 550, none⟩,
    ⟨0, 0, some 2, 2, 142, 250, 66, 33, 66, 600, none⟩]

/-- A transfer of two signatures is shown with three in both views. A loan with too small an update has
    a proof size and no breakdown. -/
theorem breakdowns_agree_proofSizes_transfer :
    (∃ series part, Agrees .standard issueTransferLoan .transferred series part ∧
      part.breakdown.totalBytes.toNat = 671) ∧
    breakdowns .standard smallLoanUpdate =
      .error (.dataIntegrity 0 (.signaturesExceedUpdate 213 200)) := by
  constructor
  · have hsizesok : (proofSizeSeries .standard issueTransferLoan).isOk = true := by decide +kernel
    have hpartsok : (breakdowns .standard issueTransferLoan).isOk = true := by decide +kernel
    obtain ⟨sizes, hsizes⟩ := exists_ok_of_isOk hsizesok
    obtain ⟨parts, hparts⟩ := exists_ok_of_isOk hpartsok
    obtain ⟨series, part, -, -, hagrees⟩ :=
      (breakdowns_agree_proofSizes _ _).1 sizes parts hsizes hparts 1 .transferred rfl
    obtain ⟨r, o, hr, ho, -, htotal⟩ := hagrees.total
    obtain rfl : Row.mk 0 0 (some 2) 2 142 250 66 33 66 600 none = r := Option.some.inj hr
    obtain rfl : Overhead.fixed 213 = o := Except.ok.inj ho
    exact ⟨series, part, hagrees, htotal⟩
  · have hsizesok : (proofSizeSeries .standard smallLoanUpdate).isOk = true := by decide +kernel
    obtain ⟨sizes, hsizes⟩ := exists_ok_of_isOk hsizesok
    refine ((breakdowns_agree_proofSizes _ _).2 sizes hsizes _).2
      ⟨2, .loaned, ⟨rfl, ?_, ?_⟩, _, rfl, rfl⟩
    · exact ⟨.inr rfl, _, rfl, .inl (by decide)⟩
    · -- the transfer has an update
      intro s hs
      have hbefore : s = .issued ∨ s = .transferred := by simpa [Scenario.all] using hs
      intro ⟨hcompared, r, hr, hlacks⟩
      rcases hbefore with rfl | rfl
      · simp at hcompared
      · obtain rfl : Row.mk 0 0 (some 2) 2 142 250 66 33 66 600 none = r := Option.some.inj hr
        rcases hlacks with hlacks | hlacks
        · exact absurd hlacks (by decide)
        · exact absurd hlacks (by decide)

end

end View

end ProofSize
