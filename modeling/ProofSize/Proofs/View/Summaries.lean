import ProofSize.Proofs.Size.Normalizing
import ProofSize.Proofs.View.Breakdown

/-!
# Breakdowns of first rows

A breakdown looks at one row of its scenario, the first one, and puts only that row on the common number
of signatures. Nothing is lost by this: the row is found again afterwards, every error is that of the row
or tells that there is none, and putting all rows of the scenario on the common number before the first
one is looked for gives the same breakdown.

## Key results

- `comparedBreakdown_eq_ok_iff`: the breakdown of a row shows it exactly
- `scenarioBreakdown_eq_ok_iff_summarises`, `scenarioBreakdown_eq_error_iff_summaryFault`: the breakdown
  of a scenario, or why there is none
- `representative_of_all`: all rows may be put on the common number of signatures
- `breakdowns_summarise_first`: what the view shows, and how it fails
-/

namespace ProofSize.View

/-- A row of the scenario has a breakdown: an issued one if its signatures are a part of its total, one
    of the others if it can be put on the common number of signatures. -/
def Summarizable (config : Config) : Scenario → Row → Prop
  | .issued, r => r.signatureBytes.toNat ≤ r.totalBytes.toNat
  | .transferred, r | .loaned, r => r.Normalizable config.signatureSize config.targetSignatures

/-- The breakdown shows the row exactly. Its total is that of the signatures and of the rest of the row;
    the signatures are the row's own ones if it was issued, and the common ones otherwise. -/
structure IsSummary (config : Config) (s : Scenario) (r : Row) (b : Breakdown) : Prop where
  summarizable : Summarizable config s r
  total : b.totalBytes.toNat = b.signatureBytes.toNat + b.updateBytes.toNat
  rest : b.updateBytes.toNat + r.signatureBytes.toNat = r.totalBytes.toNat
  proof : b.updateProofBytes = r.updateProofBytes
  issued : s = .issued →
    b.signatureCount = r.signatureCount ∧ b.signatureBytes = r.signatureBytes
  compared : s = .transferred ∨ s = .loaned → b.signatureCount = config.targetSignatures ∧
    b.signatureBytes.toNat = config.signatureSize.toNat * config.targetSignatures.toNat

/-- The breakdown shows the first row of the scenario. -/
def Summarises (config : Config) (rows : List Row) (s : Scenario) (b : Breakdown) : Prop :=
  ∃ r, rows.find? s.selector.accepts = some r ∧ IsSummary config s r b

/-- Why a scenario has no breakdown: it has no row, or its first row has none. -/
inductive SummaryFault (config : Config) (rows : List Row) (s : Scenario) : ReportError → Prop
  | noRow : (∀ r ∈ rows, r.adsModified ≠ some s.adsModified) →
      SummaryFault config rows s (.missingRow (.selected s.selector))
  | issued {r : Row} : s = .issued → rows.find? s.selector.accepts = some r →
      r.totalBytes.toNat < r.signatureBytes.toNat →
      SummaryFault config rows s
        (.dataIntegrity 0 (.signaturesExceedTotal r.signatureBytes r.totalBytes))
  | compared {r : Row} : s = .transferred ∨ s = .loaned →
      rows.find? s.selector.accepts = some r →
      ¬r.Normalizable config.signatureSize config.targetSignatures →
      SummaryFault config rows s (r.normalizeFault config.signatureSize config.targetSignatures)

section

variable {config : Config} {rows : List Row} {s : Scenario} {r : Row} {b b' : Breakdown}
  {e : ReportError}

/-- A scenario is that of issues, or one that is compared at a common number of signatures. -/
private theorem issued_or_compared (s : Scenario) :
    s = .issued ∨ s = .transferred ∨ s = .loaned := by
  cases s <;> decide

/-- An issue is taken as it is. -/
private theorem comparedRow_issued : comparedRow config .issued r = .ok r := rfl

/-- A transfer or a loan is put on the common number of signatures. -/
private theorem comparedRow_of_compared (hs : s = .transferred ∨ s = .loaned) :
    comparedRow config s r = r.normalize config.signatureSize config.targetSignatures := by
  rcases hs with rfl | rfl
  · rfl
  · rfl

/-- A transfer or a loan can be summarised if it can be put on this number. -/
private theorem summarizable_of_compared (hs : s = .transferred ∨ s = .loaned) :
    Summarizable config s r ↔ r.Normalizable config.signatureSize config.targetSignatures := by
  rcases hs with rfl | rfl
  · exact Iff.rfl
  · exact Iff.rfl

/-! ### The breakdown of a row -/

/-- A row has one summary at most. -/
theorem IsSummary.unique (h : IsSummary config s r b) (h' : IsSummary config s r b') : b = b' := by
  have hsignatures : b.signatureCount = b'.signatureCount ∧ b.signatureBytes = b'.signatureBytes := by
    rcases issued_or_compared s with hs | hs
    · obtain ⟨hcount, hbytes⟩ := h.issued hs
      obtain ⟨hcount', hbytes'⟩ := h'.issued hs
      exact ⟨hcount.trans hcount'.symm, hbytes.trans hbytes'.symm⟩
    · obtain ⟨hcount, hbytes⟩ := h.compared hs
      obtain ⟨hcount', hbytes'⟩ := h'.compared hs
      exact ⟨hcount.trans hcount'.symm, UInt64.toNat_inj.1 (hbytes.trans hbytes'.symm)⟩
  obtain ⟨hcount, hbytes⟩ := hsignatures
  -- what is left of the update beside the signatures is the same, so the update is
  have hupdate : b.updateBytes = b'.updateBytes := by
    have hrest := h.rest
    have hrest' := h'.rest
    rw [← UInt64.toNat_inj]
    omega
  have htotal : b.totalBytes = b'.totalBytes := by
    rw [← UInt64.toNat_inj, h.total, h'.total, hbytes, hupdate]
  have hproof := h.proof.trans h'.proof.symm
  cases b
  cases b'
  simp_all

/-- What is computed for a row is a summary of it. -/
private theorem isSummary_of_comparedBreakdown (h : comparedBreakdown config s r = .ok b) :
    IsSummary config s r b := by
  obtain ⟨r', hr', hb⟩ := bind_eq_ok_iff.1 h
  obtain ⟨stripped, hstripped, rfl⟩ := Breakdown.ofRow_eq_ok_iff.1 hb
  have htotal : r'.totalBytes.toNat = r'.signatureBytes.toNat + stripped.toNat := by omega
  rcases issued_or_compared s with hs | hs
  · subst hs
    obtain rfl := Except.ok.inj (comparedRow_issued.symm.trans hr')
    refine ⟨?_, htotal, hstripped, rfl, fun _ => ⟨rfl, rfl⟩, fun hcompared => ?_⟩
    · show r.signatureBytes.toNat ≤ r.totalBytes.toNat
      omega
    · simp at hcompared
  · rw [comparedRow_of_compared hs] at hr'
    obtain ⟨hnorm, hcount, hbytes, hrest⟩ := Row.normalize_eq_ok_iff_sameRest.1 hr'
    refine ⟨(summarizable_of_compared hs).2 hnorm, htotal, hrest.add_signatures_iff.1 hstripped,
      (congrArg Row.updateProofBytes hrest.others :), fun hissued => ?_,
      fun _ => ⟨hcount, hbytes⟩⟩
    simp [hissued] at hs

/-- A row that can be summarised has a breakdown. -/
private theorem exists_comparedBreakdown (h : Summarizable config s r) :
    ∃ b, comparedBreakdown config s r = .ok b := by
  unfold comparedBreakdown
  rcases issued_or_compared s with hs | hs
  · subst hs
    obtain ⟨b, hb, -⟩ := Breakdown.exists_ofRow (Nat.not_lt.2 h)
    exact ⟨b, hb⟩
  -- a row that has been put on new signatures has them within its total
  · obtain ⟨r', hr'⟩ := Row.exists_normalize_iff.2 ((summarizable_of_compared hs).1 h)
    obtain ⟨b, hb, -⟩ := Breakdown.exists_ofRow (Row.not_signaturesExceed_of_normalize hr')
    rw [comparedRow_of_compared hs, hr']
    exact ⟨b, hb⟩

/-- The breakdown of a row is its summary. -/
theorem comparedBreakdown_eq_ok_iff :
    comparedBreakdown config s r = .ok b ↔ IsSummary config s r b := by
  constructor
  · exact isSummary_of_comparedBreakdown
  · intro h
    obtain ⟨b', hb'⟩ := exists_comparedBreakdown h.summarizable
    rw [h.unique (isSummary_of_comparedBreakdown hb')]
    exact hb'

/-- An issued row lacks a breakdown for its signatures alone. -/
private theorem comparedBreakdown_issued_eq_error_iff :
    comparedBreakdown config .issued r = .error e ↔ r.SignaturesExceed ∧
      e = .dataIntegrity 0 (.signaturesExceedTotal r.signatureBytes r.totalBytes) :=
  Breakdown.ofRow_eq_error_iff

/-- A row of another scenario lacks one if it cannot be put on the common number of signatures. -/
private theorem comparedBreakdown_compared_eq_error_iff (hs : s = .transferred ∨ s = .loaned) :
    comparedBreakdown config s r = .error e ↔
      ¬r.Normalizable config.signatureSize config.targetSignatures ∧
        e = r.normalizeFault config.signatureSize config.targetSignatures := by
  rw [comparedBreakdown, comparedRow_of_compared hs, bind_eq_error_iff,
    Row.normalize_eq_error_iff_not_normalizable]
  constructor
  · intro h
    -- once the row is on the common number, its breakdown cannot fail
    rcases h with h | ⟨r', hr', h⟩
    · exact h
    · exact absurd (Breakdown.ofRow_eq_error_iff.1 h).1 (Row.not_signaturesExceed_of_normalize hr')
  · exact .inl

/-! ### The breakdown of a scenario -/

/-- A scenario has no first row if no row is of it. -/
private theorem find?_accepts_eq_none_iff :
    rows.find? s.selector.accepts = none ↔ ∀ r ∈ rows, r.adsModified ≠ some s.adsModified := by
  simp [List.find?_eq_none, Scenario.selector, Selector.accepts]

/-- Without a first row there is none to be selected. -/
private theorem select_eq_nil_of_find? (h : rows.find? s.selector.accepts = none) :
    s.selector.select rows = [] := by
  rw [Selector.select, List.filter_eq_nil_iff]
  exact List.find?_eq_none.1 h

/-- Without a row of the scenario there is nothing to be found. -/
private theorem scenarioBreakdown_of_noRow (h : rows.find? s.selector.accepts = none) :
    scenarioBreakdown config rows s = .error (.missingRow (.selected s.selector)) := by
  unfold scenarioBreakdown
  split
  · rw [select_eq_nil_of_find? h]
    rfl
  · rw [Breakdown.representative, h]
    rfl

/-- The breakdown of a scenario summarises its first row. -/
theorem scenarioBreakdown_eq_ok_iff_summarises :
    scenarioBreakdown config rows s = .ok b ↔ Summarises config rows s b := by
  unfold Summarises
  cases hfind : rows.find? s.selector.accepts with
  | none => simp [scenarioBreakdown_of_noRow hfind]
  | some r => simp [scenarioBreakdown_eq hfind, comparedBreakdown_eq_ok_iff]

/-- A fault is that of the first row of the scenario, if there is one. -/
private theorem summaryFault_iff_of_find? (hfind : rows.find? s.selector.accepts = some r) :
    SummaryFault config rows s e ↔ comparedBreakdown config s r = .error e := by
  constructor
  · intro h
    cases h with
    | noRow hnone => exact nomatch hfind.symm.trans (find?_accepts_eq_none_iff.2 hnone)
    | issued hs hr hlt =>
      obtain rfl := Option.some.inj (hfind.symm.trans hr)
      subst hs
      exact comparedBreakdown_issued_eq_error_iff.2 ⟨hlt, rfl⟩
    | compared hs hr hnorm =>
      obtain rfl := Option.some.inj (hfind.symm.trans hr)
      exact (comparedBreakdown_compared_eq_error_iff hs).2 ⟨hnorm, rfl⟩
  · intro h
    -- what the fault is depends on whether the scenario is compared
    rcases issued_or_compared s with hs | hs
    · subst hs
      obtain ⟨hexceed, rfl⟩ := comparedBreakdown_issued_eq_error_iff.1 h
      exact .issued rfl hfind hexceed
    · obtain ⟨hnorm, rfl⟩ := (comparedBreakdown_compared_eq_error_iff hs).1 h
      exact .compared hs hfind hnorm

/-- A scenario without a breakdown fails for lack of a row or for its first one. -/
theorem scenarioBreakdown_eq_error_iff_summaryFault :
    scenarioBreakdown config rows s = .error e ↔ SummaryFault config rows s e := by
  cases hfind : rows.find? s.selector.accepts with
  | none =>
    rw [scenarioBreakdown_of_noRow hfind]
    constructor
    · intro h
      obtain rfl := Except.error.inj h
      exact .noRow (find?_accepts_eq_none_iff.1 hfind)
    · intro h
      cases h with
      | noRow => rfl
      | issued _ hr => exact nomatch hfind.symm.trans hr
      | compared _ hr => exact nomatch hfind.symm.trans hr
  | some r => rw [scenarioBreakdown_eq hfind, summaryFault_iff_of_find? hfind]

/-- Only where the scenario has no row, a row is missing. -/
theorem SummaryFault.missingRow_iff (h : SummaryFault config rows s e) :
    ((∃ what, e = .missingRow what) ↔ ∀ r ∈ rows, r.adsModified ≠ some s.adsModified) ∧
      ∀ what, e = .missingRow what → what.message = s.selector.text := by
  cases h with
  | noRow hnone =>
    refine ⟨⟨fun _ => hnone, fun _ => ⟨_, rfl⟩⟩, fun what hwhat => ?_⟩
    obtain rfl := ReportError.missingRow.inj hwhat
    rfl
  | issued _ hr =>
    refine ⟨⟨fun ⟨what, hwhat⟩ => (nomatch hwhat), fun hnone => ?_⟩,
      fun what hwhat => (nomatch hwhat)⟩
    exact nomatch hr.symm.trans (find?_accepts_eq_none_iff.2 hnone)
  | compared _ hr =>
    refine ⟨⟨fun ⟨what, hwhat⟩ => absurd hwhat (Row.normalizeFault_ne_missingRow _ _ _ what),
      fun hnone => ?_⟩,
      fun what hwhat => absurd hwhat (Row.normalizeFault_ne_missingRow _ _ _ what)⟩
    exact nomatch hr.symm.trans (find?_accepts_eq_none_iff.2 hnone)

/-- A row keeps its scenario in its breakdown. -/
private theorem accepts_comparedRow {r' : Row} (h : comparedRow config s r = .ok r')
    (hr : s.selector.accepts r = true) : s.selector.accepts r' = true := by
  rcases issued_or_compared s with hs | hs
  · subst hs
    obtain rfl := Except.ok.inj (comparedRow_issued.symm.trans h)
    exact hr
  · rw [comparedRow_of_compared hs] at h
    exact accepts_normalize h hr

/-- All rows of the scenario may be put on the common number of signatures before the first one is
    looked for. -/
theorem representative_of_all {all : List Row}
    (h : (s.selector.select rows).mapM (comparedRow config s) = .ok all) :
    Breakdown.representative s.selector all = scenarioBreakdown config rows s := by
  cases hfind : rows.find? s.selector.accepts with
  | none =>
    rw [select_eq_nil_of_find? hfind] at h
    obtain rfl := Except.ok.inj h
    rw [scenarioBreakdown_of_noRow hfind]
    rfl
  | some r =>
    have hhead : (s.selector.select rows).head? = some r := by
      rw [Selector.select, List.head?_filter, hfind]
    obtain ⟨rest, hrest⟩ := List.head?_eq_some_iff.1 hhead
    rw [hrest, mapM_eq_ok_iff, List.forall₂_cons_left_iff] at h
    obtain ⟨r', rest', hr', -, rfl⟩ := h
    -- the new row is the first one of all new rows
    have hfind' : (r' :: rest').find? s.selector.accepts = some r' :=
      List.find?_cons_of_pos (accepts_comparedRow hr' (List.find?_some hfind))
    rw [scenarioBreakdown_eq hfind, Breakdown.representative, hfind', comparedBreakdown, hr']
    rfl

end

/-! ### The view -/

/-- A breakdown is shown under the name of its scenario. -/
private theorem named_eq_ok_iff {config : Config} {rows : List Row} {s : Scenario}
    {part : ScenarioBreakdown} :
    (do return (⟨s.name, ← scenarioBreakdown config rows s⟩ : ScenarioBreakdown)) = .ok part ↔
      part.scenario = s.name ∧ Summarises config rows s part.breakdown := by
  obtain ⟨name, b⟩ := part
  rw [bind_eq_ok_iff]
  simp only [scenarioBreakdown_eq_ok_iff_summarises]
  constructor
  · intro ⟨b', hb', h⟩
    obtain ⟨rfl, rfl⟩ := ScenarioBreakdown.mk.inj (Except.ok.inj h)
    exact ⟨rfl, hb'⟩
  · intro ⟨hname, hb⟩
    obtain rfl : name = s.name := hname
    exact ⟨b, hb, rfl⟩

section

variable (config : Config) (rows : List Row)

/-- The view shows a summary for each scenario, in their order. -/
theorem breakdowns_eq_ok_iff {parts : List ScenarioBreakdown} :
    breakdowns config rows = .ok parts ↔
      List.Forall₂ (fun s part => part.scenario = s.name ∧
        Summarises config rows s part.breakdown) Scenario.all parts := by
  rw [breakdowns, mapM_eq_ok_iff]
  simp only [named_eq_ok_iff]

/-- The view fails for the first scenario without a breakdown. -/
theorem breakdowns_eq_error_iff {e : ReportError} :
    breakdowns config rows = .error e ↔ ∃ k s,
      IsFirst (fun s => ¬∃ b, Summarises config rows s b) Scenario.all k s ∧
        SummaryFault config rows s e := by
  have hfails : ∀ s, (∃ e, SummaryFault config rows s e) ↔ ¬∃ b, Summarises config rows s b := by
    intro s
    simp only [← scenarioBreakdown_eq_error_iff_summaryFault,
      ← scenarioBreakdown_eq_ok_iff_summarises]
    cases scenarioBreakdown config rows s <;> simp
  refine mapM_eq_error_iff_of_forall (fun s _ e => ?_) fun s _ hnone => (hfails s).2 hnone
  rw [named_eq_error_iff, scenarioBreakdown_eq_error_iff_summaryFault, ← hfails s]
  exact ⟨fun h => ⟨⟨e, h⟩, h⟩, fun h => h.2⟩

/-- The view shows the first row of each scenario, or fails for the first scenario without a breakdown,
    because it has no row or because its first row is at fault. Putting all rows of a scenario on the
    common number of signatures makes no difference. -/
theorem breakdowns_summarise_first :
    (∀ parts, breakdowns config rows = .ok parts ↔
      List.Forall₂ (fun s part => part.scenario = s.name ∧
        Summarises config rows s part.breakdown) Scenario.all parts) ∧
    (∀ e, breakdowns config rows = .error e ↔ ∃ k s,
      IsFirst (fun s => ¬∃ b, Summarises config rows s b) Scenario.all k s ∧
        SummaryFault config rows s e) ∧
    (∀ s e, SummaryFault config rows s e →
      ((∃ what, e = .missingRow what) ↔ ∀ r ∈ rows, r.adsModified ≠ some s.adsModified) ∧
        ∀ what, e = .missingRow what → what.message = s.selector.text) ∧
    ∀ s all, (s.selector.select rows).mapM (comparedRow config s) = .ok all →
      ∀ b, Breakdown.representative s.selector all = .ok b ↔ Summarises config rows s b := by
  refine ⟨fun parts => breakdowns_eq_ok_iff config rows, fun e => breakdowns_eq_error_iff config rows,
    fun s e h => h.missingRow_iff, fun s all h b => ?_⟩
  rw [representative_of_all h, scenarioBreakdown_eq_ok_iff_summarises]

end

/-- An issue and two transfers, and no loan. -/
private def withoutLoan : List Row :=
  [⟨0, 0, some 2, 2, 142, 250, 66, 33, 66, 600, none⟩,
    ⟨0, 0, some 1, 1, 71, 150, 33, 33, 66, 550, none⟩,
    ⟨9, 9, some 2, 1, 71, 350, 66, 33, 66, 700, none⟩]

/-- Without a loan there are no breakdowns. Transfers are summarised nevertheless, by the first one, and
    it makes no difference that both of them can be put on three signatures. -/
theorem breakdowns_summarise_first_withoutLoan :
    breakdowns .standard withoutLoan = .error (.missingRow (.selected (.adsModified 3))) ∧
    ∃ all b, (Scenario.transferred.selector.select withoutLoan).mapM
        (comparedRow .standard .transferred) = .ok all ∧
      all.length = 2 ∧
      Breakdown.representative Scenario.transferred.selector all = .ok b ∧
      Summarises .standard withoutLoan .transferred b := by
  obtain ⟨-, hfails, -, hall⟩ := breakdowns_summarise_first .standard withoutLoan
  -- issues and transfers have a summary
  have hsummary : ∀ s : Scenario, s = .issued ∨ s = .transferred →
      ∃ b, Summarises .standard withoutLoan s b := by
    intro s hs
    have hok : (scenarioBreakdown .standard withoutLoan s).isOk = true := by
      rcases hs with rfl | rfl
      · decide +kernel
      · decide +kernel
    obtain ⟨b, hb⟩ := exists_ok_of_isOk hok
    exact ⟨b, scenarioBreakdown_eq_ok_iff_summarises.1 hb⟩
  constructor
  · refine (hfails _).2 ⟨2, .loaned, ⟨rfl, ?_, ?_⟩, .noRow (by decide)⟩
    · intro ⟨b, r, hr, _⟩
      exact nomatch hr
    · intro s hs hnone
      exact hnone (hsummary s (by simpa [Scenario.all] using hs))
  · have hok : ((Scenario.transferred.selector.select withoutLoan).mapM
        (comparedRow .standard .transferred)).isOk = true := by decide +kernel
    obtain ⟨all, h⟩ := exists_ok_of_isOk hok
    obtain ⟨b, hb⟩ := hsummary .transferred (.inr rfl)
    exact ⟨all, b, h, (mapM_eq_ok_iff.1 h).length_eq.symm, (hall _ all h b).2 hb, hb⟩

end ProofSize.View
