import ProofSize.Proofs.View.Scenarios

/-!
# Scenarios do not interfere

What is shown of a scenario is made of its own rows. Rows of other scenarios and of none, sound or not,
may stand anywhere between them: no result depends on them, and neither does an error, since it counts
the rows of the selection. A breakdown depends on the first row of its scenario alone.

## Key results

- `scenarioSeries_congr`: series depend on the rows of the scenarios
- `scenarioBreakdown_congr`: a breakdown depends on the first row of its scenario
- `scenarios_independent`: lists with the same rows of each scenario have the same views
-/

namespace ProofSize

/-- The rows that a selector picks decide whether there are any. -/
theorem Selector.selectSome_congr {s : Selector} {rows rows' : List Row}
    (h : s.select rows = s.select rows') : s.selectSome rows = s.selectSome rows' := by
  rw [selectSome, selectSome, h]

namespace View

/-- Each scenario has the same rows in both lists, in the same order. -/
def SameScenarios (rows rows' : List Row) : Prop :=
  ∀ s : Scenario, s.selector.select rows = s.selector.select rows'

/-- Each scenario has the same first row in both lists, or none in either. -/
def SameFirstRows (rows rows' : List Row) : Prop :=
  ∀ s : Scenario, (s.selector.select rows).head? = (s.selector.select rows').head?

/-- Rows with the same scenarios have the same first row of each. -/
theorem SameScenarios.sameFirstRows {rows rows' : List Row} (h : SameScenarios rows rows') :
    SameFirstRows rows rows' :=
  fun s => congrArg List.head? (h s)

section

variable (config : Config) {rows rows' : List Row}

/-- Series depend on the rows of the scenarios. -/
theorem scenarioSeries_congr (h : SameScenarios rows rows') (axis : Axis) (counter : Row → UInt64)
    (suffix : String) (line : Line)
    (sizes : Overhead → List Row → Except ReportError (List UInt64)) :
    scenarioSeries config rows axis counter suffix line sizes =
      scenarioSeries config rows' axis counter suffix line sizes := by
  unfold scenarioSeries
  congr 1
  funext s
  rw [Selector.selectSome_congr (h s)]

/-- A breakdown depends on the first row of its scenario. -/
theorem scenarioBreakdown_congr {s : Scenario}
    (h : (s.selector.select rows).head? = (s.selector.select rows').head?) :
    scenarioBreakdown config rows s = scenarioBreakdown config rows' s := by
  have htake : (s.selector.select rows).take 1 = (s.selector.select rows').take 1 := by
    rw [List.take_one, List.take_one, h]
  have hfind : rows.find? s.selector.accepts = rows'.find? s.selector.accepts := by
    rw [← List.head?_filter, ← List.head?_filter]
    exact h
  unfold scenarioBreakdown Breakdown.representative
  rw [htake, hfind]

/-- The breakdowns depend on the first row of each scenario only. -/
theorem breakdowns_congr (h : SameFirstRows rows rows') :
    breakdowns config rows = breakdowns config rows' := by
  unfold breakdowns
  congr 1
  funext s
  rw [scenarioBreakdown_congr config (h s)]

/-- Lists with the same rows of each scenario have the same proof sizes, with caching and without it,
    and the same breakdowns, or the same errors. The same first rows suffice for the breakdowns. -/
theorem scenarios_independent :
    (SameScenarios rows rows' →
      proofSizeSeries config rows = proofSizeSeries config rows' ∧
        optimizationSeries config rows = optimizationSeries config rows' ∧
        breakdowns config rows = breakdowns config rows') ∧
    (SameFirstRows rows rows' → breakdowns config rows = breakdowns config rows') := by
  refine ⟨fun h => ⟨?_, ?_, breakdowns_congr config h.sameFirstRows⟩, breakdowns_congr config⟩
  · exact scenarioSeries_congr config h _ _ _ _ _
  · unfold optimizationSeries
    rw [scenarioSeries_congr config h, scenarioSeries_congr config h]

end

private def soundIssue : Row := ⟨0, 0, some 1, 1, 71, 150, 33, 33, 66, 550, none⟩

private def soundTransfer : Row := ⟨0, 0, some 2, 2, 142, 250, 66, 33, 66, 600, none⟩

private def soundLoan : Row := ⟨0, 0, some 3, 3, 213, 350, 99, 33, 66, 700, none⟩

/-- A loan with more signature bytes than it has bytes in total. -/
private def brokenLoan : Row := ⟨9, 9, some 3, 3, 900, 350, 99, 33, 66, 700, none⟩

/-- A row of no scenario that contradicts itself in every way. -/
private def brokenStray : Row := ⟨7, 7, none, 9, 900, 1, 1, 9, 1, 2, some 0⟩

private def inOrder : List Row := [soundIssue, soundTransfer, soundLoan, brokenLoan]

private def mixedUp : List Row :=
  [brokenStray, soundLoan, brokenStray, brokenLoan, soundTransfer, brokenStray, soundIssue]

/-- The broken loan is the second one, wherever it stands in the list. Breakdowns do not come to it. -/
theorem scenarios_independent_mixedUp :
    (proofSizeSeries .standard mixedUp = proofSizeSeries .standard inOrder ∧
      proofSizeSeries .standard inOrder =
        .error (.dataIntegrity 1 (.signaturesExceedTotal 900 700))) ∧
    breakdowns .standard [soundLoan, soundIssue, soundTransfer] = breakdowns .standard inOrder := by
  have hmixed : SameScenarios mixedUp inOrder := by
    intro s
    cases s <;> decide
  have hfirst : SameFirstRows [soundLoan, soundIssue, soundTransfer] inOrder := by
    intro s
    cases s <;> decide
  refine ⟨⟨((scenarios_independent .standard).1 hmixed).1, by decide +kernel⟩, ?_⟩
  exact (scenarios_independent .standard).2 hfirst

end View

end ProofSize
