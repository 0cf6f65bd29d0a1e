import ProofSize.Proofs.Size
import ProofSize.View

/-!
# Series of scenarios

The series of a scenario are made of its rows and of their sizes; labels, styles and counters do not
decide whether there are any.

## Key results

- `scenarioSeries_eq_map`: series are a presentation of the sizes of each scenario
- `scenarioSizes_eq_ok_iff`: when a scenario has sizes
- `getElem?_points_presented`: the point of a row
-/

namespace ProofSize

/-- A selection is given if it has a row. -/
theorem Selector.selectSome_eq_ok_iff {s : Selector} {rows selected : List Row} :
    s.selectSome rows = .ok selected ↔ selected = s.select rows ∧ selected ≠ [] := by
  unfold selectSome
  cases s.select rows with
  | nil => simp
  | cons r rs =>
    simp only [Except.ok.injEq]
    constructor
    · intro h
      exact ⟨h.symm, by simp [← h]⟩
    · intro ⟨h, _⟩
      exact h.symm

namespace View

/-- The sizes of the rows of a scenario. -/
def scenarioSizes (config : Config) (rows : List Row)
    (sizes : Overhead → List Row → Except ReportError (List UInt64)) (s : Scenario) :
    Except ReportError (Scenario × List UInt64) := do
  let selected ← s.selector.selectSome rows
  let ys ← sizes (← config.overhead s) selected
  return (s, ys)

/-- The series that presents the sizes of a scenario. -/
def presented (rows : List Row) (axis : Axis) (counter : Row → UInt64) (suffix : String)
    (line : Line) (z : Scenario × List UInt64) : Series :=
  .ofLists (z.1.name ++ suffix) axis (z.1.style line)
    ((z.1.selector.select rows).map fun r => .ofWord (counter r)) (z.2.map .ofWord)

section

variable {config : Config} {rows : List Row} {axis : Axis} {counter : Row → UInt64}
  {suffix : String} {line : Line}
  {sizes : Overhead → List Row → Except ReportError (List UInt64)}

/-- Series are a presentation of the sizes of each scenario. -/
theorem scenarioSeries_eq_map :
    scenarioSeries config rows axis counter suffix line sizes =
      (Scenario.all.mapM (scenarioSizes config rows sizes)).map
        (List.map (presented rows axis counter suffix line)) := by
  rw [← mapM_map, scenarioSeries]
  congr 1
  funext s
  unfold scenarioSizes
  -- an error of any step is an error of both sides
  cases hsel : s.selector.selectSome rows with
  | error e => rfl
  | ok selected =>
    obtain ⟨hselected, -⟩ := Selector.selectSome_eq_ok_iff.1 hsel
    cases config.overhead s with
    | error e => rfl
    | ok o =>
      show (sizes o selected >>= _) = Except.map _ (sizes o selected >>= _)
      cases sizes o selected with
      | error e => rfl
      | ok ys => rw [hselected]; rfl

/-- There are series if each scenario has sizes. -/
theorem exists_scenarioSeries (h : ∀ s, ∃ z, scenarioSizes config rows sizes s = .ok z) :
    ∃ series, scenarioSeries config rows axis counter suffix line sizes = .ok series := by
  obtain ⟨zs, hzs⟩ := exists_mapM_eq_ok_iff.2 fun s (_ : s ∈ Scenario.all) => h s
  exact ⟨_, by rw [scenarioSeries_eq_map, hzs]; rfl⟩

/-- A scenario has sizes if it has rows, an overhead, and a size for each of its rows. -/
theorem scenarioSizes_eq_ok_iff {s : Scenario} {z : Scenario × List UInt64} :
    scenarioSizes config rows sizes s = .ok z ↔ s.selector.select rows ≠ [] ∧ z.1 = s ∧
      ∃ o, config.overhead s = .ok o ∧ sizes o (s.selector.select rows) = .ok z.2 := by
  unfold scenarioSizes
  simp only [bind_eq_ok_iff, Selector.selectSome_eq_ok_iff]
  constructor
  · intro ⟨selected, ⟨hselected, hne⟩, o, ho, ys, hys, hz⟩
    obtain rfl := Except.ok.inj hz
    subst hselected
    exact ⟨hne, rfl, o, ho, hys⟩
  · intro ⟨hne, hs, o, ho, hys⟩
    obtain ⟨t, ys⟩ := z
    obtain rfl : t = s := hs
    exact ⟨_, ⟨rfl, hne⟩, o, ho, ys, hys, rfl⟩

/-- The point of a row stands where its counter is, at the height of its size. -/
theorem getElem?_points_presented {s : Scenario} {ys : List UInt64} {i : Nat} {r : Row}
    {n : UInt64} (hr : (s.selector.select rows)[i]? = some r) (hn : ys[i]? = some n) :
    (presented rows axis counter suffix line (s, ys)).points[i]? =
      some ⟨.ofWord (counter r), .ofWord n⟩ := by
  simp [presented, Series.ofLists, List.getElem?_zipWith, hr, hn]

end

end View

end ProofSize
