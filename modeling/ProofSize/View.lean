import ProofSize.Config.Basic
import ProofSize.Series

/-! # Views

A view derives series or breakdowns from the rows of a run. Rows that no series of the view selects
are never looked at, and the first failure in the order of the series is the failure of the view.
-/

namespace ProofSize

/-- What a report shows. -/
inductive View where
  | proofSizes
  | optimization
  | breakdown
  | scale
  | signatures
  deriving DecidableEq

namespace View

def all : List View := [proofSizes, optimization, breakdown, scale, signatures]

def name : View → String
  | proofSizes => "proof-sizes"
  | optimization => "optimization"
  | breakdown => "breakdown"
  | scale => "scale"
  | signatures => "signatures"

end View

/-- The breakdown of one scenario. -/
structure ScenarioBreakdown where
  scenario : String
  breakdown : Breakdown
  deriving DecidableEq

/-- What a view gives. -/
structure ViewOutput where
  series : List Series
  breakdowns : List ScenarioBreakdown
  deriving DecidableEq

/-- How series of a scenario are drawn. -/
def Scenario.style (s : Scenario) (line : Line) : Style :=
  match s with
  | .issued => ⟨.red, .triangle, line⟩
  | .transferred => ⟨.blue, .circle, line⟩
  | .loaned => ⟨.green, .square, line⟩

/-- How the series at a place is drawn. After four places the styles repeat. -/
def Style.ofIndex (i : Nat) (line : Line) : Style :=
  match i % 4 with
  | 0 => ⟨.red, .triangle, line⟩
  | 1 => ⟨.blue, .circle, line⟩
  | 2 => ⟨.green, .square, line⟩
  | _ => ⟨.black, .diamond, line⟩

namespace View

/-- One series for each scenario: sizes of its rows against one of their counters. -/
def scenarioSeries (config : Config) (rows : List Row) (axis : Axis) (counter : Row → UInt64)
    (suffix : String) (line : Line)
    (sizes : Overhead → List Row → Except ReportError (List UInt64)) :
    Except ReportError (List Series) :=
  Scenario.all.mapM fun s => do
    let selected ← s.selector.selectSome rows
    let ys ← sizes (← config.overhead s) selected
    return .ofLists (s.name ++ suffix) axis (s.style line)
      (selected.map fun r => .ofWord (counter r)) (ys.map .ofWord)

/-- Proof size against updates since the last refresh. -/
def proofSizeSeries (config : Config) (rows : List Row) : Except ReportError (List Series) :=
  scenarioSeries config rows .updatesSinceRefresh Row.updatesSinceRefresh "" .solid adjustedTotals

/-- Proof size with caching of freshness proofs, then without it. -/
def optimizationSeries (config : Config) (rows : List Row) : Except ReportError (List Series) := do
  let cached ← scenarioSeries config rows .totalUpdates Row.totalUpdates " with optimization" .solid
    adjustedTotals
  let uncached ← scenarioSeries config rows .totalUpdates Row.totalUpdates " without optimization"
    .dashed uncachedTotals
  return cached ++ uncached

/-- The breakdown of a scenario's first row, on the common number of signatures where the scenario
    is compared on it. -/
def scenarioBreakdown (config : Config) (rows : List Row) (s : Scenario) :
    Except ReportError Breakdown :=
  if s.normalizesSignatures then do
    let normalized ← ((s.selector.select rows).take 1).mapM fun r =>
      r.normalize config.signatureSize config.targetSignatures
    Breakdown.representative s.selector normalized
  else Breakdown.representative s.selector rows

/-- The breakdown of each scenario. -/
def breakdowns (config : Config) (rows : List Row) : Except ReportError (List ScenarioBreakdown) :=
  Scenario.all.mapM fun s => do
    return ⟨s.name, ← scenarioBreakdown config rows s⟩

/-- Puts a word at its place in an ascending list, unless it is there. -/
def insertAscending (n : UInt64) : List UInt64 → List UInt64
  | [] => [n]
  | m :: ms =>
    if n < m then n :: m :: ms
    else if n = m then m :: ms
    else m :: insertAscending n ms

/-- The server sizes that occur in the rows, ascending and each once. -/
def serverSizes (rows : List Row) : List UInt64 :=
  (rows.filterMap Row.adsCount).foldl (fun ns n => insertAscending n ns) []

/-- The pair of series, with caching and without it, of the rows of one server size. -/
def serverSeries (rows : List Row) (index : Nat) (size : UInt64) :
    Except ReportError (List Series) := do
  let group := rows.filter fun r => r.adsCount == some size
  let xs ← percentagesUpdated group
  let cached ← adjustedTotals .measured group
  let uncached ← uncachedTotals .measured group
  return [
    .ofLists s!"{size.toNat} ADSes" .percentUpdated (.ofIndex index .solid) xs
      (cached.map .ofWord),
    .ofLists s!"{size.toNat} ADSes without optimization" .percentUpdated (.ofIndex index .dashed) xs
      (uncached.map .ofWord)]

/-- Proof size against the share of updated data structures, a pair of series for each server size.
    Every row must have a server size. -/
def scaleSeries (rows : List Row) : Except ReportError (List Series) := do
  let _ ← percentagesUpdated rows
  let pairs ← (serverSizes rows).zipIdx.mapM fun n => serverSeries rows n.2 n.1
  return pairs.flatten

/-- Proof size for each configured number of signatures. -/
def signatureSeries (config : Config) (rows : List Row) : Except ReportError (List Series) :=
  config.signatureCounts.zipIdx.mapM fun n => do
    let selected ← (Selector.signatures n.1).selectSome rows
    let ys ← adjustedTotals .measured selected
    return .ofLists s!"{n.1.toNat} signatures" .updatesSinceRefresh (.ofIndex n.2 .solid)
      (selected.map fun r => .ofWord r.updatesSinceRefresh) (ys.map .ofWord)

/-- What the view shows of the rows. -/
def run (config : Config) (rows : List Row) : View → Except ReportError ViewOutput
  | proofSizes => do return ⟨← proofSizeSeries config rows, []⟩
  | optimization => do return ⟨← optimizationSeries config rows, []⟩
  | breakdown => do return ⟨[], ← breakdowns config rows⟩
  | scale => do return ⟨← scaleSeries rows, []⟩
  | signatures => do return ⟨← signatureSeries config rows, []⟩

end View

end ProofSize
