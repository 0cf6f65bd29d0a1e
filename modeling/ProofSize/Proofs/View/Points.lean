import ProofSize.Proofs.View.Scale
import ProofSize.Proofs.View.Signatures

/-!
# One point for each row

A series is made from two lists, one of places and one of heights. Both are as long as the selection
that they come from, so no point is lost: a series shows the rows that its selector picks, in their
order, each at its counter and at the height of its exact size.

## Key results

- `lineSizes_eq_ok`: the sizes of a selection, on a line with caching or without it
- `scenarioSeries_shows`: the series of scenarios show their rows
- `signatureSeries_shows`, `signatureSeries_eq_error_iff`: the series of numbers of signatures
- `series_show_rows`: what the three views show, and how the last one fails
-/

namespace ProofSize.View

/-! ### Sizes on a line -/

/-- The exact bytes of a row with an overhead. A solid line is with caching, a dashed one without it. -/
def sizeOn (o : Overhead) : Line → Row → Nat
  | .solid, r => r.adjusted o
  | .dashed, r => r.adjusted o + r.saved

/-- The row has a size on a line: the differences that it is made of exist, and 64 bits hold it. -/
structure Sized (o : Overhead) (line : Line) (r : Row) : Prop where
  signatures : r.signatureBytes.toNat ≤ r.totalBytes.toNat
  cached : line = .dashed → r.freshnessBytes.toNat ≤ r.uncachedFreshnessBytes.toNat
  fits : sizeOn o line r < UInt64.size

/-- The computed sizes of a selection on a line. -/
def lineSizes : Line → Overhead → List Row → Except ReportError (List UInt64)
  | .solid => adjustedTotals
  | .dashed => uncachedTotals

/-- The series shows the selected rows, of which there is one at least: each has one point, in the
    order of the rows, at its counter and at the height of its size. -/
structure ShowsRows (o : Overhead) (line : Line) (counter : Row → UInt64) (selected : List Row)
    (series : Series) : Prop where
  nonempty : selected ≠ []
  sized : ∀ r ∈ selected, Sized o line r
  points : series.points =
    selected.map fun r => ⟨.ofWord (counter r), .ofNat (sizeOn o line r)⟩

section

variable {o : Overhead} {line : Line} {rows : List Row} {ys : List UInt64}

/-- The computed sizes are the exact ones, in the order of the rows. -/
theorem lineSizes_eq_ok (h : lineSizes line o rows = .ok ys) :
    ys.map Binary64.ofWord = rows.map (fun r => .ofNat (sizeOn o line r)) ∧
      ∀ r ∈ rows, Sized o line r := by
  cases line with
  | solid =>
    refine ⟨map_of_forRows_eq_ok h fun r _ i w hw => ?_, fun r hr => ?_⟩
    · rw [Binary64.ofWord, (Row.adjustedTotal_eq_ok_iff.1 hw).2]
      rfl
    · obtain ⟨hle, hlt⟩ := exists_adjustedTotals_eq_ok_iff.1 ⟨ys, h⟩ r hr
      exact ⟨Nat.le_of_not_lt hle, fun h => absurd h (by decide), hlt⟩
  | dashed =>
    refine ⟨map_of_forRows_eq_ok h fun r _ i w hw => ?_, fun r hr => ?_⟩
    · rw [Binary64.ofWord, (Row.uncachedTotal_eq_ok_iff.1 hw).2.2]
      rfl
    · obtain ⟨hle, hcached, hlt⟩ := exists_uncachedTotals_eq_ok_iff.1 ⟨ys, h⟩ r hr
      exact ⟨Nat.le_of_not_lt hle, fun _ => hcached, hlt⟩

/-- A series made of the counters of the rows and of their sizes shows the rows. -/
theorem showsRows_ofLists (line : Line) (hne : rows ≠ []) (h : lineSizes line o rows = .ok ys)
    (label : String) (axis : Axis) (style : Style) (counter : Row → UInt64) :
    ShowsRows o line counter rows
      (.ofLists label axis style (rows.map fun r => .ofWord (counter r)) (ys.map .ofWord)) := by
  obtain ⟨hys, hsized⟩ := lineSizes_eq_ok h
  refine ⟨hne, hsized, ?_⟩
  -- the two lists come from the rows, so neither is the shorter one
  rw [Series.ofLists, hys, List.zipWith_map, List.zipWith_self]

end

/-! ### Scenarios -/

/-- The series shows the rows of a scenario, with its overhead. -/
structure ShowsScenario (config : Config) (rows : List Row) (line : Line) (counter : Row → UInt64)
    (s : Scenario) (series : Series) : Prop where
  style : series.style = s.style line
  rows : ∃ o, config.overhead s = .ok o ∧
    ShowsRows o line counter (s.selector.select rows) series

section

variable {config : Config} {rows : List Row} {axis : Axis} {counter : Row → UInt64}
  {suffix : String} {series : List Series}

/-- The series of the scenarios show their rows. -/
theorem scenarioSeries_shows (line : Line)
    (h : scenarioSeries config rows axis counter suffix line (lineSizes line) = .ok series) :
    List.Forall₂ (ShowsScenario config rows line counter) Scenario.all series := by
  rw [scenarioSeries_eq_map, map_eq_ok_iff] at h
  obtain ⟨zs, hzs, rfl⟩ := h
  rw [List.forall₂_map_right_iff]
  refine (mapM_eq_ok_iff.1 hzs).imp fun s z hz => ?_
  obtain ⟨hne, rfl, o, ho, hsizes⟩ := scenarioSizes_eq_ok_iff.1 hz
  exact ⟨rfl, o, ho, showsRows_ofLists line hne hsizes _ _ _ _⟩

end

/-! ### Numbers of signatures -/

/-- There are rows with this many signatures, and none of them has more signature bytes than bytes in
    total. -/
def Carried (rows : List Row) (n : UInt64) : Prop :=
  (∃ r ∈ rows, r.signatureCount = n) ∧
    ∀ r ∈ rows, r.signatureCount = n → r.signatureBytes.toNat ≤ r.totalBytes.toNat

/-- The series shows the totals of the rows with a number of signatures, drawn as the one at a
    place. -/
structure ShowsCount (rows : List Row) (z : UInt64 × Nat) (series : Series) : Prop where
  nonempty : (Selector.signatures z.1).select rows ≠ []
  style : ∃ color marker, palette[z.2 % 4]? = some (color, marker) ∧
    series.style = ⟨color, marker, .solid⟩
  points : series.points = ((Selector.signatures z.1).select rows).map fun r =>
    ⟨.ofWord r.updatesSinceRefresh, .ofWord r.totalBytes⟩

/-- Why there is no series of a number of signatures: no row carries as many, or the first row that
    does not have them within its total. -/
inductive CountFault (rows : List Row) (n : UInt64) : ReportError → Prop
  | none : (∀ r ∈ rows, r.signatureCount ≠ n) → CountFault rows n (.emptySelection (.signatures n))
  | exceeds {i : Nat} {r : Row} :
      IsFirst Row.SignaturesExceed ((Selector.signatures n).select rows) i r →
      CountFault rows n
        (.dataIntegrity i (.signaturesExceedTotal r.signatureBytes r.totalBytes))

section

variable {config : Config} {rows : List Row} {n : UInt64} {z : UInt64 × Nat} {e : ReportError}

/-- The rows of a number of signatures are those that carry as many. -/
private theorem mem_select_signatures {r : Row} :
    r ∈ (Selector.signatures n).select rows ↔ r ∈ rows ∧ r.signatureCount = n := by
  simp [Selector.select, Selector.accepts]

/-- There are none if no row carries as many. -/
private theorem select_signatures_eq_nil_iff :
    (Selector.signatures n).select rows = [] ↔ ∀ r ∈ rows, r.signatureCount ≠ n := by
  simp [Selector.select, Selector.accepts, List.filter_eq_nil_iff]

/-- A number is carried if it has rows, and each of them has its signatures within its total. -/
private theorem carried_iff :
    Carried rows n ↔ (Selector.signatures n).select rows ≠ [] ∧
      ∀ r ∈ (Selector.signatures n).select rows,
        r.signatureBytes.toNat ≤ r.totalBytes.toNat := by
  rw [Carried, ne_eq, select_signatures_eq_nil_iff]
  simp [mem_select_signatures]

/-- The series of a number of signatures shows its rows. -/
private theorem signatureLine_shows {series : Series} (h : signatureLine rows z = .ok series) :
    ShowsCount rows z series := by
  unfold signatureLine at h
  obtain ⟨selected, hselected, h⟩ := bind_eq_ok_iff.1 h
  obtain ⟨rfl, hne⟩ := Selector.selectSome_eq_ok_iff.1 hselected
  obtain ⟨ys, hys, h⟩ := bind_eq_ok_iff.1 h
  obtain rfl := Except.ok.inj h
  obtain ⟨color, marker, hpalette, hstyle⟩ := exists_ofIndex z.2
  have hshows := showsRows_ofLists .solid hne hys s!"{z.1.toNat} signatures"
    .updatesSinceRefresh (.ofIndex z.2 .solid) Row.updatesSinceRefresh
  refine ⟨hne, ⟨color, marker, hpalette, hstyle .solid⟩, hshows.points.trans ?_⟩
  apply List.map_congr_left
  intro r hr
  -- the signatures that are taken off are added again
  have htotal : sizeOn .measured .solid r = r.totalBytes.toNat :=
    Nat.sub_add_cancel (hshows.sized r hr).signatures
  rw [htotal, Binary64.ofWord, Binary64.ofWord]

/-- A number of signatures has no series if no row carries as many, or for the first row that does not
    have them within its total. -/
private theorem signatureLine_eq_error_iff :
    signatureLine rows z = .error e ↔ CountFault rows z.1 e := by
  unfold signatureLine Selector.selectSome
  by_cases hnil : (Selector.signatures z.1).select rows = []
  · rw [hnil]
    constructor
    · intro h
      obtain rfl := Except.error.inj h
      exact .none (select_signatures_eq_nil_iff.1 hnil)
    · intro h
      cases h with
      | none => rfl
      | exceeds hfirst =>
        rw [hnil] at hfirst
        exact (not_isFirst_nil hfirst).elim
  · obtain ⟨r, rs, hselected⟩ := List.exists_cons_of_ne_nil hnil
    rw [hselected]
    -- with a row selected only its signatures can be at fault
    show (adjustedTotals .measured (r :: rs) >>= _) = _ ↔ _
    rw [← hselected, bind_eq_error_iff, adjustedTotals_measured_eq_error_iff]
    constructor
    · intro h
      rcases h with ⟨i, r, hfirst, rfl⟩ | ⟨ys, -, h⟩
      · exact .exceeds hfirst
      · exact nomatch h
    · intro h
      cases h with
      | none hnone => exact absurd (select_signatures_eq_nil_iff.2 hnone) hnil
      | exceeds hfirst => exact .inl ⟨_, _, hfirst, rfl⟩

/-- A number has its line if it is carried. -/
private theorem exists_signatureLine_iff_carried :
    (∃ series, signatureLine rows z = .ok series) ↔ Carried rows z.1 := by
  rw [carried_iff]
  exact exists_signatureLine_iff

/-- A number has a fault if it is not carried. -/
private theorem exists_countFault_iff : (∃ e, CountFault rows n e) ↔ ¬Carried rows n := by
  rw [← exists_signatureLine_iff_carried (z := (n, 0))]
  simp only [← signatureLine_eq_error_iff (z := (n, 0))]
  cases signatureLine rows (n, 0) <;> simp

/-- The view fails for the first number of signatures that has no series. -/
theorem signatureSeries_eq_error_iff :
    signatureSeries config rows = .error e ↔ ∃ k n,
      IsFirst (fun n => ¬Carried rows n) config.signatureCounts k n ∧ CountFault rows n e := by
  -- the numbers go with their places, which give the series their styles
  have hlines : signatureSeries config rows = .error e ↔
      ∃ k z, IsFirst (fun z : UInt64 × Nat => ¬Carried rows z.1) config.signatureCounts.zipIdx k z ∧
        CountFault rows z.1 e := by
    apply mapM_eq_error_iff_of_forall (f := signatureLine rows)
    · intro z _ e
      rw [signatureLine_eq_error_iff, ← exists_countFault_iff]
      exact ⟨fun h => ⟨⟨e, h⟩, h⟩, fun h => h.2⟩
    · intro z _ h
      exact exists_countFault_iff.2 h
  rw [hlines]
  constructor
  · intro ⟨k, z, hfirst, he⟩
    exact ⟨k, z.1, (isFirst_zipIdx_iff.1 hfirst).1, he⟩
  · intro ⟨k, n, hfirst, he⟩
    exact ⟨k, (n, k), isFirst_zipIdx_iff.2 ⟨hfirst, (Nat.zero_add k).symm⟩, he⟩

/-- The view has one series for each configured number of signatures, in their order. -/
theorem signatureSeries_shows {series : List Series} (h : signatureSeries config rows = .ok series) :
    List.Forall₂ (ShowsCount rows) config.signatureCounts.zipIdx series :=
  (mapM_eq_ok_iff.1 h).imp fun _ _ hz => signatureLine_shows hz

end

/-! ### The three views -/

variable (config : Config) (rows : List Row)

/-- Every series of proof sizes, with caching or without it, and of numbers of signatures shows the rows
    that it selects, each by one point. There are series of numbers of signatures if each of them is
    carried; otherwise the first one that is not decides the error. -/
theorem series_show_rows :
    (∀ series, proofSizeSeries config rows = .ok series →
      List.Forall₂ (ShowsScenario config rows .solid Row.updatesSinceRefresh) Scenario.all series) ∧
    (∀ series, optimizationSeries config rows = .ok series →
      ∃ cached uncached, series = cached ++ uncached ∧
        List.Forall₂ (ShowsScenario config rows .solid Row.totalUpdates) Scenario.all cached ∧
        List.Forall₂ (ShowsScenario config rows .dashed Row.totalUpdates) Scenario.all uncached) ∧
    (∀ series, signatureSeries config rows = .ok series →
      List.Forall₂ (ShowsCount rows) config.signatureCounts.zipIdx series) ∧
    ((∃ series, signatureSeries config rows = .ok series) ↔
      ∀ n ∈ config.signatureCounts, Carried rows n) ∧
    ∀ e, signatureSeries config rows = .error e ↔ ∃ k n,
      IsFirst (fun n => ¬Carried rows n) config.signatureCounts k n ∧ CountFault rows n e := by
  refine ⟨fun series h => scenarioSeries_shows .solid h, fun series h => ?_,
    fun series => signatureSeries_shows, ?_, fun e => signatureSeries_eq_error_iff⟩
  -- first come the series with caching, then those without it
  · obtain ⟨cached, hcached, h⟩ := bind_eq_ok_iff.1 h
    obtain ⟨uncached, huncached, h⟩ := bind_eq_ok_iff.1 h
    exact ⟨cached, uncached, (Except.ok.inj h).symm, scenarioSeries_shows .solid hcached,
      scenarioSeries_shows .dashed huncached⟩
  · simp only [exists_signatureSeries_iff, carried_iff]

/-- The standard run, with a number of signatures that is compared twice. -/
private def comparedTwice : Config := { Config.standard with signatureCounts := [2, 4, 2] }

private def twoCounts : List Row :=
  [⟨10, 30, some 1, 2, 142, 150, 33, 33, 66, 550, none⟩,
    ⟨20, 40, some 2, 4, 284, 450, 66, 33, 66, 800, none⟩,
    ⟨30, 50, some 3, 2, 142, 350, 99, 33, 66, 700, none⟩]

/-- A row with more signature bytes than it has bytes in total. -/
private def excessive : Row := ⟨40, 60, none, 4, 900, 950, 33, 33, 66, 700, none⟩

/-- The two rows with two signatures are shown twice. A second row with four signatures that has too
    many bytes of them is an error at its place among the rows with four. -/
theorem series_show_rows_comparedTwice :
    (∃ series, signatureSeries comparedTwice twoCounts = .ok series ∧
      List.Forall₂ (ShowsCount twoCounts) [(2, 0), (4, 1), (2, 2)] series) ∧
    (∃ series, proofSizeSeries comparedTwice twoCounts = .ok series ∧
      List.Forall₂ (ShowsScenario comparedTwice twoCounts .solid Row.updatesSinceRefresh)
        Scenario.all series) ∧
    signatureSeries comparedTwice (twoCounts ++ [excessive]) =
      .error (.dataIntegrity 1 (.signaturesExceedTotal 900 700)) := by
  obtain ⟨hsizes, -, hcounts, hcarried, -⟩ := series_show_rows comparedTwice twoCounts
  obtain ⟨-, -, -, -, hfault⟩ := series_show_rows comparedTwice (twoCounts ++ [excessive])
  refine ⟨?_, ?_, ?_⟩
  · have hall : ∀ n ∈ comparedTwice.signatureCounts, Carried twoCounts n := by
      have htwo : Carried twoCounts 2 := by
        unfold Carried
        decide
      have hfour : Carried twoCounts 4 := by
        unfold Carried
        decide
      simp [comparedTwice, htwo, hfour]
    obtain ⟨series, hseries⟩ := hcarried.2 hall
    exact ⟨series, hseries, hcounts series hseries⟩
  · have hok : (proofSizeSeries comparedTwice twoCounts).isOk = true := by decide +kernel
    obtain ⟨series, hseries⟩ := exists_ok_of_isOk hok
    exact ⟨series, hseries, hsizes series hseries⟩
  -- two signatures are still carried, so four are the first number at fault
  · refine (hfault _).2 ⟨1, 4, ⟨rfl, ?_, ?_⟩, .exceeds (r := excessive) ⟨rfl, ?_, ?_⟩⟩
    · unfold Carried
      decide
    · intro n hn
      obtain rfl := List.mem_singleton.1 hn
      unfold Carried
      decide
    · unfold Row.SignaturesExceed
      decide
    · unfold Row.SignaturesExceed
      decide

end ProofSize.View
