import ProofSize.Proofs.Report.Lines
import ProofSize.Proofs.View.Points

/-!
# The numbers in the tables

Counters and sizes are words, which are not all numbers of the format. The console shows a counter with
all its digits below `10 ^ 15`, and from there on as the nearest number of the format. It shows a size as
it is up to `2 ^ 53`, and above not far from it and in its place among the sizes.

## Key results

- `showsCounter_coordinate`: how a counter is written
- `lineShows_line`: what the line of a row shows
- `exists_linesOf_text`: the tables in the text of a report
- `tables_show_rows`: the tables of the three views show the rows
-/

namespace ProofSize.Report

open Binary64 View

/-! ### One line -/

/-- The text is the counter: all its digits if it is less than `10 ^ 15`, otherwise the digits of the
    number nearest to it, which is a natural number too, with decimal places. -/
inductive ShowsCounter (counter : Nat) : String → Prop
  | digits : counter < 10 ^ 15 → ShowsCounter counter (toString counter)
  | rounded {m : Magnitude} {k : Nat} : 10 ^ 15 ≤ counter → IsRounding counter m →
      valueOf m.units = k → ShowsCounter counter (toString k ++ ".0000")

/-- The line shows a counter and a size. The size becomes a word that is the size itself up to `2 ^ 53`,
    and at most 1024 away from it above. -/
def LineShows (counter size : Nat) (line : String) : Prop :=
  ∃ x, wordsOf line = [x, toString (wordOf size)] ∧ ShowsCounter counter x ∧
    wordOf size ≤ size + 1024 ∧ size ≤ wordOf size + 1024 ∧ (size ≤ 2 ^ 53 → wordOf size = size)

section

variable {counter size : Nat}

/-- A natural number with decimal places has its digits and zeros. -/
private theorem fixed_eq_toString {m : Magnitude} {k : Nat} (hm : m.units = k * one) (hk : 0 < k) :
    (finite false m).fixed 4 = toString k ++ ".0000" := by
  have hzeros : (".0000" : String) = String.ofList ('.' :: List.replicate 4 '0') := by decide
  rw [Binary64.fixed, fixed_of_whole hm hk, if_neg Bool.false_ne_true, List.nil_append,
    String.ofList_append, hzeros]
  rfl

/-- A counter is written with its digits or as the number nearest to it. -/
theorem showsCounter_coordinate (h : counter < 2 ^ 64) :
    ShowsCounter counter (Binary64.ofNat counter).coordinate := by
  obtain ⟨m, hm, hfinite, hrounding⟩ := isRounding_ofNat (j := 64) (Nat.le_of_lt h) (by decide)
  have hunits : m.units = roundedNat counter * one := by rw [hm, roundedNat_mul_one]
  have hwhole : m.whole = roundedNat counter := by
    rw [Magnitude.whole, hunits, Nat.mul_div_cancel _ Binary64.one_pos]
  have hisWhole : m.isWhole = true := by
    rw [Magnitude.isWhole, hunits, Nat.mul_mod_left, beq_self_eq_true]
  have hlimit : wholeLimit = 10 ^ 15 := by decide
  rw [hfinite, coordinate, hisWhole, hwhole, Bool.true_and, hlimit]
  rcases Nat.lt_or_ge counter (10 ^ 15) with hlt | hle
  · have hexact : roundedNat counter = counter :=
      roundedNat_eq (exact_of_le (Nat.le_of_lt (Nat.lt_trans hlt (by decide))))
    rw [hexact, if_pos (decide_eq_true hlt), Bool.false_and, if_neg Bool.false_ne_true,
      String.empty_append]
    exact .digits hlt
  · -- roundings keep their order, so the notation changes at the same place for them
    have hlarge : 10 ^ 15 ≤ roundedNat counter := by
      have hkept : roundedNat (10 ^ 15) = 10 ^ 15 := roundedNat_eq (exact_of_le (by decide))
      exact hkept ▸ roundedNat_le_roundedNat hle
    have hpos : 0 < roundedNat counter := Nat.lt_of_lt_of_le (by decide) hlarge
    rw [if_neg fun hlt => Nat.not_lt.2 hlarge (of_decide_eq_true hlt), fixed_eq_toString hunits hpos]
    exact .rounded hle hrounding (by rw [hm, valueOf_unitsOf])

/-- The line of a point at a counter and at the height of a size shows the two. -/
theorem lineShows_line (hcounter : counter < 2 ^ 64) (hsize : size < 2 ^ 64) :
    LineShows counter size (Point.line ⟨.ofNat counter, .ofNat size⟩) := by
  have hnear := wordOf_near hsize
  refine ⟨_, ?_, showsCounter_coordinate hcounter, hnear.1, hnear.2, wordOf_eq⟩
  rw [Point.wordsOf_line, wordOf]

/-- The greatest word and the first natural number that is not one of the format: the size is rounded up
    to `2 ^ 64` and cut to the greatest word again. -/
example : Point.line ⟨.ofNat 9007199254740993, .ofNat 18446744073709551615⟩ =
    "9007199254740992.0000  18446744073709551615" := by
  decide +kernel

end

/-! ### Tables -/

/-- The lines are a table of the rows: a heading, and for each row a line that shows its counter and its
    size. -/
def TableShows (counter : Row → UInt64) (size : Row → Nat) (rows : List Row)
    (table : List String) : Prop :=
  ∃ heading lines, table = heading :: lines ∧
    List.Forall₂ (fun r line => LineShows (counter r).toNat (size r) line) rows lines

/-- The lines are the table of the rows of a scenario, with caching or without it. -/
def ScenarioTable (config : Config) (rows : List Row) (line : Line) (counter : Row → UInt64)
    (s : Scenario) (table : List String) : Prop :=
  ∃ o, config.overhead s = .ok o ∧ (∀ r ∈ s.selector.select rows, Sized o line r) ∧
    TableShows counter (sizeOn o line) (s.selector.select rows) table

/-- The lines are the table of the rows with a number of signatures. -/
def CountTable (rows : List Row) (n : UInt64) (table : List String) : Prop :=
  TableShows Row.updatesSinceRefresh (fun r => r.totalBytes.toNat)
    ((Selector.signatures n).select rows) table

section

variable {config : Config} {rows : List Row} {line : Line} {counter : Row → UInt64} {size : Row → Nat}
  {series : List Series}

/-- The lines of a series with a point for each row are the table of these rows. -/
private theorem tableShows_lines {s : Series}
    (hpoints : s.points = rows.map fun r => ⟨.ofWord (counter r), .ofNat (size r)⟩)
    (hsize : ∀ r ∈ rows, size r < 2 ^ 64) : TableShows counter size rows s.lines := by
  refine ⟨_, _, rfl, ?_⟩
  rw [hpoints, List.map_map, List.forall₂_map_right_iff, List.forall₂_same]
  exact fun r hr => lineShows_line (counter r).toNat_lt (hsize r hr)

/-- The lines of a series that shows a scenario are the table of that scenario. -/
private theorem scenarioTable_lines {s : Scenario} {z : Series}
    (h : ShowsScenario config rows line counter s z) :
    ScenarioTable config rows line counter s z.lines := by
  obtain ⟨o, ho, hrows⟩ := h.rows
  exact ⟨o, ho, hrows.sized, tableShows_lines hrows.points fun r hr => (hrows.sized r hr).fits⟩

/-- Each scenario has its table, in the order of the scenarios. -/
private theorem scenarioTables
    (h : List.Forall₂ (ShowsScenario config rows line counter) Scenario.all series) :
    List.Forall₂ (ScenarioTable config rows line counter) Scenario.all (series.map Series.lines) := by
  rw [List.forall₂_map_right_iff]
  exact h.imp fun _ _ => scenarioTable_lines

/-- Each number of signatures has its table, in the order in which they are asked for. -/
private theorem countTables {counts : List UInt64}
    (h : List.Forall₂ (ShowsCount rows) counts.zipIdx series) :
    List.Forall₂ (CountTable rows) counts (series.map Series.lines) := by
  rw [List.forall₂_map_right_iff, ← forall₂_zipIdx_iff]
  exact h.imp fun _ _ hshows => tableShows_lines hshows.points fun r _ => r.totalBytes.toNat_lt

/-! ### Labels -/

/-- The labels of scenarios go over no end of a line. -/
private theorem oneLine_scenarioSeries {axis : Axis} {suffix : String} (hsuffix : OneLine suffix)
    {sizes : Overhead → List Row → Except ReportError (List UInt64)}
    (h : scenarioSeries config rows axis counter suffix line sizes = .ok series) :
    ∀ s ∈ series, OneLine s.label := by
  rw [scenarioSeries_eq_map, map_eq_ok_iff] at h
  obtain ⟨zs, -, rfl⟩ := h
  rw [List.forall_mem_map]
  intro z _
  have hname : OneLine z.1.name := by cases z.1 <;> decide
  exact oneLine_append.2 ⟨hname, hsuffix⟩

/-- The labels of numbers of signatures go over no end of a line. -/
private theorem oneLine_signatureSeries (h : signatureSeries config rows = .ok series) :
    ∀ s ∈ series, OneLine s.label := by
  refine forall_of_mapM_eq_ok (f := signatureLine rows) h fun z s hs => ?_
  unfold signatureLine at hs
  obtain ⟨selected, -, hs⟩ := bind_eq_ok_iff.1 hs
  obtain ⟨ys, -, hs⟩ := bind_eq_ok_iff.1 hs
  obtain rfl := Except.ok.inj hs
  show OneLine s!"{z.1.toNat} signatures"
  exact oneLine_append.2 ⟨(isWord_toString z.1.toNat).oneLine, by decide⟩

end

/-! ### The text of a report -/

/-- Every text of a report with these series has the lines of their tables, one table behind the
    other. -/
def TextsHold (series : List Series) : Prop :=
  ∀ (r : Report) (text : String), r.series = series → r.text? = some text →
    ∃ before behind, linesOf text = before ++ (series.map Series.lines).flatten ++ behind

/-- Tables are found again in a text, whatever stands around them. -/
theorem textsHold_of_oneLine {series : List Series} (h : ∀ s ∈ series, OneLine s.label) :
    TextsHold series := by
  rintro r text rfl htext
  obtain ⟨lines, hlines, rfl⟩ := Option.map_eq_some_iff.1 htext
  obtain ⟨sources, -, hrest⟩ := Option.bind_eq_some_iff.1 hlines
  obtain rfl := Option.some.inj hrest
  have hseries : (r.series.flatMap Series.lines).flatMap linesOf = r.series.flatMap Series.lines := by
    refine flatMap_linesOf fun line hline => ?_
    obtain ⟨s, hs, hline⟩ := List.mem_flatMap.1 hline
    exact oneLine_series (h s hs) line hline
  have hlinesOf := linesOf_join_append
    (sources ++ r.series.flatMap Series.lines ++ r.breakdowns.flatMap ScenarioBreakdown.lines) ""
  rw [String.append_empty, List.flatMap_append, List.flatMap_append, hseries,
    List.flatMap_def (f := Series.lines)] at hlinesOf
  exact ⟨_, _, hlinesOf.trans (List.append_assoc _ _ _)⟩

/-! ### The three views -/

variable (config : Config) (rows : List Row)

/-- In every text of a report of proof sizes, with caching or without it, or of numbers of signatures,
    each selected row has a line in the table of its series, in the order of the rows, which shows its
    counter and its exact size. Sizes that are shown keep their order. -/
theorem tables_show_rows :
    (∀ size larger : Nat, size ≤ larger → larger < 2 ^ 64 → wordOf size ≤ wordOf larger) ∧
    (∀ series, proofSizeSeries config rows = .ok series → TextsHold series ∧
      List.Forall₂ (ScenarioTable config rows .solid Row.updatesSinceRefresh) Scenario.all
        (series.map Series.lines)) ∧
    (∀ series, optimizationSeries config rows = .ok series → TextsHold series ∧
      ∃ cached uncached, series.map Series.lines = cached ++ uncached ∧
        List.Forall₂ (ScenarioTable config rows .solid Row.totalUpdates) Scenario.all cached ∧
        List.Forall₂ (ScenarioTable config rows .dashed Row.totalUpdates) Scenario.all uncached) ∧
    ∀ series, signatureSeries config rows = .ok series → TextsHold series ∧
      List.Forall₂ (CountTable rows) config.signatureCounts (series.map Series.lines) := by
  refine ⟨fun _ _ => wordOf_le_wordOf, fun series h => ⟨?_, ?_⟩, fun series h => ?_,
    fun series h => ⟨?_, ?_⟩⟩
  · exact textsHold_of_oneLine (oneLine_scenarioSeries (by decide) h)
  · exact scenarioTables (scenarioSeries_shows .solid h)
  -- the series with caching come before those without it
  · obtain ⟨cached, hcached, h⟩ := bind_eq_ok_iff.1 h
    obtain ⟨uncached, huncached, h⟩ := bind_eq_ok_iff.1 h
    obtain rfl := Except.ok.inj h
    refine ⟨textsHold_of_oneLine ?_, _, _, List.map_append,
      scenarioTables (scenarioSeries_shows .solid hcached),
      scenarioTables (scenarioSeries_shows .dashed huncached)⟩
    rw [List.forall_mem_append]
    exact ⟨oneLine_scenarioSeries (by decide) hcached, oneLine_scenarioSeries (by decide) huncached⟩
  · exact textsHold_of_oneLine (oneLine_signatureSeries h)
  · exact countTables (signatureSeries_shows h)

/-- The standard run, with the one number of signatures that all rows have. -/
private def threeSignatures : Config := { Config.standard with signatureCounts := [3] }

/-- Counters on both sides of `10 ^ 15` and of `2 ^ 53`, and sizes up to the greatest word. -/
private def largeRows : List Row :=
  [⟨999999999999999, 1000000000000000, some 1, 3, 213, 150, 33, 33, 33, 18446744073709551615, none⟩,
    ⟨9007199254740993, 18446744073709551615, some 2, 3, 213, 150, 33, 33, 33, 9007199254740993, none⟩,
    ⟨1000000000000000, 9007199254740995, some 3, 3, 213, 150, 33, 33, 66, 18446744073709550592, none⟩]

/-- A report with these series, which has a text. -/
private theorem exists_text_ofSeries (series : List Series) :
    ∃ (r : Report) (text : String), r.series = series ∧ r.text? = some text := by
  have hsources (s : Source) (h : s ∈ ([] : List Source)) :
      ∃ content, s.sha256 = Digest.ofContent content := nomatch h
  obtain ⟨text, htext⟩ := exists_text (r := ⟨⟨1, "0.1.0", "", [], 71, 3, ""⟩, series, []⟩) hsources
  exact ⟨_, text, rfl, htext⟩

/-- All three views show these rows, and there are texts of them. -/
theorem tables_show_rows_ofLarge :
    wordOf 18446744073709550592 ≤ wordOf 18446744073709551615 ∧
    (∃ series, proofSizeSeries threeSignatures largeRows = .ok series ∧
      (∃ (r : Report) (text : String), r.series = series ∧ r.text? = some text ∧
        ∃ before behind, linesOf text = before ++ (series.map Series.lines).flatten ++ behind) ∧
      List.Forall₂ (ScenarioTable threeSignatures largeRows .solid Row.updatesSinceRefresh)
        Scenario.all (series.map Series.lines)) ∧
    (∃ series, optimizationSeries threeSignatures largeRows = .ok series ∧
      ∃ cached uncached, series.map Series.lines = cached ++ uncached ∧
        List.Forall₂ (ScenarioTable threeSignatures largeRows .solid Row.totalUpdates)
          Scenario.all cached ∧
        List.Forall₂ (ScenarioTable threeSignatures largeRows .dashed Row.totalUpdates)
          Scenario.all uncached) ∧
    ∃ series, signatureSeries threeSignatures largeRows = .ok series ∧
      List.Forall₂ (CountTable largeRows) [3] (series.map Series.lines) := by
  obtain ⟨horder, hsizes, hoptimization, hcounts⟩ := tables_show_rows threeSignatures largeRows
  refine ⟨horder _ _ (by decide) (by decide), ?_, ?_, ?_⟩
  · have hok : (proofSizeSeries threeSignatures largeRows).isOk = true := by decide +kernel
    obtain ⟨series, hseries⟩ := exists_ok_of_isOk hok
    obtain ⟨htexts, htables⟩ := hsizes series hseries
    obtain ⟨r, text, hr, htext⟩ := exists_text_ofSeries series
    exact ⟨series, hseries, ⟨r, text, hr, htext, htexts r text hr htext⟩, htables⟩
  · have hok : (optimizationSeries threeSignatures largeRows).isOk = true := by decide +kernel
    obtain ⟨series, hseries⟩ := exists_ok_of_isOk hok
    exact ⟨series, hseries, (hoptimization series hseries).2⟩
  · have hok : (signatureSeries threeSignatures largeRows).isOk = true := by decide +kernel
    obtain ⟨series, hseries⟩ := exists_ok_of_isOk hok
    exact ⟨series, hseries, (hcounts series hseries).2⟩

end ProofSize.Report
