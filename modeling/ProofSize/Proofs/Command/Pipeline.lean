import ProofSize.Proofs.Command.Steps
import ProofSize.Proofs.Report.Text

/-!
# Report commands

A report command derives its report from its configuration and its data files, and writes it where it
is to go. It does all of this or nothing.

## Key results

- `settles_report`: the steps of a report command
- `report_allOrNothing`: when a report command succeeds, and what is left behind
-/

namespace ProofSize.Command

open Files

variable {t t' : Tree} {s : Surroundings} {o : Options} {view : View} {paths : List ByteString}
  {only : Option Scenario} {counts : Option (List UInt64)} {c : Config} {ds : List Dataset}
  {found : ViewOutput} {r : Report} {time : Nat}

/-! ### What a report is derived from -/

/-- The configuration with the values of the command line, the datasets in the order of their paths,
    and what the view gives of all rows. -/
structure Derives (t : Tree) (o : Options) (view : View) (paths : List ByteString)
    (counts : Option (List UInt64)) (c : Config) (ds : List Dataset) (found : ViewOutput) : Prop where
  config : ∃ file, HoldsConfig t o.config file ∧ c = { file with
    signatureSize := o.signatureSize.getD file.signatureSize
    targetSignatures := o.targetSignatures.getD file.targetSignatures
    signatureCounts := counts.getD file.signatureCounts }
  datasets :
    List.Forall₂ (fun path d => (Dataset.load c.aliases path : TreeM _).run t = (.ok d, t)) paths ds
  view : view.run c (ds.flatMap Dataset.rows) = .ok found

/-- The report cites what it was derived from, and shows what has been derived or one scenario of
    it. -/
structure Shows (t : Tree) (time : Nat) (view : View) (only : Option Scenario)
    (paths : List ByteString) (c : Config) (ds : List Dataset) (found : ViewOutput) (r : Report) :
    Prop where
  run : r.run = {
    schemaVersion := 1
    toolVersion := "0.3.0"
    view := view.name
    sources := (paths.zip ds).map fun d => ⟨d.1.shown, d.2.sha256, d.2.rows.length⟩
    signatureSize := c.signatureSize
    targetSignatures := c.targetSignatures
    timestamp := s!"unix:{time}" }
  /-- The digest cited for a path is that of the standard, of what is read there. -/
  digests : List.Forall₂ (fun path source => ∃ content, t.read path = .ok content ∧
    Digest.IsSha256 content source.sha256) paths r.run.sources
  series : r.series = found.series
  breakdowns : only = none → r.breakdowns = found.breakdowns
  scenario : ∀ s, only = some s →
    ∃ b, ⟨s.name, b⟩ ∈ found.breakdowns ∧ r.breakdowns = [⟨s.name, b⟩]

/-- The report in the format that is asked for, which is text unless said otherwise. -/
inductive Renders (r : Report) : Option Format → String → Prop
  | json : Renders r (some .json) r.json
  | text {format : Option Format} {text : String} :
      format ≠ some .json → r.text? = some text → Renders r format text

/-- A report is rendered as its format has it. -/
theorem render_eq_ok_iff {format : Option Format} {text : String} :
    render (format.getD .text) r = .ok text ↔ Renders r format text := by
  -- a report goes as text if no format is given, as it does if text is asked for
  have htext {format : Option Format} (hne : format ≠ some .json) :
      render .text r = .ok text ↔ Renders r format text := by
    rw [render]
    constructor
    · intro h
      split at h
      · rename_i shown hshown
        obtain rfl := Except.ok.inj h
        exact .text hne hshown
      · exact nomatch h
    · rintro (_ | ⟨-, hshown⟩)
      · exact absurd rfl hne
      · rw [hshown]
  match format with
  | none => exact htext nofun
  | some .text => exact htext nofun
  | some .json =>
    rw [Option.getD_some, render, Except.ok.injEq]
    constructor
    · rintro rfl
      exact .json
    · rintro (_ | ⟨hne, -⟩)
      · rfl
      · exact absurd rfl hne

/-! ### Arguments -/

/-- Behind the name of a command stand only options that it takes. -/
theorem Follows.isOption {verb : Verb} {options : List (ByteString × ByteString)}
    {others args : List ByteString} (h : Follows verb options others args) :
    ∀ option ∈ options, IsOption verb option.1 := by
  induction h with
  | nil => exact fun _ h => nomatch h
  | option hoption _ _ ih => exact List.forall_mem_cons.2 ⟨hoption, ih⟩
  | other _ _ ih => exact ih
  | rest => exact fun _ h => nomatch h

/-- Only breakdowns can be restricted to a scenario. -/
theorem Asks.eq_breakdown {args : List ByteString} {scenario : Scenario}
    (h : Asks args ⟨o, .report view paths (some scenario) counts⟩) : view = .breakdown := by
  generalize hi : (⟨o, .report view paths (some scenario) counts⟩ : Invocation) = i at h
  obtain ⟨-, -, hfollows, -, htask⟩ := h
  obtain ⟨rfl, rfl⟩ := Invocation.mk.inj hi
  cases htask with
  | report _ _ _ honly _ =>
    cases honly with
    | @once value _ hvalue _ =>
      -- the option that gives the scenario is one of this view
      have hmem : value ∈ valuesUnder ["--scenario"] _ := hvalue ▸ List.mem_singleton_self value
      obtain ⟨option, hoption, -⟩ := List.mem_map.1 hmem
      obtain ⟨hoption, hname⟩ := List.mem_filter.1 hoption
      have hname : option.1 = "--scenario" := by simpa using hname
      have hknown := hfollows.isOption option hoption
      generalize option.1 = name at hname hknown
      cases hknown <;> first | rfl | exact absurd hname (by decide +kernel)

/-! ### The breakdown of one scenario -/

/-- There is one breakdown for each scenario. -/
theorem filter_breakdowns {rows : List Row} (h : View.breakdown.run c rows = .ok found)
    (s : Scenario) : ∃ b, ⟨s.name, b⟩ ∈ found.breakdowns ∧
      found.breakdowns.filter (fun b => b.scenario == s.name) = [⟨s.name, b⟩] := by
  obtain ⟨parts, hparts, h⟩ := bind_eq_ok_iff.1 h
  obtain rfl := Except.ok.inj h
  have hnames : parts.map ScenarioBreakdown.scenario = Scenario.all.map Scenario.name := by
    refine map_of_mapM_eq_ok hparts fun s _ part hpart => ?_
    obtain ⟨b, -, hpart⟩ := bind_eq_ok_iff.1 hpart
    obtain rfl := Except.ok.inj hpart
    rfl
  obtain ⟨⟨_, b₁⟩, _, rfl, rfl, htwo⟩ := List.map_eq_cons_iff.1 hnames
  obtain ⟨⟨_, b₂⟩, _, rfl, rfl, hone⟩ := List.map_eq_cons_iff.1 htwo
  obtain ⟨⟨_, b₃⟩, _, rfl, rfl, hnone⟩ := List.map_eq_cons_iff.1 hone
  obtain rfl := List.map_eq_nil_iff.1 hnone
  cases s with
  | issued => exact ⟨b₁, by simp, by simp [Scenario.name]⟩
  | transferred => exact ⟨b₂, by simp, by simp [Scenario.name]⟩
  | loaned => exact ⟨b₃, by simp, by simp [Scenario.name]⟩

/-! ### The report -/

/-- The datasets carry the paths that they were loaded from. -/
private theorem sources_eq {a : Aliases}
    (h : List.Forall₂ (fun path d => (Dataset.load a path : TreeM _).run t = (.ok d, t)) paths ds) :
    ds.map (fun d => (⟨d.path.shown, d.sha256, d.rows.length⟩ : Source)) =
      (paths.zip ds).map fun d => ⟨d.1.shown, d.2.sha256, d.2.rows.length⟩ := by
  induction h with
  | nil => rfl
  | cons hd _ ih =>
    obtain ⟨_, -, -, hpath, -⟩ := Dataset.loadFrom_eq_ok_iff.1 (Dataset.run_load_eq_ok_iff.1 hd)
    rw [List.map_cons, List.zip_cons_cons, List.map_cons, ih, hpath]

/-- The digest of each dataset is that of its file. -/
private theorem digests_of_load {a : Aliases}
    (h : List.Forall₂ (fun path d => (Dataset.load a path : TreeM _).run t = (.ok d, t)) paths ds) :
    List.Forall₂ (fun path d => ∃ content, t.read path = .ok content ∧
      Digest.IsSha256 content d.sha256) paths ds := by
  refine h.imp fun path d hd => ?_
  obtain ⟨content, hread, -, -, hsha⟩ :=
    Dataset.loadFrom_eq_ok_iff.1 (Dataset.run_load_eq_ok_iff.1 hd)
  exact ⟨content, hread, Digest.isSha256_iff.2 hsha⟩

/-- There is a report on what has been derived. -/
theorem exists_reportOn (h : Derives t o view paths counts c ds found)
    (honly : ∀ scenario, only = some scenario → view = .breakdown) (time : Nat) :
    ∃ r, reportOn time c view only ds = .ok r ∧ Shows t time view only paths c ds found r := by
  rw [reportOn, h.view]
  refine ⟨_, rfl, ?_, ?_, rfl, ?_, ?_⟩
  · simp only [sources_eq h.datasets]
    rfl
  · exact List.forall₂_map_right_iff.2 (digests_of_load h.datasets)
  · rintro rfl
    rfl
  · rintro scenario rfl
    obtain rfl := honly scenario rfl
    exact filter_breakdowns h.view scenario

/-- A report on what has been derived can be written in either format. -/
theorem exists_renders (h : Derives t o view paths counts c ds found)
    (hr : Shows t time view only paths c ds found r) (format : Option Format) :
    ∃ text, Renders r format text := by
  by_cases hformat : format = some .json
  · subst hformat
    exact ⟨_, .json⟩
  · have hsources : ∀ source ∈ r.run.sources, ∃ content, source.sha256 = Digest.ofContent content := by
      rw [hr.run]
      intro source hsource
      obtain ⟨⟨path, d⟩, hd, rfl⟩ := List.mem_map.1 hsource
      have hload := Dataset.run_load_eq_ok_iff.1 (List.forall₂_zip h.datasets hd)
      obtain ⟨content, -, -, -, hsha⟩ := Dataset.loadFrom_eq_ok_iff.1 hload
      exact ⟨content, hsha⟩
    obtain ⟨text, htext⟩ := Report.exists_text hsources
    exact ⟨text, .text hformat htext⟩

/-! ### Report commands -/

/-- What the steps of a report command do. -/
def Reports (t : Tree) (s : Surroundings) (o : Options) (view : View) (paths : List ByteString)
    (only : Option Scenario) (counts : Option (List UInt64)) (ending : Ending) (t' : Tree) : Prop :=
  ∃ c, (∃ file, HoldsConfig t o.config file ∧ c = o.override file) ∧
  ∃ ds, List.Forall₂ (fun path d => (Dataset.load c.aliases path : TreeM _).run t = (.ok d, t))
    paths ds ∧
  ∃ r, reportOn s.time { c with signatureCounts := counts.getD c.signatureCounts } view only ds =
    .ok r ∧
  ∃ text, render (o.format.getD .text) r = .ok text ∧
    (emit s o ⟨text, none⟩ : TreeM _).run t = (ending, t')

/-- A report on data files is made and delivered, or the tree stays as it is. -/
theorem settles_report (t : Tree) (s : Surroundings) (o : Options) (view : View)
    (paths : List ByteString) (only : Option Scenario) (counts : Option (List UInt64)) :
    Settles t (perform s ⟨o, .report view paths only counts⟩)
      (Reports t s o view paths only counts) := by
  refine Looks.bind (looks_loadConfig t o) fun c _ => ?_
  refine Looks.bind (looks_loadAll t _ paths) fun ds _ => ?_
  refine Looks.bind (looks_lift t _) fun r _ => ?_
  refine Looks.bind (looks_lift t _) fun text _ => ?_
  exact settles_run t _

/-- A report that has been written was derived. -/
theorem Reports.exists_derives {ending : Ending} (h : Reports t s o view paths only counts ending t') :
    (∃ c ds found, Derives t o view paths counts c ds found) ∧
      ∃ text, (emit s o ⟨text, none⟩ : TreeM _).run t = (ending, t') := by
  obtain ⟨_, ⟨file, hfile, rfl⟩, ds, hds, r, hr, text, -, hemit⟩ := h
  refine ⟨?_, text, hemit⟩
  unfold reportOn at hr
  split at hr
  · exact nomatch hr
  · rename_i found hfound
    exact ⟨_, ds, found, ⟨file, hfile, rfl⟩, hds, hfound⟩

/-- What can be derived is written as a report. -/
theorem Derives.exists_reports (h : Derives t o view paths counts c ds found)
    (honly : ∀ scenario, only = some scenario → view = .breakdown) (s : Surroundings) :
    ∃ r text ending t', Shows t s.time view only paths c ds found r ∧ Renders r o.format text ∧
      (emit s o ⟨text, none⟩ : TreeM _).run t = (ending, t') ∧
      Reports t s o view paths only counts ending t' := by
  obtain ⟨r, hr, hshows⟩ := exists_reportOn h honly s.time
  obtain ⟨text, htext⟩ := exists_renders h hshows o.format
  obtain ⟨file, hfile, rfl⟩ := h.config
  exact ⟨r, text, _, _, hshows, htext, rfl,
    _, ⟨file, hfile, rfl⟩, ds, h.datasets, r, hr, text, render_eq_ok_iff.2 htext, rfl⟩

/-- A report command delivers a report on what can be derived, or breaks off on the way. Otherwise it
    does nothing. -/
theorem report_cases (t : Tree) (s : Surroundings) {args : List ByteString}
    (h : Asks args ⟨o, .report view paths only counts⟩) :
    ∃ (outcome : Outcome) (t' : Tree), (run s args : TreeM _).run t = (outcome, t') ∧
      (∀ c ds found, Derives t o view paths counts c ds found → Creatable t o.out →
        ∃ r text, Shows t s.time view only paths c ds found r ∧ Renders r o.format text ∧
          (outcome.exitCode = 0 ∧ Delivers t o.out text.toUTF8 outcome.output t' ∨
            outcome.exitCode = 1 ∧ BreaksOff t s o.out text.toUTF8 outcome.output t')) ∧
      (¬((∃ c ds found, Derives t o view paths counts c ds found) ∧ Creatable t o.out) →
        outcome.exitCode = 1 ∧ outcome.output = .empty ∧ t' = t) := by
  have honly : ∀ scenario, only = some scenario → view = .breakdown := by
    rintro scenario rfl
    exact h.eq_breakdown
  -- the steps write one report, or there is nothing that they could write
  rcases settles_report t s o view paths only counts with ⟨ending, t', hrun, hiff⟩ | ⟨f, hrun, hnone⟩
  · refine ⟨_, t', run_of_perform h hrun, ?_, fun hnot => ?_⟩
    · intro c ds found hderives ho
      obtain ⟨r, text, ending', u, hshows, hrenders, hemit, hreports⟩ := hderives.exists_reports honly s
      obtain ⟨rfl, rfl⟩ := (hiff ending' u).1 hreports
      refine ⟨r, text, hshows, hrenders, ?_⟩
      rcases emit_cases hemit with ⟨hdelivers, hfailure⟩ | ⟨hbreaks, hfailure⟩ | ⟨hnot, -⟩
      · exact .inl ⟨exitCode_ofEnding_eq_zero_iff.2 hfailure, output_ofEnding _ ▸ hdelivers⟩
      · exact .inr ⟨exitCode_ofEnding_eq_one hfailure, output_ofEnding _ ▸ hbreaks⟩
      · exact absurd ho hnot
    · obtain ⟨hderives, text, hemit⟩ := ((hiff ending t').2 ⟨rfl, rfl⟩).exists_derives
      rcases emit_cases hemit with
        ⟨hdelivers, -⟩ | ⟨⟨_, _, -, hdelivers⟩, -⟩ | ⟨-, hprinted, rfl, hfailure⟩
      · exact absurd ⟨hderives, hdelivers.creatable⟩ hnot
      · exact absurd ⟨hderives, hdelivers.creatable⟩ hnot
      · exact ⟨exitCode_ofEnding_eq_one hfailure, (output_ofEnding ending).trans hprinted, rfl⟩
  · have hnot : ¬∃ c ds found, Derives t o view paths counts c ds found := by
      rintro ⟨c, ds, found, hderives⟩
      obtain ⟨_, _, ending, u, -, -, -, hreports⟩ := hderives.exists_reports honly s
      exact hnone ending u hreports
    refine ⟨_, t, run_of_perform h hrun, ?_, fun _ => ⟨rfl, rfl, rfl⟩⟩
    intro c ds found hderives
    exact absurd ⟨c, ds, found, hderives⟩ hnot

end ProofSize.Command
