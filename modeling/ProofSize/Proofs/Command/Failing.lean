import ProofSize.Proofs.Command.Pipeline
import ProofSize.Proofs.Files.Parents
import ProofSize.Proofs.Inventory
import ProofSize.Proofs.Inventory.Writing

/-!
# Commands that fail

A command that fails leaves what it has found. Only directories in which a synthetic dataset was to lie
may have been made, and output that breaks off is left as far as it has been written.

## Key results

- `settles_inventory`, `run_generate`: the steps of the commands that write no report
- `failed_keeps_tree`: what a command that fails leaves behind
- `failed_leaves_traces`: directories and parts of the output may be left behind
-/

namespace ProofSize.Command

open Files

variable {t t' : Tree} {s : Surroundings} {o : Options}

/-! ### Output -/

/-- The directories in which a command puts a file, the nearest first. Reports are put into directories
    that are there. -/
def Task.parents : Task → List ByteString
  | .generate output .. => Path.directoriesAbove output
  | .report .. | .inventory .. => []

/-- The file to which the output of a command goes, unless it goes to the console. -/
def Invocation.target (i : Invocation) : Option ByteString :=
  match i.task with
  | .generate output .. => some output
  | .report .. | .inventory .. => i.options.out

/-- What an inventory finds with the configuration of a run. -/
def Finds (t : Tree) (o : Options) (directory : ByteString) (entries : List Inventory.Entry) : Prop :=
  ∃ file, HoldsConfig t o.config file ∧
    (Inventory.below file.aliases directory : TreeM _).run t = (entries, t)

/-- What a command has to write. -/
inductive Produces (t : Tree) (s : Surroundings) : Invocation → ByteArray → Prop
  | report {o : Options} {view : View} {paths : List ByteString} {only : Option Scenario}
      {counts : Option (List UInt64)} {c : Config} {ds : List Dataset} {found : ViewOutput}
      {r : Report} {text : String} :
      Derives t o view paths counts c ds found → Shows t s.time view only paths c ds found r →
      Renders r o.format text → Produces t s ⟨o, .report view paths only counts⟩ text.toUTF8
  | inventory {o : Options} {directory : ByteString} {entries : List Inventory.Entry} :
      Finds t o directory entries → Produces t s ⟨o, .inventory directory⟩
        (renderInventory (o.format.getD .text) entries).text.toUTF8
  | dataset {o : Options} {output : ByteString} {batches batchSize adsCount seed : UInt64}
      {file : Config} {rows : List Row} :
      HoldsConfig t o.config file →
      Synthetic.rows ⟨batches, batchSize, adsCount, seed, (o.override file).signatureSize⟩ = .ok rows →
      Produces t s ⟨o, .generate output batches batchSize adsCount seed⟩ (Table.write rows)

/-- What is left of the output of a command that fails once it is written. A first part of it stands
    where it was to go, which takes no more. Or an inventory is to be written as JSON and breaks off
    before a path that is no text. -/
inductive LeavesPart (t made : Tree) (s : Surroundings) (i : Invocation) (printed : ByteArray)
    (t' : Tree) : Prop
  | cut {bytes : ByteArray} :
      Produces t s i bytes → BreaksOff made s i.target bytes printed t' → LeavesPart t made s i printed t'
  | beforePath {directory : ByteString} {before after : List Inventory.Entry} {e : Inventory.Entry}
      {documents : List Json.Value} {text : String} :
      i.task = .inventory directory → i.options.format = some .json →
      Finds t i.options directory (before ++ e :: after) → Inventory.Written before documents →
      e.path.text? = none →
      (∀ path more, text.toList ++ Json.quote path <+:
        (Json.Value.list (documents ++ e.json path :: more)).render numberLayout 0) →
      Delivers made i.target text.toUTF8 printed t' → LeavesPart t made s i printed t'

/-! ### Inventories -/

/-- Only JSON has no place for a path that is no text. -/
private theorem json_of_failure {format : Option Format} {entries : List Inventory.Entry}
    (h : (renderInventory (format.getD .text) entries).failure ≠ none) :
    format = some .json ∧ ∃ text, Inventory.json entries = .error text ∧
      (renderInventory (format.getD .text) entries).text = text := by
  match format with
  | none => exact absurd rfl h
  | some .text => exact absurd rfl h
  | some .json =>
    rw [Option.getD_some, renderInventory] at h ⊢
    split at h
    · exact absurd rfl h
    · rename_i text hjson
      exact ⟨rfl, text, hjson, rfl⟩

/-- An inventory fails only where its configuration cannot be read, or its output cannot be written. -/
theorem settles_inventory (t : Tree) (s : Surroundings) (o : Options) (directory : ByteString) :
    Settles t (perform s ⟨o, .inventory directory⟩) fun ending t' =>
      ∃ c, (∃ file, HoldsConfig t o.config file ∧ c = o.override file) ∧
      ∃ entries, (Inventory.below c.aliases directory : TreeM _).run t = (entries, t) ∧
        (emit s o (renderInventory (o.format.getD .text) entries) : TreeM _).run t = (ending, t') := by
  refine Looks.bind (looks_loadConfig t o) fun c _ => ?_
  -- what cannot be loaded is listed, so the walk itself cannot fail
  refine Looks.bind (looks_run (Inventory.run_below_eq t c.aliases directory)) fun entries _ => ?_
  exact settles_run t _

/-! ### Synthetic datasets -/

/-- Where no dataset is written, only directories above its file may have been added, and a first part
    of the dataset may stand in the file. -/
theorem run_generate (t : Tree) (s : Surroundings) (o : Options) (output : ByteString)
    (batches batchSize adsCount seed : UInt64) :
    ∃ x t', (perform s ⟨o, .generate output batches batchSize adsCount seed⟩ :
        ExceptT Failure TreeM _).run.run t = (x, t') ∧
      (x = .ok ⟨.empty, none⟩ ∨ (∃ f, x = .error f) ∧
        ∃ made, t.AddsDirectories (Path.directoriesAbove output) made ∧ (t' = made ∨
          LeavesPart t made s ⟨o, .generate output batches batchSize adsCount seed⟩ .empty t')) := by
  obtain ⟨x, hconfig, hholds⟩ := looks_loadConfig t o
  cases x with
  | error f => exact ⟨_, t, run_bind_error hconfig, .inr ⟨⟨f, rfl⟩, t, .refl _ t, .inl rfl⟩⟩
  | ok c =>
    obtain ⟨file, hfile, rfl⟩ := (hholds c).1 rfl
    rw [perform, run_bind_ok hconfig]
    obtain ⟨x, made, hmake, hadds⟩ := TreeM.run_makeDirectories (Path.directoriesAbove output) t
    have hmake := run_attempt .makingDirectories hmake
    cases x with
    | error fault =>
      exact ⟨_, made, run_bind_error hmake, .inr ⟨⟨_, rfl⟩, made, hadds, .inl rfl⟩⟩
    | ok =>
      obtain ⟨written, v, hwrite, hkeeps⟩ := Dataset.run_writeSynthetic made output
        ⟨batches, batchSize, adsCount, seed, (o.override file).signatureSize⟩
      have hwrite := run_discard (run_attempt (.writing output) hwrite)
      dsimp only
      rw [Access.makeParents, run_bind_ok hmake]
      cases written with
      | ok count => exact ⟨_, v, run_bind_ok hwrite, .inl rfl⟩
      | error e =>
        refine ⟨_, v, run_bind_error hwrite, .inr ⟨⟨_, rfl⟩, made, hadds, ?_⟩⟩
        -- the directories have been made, and the file may have been emptied since
        refine (hkeeps e rfl).imp_right fun ⟨rows, p, taken, fault, hrows, hp, hcut, hv⟩ => ?_
        refine .cut (.dataset hfile hrows) ⟨taken, fault, ?_, rfl, p, hp, hv⟩
        simpa only [Surroundings.limit, Invocation.target, hp] using hcut

/-! ### Commands that fail -/

/-- A command that fails leaves the tree as it was, but for directories above the file of a synthetic
    dataset, and then for a part of its output. -/
def KeepsTree (t : Tree) (s : Surroundings) (i : Invocation) (printed : ByteArray) (t' : Tree) : Prop :=
  ∃ made, t.AddsDirectories i.task.parents made ∧
    (printed = .empty ∧ t' = made ∨ LeavesPart t made s i printed t')

/-- A run that changes nothing and prints nothing keeps the tree. -/
theorem keepsTree_self (t : Tree) (s : Surroundings) (i : Invocation) : KeepsTree t s i .empty t :=
  ⟨t, .refl _ t, .inl ⟨rfl, rfl⟩⟩

/-- A run that leaves a first part of its output keeps the rest of the tree. -/
theorem LeavesPart.keepsTree {i : Invocation} {printed : ByteArray}
    (h : LeavesPart t t s i printed t') : KeepsTree t s i printed t' :=
  ⟨t, .refl _ t, .inr h⟩

/-- A report that fails keeps the tree but for what it has written of its text. -/
private theorem keepsTree_report {view : View} {paths : List ByteString} {only : Option Scenario}
    {counts : Option (List UInt64)} {args : List ByteString} (t : Tree) (s : Surroundings)
    (h : Asks args ⟨o, .report view paths only counts⟩) :
    ∃ outcome t', (run s args : TreeM _).run t = (outcome, t') ∧ (outcome.exitCode ≠ 0 →
      KeepsTree t s ⟨o, .report view paths only counts⟩ outcome.output t') := by
  obtain ⟨outcome, t', hrun, hreport, hnothing⟩ := report_cases t s h
  refine ⟨outcome, t', hrun, fun hne => ?_⟩
  by_cases hends : (∃ c ds found, Derives t o view paths counts c ds found) ∧ Creatable t o.out
  · obtain ⟨⟨c, ds, found, hderives⟩, ho⟩ := hends
    obtain ⟨r, text, hshows, hrenders, ⟨hzero, -⟩ | ⟨-, hbreaks⟩⟩ := hreport c ds found hderives ho
    · exact absurd hzero hne
    · exact (LeavesPart.cut (.report hderives hshows hrenders) hbreaks).keepsTree
  · obtain ⟨-, hempty, rfl⟩ := hnothing hends
    rw [hempty]
    exact keepsTree_self _ s _

/-- An inventory that fails keeps the tree but for what it has written of its text. -/
private theorem keepsTree_inventory {directory : ByteString} {args : List ByteString} (t : Tree)
    (s : Surroundings) (h : Asks args ⟨o, .inventory directory⟩) :
    ∃ outcome t', (run s args : TreeM _).run t = (outcome, t') ∧ (outcome.exitCode ≠ 0 →
      KeepsTree t s ⟨o, .inventory directory⟩ outcome.output t') := by
  rcases settles_inventory t s o directory with ⟨ending, t', hrun, hiff⟩ | ⟨f, hrun, -⟩
  · refine ⟨_, t', run_of_perform h hrun, fun hne => ?_⟩
    rw [output_ofEnding]
    obtain ⟨_, ⟨file, hfile, rfl⟩, entries, hentries, hemit⟩ := (hiff ending t').2 ⟨rfl, rfl⟩
    have hfinds : Finds t o directory entries := ⟨file, hfile, hentries⟩
    rcases emit_cases hemit with ⟨hdelivers, hfailure⟩ | ⟨hbreaks, -⟩ | ⟨-, hprinted, rfl, -⟩
    · -- the output has been written, so the failure is that of a path
      rw [Ne, exitCode_ofEnding_eq_zero_iff, hfailure] at hne
      obtain ⟨hformat, text, hjson, htext⟩ := json_of_failure hne
      obtain ⟨before, e, after, documents, rfl, hwritten, hnone, hbegun⟩ :=
        Inventory.json_eq_error hjson
      rw [htext] at hdelivers
      exact (LeavesPart.beforePath rfl hformat hfinds hwritten hnone hbegun hdelivers).keepsTree
    · exact (LeavesPart.cut (.inventory hfinds) hbreaks).keepsTree
    · rw [hprinted]
      exact keepsTree_self _ s _
  · exact ⟨_, t, run_of_perform h hrun, fun _ => keepsTree_self t s _⟩

/-- A dataset that is not written keeps the tree but for its own file and the directories above. -/
private theorem keepsTree_generate {output : ByteString} {batches batchSize adsCount seed : UInt64}
    {args : List ByteString} (t : Tree) (s : Surroundings)
    (h : Asks args ⟨o, .generate output batches batchSize adsCount seed⟩) :
    ∃ outcome t', (run s args : TreeM _).run t = (outcome, t') ∧ (outcome.exitCode ≠ 0 →
      KeepsTree t s ⟨o, .generate output batches batchSize adsCount seed⟩ outcome.output t') := by
  obtain ⟨x, t', hrun, rfl | ⟨⟨f, rfl⟩, made, hadds, hleaves⟩⟩ :=
    run_generate t s o output batches batchSize adsCount seed
  · exact ⟨_, t', run_of_perform h hrun, fun hne => absurd rfl hne⟩
  · exact ⟨_, t', run_of_perform h hrun, fun _ =>
      ⟨made, hadds, hleaves.imp_left fun hmade => ⟨rfl, hmade⟩⟩⟩

/-- A command that fails leaves what has stood as it was, and prints nothing. Directories above the
    file of a synthetic dataset may have been made. If the output has been begun and breaks off, a first
    part of it stands where it was to go. A command line that asks for no command changes nothing and
    prints nothing when it is refused. -/
theorem failed_keeps_tree (t : Tree) (s : Surroundings) (args : List ByteString) :
    ∃ (outcome : Outcome) (t' : Tree), (run s args : TreeM _).run t = (outcome, t') ∧
      (outcome.exitCode ≠ 0 →
        (∀ i, Asks args i → KeepsTree t s i outcome.output t') ∧
        ((∀ i, ¬Asks args i) → outcome.output = .empty ∧ t' = t)) := by
  by_cases hasks : ∃ i, Asks args i
  · obtain ⟨i, hasks⟩ := hasks
    -- each of the three tasks keeps the tree when it fails
    have hkeeps : ∃ outcome t', (run s args : TreeM _).run t = (outcome, t') ∧
        (outcome.exitCode ≠ 0 → KeepsTree t s i outcome.output t') := by
      obtain ⟨o, task⟩ := i
      cases task with
      | report view paths only counts => exact keepsTree_report t s hasks
      | inventory directory => exact keepsTree_inventory t s hasks
      | generate output batches batchSize adsCount seed => exact keepsTree_generate t s hasks
    obtain ⟨outcome, t', hrun, hkeeps⟩ := hkeeps
    refine ⟨outcome, t', hrun, fun hne => ⟨fun j hj => ?_, fun hnone => absurd hasks (hnone i)⟩⟩
    obtain rfl := hasks.unique hj
    exact hkeeps hne
  -- a line that asks for nothing is refused, or asks for help, which does not fail
  · have hnone : ∀ i, ¬Asks args i := not_exists.1 hasks
    cases hrequest : Request.ofArguments? args with
    | none =>
      refine ⟨⟨2, .empty, ""⟩, t, by rw [run, hrequest]; rfl, fun _ => ?_⟩
      exact ⟨fun i hi => absurd hi (hnone i), fun _ => ⟨rfl, rfl⟩⟩
    | some request =>
      cases request with
      | invoke i => exact absurd (ofArguments?_eq_invoke_iff.1 hrequest) (hnone i)
      | help topic =>
        exact ⟨_, t, by rw [run, hrequest]; rfl, fun hne => absurd rfl hne⟩

/-- A directory that lists one data file, the path of which is no text. -/
def oddFolder : Tree where
  nodes := [(["w"], .directory), (["w", ⟨[0xff, 0x2e, 0x63, 0x73, 0x76]⟩], .file "x\n".toUTF8)]
  current := ["w"]
  distinct := by decide

/-- What a command may leave when it fails. No file can be created at a path with a slash at its end, but
    the directory in which it was to lie has been made by then. An inventory breaks off before a path
    that is no text, on the console and in its file, and also where the console takes no more. -/
theorem failed_leaves_traces :
    (∃ (outcome : Outcome) (t' : Tree),
      (run ⟨0, none, fun _ => ""⟩ ["generate", "-o", "d/e/", "--batches", "0"] : TreeM _).run
        (.ofDirectory "w") = (outcome, t') ∧
      outcome.exitCode = 1 ∧ (Tree.ofDirectory "w").kind "d" true = .error .noEntry ∧
      t'.kind "d" true = .ok .directory) ∧
    (∃ (outcome : Outcome) (t' : Tree),
      (run ⟨0, none, fun _ => ""⟩ ["inventory", "--format", "json", "."] : TreeM _).run oddFolder =
        (outcome, t') ∧
      outcome.exitCode = 1 ∧ outcome.output = "[\n  \x7b\n    \"path\": ".toUTF8) ∧
    (∃ (outcome : Outcome) (t' : Tree),
      (run ⟨0, none, fun _ => ""⟩ ["inventory", "--format", "json", "--out", "r.json", "."] :
        TreeM _).run oddFolder = (outcome, t') ∧
      outcome.exitCode = 1 ∧ oddFolder.kind "r.json" true = .error .noEntry ∧
      t'.read "r.json" = .ok "[\n  \x7b\n    \"path\": ".toUTF8) ∧
    ∃ (outcome : Outcome) (t' : Tree),
      (run ⟨0, some ⟨1, .other 28⟩, fun _ => ""⟩ ["inventory", "."] : TreeM _).run oddFolder =
        (outcome, t') ∧
      outcome.exitCode = 1 ∧ outcome.output.size = 1 := by
  refine ⟨⟨_, _, (Prod.eta _).symm, ?_⟩, ⟨_, _, (Prod.eta _).symm, ?_⟩,
    ⟨_, _, (Prod.eta _).symm, ?_⟩, _, _, (Prod.eta _).symm, ?_⟩
  all_goals decide +kernel

end ProofSize.Command
