import ProofSize.Command.Arguments
import ProofSize.Command.Failure
import ProofSize.Config.Decode
import ProofSize.Dataset
import ProofSize.Inventory
import ProofSize.Report.Json
import ProofSize.Report.Text

/-! # Running commands

A command reads its configuration, then its data files, then derives its view, and writes the report
last. The first step that fails ends the run. Output that the console or the file does not take as a
whole ends the run too, and then a part of it has been written.
-/

namespace ProofSize.Command

open Files

/-- What a run finds besides files. -/
structure Surroundings where
  /-- The time, in seconds. -/
  time : Nat
  /-- What keeps the console from taking more than a number of bytes. -/
  console : Option Limit
  /-- The help on a topic. -/
  manual : Topic → String

/-- What a run leaves behind, beside changed files. -/
structure Outcome where
  /-- Zero for success, one for a failure, two for a command line that is not well formed. -/
  exitCode : UInt32
  output : ByteArray
  /-- What is told of a failure. -/
  complaint : String

/-- The version of the layout of reports. -/
def schemaVersion : Nat := 1

/-- The version of the tool that reports cite. -/
def toolVersion : String := "0.3.0"

/-- The configuration with the options of the command line in place of its values. -/
def Options.override (o : Options) (c : Config) : Config :=
  { c with
    signatureSize := o.signatureSize.getD c.signatureSize
    targetSignatures := o.targetSignatures.getD c.targetSignatures }

/-- Decodes the content of a configuration file. -/
def decodeConfig (content : ByteArray) : Except ReportError Config :=
  match String.fromUTF8? content with
  | none => .error (.file .notText)
  | some text => (Config.decode text).mapError .config

/-- The report on datasets at a time, in seconds. -/
def reportOn (time : Nat) (config : Config) (view : View) (only : Option Scenario)
    (datasets : List Dataset) : Except Failure Report :=
  match view.run config (datasets.flatMap Dataset.rows) with
  | .error e => .error (.computing view e)
  | .ok found =>
    .ok {
      run := {
        schemaVersion
        toolVersion
        view := view.name
        sources := datasets.map fun d => ⟨d.path.shown, d.sha256, d.rows.length⟩
        signatureSize := config.signatureSize
        targetSignatures := config.targetSignatures
        timestamp := s!"unix:{time}" }
      series := found.series
      breakdowns := match only with
        | none => found.breakdowns
        | some s => found.breakdowns.filter fun b => b.scenario == s.name }

/-- The text of a report. -/
def render (format : Format) (r : Report) : Except Failure String :=
  match format with
  | .json => .ok r.json
  | .text =>
    match r.text? with
    | some text => .ok text
    | none => .error .digestCut

/-- What is to be written, and the failure that ends it early. -/
structure Output where
  text : String
  failure : Option Failure

/-- What is to be written of an inventory. -/
def renderInventory (format : Format) (entries : List Inventory.Entry) : Output :=
  match format with
  | .text => ⟨Inventory.text entries, none⟩
  | .json =>
    match Inventory.json entries with
    | .ok text => ⟨text, none⟩
    | .error text => ⟨text, some .pathNotText⟩

variable {m : Type → Type} [Monad m] [Access m]

/-- Does a step, of which a failure ends the run. -/
def attempt {ε α : Type} (failure : ε → Failure) (step : m (Except ε α)) : ExceptT Failure m α :=
  ExceptT.mk do return (← step).mapError failure

/-- Reads a configuration file. -/
def readConfig (path : ByteString) : m (Except ReportError Config) := do
  match ← Access.read path with
  | .error fault => return .error (.file fault)
  | .ok content => return decodeConfig content

/-- The configuration of a run. -/
def loadConfig (o : Options) : ExceptT Failure m Config := do
  match o.config with
  | none => return o.override .standard
  | some path =>
    return o.override (← attempt (.readingConfig path) (readConfig path))

/-- What a command has printed, and the failure that has ended it. -/
structure Ending where
  printed : ByteArray
  failure : Option Failure

/-- Gives the output to the file that is to hold it, or else to the console. -/
def emit (s : Surroundings) (o : Options) (output : Output) : m Ending := do
  let bytes := output.text.toUTF8
  match o.out with
  | none =>
    let (taken, fault) := Limit.take s.console bytes
    return ⟨taken, output.failure.or (fault.map .delivering)⟩
  | some path =>
    match ← Access.write path bytes with
    | .complete => return ⟨.empty, output.failure⟩
    | .unopened fault => return ⟨.empty, some (.creating path fault)⟩
    | .partly fault => return ⟨.empty, output.failure.or (some (.delivering fault))⟩

/-- Does what is to be done. -/
def perform (s : Surroundings) (i : Invocation) : ExceptT Failure m Ending := do
  let config ← loadConfig i.options
  let format := i.options.format.getD .text
  match i.task with
  | .report view paths only counts =>
    let config := { config with signatureCounts := counts.getD config.signatureCounts }
    let datasets ← attempt (fun f => .loading f.1 f.2) (Dataset.loadAll config.aliases paths)
    let text ← render format (← reportOn s.time config view only datasets)
    (emit s i.options ⟨text, none⟩ : m _)
  | .inventory directory =>
    let entries ← (Inventory.below config.aliases directory : m _)
    (emit s i.options (renderInventory format entries) : m _)
  | .generate output batches batchSize adsCount seed =>
    attempt .makingDirectories (Access.makeParents output)
    discard <| attempt (.writing output)
      (Dataset.writeSynthetic output ⟨batches, batchSize, adsCount, seed, config.signatureSize⟩)
    return ⟨.empty, none⟩

/-- The outcome of a command. -/
def Outcome.ofEnding : Except Failure Ending → Outcome
  | .ok ⟨printed, none⟩ => ⟨0, printed, ""⟩
  | .ok ⟨printed, some f⟩ => ⟨1, printed, f.text⟩
  | .error f => ⟨1, .empty, f.text⟩

/-- Runs a command line. -/
def run (s : Surroundings) (args : List ByteString) : m Outcome := do
  match Request.ofArguments? args with
  | none => return ⟨2, .empty, ""⟩
  | some (.help topic) =>
    let (taken, _) := Limit.take s.console (s.manual topic).toUTF8
    return ⟨0, taken, ""⟩
  | some (.invoke i) => return .ofEnding (← (perform s i).run)

end ProofSize.Command
