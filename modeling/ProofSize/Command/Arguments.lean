import ProofSize.Synthetic
import ProofSize.Text.ByteString
import ProofSize.Text.Decimal
import ProofSize.View

/-! # Command lines

A command line names a command. Options that every command takes may stand before its name or behind
it; where the same one stands in both places the latter counts. Within either place an option stands
once, lists of numbers excepted. The value of an option is the next argument, or follows an equals
sign, or follows the one letter of an option at once. Behind `--` no argument is an option.

A command line may also ask for help, which is given if nothing that stands before the question is
wrong.
-/

namespace ProofSize.Command

/-- How a report is written. -/
inductive Format where
  | text
  | json
  deriving DecidableEq

def Format.all : List Format := [text, json]

def Format.name : Format → String
  | text => "text"
  | json => "json"

/-- The options that every command takes. -/
structure Options where
  /-- The file of the configuration. -/
  config : Option ByteString
  signatureSize : Option UInt64
  targetSignatures : Option UInt64
  format : Option Format
  /-- The file that a report is written to, instead of the console. -/
  out : Option ByteString
  deriving DecidableEq

/-- The options of both places, those behind the command's name first. -/
def Options.orElse (a b : Options) : Options where
  config := a.config.or b.config
  signatureSize := a.signatureSize.or b.signatureSize
  targetSignatures := a.targetSignatures.or b.targetSignatures
  format := a.format.or b.format
  out := a.out.or b.out

/-- The commands. -/
inductive Verb where
  | view (view : View)
  | inventory
  | generate
  deriving DecidableEq

def Verb.all : List Verb := View.all.map .view ++ [.inventory, .generate]

def Verb.name : Verb → String
  | view v => v.name
  | inventory => "inventory"
  | generate => "generate"

/-- The command of a name. -/
def Verb.ofName? (name : ByteString) : Option Verb := all.find? fun v => name = v.name

/-- The names of the options that every command takes. -/
def commonNames : List ByteString :=
  ["--config", "--signature-size", "--target-signatures", "--format", "--out"]

/-- The names of the options that only one command takes. -/
def Verb.ownNames : Verb → List ByteString
  | view .breakdown => [("--scenario" : ByteString)]
  | view .signatures => [("--counts" : ByteString)]
  | view _ | inventory => []
  | generate => ["--output", "-o", "--batches", "--batch-size", "--ads", "--seed"]

/-- The names of the options that a command takes. -/
def Verb.optionNames (v : Verb) : List ByteString := commonNames ++ v.ownNames

/-- What is to be done. -/
inductive Task where
  /-- A view of data files. -/
  | report (view : View) (paths : List ByteString) (only : Option Scenario)
      (counts : Option (List UInt64))
  | inventory (directory : ByteString)
  /-- A synthetic dataset. The size of its signatures comes from the configuration. -/
  | generate (output : ByteString) (batches batchSize adsCount seed : UInt64)
  deriving DecidableEq

/-- A command line that is well formed. -/
structure Invocation where
  options : Options
  task : Task
  deriving DecidableEq

/-- What help is asked for. -/
inductive Topic where
  | program
  | command (verb : Verb)
  | help
  deriving DecidableEq

/-- What a command line asks for. -/
inductive Request where
  | help (topic : Topic)
  | invoke (i : Invocation)
  deriving DecidableEq

/-! ### Arguments -/

def hyphen : UInt8 := 0x2d

def equalsSign : UInt8 := 0x3d

/-- An argument that starts with a hyphen cannot be the value of the option before it, unless it is
    a single hyphen. -/
def looksLikeOption (arg : ByteString) : Bool :=
  match arg.bytes with
  | b :: _ :: _ => b == hyphen
  | _ => false

/-- What an option is called, and the value that is attached to it. -/
structure Given where
  name : ByteString
  value : Option ByteString
  deriving DecidableEq

/-- The option that an argument is, if it is one. An option with one hyphen has one letter, and its
    value may follow the letter at once. -/
def option? (arg : ByteString) : Option Given :=
  match arg.bytes with
  | b :: c :: bs =>
    if b ≠ hyphen then none
    else if c = hyphen then
      let name : ByteString := ⟨b :: c :: bs.takeWhile (· ≠ equalsSign)⟩
      match bs.dropWhile (· ≠ equalsSign) with
      | _ :: value => some ⟨name, some ⟨value⟩⟩
      | [] => some ⟨name, none⟩
    else
      match bs with
      | [] => some ⟨arg, none⟩
      | d :: value => some ⟨⟨[b, c]⟩, some ⟨if d = equalsSign then value else bs⟩⟩
  | _ => none

/-- The option asks for help. What follows the letter `h` does not matter. -/
def Given.asksHelp (o : Given) : Bool :=
  o.name = "-h" ∨ o.name = "--help" ∧ o.value = none

/-- An option with its value, which is attached to it or is an argument of its own. -/
structure Setting where
  name : ByteString
  value : ByteString
  attached : Bool
  deriving DecidableEq

/-- The arguments of one place, sorted into options with their values and all others. -/
structure Sorted where
  /-- The options, the last one first. -/
  settings : List Setting
  /-- The other arguments, the last one first. -/
  others : List ByteString
  deriving DecidableEq

/-- Where sorting ends. -/
inductive Stop where
  /-- All arguments are sorted. -/
  | done
  /-- Help is asked for. -/
  | help
  /-- A command is named, with these arguments behind it. -/
  | command (name : ByteString) (behind : List ByteString)
  deriving DecidableEq

/-- Sorts arguments. All of the options named take a value. Before the name of a command, that is
    the first argument that is no option, and it ends the sorting. -/
def sort (known : List ByteString) (before : Bool) :
    List ByteString → Sorted → Option (Sorted × Stop)
  | [], s => some (s, .done)
  | arg :: args, s =>
    if before = false ∧ arg = "--" then
      some ({ s with others := args.reverse ++ s.others }, .done)
    else
      match option? arg with
      | none =>
        if before then some (s, .command arg args)
        else sort known before args { s with others := arg :: s.others }
      | some o =>
        if o.asksHelp then some (s, .help)
        else if o.name ∈ known then
          match o.value, args with
          | some value, args =>
            sort known before args { s with settings := ⟨o.name, value, true⟩ :: s.settings }
          | none, value :: args =>
            if looksLikeOption value then none
            else sort known before args { s with settings := ⟨o.name, value, false⟩ :: s.settings }
          | none, [] => none
        else none

/-! ### Values -/

/-- The values given to an option, in their order. -/
def valuesOf (settings : List Setting) (names : List ByteString) : List ByteString :=
  (settings.reverse.filter fun o => o.name ∈ names).map (·.value)

/-- The value of an option that stands once at most, read by `read?`. -/
def single {α : Type} (settings : List Setting) (names : List ByteString)
    (read? : ByteString → Option α) : Option (Option α) :=
  match valuesOf settings names with
  | [] => some none
  | [value] => (read? value).map some
  | _ => none

/-- A path is not empty. -/
def path? (value : ByteString) : Option ByteString := if value = "" then none else some value

/-- A word is read as it is read from a cell. -/
def word? (value : ByteString) : Option UInt64 := value.text?.bind Decimal.parseWord?

/-- Words with commas between them. -/
def words? (value : ByteString) : Option (List UInt64) := do
  ((← value.text?).toList.splitOn ',').mapM fun part => Decimal.parseWord? (String.ofList part)

/-- Formats go by their names. -/
def format? (value : ByteString) : Option Format := Format.all.find? fun f => value = f.name

/-- Scenarios go by their names. -/
def scenario? (value : ByteString) : Option Scenario := value.text?.bind Scenario.ofName?

/-- Reads the options that every command takes. -/
def Options.ofSettings? (settings : List Setting) : Option Options := do
  return {
    config := ← single settings ["--config"] path?
    signatureSize := ← single settings ["--signature-size"] word?
    targetSignatures := ← single settings ["--target-signatures"] word?
    format := ← single settings ["--format"] format?
    out := ← single settings ["--out"] path? }

/-- The value of an option for a number. -/
def wordOption (s : Sorted) (name : ByteString) (default : UInt64) : Option UInt64 := do
  return (← single s.settings [name] word?).getD default

/-! ### Commands -/

/-- The other arguments of a command, which are paths, in their order. Only a view of the scale takes
    more than one. -/
def paths? (verb : Verb) (s : Sorted) : Option (List ByteString) :=
  match verb with
  | .view .scale => s.others.reverse.mapM path?
  | .view _ | .inventory => if s.others.length ≤ 1 then s.others.mapM path? else none
  | .generate => if s.others = [] then some [] else none

/-- Reads the arguments of a command. There is no task where a path that the command needs is not
    given, and that alone is wrong. -/
def task? (verb : Verb) (s : Sorted) : Option (Option Task) := do
  let paths ← paths? verb s
  match verb with
  | .view view =>
    let only ← single s.settings ["--scenario"] scenario?
    let counts ← (valuesOf s.settings ["--counts"]).mapM words?
    return if paths = [] then none
      else some (.report view paths only (if counts = [] then none else some counts.flatten))
  | .inventory => return paths.head?.map .inventory
  | .generate =>
    let standard := Synthetic.Settings.standard
    let output ← single s.settings ["--output", "-o"] path?
    let batches ← wordOption s "--batches" standard.batches
    let batchSize ← wordOption s "--batch-size" standard.batchSize
    let adsCount ← wordOption s "--ads" standard.adsCount
    let seed ← wordOption s "--seed" standard.seed
    return output.map fun output => .generate output batches batchSize adsCount seed

/-- The options whose values have been read when a command is named. A value that is an argument of
    its own is read only later if the name follows it. -/
def settled : List Setting → List Setting
  | [] => []
  | last :: settings => if last.attached then last :: settings else settings

/-- The help on the command that is named, or on all of them. -/
def Topic.ofNames? : List ByteString → Option Topic
  | [] => some .program
  | [name] => if name = "help" then some .help else (Verb.ofName? name).map .command
  | _ => none

/-- Reads the arguments behind the name of a command, given the options before it. -/
def Request.ofCommand? (before : List Setting) (verb : Verb) (behind : List ByteString) :
    Option Request := do
  let (sorted, stop) ← sort verb.optionNames false behind ⟨[], []⟩
  let options ← Options.ofSettings? sorted.settings
  let task ← task? verb sorted
  match stop with
  | .help => return .help (.command verb)
  | _ => return .invoke ⟨options.orElse (← Options.ofSettings? before), ← task⟩

/-- Reads a command line. -/
def Request.ofArguments? (args : List ByteString) : Option Request := do
  let (sorted, stop) ← sort commonNames true args ⟨[], []⟩
  match stop with
  | .done => none
  | .help =>
    let _ ← Options.ofSettings? sorted.settings
    return .help .program
  | .command name behind =>
    let _ ← Options.ofSettings? (settled sorted.settings)
    if name = "help" then return .help (← Topic.ofNames? behind)
    else Request.ofCommand? sorted.settings (← Verb.ofName? name) behind

end ProofSize.Command
