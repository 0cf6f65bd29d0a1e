import ProofSize.Command.Arguments
import ProofSize.Proofs.Table.Cell

/-!
# The language of command lines

A well-formed command line has options, the name of a command, and behind it more options with the
other arguments between them. This is stated here as a relation between arguments and what they ask
for, which knows nothing of sorting.

## Key results

- `Asks`: what a command line asks for
- `ofName?_eq_some_iff`, `mem_optionNames_iff`: the names of commands and options are those of the
  language
-/

namespace ProofSize.Command

open Decimal

/-! ### Arguments -/

/-- The argument starts with a hyphen and is more than that. -/
def IsDashed (arg : ByteString) : Prop := ∃ b bs, arg.bytes = hyphen :: b :: bs

/-- The names of the commands. -/
inductive IsVerb : ByteString → Verb → Prop
  | proofSizes : IsVerb "proof-sizes" (.view .proofSizes)
  | optimization : IsVerb "optimization" (.view .optimization)
  | breakdown : IsVerb "breakdown" (.view .breakdown)
  | scale : IsVerb "scale" (.view .scale)
  | signatures : IsVerb "signatures" (.view .signatures)
  | inventory : IsVerb "inventory" .inventory
  | generate : IsVerb "generate" .generate

/-- The names of the options that a command takes. -/
inductive IsOption : Verb → ByteString → Prop
  | config {v : Verb} : IsOption v "--config"
  | signatureSize {v : Verb} : IsOption v "--signature-size"
  | targetSignatures {v : Verb} : IsOption v "--target-signatures"
  | format {v : Verb} : IsOption v "--format"
  | out {v : Verb} : IsOption v "--out"
  | scenario : IsOption (.view .breakdown) "--scenario"
  | counts : IsOption (.view .signatures) "--counts"
  | output : IsOption .generate "--output"
  | outputLetter : IsOption .generate "-o"
  | batches : IsOption .generate "--batches"
  | batchSize : IsOption .generate "--batch-size"
  | ads : IsOption .generate "--ads"
  | seed : IsOption .generate "--seed"

/-- The names of the formats. -/
inductive IsFormat : ByteString → Format → Prop
  | text : IsFormat "text" .text
  | json : IsFormat "json" .json

/-- The names of the scenarios. -/
inductive IsScenario : ByteString → Scenario → Prop
  | issued : IsScenario "issued" .issued
  | transferred : IsScenario "transferred" .transferred
  | loaned : IsScenario "loaned" .loaned

/-- A path is the value as it stands, and is not empty. -/
def ReadsPath (value path : ByteString) : Prop := path = value ∧ value ≠ ""

/-- A word is spelled as in a cell of a data file. -/
def ReadsWord (value : ByteString) (w : UInt64) : Prop :=
  ∃ text, value = ByteString.ofText text ∧ Denotes text w.toNat

/-- The value is one or more numbers with commas between them. -/
def ReadsWords (value : ByteString) (ws : List UInt64) : Prop :=
  ∃ parts, parts ≠ [] ∧ value = ByteString.ofText (",".intercalate parts) ∧
    List.Forall₂ (fun part (w : UInt64) => Denotes part w.toNat) parts ws

/-- The arguments that give a value to an option. -/
inductive Assigns (name value : ByteString) : List ByteString → Prop
  | apart : ¬IsDashed value → Assigns name value [name, value]
  | equals : Assigns name value [name ++ "=" ++ value]
  /-- The value follows the letter of an option at once. -/
  | joined : name.size = 2 → value ≠ "" → value.bytes.head? ≠ some equalsSign →
      Assigns name value [name ++ value]

/-- The arguments before the name of a command are options that every command takes. -/
inductive Precedes : List (ByteString × ByteString) → List ByteString → Prop
  | nil : Precedes [] []
  | option {name value : ByteString} {words args : List ByteString}
      {options : List (ByteString × ByteString)} :
      (∀ v, IsOption v name) → Assigns name value words → Precedes options args →
      Precedes ((name, value) :: options) (words ++ args)

/-- The arguments behind the name of a command are its options and others. Behind two hyphens there are
    no options. -/
inductive Follows (verb : Verb) :
    List (ByteString × ByteString) → List ByteString → List ByteString → Prop
  | nil : Follows verb [] [] []
  | option {name value : ByteString} {words others args : List ByteString}
      {options : List (ByteString × ByteString)} :
      IsOption verb name → Assigns name value words → Follows verb options others args →
      Follows verb ((name, value) :: options) others (words ++ args)
  | other {arg : ByteString} {others args : List ByteString}
      {options : List (ByteString × ByteString)} :
      ¬IsDashed arg → Follows verb options others args →
      Follows verb options (arg :: others) (arg :: args)
  | rest {args : List ByteString} : Follows verb [] args ("--" :: args)

section

variable {α : Type}

/-- The values given to an option, which may have several names, in their order. -/
def valuesUnder (names : List ByteString) (options : List (ByteString × ByteString)) :
    List ByteString :=
  (options.filter fun o => o.1 ∈ names).map (·.2)

/-- The option is not given, or it is given once with a value that is read. -/
inductive Takes (names : List ByteString) (Reads : ByteString → α → Prop)
    (options : List (ByteString × ByteString)) : Option α → Prop
  | absent : valuesUnder names options = [] → Takes names Reads options none
  | once {value : ByteString} {a : α} :
      valuesUnder names options = [value] → Reads value a → Takes names Reads options (some a)

/-- The option is not given, or its values are lists that are put together. -/
inductive TakesAll (names : List ByteString) (Reads : ByteString → List α → Prop)
    (options : List (ByteString × ByteString)) : Option (List α) → Prop
  | absent : valuesUnder names options = [] → TakesAll names Reads options none
  | given {lists : List (List α)} :
      valuesUnder names options ≠ [] → List.Forall₂ Reads (valuesUnder names options) lists →
      TakesAll names Reads options (some lists.flatten)

/-- The option that is given behind the name of the command counts, or else the one before it. -/
def Prefers (names : List ByteString) (Reads : ByteString → α → Prop)
    (before behind : List (ByteString × ByteString)) (v : Option α) : Prop :=
  ∃ first second, Takes names Reads before first ∧ Takes names Reads behind second ∧
    v = second.or first

end

/-- The options before and behind the name of a command that every command takes. -/
structure SetsOptions (before behind : List (ByteString × ByteString)) (o : Options) : Prop where
  config : Prefers ["--config"] ReadsPath before behind o.config
  signatureSize : Prefers ["--signature-size"] ReadsWord before behind o.signatureSize
  targetSignatures : Prefers ["--target-signatures"] ReadsWord before behind o.targetSignatures
  format : Prefers ["--format"] IsFormat before behind o.format
  out : Prefers ["--out"] ReadsPath before behind o.out

/-- What a command does with its own options and the other arguments. -/
inductive SetsTask (options : List (ByteString × ByteString)) :
    List ByteString → Verb → Task → Prop
  | report {paths : List ByteString} {view : View} {only : Option Scenario}
      {counts : Option (List UInt64)} :
      paths ≠ [] → (∀ path ∈ paths, path ≠ "") → (view ≠ .scale → paths.length = 1) →
      Takes ["--scenario"] IsScenario options only → TakesAll ["--counts"] ReadsWords options counts →
      SetsTask options paths (.view view) (.report view paths only counts)
  | inventory {directory : ByteString} :
      directory ≠ "" → SetsTask options [directory] .inventory (.inventory directory)
  | generate {output : ByteString} {batches batchSize ads seed : Option UInt64} :
      Takes ["--output", "-o"] ReadsPath options (some output) →
      Takes ["--batches"] ReadsWord options batches →
      Takes ["--batch-size"] ReadsWord options batchSize →
      Takes ["--ads"] ReadsWord options ads → Takes ["--seed"] ReadsWord options seed →
      SetsTask options [] .generate
        (.generate output (batches.getD 10) (batchSize.getD 10000) (ads.getD 1000000) (seed.getD 42))

/-- The arguments ask for what is to be done. -/
inductive Asks : List ByteString → Invocation → Prop
  | command {first last others : List ByteString} {name : ByteString} {verb : Verb}
      {before behind : List (ByteString × ByteString)} {o : Options} {task : Task} :
      Precedes before first → IsVerb name verb → Follows verb behind others last →
      SetsOptions before behind o → SetsTask behind others verb task →
      Asks (first ++ name :: last) ⟨o, task⟩

/-! ### Names -/

/-- Commands are known by their names. -/
theorem isVerb_iff {name : ByteString} {verb : Verb} : IsVerb name verb ↔ name = verb.name := by
  constructor
  · rintro ⟨⟩ <;> rfl
  · rintro rfl
    cases verb with
    | view v => cases v <;> constructor
    | inventory => constructor
    | generate => constructor

/-- A command is found under its name. -/
theorem ofName?_eq_some_iff {name : ByteString} {verb : Verb} :
    Verb.ofName? name = some verb ↔ IsVerb name verb := by
  rw [isVerb_iff]
  constructor
  · intro h
    simpa using List.find?_some (p := fun v : Verb => decide (name = v.name)) h
  · rintro rfl
    cases verb with
    | view v => cases v <;> decide +kernel
    | inventory => decide +kernel
    | generate => decide +kernel

/-- A format is read by its name. -/
theorem format?_eq_some_iff {value : ByteString} {f : Format} :
    format? value = some f ↔ IsFormat value f := by
  constructor
  · intro h
    have hname : value = f.name := by
      simpa using List.find?_some (p := fun f : Format => decide (value = f.name)) h
    subst hname
    cases f <;> constructor
  · rintro ⟨⟩ <;> decide +kernel

/-- A scenario is read by its name. -/
theorem scenario?_eq_some_iff {value : ByteString} {s : Scenario} :
    scenario? value = some s ↔ IsScenario value s := by
  rw [scenario?, Option.bind_eq_some_iff]
  constructor
  · intro ⟨text, htext, hs⟩
    obtain rfl := ByteString.ofText_of_text?_eq_some htext
    have hname : s.name = text := by
      simpa using List.find?_some (p := fun x : Scenario => x.name == text) hs
    subst hname
    cases s <;> constructor
  · rintro ⟨⟩
    · exact ⟨"issued", ByteString.text?_ofText _, rfl⟩
    · exact ⟨"transferred", ByteString.text?_ofText _, rfl⟩
    · exact ⟨"loaned", ByteString.text?_ofText _, rfl⟩

/-- The options that may stand before the name of a command are those of every command. -/
theorem mem_commonNames_iff {name : ByteString} :
    name ∈ commonNames ↔ ∀ v, IsOption v name := by
  constructor
  · intro h v
    revert name
    simp only [commonNames, List.forall_mem_cons]
    exact ⟨.config, .signatureSize, .targetSignatures, .format, .out, fun _ h => nomatch h⟩
  · intro h
    cases h .inventory <;> simp [commonNames]

/-- The options of a command are those that are named for it. -/
theorem mem_optionNames_iff {verb : Verb} {name : ByteString} :
    name ∈ verb.optionNames ↔ IsOption verb name := by
  rw [Verb.optionNames, List.mem_append]
  constructor
  · rintro (h | h)
    · exact mem_commonNames_iff.1 h verb
    · unfold Verb.ownNames at h
      split at h
      · obtain rfl := List.mem_singleton.1 h
        exact .scenario
      · obtain rfl := List.mem_singleton.1 h
        exact .counts
      · exact nomatch h
      · exact nomatch h
      · revert name
        simp only [List.forall_mem_cons]
        exact ⟨.output, .outputLetter, .batches, .batchSize, .ads, .seed, fun _ h => nomatch h⟩
  · intro h
    cases h <;> simp [commonNames, Verb.ownNames]

end ProofSize.Command
