import ProofSize.Command.Run
import ProofSize.Proofs.Command.Arguments
import ProofSize.Proofs.Dataset

/-!
# Steps of commands

A command is a chain of steps on a file tree, each of which may fail. Most steps only look at the
tree. The last one writes the output, of which the console or the file may take a part only.

## Key results

- `Looks.bind`: what a chain does whose first step only looks
- `looks_loadConfig`, `looks_loadAll`: the configuration and the data files of a command
- `emit_cases`: where the output goes, and how much of it
-/

namespace ProofSize.Command

open Files

variable {α β ε : Type} {t t' : Tree} {o : Options} {f : Failure}

/-! ### Chains of steps -/

/-- Behind a step that succeeds the chain goes on with its value. -/
theorem run_bind_ok {m : ExceptT Failure TreeM α} {k : α → ExceptT Failure TreeM β} {a : α}
    (h : m.run.run t = (.ok a, t')) : (m >>= k).run.run t = (k a).run.run t' := by
  rw [ExceptT.run_bind, TreeM.run_bind h]

/-- A chain ends with the first step that fails. -/
theorem run_bind_error {m : ExceptT Failure TreeM α} {k : α → ExceptT Failure TreeM β}
    (h : m.run.run t = (.error f, t')) : (m >>= k).run.run t = (.error f, t') := by
  rw [ExceptT.run_bind, TreeM.run_bind h]
  rfl

/-- A step on the tree does as it would by itself, and its error is told as a failure. -/
theorem run_attempt (failure : ε → Failure) {step : TreeM (Except ε α)} {x : Except ε α}
    (h : step.run t = (x, t')) : (attempt failure step).run.run t = (x.mapError failure, t') := by
  -- an attempt is the step followed by a change of its outcome, so the rule for two steps applies
  show (step >>= fun x => pure (x.mapError failure)).run t = _
  rw [TreeM.run_bind h]
  rfl

/-- A step whose value is not asked for does as it would otherwise. -/
theorem run_discard {m : ExceptT Failure TreeM α} {x : Except Failure α}
    (h : m.run.run t = (x, t')) : (discard m).run.run t = (x.map fun _ => (), t') := by
  show ((fun _ => ()) <$> m).run.run t = _
  rw [ExceptT.run_map, StateT.run_map, h]
  rfl

/-- The step leaves the tree as it is, and gives the values of which `P` holds. If it holds of none,
    the step fails. -/
def Looks (t : Tree) (m : ExceptT Failure TreeM α) (P : α → Prop) : Prop :=
  ∃ x : Except Failure α, m.run.run t = (x, t) ∧ ∀ a, x = .ok a ↔ P a

/-- The step gives the values and leaves the trees of which `R` holds. If it holds of none, the step
    fails and leaves the tree as it is. -/
def Settles (t : Tree) (m : ExceptT Failure TreeM α) (R : α → Tree → Prop) : Prop :=
  (∃ a t', m.run.run t = (.ok a, t') ∧ ∀ b u, R b u ↔ b = a ∧ u = t') ∨
    ∃ f, m.run.run t = (.error f, t) ∧ ∀ b u, ¬R b u

/-- Behind a step that only looks at the tree the next one finds the tree as it was. -/
theorem Looks.bind {m : ExceptT Failure TreeM α} {k : α → ExceptT Failure TreeM β} {P : α → Prop}
    {R : α → β → Tree → Prop} (hm : Looks t m P) (hk : ∀ a, P a → Settles t (k a) (R a)) :
    Settles t (m >>= k) fun b u => ∃ a, P a ∧ R a b u := by
  obtain ⟨x, hrun, hx⟩ := hm
  cases x with
  | error f =>
    refine .inr ⟨f, run_bind_error hrun, ?_⟩
    rintro b u ⟨a, ha, -⟩
    exact nomatch (hx a).2 ha
  | ok a =>
    -- the first step gives one value only
    have honly : ∀ a', P a' ↔ a' = a := fun a' => by
      rw [← hx a', Except.ok.injEq, eq_comm]
    have hR : ∀ b u, (∃ a', P a' ∧ R a' b u) ↔ R a b u := fun b u => by simp [honly]
    rcases hk a ((honly a).2 rfl) with ⟨b, t', hb, hbu⟩ | ⟨f, hf, hnone⟩
    · exact .inl ⟨b, t', (run_bind_ok hrun).trans hb, fun b' u => (hR b' u).trans (hbu b' u)⟩
    · exact .inr ⟨f, (run_bind_ok hrun).trans hf, fun b' u h => hnone b' u ((hR b' u).1 h)⟩

/-- A computation that knows nothing of files looks at none. -/
theorem looks_lift (t : Tree) (x : Except Failure α) :
    Looks t (liftM x) fun a => x = .ok a :=
  ⟨x, rfl, fun _ => Iff.rfl⟩

/-- A step that cannot fail and leaves the tree as it is only looks at it. -/
theorem looks_run {m : TreeM α} {a : α} (h : m.run t = (a, t)) :
    Looks t (liftM m) fun b => m.run t = (b, t) := by
  refine ⟨.ok a, ?_, fun b => ⟨fun hb => Except.ok.inj hb ▸ h, fun hb =>
    congrArg Except.ok (Prod.mk.inj (h.symm.trans hb)).1⟩⟩
  show (Except.ok <$> m : TreeM (Except Failure α)).run t = _
  rw [StateT.run_map, h]
  rfl

/-- A step that cannot fail settles what it gives and what it leaves. -/
theorem settles_run (t : Tree) (m : TreeM α) :
    Settles t (liftM m) fun a t' => m.run t = (a, t') := by
  refine .inl ⟨(m.run t).1, (m.run t).2, ?_, fun a u => eq_comm.trans Prod.ext_iff⟩
  show (Except.ok <$> m : TreeM (Except Failure α)).run t = _
  rw [StateT.run_map]
  rfl

/-! ### The configuration -/

/-- The configuration that a file holds, or the standard one where no file is named. -/
def HoldsConfig (t : Tree) : Option ByteString → Config → Prop
  | none, c => c = .standard
  | some path, c => ∃ content text, t.read path = .ok content ∧
    String.fromUTF8? content = some text ∧ Config.decode text = .ok c

/-- What is read from a configuration file of a tree. -/
def configFrom (t : Tree) (path : ByteString) : Except ReportError Config :=
  match t.read path with
  | .error fault => .error (.file fault)
  | .ok content => decodeConfig content

/-- A configuration file is read from the tree, which stays as it is. -/
theorem run_readConfig (t : Tree) (path : ByteString) :
    (readConfig path : TreeM _).run t = (configFrom t path, t) := by
  rw [readConfig, TreeM.run_bind (TreeM.run_read t path), configFrom]
  cases t.read path with
  | error fault => rfl
  | ok content => rfl

/-- What is read from a configuration file is what it holds. -/
theorem configFrom_eq_ok_iff {path : ByteString} {c : Config} :
    configFrom t path = .ok c ↔ HoldsConfig t (some path) c := by
  rw [configFrom, HoldsConfig]
  cases t.read path with
  | error fault => simp
  | ok content =>
    cases htext : String.fromUTF8? content with
    | none => simp [decodeConfig, htext]
    | some text => simp [decodeConfig, htext, mapError_eq_ok_iff]

/-- A command works with the configuration that its file holds, and with its options in place of that.
    -/
theorem looks_loadConfig (t : Tree) (o : Options) :
    Looks t (loadConfig o) fun c => ∃ file, HoldsConfig t o.config file ∧ c = o.override file := by
  unfold loadConfig
  cases o.config with
  | none => exact ⟨_, rfl, fun c => by simp [HoldsConfig, eq_comm]⟩
  | some path =>
    have hrun := run_attempt (.readingConfig path) (run_readConfig t path)
    cases hx : configFrom t path with
    | error e =>
      rw [hx] at hrun
      refine ⟨_, run_bind_error hrun, fun c => ?_⟩
      simp [← configFrom_eq_ok_iff, hx]
    | ok file =>
      rw [hx] at hrun
      refine ⟨_, run_bind_ok hrun, fun c => ?_⟩
      simp [← configFrom_eq_ok_iff, hx, eq_comm]

/-! ### Data files -/

/-- A command works with the data of its files, in the order of their paths. -/
theorem looks_loadAll (t : Tree) (a : Aliases) (paths : List ByteString) :
    Looks t (attempt (fun f => .loading f.1 f.2) (Dataset.loadAll a paths))
      (List.Forall₂ (fun path d => (Dataset.load a path : TreeM _).run t = (.ok d, t)) paths) := by
  refine ⟨_, run_attempt _ (Dataset.run_loadAll t a paths), fun ds => ?_⟩
  simp only [mapError_eq_ok_iff, mapM_eq_ok_iff, Dataset.run_load_eq_ok_iff]

/-! ### The output -/

/-- What keeps the place to which the output goes from taking all of it. That is a file, or else the
    console. -/
def Surroundings.limit (s : Surroundings) (t : Tree) : Option ByteString → Option Limit
  | none => s.console
  | some path =>
    match t.writable path with
    | .ok p => t.limit p
    | .error _ => none

/-- The file that is to hold the output, if there is one, can be created. -/
def Creatable (t : Tree) (out : Option ByteString) : Prop :=
  ∀ path, out = some path → ∃ p, t.writable path = .ok p

/-- The bytes stand in the file that is to hold them, or else they have been printed. -/
def Delivers (t : Tree) (out : Option ByteString) (bytes printed : ByteArray) (t' : Tree) : Prop :=
  match out with
  | none => printed = bytes ∧ t' = t
  | some path => printed = .empty ∧ ∃ p, t.writable path = .ok p ∧ t' = t.put p (.file bytes)

/-- The file that was to hold the bytes holds them. -/
theorem Delivers.read {out : Option ByteString} {bytes printed : ByteArray}
    (h : Delivers t out bytes printed t') {path : ByteString} (hpath : out = some path) :
    t'.read path = .ok bytes := by
  subst hpath
  obtain ⟨-, p, hp, rfl⟩ := h
  exact Tree.read_put_of_writable hp _

/-- What has been delivered to a file could be. -/
theorem Delivers.creatable {out : Option ByteString} {bytes printed : ByteArray}
    (h : Delivers t out bytes printed t') : Creatable t out := by
  rintro path rfl
  obtain ⟨-, p, hp, -⟩ := h
  exact ⟨p, hp⟩

/-- A first part of the bytes stands where they were to go, which takes no more. -/
def BreaksOff (t : Tree) (s : Surroundings) (out : Option ByteString) (bytes printed : ByteArray)
    (t' : Tree) : Prop :=
  ∃ taken fault, Limit.Cuts (s.limit t out) bytes taken fault ∧ Delivers t out taken printed t'

section

variable {s : Surroundings} {output : Output} {taken : ByteArray} {fault : Fault}

/-- What is taken of the output is delivered. If that is not all of it, the command fails. -/
theorem run_emit_of_take (ho : Creatable t o.out) {cut : Option Fault}
    (htake : Limit.take (s.limit t o.out) output.text.toUTF8 = (taken, cut)) :
    ∃ printed t', (emit s o output : TreeM _).run t =
        (⟨printed, output.failure.or (cut.map .delivering)⟩, t') ∧
      Delivers t o.out taken printed t' := by
  unfold emit
  cases hout : o.out with
  | none =>
    have htake : Limit.take s.console output.text.toUTF8 = (taken, cut) := by
      rw [← htake, hout, Surroundings.limit]
    dsimp only
    rw [htake]
    exact ⟨taken, t, rfl, rfl, rfl⟩
  | some path =>
    obtain ⟨p, hp⟩ := ho path hout
    have htake : Limit.take (t.limit p) output.text.toUTF8 = (taken, cut) := by
      rw [← htake, hout, Surroundings.limit, hp]
    -- the file takes what its limit leaves of the text
    have hwrite := TreeM.run_write t path output.text.toUTF8
    simp only [Tree.write, hp, htake] at hwrite
    cases cut with
    | none =>
      refine ⟨.empty, _, ?_, rfl, p, hp, rfl⟩
      rw [Option.map_none, Option.or_none]
      exact TreeM.run_bind hwrite
    | some fault => exact ⟨.empty, _, TreeM.run_bind hwrite, rfl, p, hp, rfl⟩

/-- Where the file cannot be created, nothing is written. -/
theorem run_emit_of_error {path : ByteString} (hout : o.out = some path)
    (hpath : t.writable path = .error fault) :
    (emit s o output : TreeM _).run t = (⟨.empty, some (.creating path fault)⟩, t) := by
  unfold emit
  rw [hout]
  exact TreeM.run_bind ((TreeM.run_write t path _).trans (Tree.write_of_error hpath _))

/-- The output is delivered as a whole or breaks off, or nothing is written. Only in the first case a
    failure of the output itself is told. -/
theorem emit_cases {ending : Ending} (h : (emit s o output : TreeM _).run t = (ending, t')) :
    Delivers t o.out output.text.toUTF8 ending.printed t' ∧ ending.failure = output.failure ∨
      BreaksOff t s o.out output.text.toUTF8 ending.printed t' ∧ (∃ f, ending.failure = some f) ∨
      ¬Creatable t o.out ∧ ending.printed = .empty ∧ t' = t ∧ ∃ f, ending.failure = some f := by
  -- either a limit cuts the output, or it does not, or there is no file for it
  by_cases ho : Creatable t o.out
  · rcases Limit.fits_or_cuts (s.limit t o.out) output.text.toUTF8 with hfits | ⟨taken, fault, hcut⟩
    · obtain ⟨printed, u, hrun, hdelivers⟩ := run_emit_of_take ho (Limit.take_of_fits hfits)
      obtain ⟨rfl, rfl⟩ := Prod.mk.inj (h.symm.trans hrun)
      exact .inl ⟨hdelivers, by simp⟩
    · obtain ⟨printed, u, hrun, hdelivers⟩ := run_emit_of_take ho hcut.take_eq
      obtain ⟨rfl, rfl⟩ := Prod.mk.inj (h.symm.trans hrun)
      exact .inr (.inl ⟨⟨taken, fault, hcut, hdelivers⟩, by cases output.failure <;> simp⟩)
  · cases hout : o.out with
    | none => exact absurd (fun path hpath => nomatch hout.symm.trans hpath) ho
    | some path =>
      cases hpath : t.writable path with
      | ok p =>
        refine absurd (fun path' hpath' => ?_) ho
        obtain rfl := Option.some.inj (hout.symm.trans hpath')
        exact ⟨p, hpath⟩
      | error fault =>
        obtain ⟨rfl, rfl⟩ := Prod.mk.inj (h.symm.trans (run_emit_of_error hout hpath))
        exact .inr (.inr ⟨hout ▸ ho, rfl, rfl, _, rfl⟩)

end

/-! ### Whole runs -/

variable {s : Surroundings} {args : List ByteString} {i : Invocation} {ending : Ending}

/-- A run that has come to an end has the output that was printed. -/
theorem output_ofEnding (ending : Ending) :
    (Outcome.ofEnding (.ok ending)).output = ending.printed := by
  obtain ⟨printed, _ | f⟩ := ending <;> rfl

/-- A run ends well if there is no failure to tell of. -/
theorem exitCode_ofEnding_eq_zero_iff :
    (Outcome.ofEnding (.ok ending)).exitCode = 0 ↔ ending.failure = none := by
  obtain ⟨printed, _ | f⟩ := ending
  · exact iff_of_true rfl rfl
  · exact iff_of_false (show (1 : UInt32) ≠ 0 by decide) nofun

/-- A run that has a failure to tell of ends with the exit code for it. -/
theorem exitCode_ofEnding_eq_one (h : ∃ f, ending.failure = some f) :
    (Outcome.ofEnding (.ok ending)).exitCode = 1 := by
  obtain ⟨printed, _ | f⟩ := ending
  · exact nomatch h.choose_spec
  · rfl

/-- A run with a command line that asks for something does that. -/
theorem run_of_perform (hargs : Asks args i) {x : Except Failure Ending}
    (h : (perform s i : ExceptT Failure TreeM _).run.run t = (x, t')) :
    (run s args : TreeM _).run t = (.ofEnding x, t') := by
  rw [run, ofArguments?_eq_invoke_iff.2 hargs]
  exact TreeM.run_bind h

end ProofSize.Command
