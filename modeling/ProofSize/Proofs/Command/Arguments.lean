import ProofSize.Proofs.Command.Sorting

/-!
# What command lines ask for

The values of options are read as the language of command lines has them. So a command line is read as
what it asks for, and as nothing else.

## Key results

- `words?_eq_some_iff`, `single_eq_some_iff`: what the value of an option denotes
- `task?_eq_some_iff`: the arguments behind the name of a command are its task
- `ofArguments?_eq_invoke_iff`: a command line is read as what it asks for
-/

namespace ProofSize.Command

open Decimal

/-! ### Values -/

/-- A path is read as it stands, and is not empty. -/
theorem path?_eq_some_iff {value path : ByteString} : path? value = some path ↔ ReadsPath value path := by
  unfold path? ReadsPath
  split
  · rename_i hempty
    simp [hempty]
  · rename_i hne
    rw [Option.some.injEq, eq_comm]
    exact (and_iff_left hne).symm

/-- A number is read if the value spells a word. -/
theorem word?_eq_some_iff {value : ByteString} {w : UInt64} :
    word? value = some w ↔ ReadsWord value w := by
  rw [word?, Option.bind_eq_some_iff]
  constructor
  · intro ⟨text, htext, hw⟩
    exact ⟨text, (ByteString.ofText_of_text?_eq_some htext).symm, parseWord?_eq_some_iff.1 hw⟩
  · rintro ⟨text, rfl, hw⟩
    exact ⟨text, ByteString.text?_ofText text, parseWord?_eq_some_iff.2 hw⟩

/-- A number has no comma in it. -/
private theorem comma_notMem {part : String} {n : Nat} (h : Denotes part n) : ',' ∉ part.toList := by
  obtain ⟨sign, digits, happ, hsign, -, hdigits, -⟩ := h
  rw [happ, List.mem_append]
  rintro (hmem | hmem)
  · rcases hsign with rfl | rfl <;> simp at hmem
  · exact absurd (hdigits _ hmem) (by decide)

/-- A list of numbers is read if the value spells words with commas between them. -/
theorem words?_eq_some_iff {value : ByteString} {ws : List UInt64} :
    words? value = some ws ↔ ReadsWords value ws := by
  simp only [words?, Option.bind_eq_bind, Option.bind_eq_some_iff, mapM_eq_some_iff,
    parseWord?_eq_some_iff]
  constructor
  · intro ⟨text, htext, hws⟩
    -- the parts are what stands between the commas
    refine ⟨(text.toList.splitOn ',').map String.ofList, ?_, ?_, List.forall₂_map_left_iff.2 hws⟩
    · simp
    · rw [← ByteString.ofText_of_text?_eq_some htext, ByteString.ofText_inj, ← String.toList_inj,
        String.toList_intercalate, List.map_map]
      have hself : String.toList ∘ String.ofList = id := funext fun cs => String.toList_ofList
      rw [hself, List.map_id]
      exact (List.intercalate_splitOn ',').symm
  · rintro ⟨parts, hne, rfl, hws⟩
    refine ⟨_, ByteString.text?_ofText _, ?_⟩
    -- no part has a comma in it, so the text splits into the same parts again
    have hparts : ∀ part ∈ parts, ',' ∉ part.toList := by
      clear hne
      induction hws with
      | nil => exact fun _ h => nomatch h
      | cons hw _ ih => exact List.forall_mem_cons.2 ⟨comma_notMem hw, ih⟩
    rw [String.toList_intercalate]
    show List.Forall₂ _ (([','].intercalate (parts.map String.toList)).splitOn ',') ws
    rw [List.splitOn_intercalate ',' (List.forall_mem_map.2 hparts) (by simpa using hne)]
    exact List.forall₂_map_left_iff.2 (by simpa using hws)

/-! ### Options and tasks -/

/-- The values of an option are those that stand behind its names. -/
theorem valuesOf_eq (s : Sorted) (names : List ByteString) :
    valuesOf s.settings names = valuesUnder names s.options := by
  rw [valuesOf, valuesUnder, Sorted.options, List.filter_map, List.map_map]
  rfl

/-- An option that stands once at most is read as it is spelled. -/
theorem single_eq_some_iff {α : Type} {s : Sorted} {names : List ByteString}
    {read? : ByteString → Option α} {Reads : ByteString → α → Prop} {v : Option α}
    (hread : ∀ {value a}, read? value = some a ↔ Reads value a) :
    single s.settings names read? = some v ↔ Takes names Reads s.options v := by
  rw [single, valuesOf_eq]
  -- there is no value, there is one, or there are several, which is one too many
  split
  · rename_i hnone
    rw [Option.some.injEq]
    constructor
    · rintro rfl
      exact .absent hnone
    · rintro (_ | ⟨hvalue, -⟩)
      · rfl
      · exact nomatch hnone.symm.trans hvalue
  · rename_i value hone
    rw [Option.map_eq_some_iff]
    constructor
    · rintro ⟨a, ha, rfl⟩
      exact .once hone (hread.1 ha)
    · rintro (hnone | ⟨hvalue, ha⟩)
      · exact nomatch hone.symm.trans hnone
      · obtain rfl := List.singleton_inj.1 (hone.symm.trans hvalue)
        exact ⟨_, hread.2 ha, rfl⟩
  · rename_i hnil hone
    refine iff_of_false nofun ?_
    rintro (hnone | ⟨hvalue, -⟩)
    · exact hnil hnone
    · exact hone _ hvalue

/-- With fewer options there is less to be read. -/
theorem exists_single_of_cons {α : Type} {o : Setting} {settings : List Setting}
    {names : List ByteString} {read? : ByteString → Option α} {v : Option α}
    (h : single (o :: settings) names read? = some v) : ∃ v', single settings names read? = some v' := by
  -- the values of the last option come last
  have hcons : valuesOf (o :: settings) names =
      valuesOf settings names ++ valuesOf [o] names := by simp [valuesOf]
  unfold single at h ⊢
  rw [hcons] at h
  cases hvalues : valuesOf settings names with
  | nil => exact ⟨none, rfl⟩
  | cons value values =>
    rw [hvalues] at h
    cases values with
    | nil =>
      cases hlast : valuesOf [o] names with
      | nil =>
        rw [hlast] at h
        exact ⟨v, h⟩
      | cons =>
        rw [hlast] at h
        exact nomatch h
    | cons => exact nomatch h

/-- The options are read one by one. -/
theorem ofSettings?_eq_some_iff {settings : List Setting} {o : Options} :
    Options.ofSettings? settings = some o ↔
      single settings ["--config"] path? = some o.config ∧
      single settings ["--signature-size"] word? = some o.signatureSize ∧
      single settings ["--target-signatures"] word? = some o.targetSignatures ∧
      single settings ["--format"] format? = some o.format ∧
      single settings ["--out"] path? = some o.out := by
  simp only [Options.ofSettings?, Option.bind_eq_bind, Option.bind_eq_some_iff, Option.pure_def,
    Option.some.injEq]
  constructor
  · rintro ⟨config, hconfig, size, hsize, target, htarget, format, hformat, out, hout, rfl⟩
    exact ⟨hconfig, hsize, htarget, hformat, hout⟩
  · rintro ⟨hconfig, hsize, htarget, hformat, hout⟩
    exact ⟨_, hconfig, _, hsize, _, htarget, _, hformat, _, hout, rfl⟩

/-- Options that have been read can be read without the last one. -/
theorem exists_ofSettings?_settled {settings : List Setting} {o : Options}
    (h : Options.ofSettings? settings = some o) :
    ∃ o', Options.ofSettings? (settled settings) = some o' := by
  cases settings with
  | nil => exact ⟨o, h⟩
  | cons last settings =>
    rw [settled]
    split
    · exact ⟨o, h⟩
    · obtain ⟨hconfig, hsize, htarget, hformat, hout⟩ := ofSettings?_eq_some_iff.1 h
      obtain ⟨config, hconfig⟩ := exists_single_of_cons hconfig
      obtain ⟨size, hsize⟩ := exists_single_of_cons hsize
      obtain ⟨target, htarget⟩ := exists_single_of_cons htarget
      obtain ⟨format, hformat⟩ := exists_single_of_cons hformat
      obtain ⟨out, hout⟩ := exists_single_of_cons hout
      exact ⟨⟨config, size, target, format, out⟩,
        ofSettings?_eq_some_iff.2 ⟨hconfig, hsize, htarget, hformat, hout⟩⟩

/-- The options of both places are read, and those behind the name of the command count. -/
theorem setsOptions_iff {before behind : Sorted} {o : Options} :
    SetsOptions before.options behind.options o ↔
      ∃ first second, Options.ofSettings? before.settings = some first ∧
        Options.ofSettings? behind.settings = some second ∧ o = second.orElse first := by
  simp only [ofSettings?_eq_some_iff, single_eq_some_iff path?_eq_some_iff,
    single_eq_some_iff word?_eq_some_iff, single_eq_some_iff format?_eq_some_iff]
  constructor
  · rintro ⟨⟨c₁, c₂, hc₁, hc₂, hc⟩, ⟨s₁, s₂, hs₁, hs₂, hs⟩, ⟨t₁, t₂, ht₁, ht₂, ht⟩,
      ⟨f₁, f₂, hf₁, hf₂, hf⟩, ⟨o₁, o₂, ho₁, ho₂, ho⟩⟩
    refine ⟨⟨c₁, s₁, t₁, f₁, o₁⟩, ⟨c₂, s₂, t₂, f₂, o₂⟩, ⟨hc₁, hs₁, ht₁, hf₁, ho₁⟩,
      ⟨hc₂, hs₂, ht₂, hf₂, ho₂⟩, ?_⟩
    rw [Options.orElse, ← hc, ← hs, ← ht, ← hf, ← ho]
  · rintro ⟨first, second, ⟨hc₁, hs₁, ht₁, hf₁, ho₁⟩, ⟨hc₂, hs₂, ht₂, hf₂, ho₂⟩, rfl⟩
    exact ⟨⟨_, _, hc₁, hc₂, rfl⟩, ⟨_, _, hs₁, hs₂, rfl⟩, ⟨_, _, ht₁, ht₂, rfl⟩,
      ⟨_, _, hf₁, hf₂, rfl⟩, ⟨_, _, ho₁, ho₂, rfl⟩⟩

/-- The options before the name of a command can be read by themselves. -/
theorem SetsOptions.exists_ofSettings? {before : Sorted} {behind : List (ByteString × ByteString)}
    {o : Options} (h : SetsOptions before.options behind o) :
    ∃ first, Options.ofSettings? before.settings = some first := by
  obtain ⟨⟨c, -, hc, -⟩, ⟨s, -, hs, -⟩, ⟨t, -, ht, -⟩, ⟨f, -, hf, -⟩, ⟨out, -, hout, -⟩⟩ := h
  refine ⟨⟨c, s, t, f, out⟩, ofSettings?_eq_some_iff.2 ?_⟩
  simp only [single_eq_some_iff path?_eq_some_iff, single_eq_some_iff word?_eq_some_iff,
    single_eq_some_iff format?_eq_some_iff]
  exact ⟨hc, hs, ht, hf, hout⟩

/-- Paths are read as they stand, if none of them is empty. -/
private theorem mapM_path?_eq_some_iff {args paths : List ByteString} :
    args.mapM path? = some paths ↔ paths = args ∧ ∀ path ∈ args, path ≠ "" := by
  rw [mapM_eq_some_iff]
  simp only [path?_eq_some_iff]
  constructor
  · intro h
    induction h with
    | nil => simp
    | cons hpath _ ih =>
      obtain ⟨rfl, hne⟩ := hpath
      exact ⟨by rw [ih.1], List.forall_mem_cons.2 ⟨hne, ih.2⟩⟩
  · rintro ⟨rfl, hne⟩
    exact List.forall₂_same.2 fun path hpath => ⟨rfl, hne path hpath⟩

/-- The other arguments of a view or of an inventory are its paths. -/
theorem paths?_eq_some_iff {verb : Verb} {s : Sorted} {paths : List ByteString}
    (hverb : verb ≠ .generate) :
    paths? verb s = some paths ↔ paths = s.others.reverse ∧ (∀ path ∈ paths, path ≠ "") ∧
      (verb ≠ .view .scale → paths.length ≤ 1) := by
  -- all views but one take a single path, as an inventory does
  have hfew (h : verb ≠ .view .scale) :
      (if s.others.length ≤ 1 then s.others.mapM path? else none) = some paths ↔
        paths = s.others.reverse ∧ (∀ path ∈ paths, path ≠ "") ∧
          (verb ≠ .view .scale → paths.length ≤ 1) := by
    split
    · rename_i hlength
      have hreverse : s.others.reverse = s.others := by
        match s.others, hlength with
        | [], _ => rfl
        | [_], _ => rfl
      rw [mapM_path?_eq_some_iff, hreverse]
      constructor
      · rintro ⟨rfl, hne⟩
        exact ⟨rfl, hne, fun _ => hlength⟩
      · rintro ⟨rfl, hne, -⟩
        exact ⟨rfl, hne⟩
    · rename_i hlength
      refine iff_of_false nofun ?_
      rintro ⟨rfl, -, hle⟩
      exact hlength (by simpa using hle h)
  cases verb with
  | generate => exact absurd rfl hverb
  | inventory => exact hfew nofun
  | view v =>
    cases v with
    | scale =>
      rw [paths?, mapM_path?_eq_some_iff]
      constructor
      · rintro ⟨rfl, hne⟩
        exact ⟨rfl, hne, fun h => absurd rfl h⟩
      · rintro ⟨rfl, hne, -⟩
        exact ⟨rfl, hne⟩
    | _ => exact hfew nofun

/-- The values of an option that may stand several times are put together. -/
theorem takesAll_iff {s : Sorted} {counts : Option (List UInt64)} :
    (∃ lists, (valuesOf s.settings ["--counts"]).mapM words? = some lists ∧
      counts = if lists = [] then none else some lists.flatten) ↔
      TakesAll ["--counts"] ReadsWords s.options counts := by
  simp only [valuesOf_eq, mapM_eq_some_iff, words?_eq_some_iff]
  constructor
  · rintro ⟨lists, hlists, rfl⟩
    split
    · rename_i hnil
      exact .absent (List.forall₂_nil_right_iff.1 (hnil ▸ hlists))
    · rename_i hne
      refine .given (fun hnil => hne ?_) hlists
      exact List.forall₂_nil_left_iff.1 (hnil ▸ hlists)
  · rintro (hnil | ⟨hne, hlists⟩)
    · exact ⟨[], by rw [hnil]; exact .nil, rfl⟩
    · refine ⟨_, hlists, (if_neg fun hnil => hne ?_).symm⟩
      exact List.forall₂_nil_right_iff.1 (hnil ▸ hlists)

/-- A number that may be left out is read as it is spelled, or is the standard one. -/
theorem wordOption_eq_some_iff {s : Sorted} {name : ByteString} {default w : UInt64} :
    wordOption s name default = some w ↔
      ∃ v, Takes [name] ReadsWord s.options v ∧ v.getD default = w := by
  simp only [wordOption, Option.bind_eq_bind, Option.bind_eq_some_iff, Option.pure_def,
    Option.some.injEq, single_eq_some_iff word?_eq_some_iff]

section

variable {s : Sorted} {task : Task}

/-- A view is read with its data files, and with its scenario or its counts. -/
private theorem task?_view_iff {view : View} :
    task? (.view view) s = some (some task) ↔
      SetsTask s.options s.others.reverse (.view view) task := by
  simp only [task?, Option.bind_eq_bind, Option.bind_eq_some_iff, Option.pure_def, Option.some.injEq,
    paths?_eq_some_iff (nofun : Verb.view view ≠ .generate), single_eq_some_iff scenario?_eq_some_iff]
  generalize s.others.reverse = others
  constructor
  · rintro ⟨paths, ⟨hpaths, hne, hfew⟩, only, honly, lists, hlists, h⟩
    split at h
    · exact nomatch h
    · rename_i hsome
      obtain rfl := Option.some.inj h
      subst hpaths
      refine .report hsome hne (fun hview => ?_) honly (takesAll_iff.1 ⟨lists, hlists, rfl⟩)
      have hle := hfew fun heq => hview (Verb.view.inj heq)
      have hpos := List.length_pos_iff.2 hsome
      omega
  · rintro ⟨hsome, hne, hone, honly, hcounts⟩
    -- counts that are given several times are put together
    obtain ⟨lists, hlists, rfl⟩ := takesAll_iff.2 hcounts
    refine ⟨_, ⟨rfl, hne, fun hverb => (hone fun hview => hverb (hview ▸ rfl)).le⟩, _, honly, lists,
      hlists, ?_⟩
    rw [if_neg hsome]

/-- An inventory is read with its directory. -/
private theorem task?_inventory_iff :
    task? .inventory s = some (some task) ↔ SetsTask s.options s.others.reverse .inventory task := by
  simp only [task?, Option.bind_eq_bind, Option.bind_eq_some_iff, Option.pure_def, Option.some.injEq,
    paths?_eq_some_iff (nofun : Verb.inventory ≠ .generate)]
  generalize s.others.reverse = others
  constructor
  · rintro ⟨paths, ⟨hpaths, hne, hfew⟩, h⟩
    obtain ⟨directory, hhead, rfl⟩ := Option.map_eq_some_iff.1 h
    obtain ⟨rest, rfl⟩ := List.head?_eq_some_iff.1 hhead
    obtain rfl : rest = [] := List.length_eq_zero_iff.1 (by simpa using hfew nofun)
    subst hpaths
    exact .inventory (hne _ List.mem_cons_self)
  · rintro (_ | hne)
    exact ⟨_, ⟨rfl, by simpa using hne, fun _ => Nat.le_refl 1⟩, rfl⟩

/-- A synthetic dataset is read with its file, and with the standard of each number that is left out. -/
private theorem task?_generate_iff :
    task? .generate s = some (some task) ↔ SetsTask s.options s.others.reverse .generate task := by
  simp only [task?, Option.bind_eq_bind, Option.bind_eq_some_iff, Option.pure_def, Option.some.injEq,
    single_eq_some_iff path?_eq_some_iff, wordOption_eq_some_iff, paths?]
  constructor
  · rintro ⟨paths, hpaths, output, houtput, _, ⟨batches, hbatches, rfl⟩, _, ⟨size, hsize, rfl⟩,
      _, ⟨ads, hads, rfl⟩, _, ⟨seed, hseed, rfl⟩, h⟩
    obtain ⟨output, rfl, rfl⟩ := Option.map_eq_some_iff.1 h
    split at hpaths
    · rename_i hnone
      rw [hnone]
      exact .generate houtput hbatches hsize hads hseed
    · exact nomatch hpaths
  · intro h
    generalize hothers : s.others.reverse = others at h
    cases h with
    | generate houtput hbatches hsize hads hseed =>
      have hnone : s.others = [] := List.reverse_eq_nil_iff.1 hothers
      exact ⟨[], if_pos hnone, _, houtput, _, ⟨_, hbatches, rfl⟩, _, ⟨_, hsize, rfl⟩,
        _, ⟨_, hads, rfl⟩, _, ⟨_, hseed, rfl⟩, rfl⟩

/-- The arguments behind the name of a command are read as its task. -/
theorem task?_eq_some_iff {verb : Verb} :
    task? verb s = some (some task) ↔ SetsTask s.options s.others.reverse verb task := by
  cases verb with
  | view view => exact task?_view_iff
  | inventory => exact task?_inventory_iff
  | generate => exact task?_generate_iff

end

/-! ### Command lines -/

variable {args last : List ByteString} {name : ByteString} {verb : Verb} {i : Invocation}
  {before : Sorted}

/-- What has been sorted from the start. -/
private theorem gathers_start {s : Sorted} {options : List (ByteString × ByteString)}
    {others : List ByteString} (h : Gathers ⟨[], []⟩ s options others) :
    s.options = options ∧ s.others.reverse = others := ⟨h.options, h.others⟩

/-- Behind the name of a command stand its options and its other arguments. -/
theorem ofCommand?_eq_invoke_iff :
    Request.ofCommand? before.settings verb last = some (.invoke i) ↔
      ∃ behind others, Follows verb behind others last ∧
        SetsOptions before.options behind i.options ∧ SetsTask behind others verb i.task := by
  obtain ⟨o, task⟩ := i
  simp only [Request.ofCommand?, Option.bind_eq_bind, Option.bind_eq_some_iff]
  constructor
  · rintro ⟨⟨behind, stop⟩, hsort, second, hsecond, found, htask, h⟩
    -- help that is asked for behind the name ends in no invocation
    have hstop : stop ≠ .help := by
      rintro rfl
      exact nomatch h
    obtain ⟨rfl, options, others, hgathers, hfollows⟩ := follows_of_sort hsort hstop
    obtain ⟨rfl, rfl⟩ := gathers_start hgathers
    obtain ⟨first, hfirst, h⟩ := Option.bind_eq_some_iff.1 h
    obtain ⟨task', rfl, h⟩ := Option.bind_eq_some_iff.1 h
    obtain ⟨rfl, rfl⟩ := Invocation.mk.inj (Request.invoke.inj (Option.some.inj h))
    exact ⟨_, _, hfollows, setsOptions_iff.2 ⟨first, second, hfirst, hsecond, rfl⟩,
      task?_eq_some_iff.1 htask⟩
  · rintro ⟨options, others, hfollows, hoptions, htask⟩
    obtain ⟨behind, hsort, hgathers⟩ := sort_of_follows hfollows ⟨[], []⟩
    obtain ⟨rfl, rfl⟩ := gathers_start hgathers
    obtain ⟨first, second, hfirst, hsecond, rfl⟩ := setsOptions_iff.1 hoptions
    exact ⟨_, hsort, second, hsecond, _, task?_eq_some_iff.2 htask, by simp [hfirst]⟩

/-- The name of a command is not that of the help. -/
theorem IsVerb.ne_help (h : IsVerb name verb) : name ≠ "help" ∧ ¬IsDashed name := by
  rw [← looksLikeOption_iff]
  cases h <;> decide +kernel

/-- A command line is read as an invocation if and only if it asks for it. -/
theorem ofArguments?_eq_invoke_iff :
    Request.ofArguments? args = some (.invoke i) ↔ Asks args i := by
  constructor
  · intro h
    simp only [Request.ofArguments?, Option.bind_eq_bind, Option.bind_eq_some_iff] at h
    obtain ⟨⟨before, stop⟩, hsort, h⟩ := h
    cases stop with
    | done => exact nomatch h
    | help =>
      obtain ⟨_, -, h⟩ := Option.bind_eq_some_iff.1 h
      exact nomatch h
    | command name last =>
      obtain ⟨_, -, h⟩ := Option.bind_eq_some_iff.1 h
      split at h
      · obtain ⟨_, -, h⟩ := Option.bind_eq_some_iff.1 h
        exact nomatch h
      · obtain ⟨verb, hverb, h⟩ := Option.bind_eq_some_iff.1 h
        obtain ⟨behind, others, hfollows, hoptions, htask⟩ := ofCommand?_eq_invoke_iff.1 h
        obtain ⟨-, options, first, hgathers, hprecedes, rfl⟩ := precedes_of_sort hsort
        obtain ⟨rfl, -⟩ := gathers_start hgathers
        exact .command hprecedes (ofName?_eq_some_iff.1 hverb) hfollows hoptions htask
  · rintro ⟨hprecedes, hverb, hfollows, hoptions, htask⟩
    rename_i first last others name verb before behind o task
    obtain ⟨hhelp, hdashed⟩ := hverb.ne_help
    obtain ⟨s, hsort, hgathers⟩ := sort_of_precedes hprecedes hdashed last ⟨[], []⟩
    obtain ⟨rfl, -⟩ := gathers_start hgathers
    have hcommand : Request.ofCommand? s.settings verb last = some (.invoke ⟨o, task⟩) :=
      ofCommand?_eq_invoke_iff.2 ⟨behind, others, hfollows, hoptions, htask⟩
    -- the options before the name are read twice, at first without one that is not settled
    obtain ⟨first, hfirst⟩ := hoptions.exists_ofSettings?
    obtain ⟨first', hsettled⟩ := exists_ofSettings?_settled hfirst
    simp only [Request.ofArguments?, hsort, Option.bind_eq_bind, Option.bind_some, hsettled,
      if_neg hhelp, ofName?_eq_some_iff.2 hverb, hcommand]

/-- A command line asks for one thing at most. -/
theorem Asks.unique {j : Invocation} (hi : Asks args i) (hj : Asks args j) : i = j :=
  Request.invoke.inj (Option.some.inj
    ((ofArguments?_eq_invoke_iff.2 hi).symm.trans (ofArguments?_eq_invoke_iff.2 hj)))

end ProofSize.Command
