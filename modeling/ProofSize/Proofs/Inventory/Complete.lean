import ProofSize.Proofs.Files.Reaching
import ProofSize.Proofs.Inventory

/-!
# An inventory misses nothing

An inventory has an entry for each data file at the end of a trail without loops, and one for each path
with the name of a data file at which the walk cannot go on. It has no others, they are in the order of
their paths, and no trail of theirs enters a directory through a link while it is in that directory.

## Key results

- `mem_entries_file_iff`, `mem_entries_fault_iff`: which entries there are
- `below_complete`: an inventory is complete, ordered and without loops
- `below_reentered`: a directory may be entered again by its own name
-/

namespace ProofSize

open Files

namespace Inventory

variable {t : Tree} {a : Aliases} {root path : ByteString} {v : Visit} {e : Entry}

/-- A file is described as a file, and a fault as a fault. -/
theorem isOfFile_describeIn_iff (h : describeIn t a v = some e) :
    e.IsOfFile ↔ v = .file e.path := by
  have hpath := (path_describeIn h).2
  unfold describeIn at h
  rw [if_pos (path_describeIn h).1] at h
  cases v with
  | fault path fault =>
    obtain rfl := Option.some.inj h
    exact ⟨fun hfile => absurd rfl (hfile fault), fun heq => nomatch heq⟩
  | file path =>
    refine ⟨fun _ => by rw [hpath]; rfl, fun _ => ?_⟩
    dsimp only at h
    split at h
    · obtain rfl := Option.some.inj h
      exact fun fault heq => nomatch heq
    · obtain rfl := Option.some.inj h
      exact isOfFile_ofContent a path _

/-- The files in an inventory are the data files that are reached. -/
theorem mem_entries_file_iff (ht : t.WellNamed) :
    (∃ e ∈ entriesIn t a root, e.path = path ∧ e.IsOfFile) ↔
      Path.isCsv path = true ∧ t.Reaches root (.file path) := by
  rw [← Tree.mem_walkIn_iff ht]
  constructor
  · rintro ⟨e, he, hpath, hfile⟩
    obtain ⟨v, hv, hdescribe⟩ := List.mem_filterMap.1 he
    obtain rfl := (isOfFile_describeIn_iff hdescribe).1 hfile
    subst hpath
    exact ⟨(path_describeIn hdescribe).1, hv⟩
  · rintro ⟨hcsv, hv⟩
    obtain ⟨e, he⟩ := exists_describeIn_file t a hcsv
    have hpath : e.path = path := (path_describeIn he).2
    exact ⟨e, List.mem_filterMap.2 ⟨_, hv, he⟩, hpath,
      (isOfFile_describeIn_iff he).2 (by rw [hpath])⟩

/-- The faults in an inventory are those of the paths with the name of a data file. -/
theorem mem_entries_fault_iff (ht : t.WellNamed) {fault : WalkFault} :
    ⟨path, .unvisited fault⟩ ∈ entriesIn t a root ↔
      Path.isCsv path = true ∧ t.Reaches root (.fault path fault) := by
  rw [← Tree.mem_walkIn_iff ht]
  constructor
  · intro he
    obtain ⟨v, hv, hdescribe⟩ := List.mem_filterMap.1 he
    have hcsv := (path_describeIn hdescribe).1
    have hnot : ¬Entry.IsOfFile ⟨path, .unvisited fault⟩ := fun hfile => hfile fault rfl
    rw [isOfFile_describeIn_iff hdescribe] at hnot
    -- a file is not described as a fault
    cases v with
    | file p => exact absurd (by rw [(path_describeIn hdescribe).2]; rfl) hnot
    | fault p f =>
      rw [describeIn, if_pos hcsv] at hdescribe
      obtain ⟨rfl, hstatus⟩ := Entry.mk.inj (Option.some.inj hdescribe)
      obtain rfl := Status.unvisited.inj hstatus
      exact ⟨hcsv, hv⟩
  · rintro ⟨hcsv, hv⟩
    refine List.mem_filterMap.2 ⟨_, hv, ?_⟩
    rw [describeIn, if_pos (show Path.isCsv (Visit.fault path fault).path = true from hcsv)]

/-- Entries are in the order of their paths. -/
theorem pairwise_before_entriesIn (ht : t.WellNamed) (a : Aliases) (root : ByteString) :
    (entriesIn t a root).Pairwise fun e e' => Path.Before e.path e'.path := by
  refine List.Pairwise.filterMap _ (fun v w hvw e he e' he' => ?_)
    (Tree.pairwise_before_walkIn ht root)
  rw [(path_describeIn he).2, (path_describeIn he').2]
  exact hvw

/-- No trail to a path that has an entry has a loop. -/
theorem loopFree_of_mem_entriesIn (ht : t.WellNamed) (he : e ∈ entriesIn t a root)
    {dirs : List Entered} {kind : Kind} (htrail : t.Trail root dirs e.path kind) : LoopFree dirs := by
  obtain ⟨v, hv, hdescribe⟩ := List.mem_filterMap.1 he
  rw [(path_describeIn hdescribe).2] at htrail
  -- what is visited lies on a trail without loops, and there is only one trail to a path
  cases (Tree.mem_walkIn_iff ht).1 hv with
  | missing hroot => exact (htrail.not_of_error hroot).elim
  | along htrail' hfree hends =>
    obtain ⟨rfl, -⟩ := htrail'.unique ht htrail hends.path_eq.symm
    exact hfree

/-- An inventory never fails and leaves the tree as it is, and its walk ends by itself, because trails
    without loops are bounded. Where things stand under names that entries can have, its entries are
    exactly those of the data files at the end of such trails and of the paths with the name of a data
    file at which the walk cannot go on. No entry lies behind a link to a directory in which the link
    lies, and the paths of the entries are strictly increasing. -/
theorem below_complete (t : Tree) (ht : t.WellNamed) (a : Aliases) (root : ByteString) :
    ∃ entries : List Entry, (below a root : TreeM _).run t = (entries, t) ∧
      (∀ path, (∃ e ∈ entries, e.path = path ∧ e.IsOfFile) ↔
        Path.isCsv path = true ∧ t.Reaches root (.file path)) ∧
      (∀ path fault, ⟨path, .unvisited fault⟩ ∈ entries ↔
        Path.isCsv path = true ∧ t.Reaches root (.fault path fault)) ∧
      (∀ e ∈ entries, ∀ dirs kind, t.Trail root dirs e.path kind → LoopFree dirs) ∧
      entries.Pairwise (fun e e' => Path.Before e.path e'.path) ∧
      (entries.map (·.path)).Nodup ∧
      (∀ dirs path kind, t.Trail root dirs path kind → LoopFree dirs →
        dirs.length ≤ (t.nodes.length + 1) ^ 2) ∧
      ∀ kind, t.kind root false = .ok kind → ∀ depth, Walk.depthLimit ≤ depth →
        (Walk.visit depth [] root kind : TreeM _).run t = (Walk.below root : TreeM _).run t := by
  have horder := pairwise_before_entriesIn ht a root
  refine ⟨entriesIn t a root, run_below_eq t a root, fun path => mem_entries_file_iff ht,
    fun path fault => mem_entries_fault_iff ht,
    fun e he dirs kind htrail => loopFree_of_mem_entriesIn ht he htrail, horder, ?_,
    fun dirs path kind htrail hfree => htrail.length_le ht hfree, fun kind hroot depth hdepth => ?_⟩
  · refine List.pairwise_map.2 (horder.imp fun {e e'} hbefore hsame => ?_)
    rw [hsame] at hbefore
    exact Path.not_before_self _ hbefore
  -- below the limit of depth nothing is left to be visited
  · rw [t.run_visit, t.run_walk, Tree.walkIn, hroot]
    have hsame := Tree.visitIn_eq_of_le ht (.root hroot) hdepth (Nat.le_refl Walk.depthLimit)
    exact congrArg (·, t) hsame

/-- In the directory `d` lie a file, a directory, a link to `d` itself, one that leads nowhere, and one
    to the directory above. -/
def tangled : Tree where
  nodes := [
    (["w"], .directory),
    (["w", "d"], .directory),
    (["w", "d", "a.csv"], .file "x\n".toUTF8),
    (["w", "d", "gone.csv"], .link "nowhere"),
    (["w", "d", "self.csv"], .link "."),
    (["w", "d", "up"], .link ".."),
    (["w", "d", "x.csv"], .directory)]
  current := ["w"]
  distinct := by decide

/-- All its names are such as entries can have. -/
theorem wellNamed_tangled : tangled.WellNamed := by
  unfold Tree.WellNamed
  decide +kernel

/-- Each entry of `d` ends a trail, or goes on with one. -/
private theorem trail_tangled {name path : ByteString} {kind : Kind}
    (h : (name, kind) ∈ tangled.entriesAt ["w", "d"]) (hpath : Path.join "d" name = path) :
    tangled.Trail "d" [⟨"d", .directory, ["w", "d"]⟩] path kind :=
  hpath ▸ .entry (.root rfl) (.inl rfl) rfl h

/-- The file has an entry, and so have the link that leads nowhere and the one to its own directory. -/
theorem below_complete_tangled :
    ∃ entries : List Entry, (below .standard "d" : TreeM _).run tangled = (entries, tangled) ∧
      (∃ e ∈ entries, e.path = "d/a.csv" ∧ e.IsOfFile) ∧
      ⟨"d/gone.csv", .unvisited (.refused "d/gone.csv" .noEntry)⟩ ∈ entries ∧
      ⟨"d/self.csv", .unvisited (.loop "d/self.csv" "d")⟩ ∈ entries := by
  obtain ⟨entries, hrun, hfiles, hfaults, -⟩ :=
    below_complete tangled wellNamed_tangled .standard "d"
  have hfree : LoopFree [⟨"d", .directory, ["w", "d"]⟩] := List.pairwise_singleton _ _
  refine ⟨entries, hrun, (hfiles _).2 ⟨by decide +kernel, ?_⟩, (hfaults _ _).2 ⟨by decide +kernel, ?_⟩,
    (hfaults _ _).2 ⟨by decide +kernel, ?_⟩⟩
  · have htrail := @trail_tangled "a.csv" "d/a.csv" .file (by decide +kernel) (by decide +kernel)
    exact .along htrail hfree .file
  · have htrail := @trail_tangled "gone.csv" "d/gone.csv" .link (by decide +kernel) (by decide +kernel)
    exact .along htrail hfree (.refused (.inr rfl) rfl)
  · have htrail := @trail_tangled "self.csv" "d/self.csv" .link (by decide +kernel) (by decide +kernel)
    exact .along htrail hfree (.loop (List.nil_append [_]).symm (fun _ h => nomatch h) rfl)

/-- The directory `d` with slashes behind it. -/
def slashed : Nat → ByteString
  | 0 => "d"
  | n + 1 => slashed n ++ "/"

/-- Slashes make the path longer and change nothing else. -/
private theorem slashed_facts (n : Nat) : (slashed n).size = n + 1 ∧
    Path.hasNull (slashed n) = false ∧ Path.isAbsolute (slashed n) = false ∧
    Path.names (slashed n) = [("d" : ByteString)] := by
  induction n with
  | zero => decide +kernel
  | succ n ih =>
    obtain ⟨hsize, hnull, habsolute, hnames⟩ := ih
    have hne : (slashed n).bytes ≠ [] := by
      intro hnil
      rw [ByteString.size, hnil] at hsize
      cases hsize
    refine ⟨?_, ?_, ?_, ?_⟩
    · rw [slashed, ByteString.size_append, hsize]
      rfl
    · rw [Path.hasNull] at hnull ⊢
      rw [slashed, ByteString.bytes_append, List.contains_append, hnull]
      rfl
    · rw [Path.isAbsolute] at habsolute ⊢
      rw [slashed, ByteString.bytes_append, List.head?_append_of_ne_nil _ hne, habsolute]
    · rw [slashed, Path.names_append_slash, hnames]

/-- The path ends with a slash. -/
private theorem endsWithSlash_slashed (n : Nat) : Path.endsWithSlash (slashed (n + 1)) = true := by
  rw [Path.endsWithSlash, slashed, ByteString.bytes_append, beq_iff_eq]
  exact List.getLast?_concat

/-- Behind a slash a name is put at once. -/
private theorem join_slashed (n : Nat) (name : ByteString) :
    Path.join (slashed (n + 1)) name = slashed (n + 1) ++ name := by
  rw [Path.join, if_pos (.inr (endsWithSlash_slashed n))]

/-- However many slashes are behind it, the path leads to the directory while it is not too long. -/
private theorem get_slashed {n : Nat} (hn : n + 2 ≤ Tree.pathLimit) {ending : Tree.Ending}
    (hending : ending ≠ .create) :
    tangled.get ending (slashed (n + 1)) = .ok (["w", "d"], .directory) := by
  obtain ⟨hsize, hnull, habsolute, hnames⟩ := slashed_facts (n + 1)
  have hpath : Tree.IsPath (slashed (n + 1)) := by
    refine ⟨hnull, fun hempty => ?_, by omega⟩
    rw [hempty] at hsize
    cases hsize
  have hpassable {at_ : Place} {names : List ByteString} (h : tangled.lookup at_ = some .directory) :
      tangled.Passable ending at_ names := ⟨h, fun hcreate => hending hcreate.1⟩
  refine Tree.get_eq_ok_iff.2 ⟨Tree.locate_eq_ok_iff.2 ⟨hpath, ?_⟩, rfl⟩
  rw [Tree.stepsOf, hnames, endsWithSlash_slashed, Tree.startOf, habsolute]
  exact .enter (hpassable rfl) (by unfold Tree.IsEntryName; decide +kernel) rfl (fun _ => by simp)
    (.stay (hpassable rfl) (.inl rfl) .arrived)

/-- A trail goes on from the directory, whose path is not too long, to what stands in it. -/
theorem trail_slashed {n : Nat} (hn : n + 2 ≤ Tree.pathLimit) {name : ByteString} {kind : Kind}
    (h : (name, kind) ∈ tangled.entriesAt ["w", "d"]) :
    tangled.Trail (slashed (n + 1)) [⟨slashed (n + 1), .directory, ["w", "d"]⟩]
      (slashed (n + 1) ++ name) kind := by
  rw [← join_slashed]
  exact .entry (.root (Tree.kind_eq_ok false (get_slashed hn (by decide)))) (.inl rfl)
    (get_slashed hn (by decide)) h

/-- A path with the slashes in it is too long to lead anywhere. -/
theorem get_slashed_append {n : Nat} {name : ByteString} (hnull : Path.hasNull name = false)
    (hlong : Tree.pathLimit < n + 2 + name.size) (ending : Tree.Ending) :
    tangled.get ending (slashed (n + 1) ++ name) = .error .nameTooLong := by
  obtain ⟨hsize, hnone, -, -⟩ := slashed_facts (n + 1)
  have hsize : (slashed (n + 1) ++ name).size = n + 2 + name.size := by
    rw [ByteString.size_append, hsize]
  have hnone : Path.hasNull (slashed (n + 1) ++ name) = false := by
    rw [Path.hasNull] at hnull hnone ⊢
    rw [ByteString.bytes_append, List.contains_append, hnull, hnone]
    rfl
  have hempty : slashed (n + 1) ++ name ≠ ("" : ByteString) := by
    rw [Ne, ← ByteString.size_eq_zero_iff, hsize]
    omega
  rw [Files.Tree.get, Tree.locate, Tree.locateSteps, hnone, if_neg (by decide), if_neg hempty,
    if_pos (by omega)]
  rfl

/-- The path of an entry has the extension that its name has. -/
theorem isCsv_slashed_append (n : Nat) {name : ByteString} (hname : Path.IsName name)
    (h : name ≠ "." ∧ name ≠ ".." ∧ Path.extension? name = some ↑"csv") :
    Path.isCsv (slashed (n + 1) ++ name) = true := by
  rw [← join_slashed, Path.isCsv, Path.fileName?, Path.significantNames, Path.names_join hname,
    (slashed_facts (n + 1)).2.2.2]
  simp [h]

/-- A directory is entered again under its own name, behind a link to a directory above it. Besides
    links, a root that leads nowhere and a directory that cannot be listed have an entry that tells of a
    fault. -/
theorem below_reentered :
    (∃ entries : List Entry, (below .standard "d" : TreeM _).run tangled = (entries, tangled) ∧
      (∃ e ∈ entries, e.path = "d/up/d/a.csv" ∧ e.IsOfFile) ∧
      ∀ dirs kind, tangled.Trail "d" dirs "d/up/d/a.csv" kind → ¬(dirs.map (·.place)).Nodup) ∧
    (∃ entries : List Entry, (below .standard "none.csv" : TreeM _).run tangled = (entries, tangled) ∧
      ⟨"none.csv", .unvisited (.refused "none.csv" .noEntry)⟩ ∈ entries ∧
      ∀ dirs path, ¬tangled.Trail "none.csv" dirs path .link) ∧
    ∃ entries : List Entry, (below .standard (slashed 4093) : TreeM _).run tangled = (entries, tangled) ∧
      ⟨slashed 4093 ++ "x.csv", .unvisited (.refused (slashed 4093 ++ "x.csv") .nameTooLong)⟩ ∈
        entries ∧
      ∀ dirs kind, tangled.Trail (slashed 4093) dirs (slashed 4093 ++ "x.csv") kind →
        kind = .directory := by
  refine ⟨⟨_, run_below_eq _ _ _, ?_⟩, ⟨_, run_below_eq _ _ _, ?_⟩, ⟨_, run_below_eq _ _ _, ?_⟩⟩
  -- the link leads to the directory above, and from there the name leads back
  · have hup := @trail_tangled "up" "d/up" .link (by decide +kernel) (by decide +kernel)
    have hagain : tangled.Trail "d" _ (Path.join "d/up" "d") .directory :=
      .entry hup (.inr rfl) rfl
        (show (("d" : ByteString), Kind.directory) ∈ tangled.entriesAt ["w"] by decide +kernel)
    rw [show Path.join "d/up" "d" = "d/up/d" by decide +kernel] at hagain
    have htrail : tangled.Trail "d" _ (Path.join "d/up/d" "a.csv") .file :=
      .entry hagain (.inl rfl) rfl
        (show (("a.csv" : ByteString), Kind.file) ∈ tangled.entriesAt ["w", "d"] by decide +kernel)
    rw [show Path.join "d/up/d" "a.csv" = "d/up/d/a.csv" by decide +kernel] at htrail
    have hfree : LoopFree [⟨"d/up/d", .directory, ["w", "d"]⟩, ⟨"d/up", .link, ["w"]⟩,
        ⟨"d", .directory, ["w", "d"]⟩] := by
      unfold LoopFree
      decide +kernel
    refine ⟨(mem_entries_file_iff wellNamed_tangled).2
      ⟨by decide +kernel, .along htrail hfree .file⟩, fun dirs kind htrail' => ?_⟩
    obtain ⟨rfl, -⟩ := htrail.unique wellNamed_tangled htrail' rfl
    decide +kernel
  · have hroot : tangled.kind "none.csv" false = .error .noEntry := rfl
    refine ⟨(mem_entries_fault_iff wellNamed_tangled).2 ⟨by decide +kernel, .missing hroot⟩, ?_⟩
    exact fun dirs path htrail => htrail.not_of_error hroot
  · have htrail := @trail_slashed 4092 (by decide) "x.csv" .directory (by decide +kernel)
    have hget := @get_slashed_append 4092 "x.csv" (by decide +kernel) (by decide +kernel) .follow
    have hcsv := @isCsv_slashed_append 4092 "x.csv" (by decide +kernel) (by decide +kernel)
    refine ⟨(mem_entries_fault_iff wellNamed_tangled).2
      ⟨hcsv, .along htrail (List.pairwise_singleton _ _) (.refused (.inl rfl) hget)⟩, ?_⟩
    exact fun dirs kind htrail' => (htrail.unique wellNamed_tangled htrail' rfl).2.symm

end Inventory

end ProofSize
