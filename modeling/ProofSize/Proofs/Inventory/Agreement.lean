import ProofSize.Proofs.Inventory.Complete

/-!
# An inventory agrees with loading

An inventory describes each data file as loading it would find it, and a file that cannot be loaded
only has an entry that says why. So new content of one file shows in the entries whose paths lead to
it, and nowhere else.

A file that is visited may still have a path that is too long to open it. Its entry has no digest then,
and tells of the fault in other words than loading does.

## Key results

- `below_agrees_load`: every entry of a file says what loading it gives
- `below_unread`: the entry of a file that cannot be opened
-/

namespace ProofSize

open Files

namespace Inventory

variable {t : Tree} {a : Aliases} {root path : ByteString} {v w : Visit} {e : Entry}

/-- Nothing is visited twice. -/
theorem eq_of_path_eq (ht : t.WellNamed) (hv : v ∈ t.walkIn root) (hw : w ∈ t.walkIn root)
    (h : v.path = w.path) : v = w := by
  have hnodup : ((t.walkIn root).map Visit.path).Nodup := by
    refine List.pairwise_map.2 ((Tree.pairwise_before_walkIn ht root).imp fun {v w} hbefore hsame => ?_)
    rw [hsame] at hbefore
    exact Path.not_before_self _ hbefore
  exact List.inj_on_of_nodup_map hnodup hv hw h

/-- The entry at the path of a file that is reached is that of the file. -/
theorem describeIn_of_reaches (ht : t.WellNamed) (he : e ∈ entriesIn t a root)
    (h : t.Reaches root (.file e.path)) : describeIn t a (.file e.path) = some e := by
  obtain ⟨v, hv, hdescribe⟩ := List.mem_filterMap.1 he
  have hsame := eq_of_path_eq ht hv ((Tree.mem_walkIn_iff ht).2 h) (path_describeIn hdescribe).2.symm
  rw [← hsame, hdescribe]

/-- A path that leads to a file is reached as a file, if it has an entry. -/
theorem reaches_of_get (ht : t.WellNamed) (he : e ∈ entriesIn t a root) {p : Place}
    {content : ByteArray} (hget : t.get .follow e.path = .ok (p, .file content)) :
    t.Reaches root (.file e.path) := by
  obtain ⟨v, hv, hdescribe⟩ := List.mem_filterMap.1 he
  have hpath := (path_describeIn hdescribe).2
  cases v with
  | file path =>
    rw [hpath]
    exact (Tree.mem_walkIn_iff ht).1 hv
  | fault path fault =>
    -- the walk goes on where a path leads to a file
    rw [hpath] at hget
    exact absurd hget (((Tree.mem_walkIn_iff ht).1 hv).not_file p content)

/-- An inventory never fails and leaves the tree as it is. Where things stand under names that entries
    can have, each data file that is reached has an entry, which reflects what loading the file gives.
    New content of one file changes only the entries whose paths lead to it. -/
theorem below_agrees_load (t : Tree) (ht : t.WellNamed) (a : Aliases) (root : ByteString) :
    ∃ entries : List Entry, (below a root : TreeM _).run t = (entries, t) ∧
      (∀ path, Path.isCsv path = true → t.Reaches root (.file path) → ∃ e ∈ entries, e.path = path) ∧
      (∀ e ∈ entries, Path.isCsv e.path = true ∧
        (∀ p content, t.get .follow e.path = .ok (p, .file content) → t.Reaches root (.file e.path)) ∧
        (t.Reaches root (.file e.path) →
          ∃ loaded, (Dataset.load a e.path : TreeM _).run t = (loaded, t) ∧ e.Reflects t a loaded)) ∧
      ∀ p old new, t.lookup p = some (.file old) →
        ∃ entries' : List Entry,
          (below a root : TreeM _).run (t.put p (.file new)) = (entries', t.put p (.file new)) ∧
          List.Forall₂ (fun e e' => e'.path = e.path ∧
            ((∀ n, t.get .follow e.path ≠ .ok (p, n)) → e' = e)) entries entries' := by
  refine ⟨entriesIn t a root, run_below_eq t a root, fun path hcsv hreach => ?_, fun e he => ?_, ?_⟩
  · obtain ⟨e, he, hpath, -⟩ := (mem_entries_file_iff ht).2 ⟨hcsv, hreach⟩
    exact ⟨e, he, hpath⟩
  · obtain ⟨v, -, hdescribe⟩ := List.mem_filterMap.1 he
    obtain ⟨hcsv, hpath⟩ := path_describeIn hdescribe
    refine ⟨hpath ▸ hcsv, fun p content hget => reaches_of_get ht he hget, fun hreach => ?_⟩
    exact ⟨_, Dataset.run_load t a e.path, reflects_describeIn (describeIn_of_reaches ht he hreach)⟩
  · intro p old new hp
    refine ⟨_, run_below_eq _ a root, ?_⟩
    -- the walk is the same, so entries can be compared one by one
    rw [entriesIn, entriesIn, (Tree.sameOutline_put hp new).walkIn_eq root]
    refine List.rel_filterMap (fun v w hvw => ?_) (List.forall₂_same.2 fun v _ => (rfl : v = v))
    exact hvw ▸ rel_describeIn hp new a v

/-- The rows of the file that can be loaded. -/
def brokenFolderRows : List Row := [⟨0, 0, some 1, 1, 71, 145, 80, 0, 0, 241, some 4⟩]

/-- One data file has no columns that are known, and one is a link to a table of one row. -/
def brokenFolder : Tree where
  nodes := [
    (["data"], .directory),
    (["data", "bad.csv"], .file "foo\n".toUTF8),
    (["data", "link.csv"], .link "../good.csv"),
    (["good.csv"], .file (Table.write brokenFolderRows))]
  current := ["data"]
  distinct := by decide

/-- What the directory lists. -/
private def listedEntries : List (ByteString × Kind) := [("bad.csv", .file), ("link.csv", .link)]

/-- The walk comes to the file, and to the link under its own path. -/
private theorem run_walk_brokenFolder :
    (Walk.below "." : TreeM _).run brokenFolder =
      ([.file "./bad.csv", .file "./link.csv"], brokenFolder) := by
  have hentries : brokenFolder.entries "." = .ok listedEntries := by decide +kernel
  have hsorted : Walk.sorted listedEntries = listedEntries :=
    List.mergeSort_of_pairwise (by decide +kernel)
  have hlink : brokenFolder.kind "./link.csv" true = .ok .file := by decide +kernel
  show (Walk.visit (4094 + 1 + 1) [] "." .directory : TreeM _).run brokenFolder = _
  rw [Walk.visit]
  dsimp only
  rw [TreeM.run_bind (TreeM.run_entries brokenFolder "."), hentries]
  dsimp only
  rw [hsorted]
  have hvisit : ∀ e ∈ listedEntries,
      (Walk.visit (4094 + 1) ["."] (Path.join "." e.1) e.2 : TreeM _).run brokenFolder =
        ([.file (Path.join "." e.1)], brokenFolder) := by
    intro e he
    rcases List.mem_pair.1 he with rfl | rfl
    · rfl
    · rw [Walk.visit]
      dsimp only
      rw [TreeM.run_bind (TreeM.run_kind brokenFolder _ true)]
      simp only [show Path.join "." "link.csv" = "./link.csv" by decide +kernel, hlink]
      rfl
  rw [TreeM.run_flatMapM hvisit]
  exact Prod.ext (by decide +kernel) rfl

/-- The file that cannot be loaded disturbs no other, whatever stands in it. -/
theorem below_agrees_load_brokenFolder :
    ∃ bad link : Entry, (below .standard "." : TreeM _).run brokenFolder =
        ([bad, link], brokenFolder) ∧
      bad.rows = 0 ∧ bad.fields = [] ∧ link.rows = 1 ∧ link.error = none ∧
      ∀ new, ∃ bad' : Entry, (below .standard "." : TreeM _).run
        (brokenFolder.put ["data", "bad.csv"] (.file new)) =
          ([bad', link], brokenFolder.put ["data", "bad.csv"] (.file new)) := by
  have hnamed : brokenFolder.WellNamed := by
    unfold Tree.WellNamed
    decide +kernel
  obtain ⟨entries, hrun, -, hreflects, hput⟩ := below_agrees_load brokenFolder hnamed .standard "."
  -- the entries are those of the two files
  obtain ⟨bad, hbad⟩ := exists_describeIn_file brokenFolder .standard
    (show Path.isCsv "./bad.csv" = true by decide +kernel)
  obtain ⟨link, hlink⟩ := exists_describeIn_file brokenFolder .standard
    (show Path.isCsv "./link.csv" = true by decide +kernel)
  have hentries : [bad, link] = entries := by
    rw [below, TreeM.run_bind run_walk_brokenFolder,
      TreeM.run_filterMapM fun v _ => run_describe brokenFolder .standard v,
      List.filterMap_cons_some hbad, List.filterMap_cons_some hlink, List.filterMap_nil] at hrun
    exact congrArg Prod.fst hrun
  subst hentries
  have hbad : bad.path = "./bad.csv" := (path_describeIn hbad).2
  have hlink : link.path = "./link.csv" := (path_describeIn hlink).2
  have hgetBad : brokenFolder.get .follow "./bad.csv" =
      .ok (["data", "bad.csv"], .file "foo\n".toUTF8) := rfl
  have hgetLink : brokenFolder.get .follow "./link.csv" =
      .ok (["good.csv"], .file (Table.write brokenFolderRows)) := rfl
  have hloadBad : (Dataset.loadFrom brokenFolder .standard "./bad.csv").isOk = false := by
    decide +kernel
  have hloadLink : Dataset.loadFrom brokenFolder .standard "./link.csv" =
      .ok ⟨"./link.csv", Digest.ofContent (Table.write brokenFolderRows), brokenFolderRows⟩ :=
    Dataset.loadFrom_eq_ok_iff.2 ⟨_, Tree.read_eq_ok_iff.2 ⟨_, hgetLink⟩,
      Table.readRows_standard_write _, rfl, rfl⟩
  obtain ⟨loaded, hrunBad, hbadReflects⟩ :=
    (hreflects bad (by simp)).2.2 ((hreflects bad (by simp)).2.1 _ _ (hbad ▸ hgetBad))
  obtain ⟨_, hrunLink, hlinkReflects⟩ :=
    (hreflects link (by simp)).2.2 ((hreflects link (by simp)).2.1 _ _ (hlink ▸ hgetLink))
  rw [hbad, Dataset.run_load] at hrunBad
  rw [hlink, Dataset.run_load, hloadLink] at hrunLink
  obtain ⟨rfl, -⟩ := Prod.mk.inj hrunBad
  obtain ⟨rfl, -⟩ := Prod.mk.inj hrunLink
  obtain ⟨-, hrows, herror, -⟩ := hlinkReflects
  cases hl : Dataset.loadFrom brokenFolder .standard "./bad.csv" with
  | ok d => exact nomatch hl ▸ hloadBad
  | error e =>
    rw [hl] at hbadReflects
    obtain ⟨hnone, hfields, -⟩ := hbadReflects
    refine ⟨bad, link, hrun, hnone, hfields, hrows, herror, fun new => ?_⟩
    obtain ⟨entries', hrun', hsame⟩ := hput ["data", "bad.csv"] _ new rfl
    obtain ⟨bad', rest, -, hrest, rfl⟩ := List.forall₂_cons_left_iff.1 hsame
    obtain ⟨link', rest, ⟨-, hlinkSame⟩, hnil, rfl⟩ := List.forall₂_cons_left_iff.1 hrest
    obtain rfl := List.forall₂_nil_left_iff.1 hnil
    obtain rfl := hlinkSame fun n hn => by
      rw [hlink, hgetLink] at hn
      exact nomatch (Prod.mk.inj (Except.ok.inj hn)).1
    exact ⟨bad', hrun'⟩

/-- In the directory with slashes behind it, the file `a.csv` is reached, and its path is too long to open
    it. Its entry has no digest of the content, and not the error of loading it. -/
theorem below_unread :
    let path : ByteString := slashed 4093 ++ "a.csv"
    ∃ entries : List Entry, (below .standard (slashed 4093) : TreeM _).run tangled = (entries, tangled) ∧
      tangled.lookup ["w", "d", "a.csv"] = some (.file "x\n".toUTF8) ∧
      tangled.Trail (slashed 4093) [⟨slashed 4093, .directory, ["w", "d"]⟩] path .file ∧
      (Dataset.load .standard path : TreeM _).run tangled =
        (.error (.file .nameTooLong), tangled) ∧
      (ReportError.file .nameTooLong).message = "io error: File name too long (os error 36)" ∧
      ∃ e ∈ entries, e.path = path ∧ e.IsOfFile ∧ ¬Digest.IsSha256 "x\n".toUTF8 e.sha256 ∧
        e.error = some "File name too long (os error 36)" := by
  intro path
  have htrail : tangled.Trail (slashed 4093) [⟨slashed 4093, .directory, ["w", "d"]⟩] path .file :=
    trail_slashed (by decide) (by decide +kernel)
  have hcsv : Path.isCsv path = true := isCsv_slashed_append 4092 (by decide +kernel) (by decide +kernel)
  have hget : tangled.get .follow path = .error .nameTooLong :=
    get_slashed_append (by decide +kernel) (by decide +kernel) .follow
  -- the walk comes to the file, but its path is too long to be opened
  have hread : tangled.read path = .error .nameTooLong := by
    rw [Files.Tree.read, hget]
    rfl
  have hdescribe : describeIn tangled .standard (.file path) = some ⟨path, .unread .nameTooLong⟩ := by
    rw [describeIn, if_pos (show Path.isCsv (Visit.file path).path = true from hcsv)]
    simp only [hread]
  have hreach : tangled.Reaches (slashed 4093) (.file path) :=
    .along htrail (List.pairwise_singleton _ _) .file
  refine ⟨_, run_below_eq _ _ _, rfl, htrail, ?_, rfl, ⟨path, .unread .nameTooLong⟩,
    List.mem_filterMap.2 ⟨_, (Tree.mem_walkIn_iff wellNamed_tangled).2 hreach, hdescribe⟩, rfl,
    (fun fault h => by cases h), fun hsha => ?_, rfl⟩
  · rw [Dataset.run_load, Dataset.loadFrom, hread]
  -- a digest has 64 characters, and the entry has none
  · have hsize := congrArg String.length (Digest.isSha256_iff.1 hsha)
    rw [Digest.ofContent, Digest.length_hex, Digest.length_sha256] at hsize
    cases hsize

end Inventory

end ProofSize
