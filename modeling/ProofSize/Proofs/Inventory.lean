import ProofSize.Inventory
import ProofSize.Proofs.Dataset
import ProofSize.Proofs.Files.Walking

/-!
# The entries of an inventory

An inventory describes each data file as loading it would find it. The table of the file is read once
for its entry and once to load it.

## Key results

- `lists_fields`: the fields of an entry are those that have a column
- `run_below_eq`: an inventory describes what the walk visits, one by one
- `reflects_describeIn`: the entry of a file says what loading the file gives
- `rel_describeIn`: new content of a file shows in its own entries only
-/

namespace ProofSize

open Files

namespace Table

variable {a : Aliases} {content : ByteArray} {c : Columns} {rows : List Row}

/-! ### The columns of a file -/

/-- The text of a cell of the header is made by taking blanks off. -/
theorem trim_cellText {p : Csv.Position} {i : Nat} {cell : List UInt8} {s : String}
    (h : Csv.RawRecord.cellText p i cell = .ok s) : Blank.trim s = s := by
  unfold Csv.RawRecord.cellText at h
  split at h
  · obtain rfl := Except.ok.inj h
    exact Blank.trim_trim _
  · exact nomatch h

/-- The header of a file has no blanks around its names. -/
theorem trimmed_of_header {records : List Csv.RawRecord} {names : List String}
    (h : header records = .ok names) : (⟨a, names⟩ : Columns).Trimmed := by
  unfold header at h
  split at h
  · obtain rfl := Except.ok.inj h
    exact fun name hname => nomatch hname
  · split at h
    · exact nomatch h
    · rename_i r _ record hrecord
      obtain rfl := Except.ok.inj h
      rw [Csv.RawRecord.decode, if_pos rfl, bind_eq_ok_iff] at hrecord
      obtain ⟨cells, hcells, h⟩ := hrecord
      obtain rfl := Except.ok.inj h
      exact forall_of_mapM_eq_ok hcells fun x cell hcell => trim_cellText hcell

/-- A file is read with the columns of its header, which have been checked. -/
theorem columns_of_read (h : read a content = .ok (c, rows)) :
    ∃ names, header (Csv.scan content.data.toList) = .ok names ∧ c = ⟨a, names⟩ ∧
      c.check = .ok () := by
  rw [read, ofRecords, bind_eq_ok_iff] at h
  obtain ⟨names, hnames, h⟩ := h
  obtain ⟨⟨⟩, hcheck, h⟩ := bind_eq_ok_iff.1 h
  obtain ⟨rs, -, h⟩ := bind_eq_ok_iff.1 h
  obtain ⟨rfl, -⟩ := Prod.mk.inj (Except.ok.inj h)
  exact ⟨names, hnames, rfl, hcheck⟩

end Table

namespace Columns

variable {c : Columns}

/-- The fields are those that have a column, in the order of `Field.all` and each once. All required
    fields are among them, and so is one of the update counters. -/
structure Lists (c : Columns) (fields : List Field) : Prop where
  mem_iff : ∀ f, f ∈ fields ↔ ∃ i, c.IsColumn f i
  order : fields.Sublist Field.all
  nodup : fields.Nodup
  required : ∀ f : Field, f.isRequired = true → f ∈ fields
  counter : .updatesSinceRefresh ∈ fields ∨ .totalUpdates ∈ fields

/-- The columns of a file that is accepted list its fields. -/
theorem lists_fields (ht : c.Trimmed) (hc : c.check = .ok ()) : c.Lists c.fields := by
  have hmem : ∀ f, f ∈ c.fields ↔ ∃ i, c.IsColumn f i := by
    intro f
    rw [fields, List.mem_filter, has_eq_true_iff ht]
    exact and_iff_right (Field.mem_all f)
  have hcomplete := (check_eq_ok_iff ht).1 hc
  exact {
    mem_iff := hmem
    order := List.filter_sublist
    nodup := List.Nodup.filter _ (by decide)
    required := fun f hf => (hmem f).2 (hcomplete.required f hf)
    counter := hcomplete.counter.imp (hmem _).2 (hmem _).2 }

end Columns

namespace Inventory

variable {t : Tree} {a : Aliases}

/-! ### The entry of one file -/

/-- The entry is that of a file that has been visited, whether it can be loaded or not. -/
def Entry.IsOfFile (e : Entry) : Prop := ∀ fault, e.status ≠ .unvisited fault

/-- The entry says what loading the file gives: the number of rows and the fields of a file that can be
    loaded, and the error of one that cannot, with the digest of the content. Where there is no content
    to read, the fault is told by itself, without saying that it is one of a file. -/
def Entry.Reflects (t : Tree) (a : Aliases) (e : Entry) : Except ReportError Dataset → Prop
  | .ok d => e.sha256 = d.sha256 ∧ e.rows = d.rows.length ∧ e.error = none ∧
    ∃ content names, t.read e.path = .ok content ∧ Digest.IsSha256 content e.sha256 ∧
      Table.header (Csv.scan content.data.toList) = .ok names ∧ (⟨a, names⟩ : Columns).Lists e.fields
  | .error error => e.rows = 0 ∧ e.fields = [] ∧
    (∀ content, t.read e.path = .ok content →
      Digest.IsSha256 content e.sha256 ∧ e.error = some error.message) ∧
    ∀ fault, t.read e.path = .error fault → e.sha256 = "" ∧
      ∃ text, error.message = "io error: " ++ text ∧ e.error = some text

/-- What is told of a content is told of a file. -/
theorem isOfFile_ofContent (a : Aliases) (path : ByteString) (content : ByteArray) :
    (Entry.ofContent a path content).IsOfFile := by
  intro fault h
  unfold Entry.ofContent at h
  split at h <;> exact nomatch h

/-- What is told of a content keeps its path. -/
theorem path_ofContent (a : Aliases) (path : ByteString) (content : ByteArray) :
    (Entry.ofContent a path content).path = path := by
  rw [Entry.ofContent]
  split <;> rfl

/-! ### All entries -/

/-- What an inventory of a tree says of a visit. -/
def describeIn (t : Tree) (a : Aliases) (v : Visit) : Option Entry :=
  if Path.isCsv v.path then
    match v with
    | .fault path fault => some ⟨path, .unvisited fault⟩
    | .file path =>
      match t.read path with
      | .error fault => some ⟨path, .unread fault⟩
      | .ok content => some (.ofContent a path content)
  else none

/-- To describe a visit leaves the tree as it is. -/
theorem run_describe (t : Tree) (a : Aliases) (v : Visit) :
    (describe a v : TreeM _).run t = (describeIn t a v, t) := by
  unfold describe describeIn
  split
  · cases v with
    | fault path fault => rfl
    | file path =>
      dsimp only
      rw [TreeM.run_bind (TreeM.run_read t path)]
      cases t.read path with
      | error fault => rfl
      | ok content => rfl
  · rfl

/-- An entry is about a data file, and is named by the path that has been visited. -/
theorem path_describeIn {v : Visit} {e : Entry} (h : describeIn t a v = some e) :
    Path.isCsv v.path = true ∧ e.path = v.path := by
  unfold describeIn at h
  split at h
  · rename_i hcsv
    refine ⟨hcsv, ?_⟩
    cases v with
    | fault path fault =>
      obtain rfl := Option.some.inj h
      rfl
    | file path =>
      dsimp only at h
      split at h
      · obtain rfl := Option.some.inj h
        rfl
      · obtain rfl := Option.some.inj h
        exact path_ofContent a path _
  · exact nomatch h

/-- What an inventory of a tree holds. -/
def entriesIn (t : Tree) (a : Aliases) (root : ByteString) : List Entry :=
  (t.walkIn root).filterMap (describeIn t a)

/-- An inventory describes what the walk visits, one by one, and leaves the tree as it is. -/
theorem run_below_eq (t : Tree) (a : Aliases) (root : ByteString) :
    (below a root : TreeM _).run t = (entriesIn t a root, t) := by
  rw [below, TreeM.run_bind (t.run_walk root)]
  exact TreeM.run_filterMapM fun v _ => run_describe t a v

/-- The table of a file is read once for its entry and once to load it, with the same result. -/
private theorem reflects_ofContent (a : Aliases) {path : ByteString} {content : ByteArray}
    (hread : t.read path = .ok content) :
    (Entry.ofContent a path content).Reflects t a (Dataset.ofContent a path content) := by
  rw [Entry.ofContent, Dataset.ofContent, Table.readRows]
  cases htable : Table.read a content with
  | error error =>
    refine ⟨rfl, rfl, fun c hc => ?_, fun fault hfault => by simp [hread] at hfault⟩
    obtain rfl := Except.ok.inj (hread.symm.trans hc)
    exact ⟨Digest.isSha256_iff.2 rfl, rfl⟩
  | ok found =>
    obtain ⟨columns, rows⟩ := found
    obtain ⟨names, hnames, rfl, hcheck⟩ := Table.columns_of_read htable
    exact ⟨rfl, rfl, rfl, content, names, hread, Digest.isSha256_iff.2 rfl, hnames,
      Columns.lists_fields (Table.trimmed_of_header hnames) hcheck⟩

/-- The entry of a file reflects what loading the file gives. -/
theorem reflects_describeIn {path : ByteString} {e : Entry} (h : describeIn t a (.file path) = some e) :
    e.Reflects t a (Dataset.loadFrom t a e.path) := by
  have hpath : e.path = path := (path_describeIn h).2
  rw [describeIn, if_pos (path_describeIn h).1] at h
  rw [hpath, Dataset.loadFrom]
  cases hread : t.read path with
  | error fault =>
    simp only [hread] at h
    obtain rfl := Option.some.inj h
    refine ⟨rfl, rfl, fun content hc => by simp [hread] at hc, fun f hf => ?_⟩
    obtain rfl := Except.error.inj (hread.symm.trans hf)
    exact ⟨rfl, fault.message, rfl, rfl⟩
  | ok content =>
    simp only [hread] at h
    obtain rfl := Option.some.inj h
    exact reflects_ofContent a hread

/-- Every data file that is visited has an entry. -/
theorem exists_describeIn_file (t : Tree) (a : Aliases) {path : ByteString}
    (h : Path.isCsv path = true) : ∃ e, describeIn t a (.file path) = some e := by
  unfold describeIn
  rw [if_pos (show Path.isCsv (Visit.file path).path = true from h)]
  dsimp only
  split
  · exact ⟨_, rfl⟩
  · exact ⟨_, rfl⟩

/-- New content of a file shows in the entries whose paths lead to it only. -/
theorem rel_describeIn {p : Place} {old : ByteArray} (h : t.lookup p = some (.file old))
    (new : ByteArray) (a : Aliases) (v : Visit) :
    Option.Rel (fun e e' : Entry => e'.path = e.path ∧
        ((∀ n, t.get .follow e.path ≠ .ok (p, n)) → e' = e))
      (describeIn t a v) (describeIn (t.put p (.file new)) a v) := by
  by_cases hcsv : Path.isCsv v.path = true
  · cases v with
    | fault path fault =>
      unfold describeIn
      rw [if_pos hcsv]
      exact .some ⟨rfl, fun _ => rfl⟩
    | file path =>
      have hcsv : Path.isCsv path = true := hcsv
      obtain ⟨e, he⟩ := exists_describeIn_file t a hcsv
      obtain ⟨e', he'⟩ := exists_describeIn_file (t.put p (.file new)) a hcsv
      have hpath : e.path = path := (path_describeIn he).2
      have hpath' : e'.path = path := (path_describeIn he').2
      rw [he, he']
      refine .some ⟨hpath'.trans hpath.symm, fun hne => ?_⟩
      -- the same is read where the path leads elsewhere
      have hread := Tree.read_put_of_ne h new (hpath ▸ hne)
      simp only [describeIn, hread] at he he'
      exact Option.some.inj (he'.symm.trans he)
  · unfold describeIn
    rw [if_neg hcsv, if_neg hcsv]
    exact .none

end Inventory

end ProofSize
