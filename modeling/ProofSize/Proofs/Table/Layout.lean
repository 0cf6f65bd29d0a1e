import Mathlib.Data.List.Nodup
import ProofSize.Proofs.Csv.Padding
import ProofSize.Proofs.Table.Loading

/-!
# One table in many files

A table is written down with its columns in some order and with columns of no field among them, each
cell in quotation marks or bare and with blanks around it, on lines that end in one way or another.
What is read depends on the table only: the texts in the columns of the fields are the same, and a file
is read field by field.

## Key results

- `Loads.of_alike`: records with the same texts in the columns of the fields are read alike
- `alike_map`: columns that are the same for the fields give such records
- `loads_of_encodes`: a file is read as the table that it encodes
- `readRows_of_encodes`: all files that encode a table have one result
-/

namespace ProofSize.Table

/-! ### The same texts for the fields -/

/-- What stands in the column of a field stands in its column on the other line, too. -/
def Carries (c c' : Columns) (cells cells' : List String) : Prop :=
  ∀ f i, c.IsColumn f i → ∃ j, c'.IsColumn f j ∧ cells'[j]? = cells[i]?

/-- Two lines have the same texts in the columns of the fields. -/
structure Alike (c c' : Columns) (cells cells' : List String) : Prop where
  there : Carries c c' cells cells'
  back : Carries c' c cells' cells

section

variable {c c' : Columns} {cells cells' : List String} {f : Field}

/-- Lines are alike in either direction. -/
theorem Alike.symm (h : Alike c c' cells cells') : Alike c' c cells' cells := ⟨h.back, h.there⟩

/-- Alike lines have columns of the same fields. -/
theorem Alike.exists_isColumn_iff (h : Alike c c' cells cells') :
    (∃ i, c.IsColumn f i) ↔ ∃ j, c'.IsColumn f j := by
  constructor
  · intro ⟨i, hi⟩
    obtain ⟨j, hj, -⟩ := h.there f i hi
    exact ⟨j, hj⟩
  · intro ⟨j, hj⟩
    obtain ⟨i, hi, -⟩ := h.back f j hj
    exact ⟨i, hi⟩

/-- Alike lines lack columns of the same fields. -/
theorem Alike.lacks_iff (h : Alike c c' cells cells') : c.Lacks f ↔ c'.Lacks f := by
  simpa [Columns.Lacks] using not_congr (h.exists_isColumn_iff (f := f))

/-- A header that is like a complete one is complete. -/
theorem Alike.complete (h : Alike c c' cells cells') (hc : c.Complete) : c'.Complete where
  required f hf := h.exists_isColumn_iff.1 (hc.required f hf)
  counter := hc.counter.imp h.exists_isColumn_iff.1 h.exists_isColumn_iff.1

/-- Alike lines say the same of a field. -/
theorem Alike.says (h : Alike c c' cells cells') {v : Option Nat} (hv : Says c cells f v) :
    Says c' cells' f v := by
  cases hv with
  | noColumn hlacks => exact .noColumn (h.lacks_iff.1 hlacks)
  | empty hi hcell hnull =>
    obtain ⟨j, hj, hsame⟩ := h.there f _ hi
    exact .empty hj (hsame.trans hcell) hnull
  | number hi hcell hdenotes hlt =>
    obtain ⟨j, hj, hsame⟩ := h.there f _ hi
    exact .number hj (hsame.trans hcell) hdenotes hlt

/-- A field is acceptable on both of two alike lines or on none. -/
theorem Alike.acceptable_iff (h : Alike c c' cells cells') :
    Acceptable c cells f ↔ Acceptable c' cells' f := by
  constructor
  · intro ⟨v, hv⟩
    exact ⟨v, h.says hv⟩
  · intro ⟨v, hv⟩
    exact ⟨v, h.symm.says hv⟩

/-- An error names the column by its name, so the names have to be the same as well. -/
theorem Alike.isFault (hheader : Alike c c' c.header c'.header) (h : Alike c c' cells cells')
    {number : Nat} {e : ReportError} (he : IsFault c number cells f e) :
    IsFault c' number cells' f e := by
  obtain ⟨i, column, text, value, hi, hcolumn, hcell, hquotes, rfl⟩ := he
  obtain ⟨j, hj, hsame⟩ := hheader.there f i hi
  obtain ⟨k, hk, hsame'⟩ := h.there f i hi
  obtain rfl := hj.unique hk
  exact ⟨j, column, text, value, hj, hsame.trans hcolumn, hsame'.trans hcell, hquotes, rfl⟩

/-- Alike lines are the same row. -/
theorem Alike.isRow (h : Alike c c' cells cells') {r : Row} (hr : IsRow c cells r) :
    IsRow c' cells' r where
  counters := by
    obtain ⟨since, total, hsince, htotal, hboth⟩ := hr.counters
    exact ⟨since, total, h.says hsince, h.says htotal, hboth⟩
  adsModified := h.says hr.adsModified
  signatureCount := h.says hr.signatureCount
  signatureBytes := h.says hr.signatureBytes
  updateBytes := h.says hr.updateBytes
  updateProofBytes := h.says hr.updateProofBytes
  freshnessBytes := h.says hr.freshnessBytes
  uncachedFreshnessBytes := h.says hr.uncachedFreshnessBytes
  totalBytes := h.says hr.totalBytes
  adsCount := h.says hr.adsCount

/-- Alike records are the same rows. -/
private theorem forall₂_isRow {records records' : List (List String)} {rows : List Row}
    (h : List.Forall₂ (Alike c c') records records') (hrows : List.Forall₂ (IsRow c) records rows) :
    List.Forall₂ (IsRow c') records' rows := by
  induction h generalizing rows with
  | nil =>
    cases hrows
    exact .nil
  | cons hcells _ ih =>
    cases hrows with
    | cons hr hrest => exact .cons (hcells.isRow hr) (ih hrest)

/-- Files are read alike if their headers and their records are alike. -/
theorem Loads.of_alike (haliases : c.aliases = c'.aliases)
    (hheader : Alike c c' c.header c'.header) {records records' : List (List String)}
    (hrecords : List.Forall₂ (Alike c c') records records')
    {result : Except ReportError (List Row)} (h : Loads c records result) :
    Loads c' records' result := by
  -- the header decides first, then the first record with a bad cell
  cases h with
  | missing hk =>
    rw [haliases]
    exact .missing (hk.congr fun f _ => and_congr_right fun _ => hheader.lacks_iff)
  | noCounter hrequired hsince htotal =>
    rw [haliases]
    exact .noCounter (fun f hf => hheader.exists_isColumn_iff.1 (hrequired f hf))
      (hheader.lacks_iff.1 hsince) (hheader.lacks_iff.1 htotal)
  | invalid hc hk hj hfault =>
    -- the first bad record is the same, and in it the first bad field
    obtain ⟨cells', hcells, hk'⟩ := hk.exists_of_forall₂ hrecords fun cells cells' hcells =>
      exists_congr fun f => not_congr hcells.acceptable_iff
    exact .invalid (hheader.complete hc) hk' (hj.congr fun f _ => not_congr hcells.acceptable_iff)
      (hheader.isFault hcells hfault)
  | rows hc hrows => exact .rows (hheader.complete hc) (forall₂_isRow hrecords hrows)

end

/-! ### Columns side by side -/

/-- A column of a table of `n` records. -/
structure Column (n : Nat) where
  name : String
  cells : Fin n → String

section

variable {n : Nat} {a : Aliases} {xs ys : List (Column n)}

/-- The name without the blanks around it. A column is found by it. -/
def Column.key (x : Column n) : String := Blank.trim x.name

/-- The cell of a record without the blanks around it. -/
def Column.value (k : Fin n) (x : Column n) : String := Blank.trim (x.cells k)

/-- The lines of a table. The first one has the names, and each other one a record. -/
def linesOf (xs : List (Column n)) : List (List String) :=
  xs.map (·.name) :: (List.finRange n).map fun k => xs.map (·.cells k)

/-- The columns as they are read. -/
def columnsOf (a : Aliases) (xs : List (Column n)) : Columns := ⟨a, xs.map Column.key⟩

/-- The records as they are read. -/
def recordsOf (xs : List (Column n)) : List (List String) :=
  (List.finRange n).map fun k => xs.map (Column.value k)

/-- Both lists have the same columns with names of fields, and these names are different. -/
structure SameFields (a : Aliases) (xs ys : List (Column n)) : Prop where
  mem_iff : ∀ f x, x.key ∈ a.of f → (x ∈ xs ↔ x ∈ ys)
  unique : ∀ f x y, x ∈ xs → y ∈ xs → x.key ∈ a.of f → x.key = y.key → x = y

/-- Lists have the same columns for the fields in either direction. -/
theorem SameFields.symm (h : SameFields a xs ys) : SameFields a ys xs where
  mem_iff f x hx := (h.mem_iff f x hx).symm
  unique f x y hx hy hf hxy :=
    h.unique f x y ((h.mem_iff f x hf).2 hx) ((h.mem_iff f y (hxy ▸ hf)).2 hy) hf hxy

/-- On every line, the column of a field has the same text in both lists. -/
private theorem carries_map (h : SameFields a xs ys) (g : Column n → String) :
    Carries (columnsOf a xs) (columnsOf a ys) (xs.map g) (ys.map g) := by
  intro f i hi
  obtain ⟨name, ⟨k, hk⟩, hi⟩ := hi
  have hf : name ∈ a.of f := List.mem_of_getElem? hk.getElem?
  -- the same aliases occur, so the first one is the same
  have hmem : ∀ word ∈ a.of f, (word ∈ xs.map Column.key ↔ word ∈ ys.map Column.key) := by
    intro word hword
    rw [List.mem_map, List.mem_map]
    constructor
    · intro ⟨x, hx, hkey⟩
      exact ⟨x, (h.mem_iff f x (hkey ▸ hword)).1 hx, hkey⟩
    · intro ⟨x, hx, hkey⟩
      exact ⟨x, (h.mem_iff f x (hkey ▸ hword)).2 hx, hkey⟩
  obtain ⟨j, found, hj⟩ : ∃ j found, IsFirst (· = name) (ys.map Column.key) j found :=
    exists_isFirst_iff.2 ⟨name, (hmem name hf).1 hk.holds, rfl⟩
  obtain rfl : found = name := hj.holds
  -- and both places have the column of that name
  have hxi : (xs.map Column.key)[i]? = some found := hi.getElem?
  have hyj : (ys.map Column.key)[j]? = some found := hj.getElem?
  rw [List.getElem?_map, Option.map_eq_some_iff] at hxi hyj
  obtain ⟨x, hx, hxkey⟩ := hxi
  obtain ⟨y, hy, hykey⟩ := hyj
  have hyxs : y ∈ xs := (h.mem_iff f y (hykey ▸ hf)).2 (List.mem_of_getElem? hy)
  obtain rfl : x = y :=
    h.unique f x y (List.mem_of_getElem? hx) hyxs (hxkey ▸ hf) (hxkey.trans hykey.symm)
  refine ⟨j, ⟨found, ⟨k, hk.congr hmem⟩, hj⟩, ?_⟩
  rw [List.getElem?_map, List.getElem?_map, hx, hy]

/-- Columns that are the same for the fields have the same texts for them on every line. -/
theorem alike_map (h : SameFields a xs ys) (g : Column n → String) :
    Alike (columnsOf a xs) (columnsOf a ys) (xs.map g) (ys.map g) :=
  ⟨carries_map h g, carries_map h.symm g⟩

/-- Columns that are the same for the fields are read alike. -/
theorem Loads.of_sameFields {result : Except ReportError (List Row)}
    (hloads : Loads (columnsOf a xs) (recordsOf xs) result) (h : SameFields a xs ys) :
    Loads (columnsOf a ys) (recordsOf ys) result := by
  have hheader : Alike (columnsOf a xs) (columnsOf a ys) (columnsOf a xs).header
      (columnsOf a ys).header := alike_map h Column.key
  have haliases : (columnsOf a xs).aliases = (columnsOf a ys).aliases := rfl
  refine hloads.of_alike haliases hheader ?_
  rw [recordsOf, recordsOf, List.forall₂_map_left_iff, List.forall₂_map_right_iff,
    List.forall₂_same]
  intro k _
  exact alike_map h (Column.value k)

/-! ### Files that encode a table -/

/-- The name of the column starts with a byte order mark. -/
def Column.Marked (x : Column n) : Prop := x.key.toList.head? = some '\uFEFF'

instance (x : Column n) : Decidable x.Marked :=
  inferInstanceAs (Decidable (x.key.toList.head? = some '\uFEFF'))

/-- A table: columns with different names. -/
structure Sheet (n : Nat) where
  columns : List (Column n)
  nonempty : columns ≠ []
  distinct : (columns.map Column.key).Nodup
  unmarked : ∀ x ∈ columns, ¬x.Marked

/-- The columns of the table in any order, and with them columns that have names of no field. -/
def IsLayout (a : Aliases) (t : Sheet n) (xs : List (Column n)) : Prop :=
  ∃ added : List (Column n), xs.Perm (t.columns ++ added) ∧
    ∀ x ∈ added, ¬x.Marked ∧ ∀ f, x.key ∉ a.of f

/-- A file encodes a table if it spells the lines of a layout of it, with blanks around the cells. It
    may start with a byte order mark. -/
def Encodes (a : Aliases) (t : Sheet n) (content : List UInt8) : Prop :=
  ∃ (xs : List (Column n)) (lines : List (List String)) (text : List UInt8), IsLayout a t xs ∧
    List.Forall₂ (List.Forall₂ Csv.Padded) (linesOf xs) lines ∧
    Csv.Spells (lines.map (·.map Utf8.bytes)) text ∧
    (content = text ∨ content = Csv.byteOrderMark ++ text)

variable {t : Sheet n}

/-- A layout has the columns of its table for the fields. -/
theorem IsLayout.sameFields (h : IsLayout a t xs) : SameFields a xs t.columns := by
  obtain ⟨added, hperm, hadded⟩ := h
  have hmem : ∀ f x, x.key ∈ a.of f → (x ∈ xs ↔ x ∈ t.columns) := by
    intro f x hx
    -- the columns that were added have names of no field
    have hother : x ∉ added := fun hmem => (hadded x hmem).2 f hx
    rw [hperm.mem_iff, List.mem_append]
    exact or_iff_left hother
  refine ⟨hmem, fun f x y hx hy hf hxy => ?_⟩
  exact List.inj_on_of_nodup_map t.distinct ((hmem f x hf).1 hx) ((hmem f y (hxy ▸ hf)).1 hy) hxy

/-- No column of a layout is marked. -/
theorem IsLayout.unmarked (h : IsLayout a t xs) : ∀ x ∈ xs, ¬x.Marked := by
  obtain ⟨added, hperm, hadded⟩ := h
  intro x hx
  rcases List.mem_append.1 (hperm.mem_iff.1 hx) with hx | hx
  · exact t.unmarked x hx
  · exact (hadded x hx).1

/-- The blanks around cells are taken off again. -/
private theorem map_trim_of_padded {cells texts : List String}
    (h : List.Forall₂ Csv.Padded cells texts) : texts.map Blank.trim = cells.map Blank.trim := by
  induction h with
  | nil => rfl
  | cons hcell _ ih => rw [List.map_cons, List.map_cons, hcell.trim_eq, ih]

/-- The blanks around the cells of all lines are taken off again. -/
private theorem map_map_trim_of_padded {lines texts : List (List String)}
    (h : List.Forall₂ (List.Forall₂ Csv.Padded) lines texts) :
    texts.map (·.map Blank.trim) = lines.map (·.map Blank.trim) := by
  induction h with
  | nil => rfl
  | cons hline _ ih => rw [List.map_cons, List.map_cons, map_trim_of_padded hline, ih]

/-- Without the blanks the lines of a file are those of the layout. -/
private theorem trim_linesOf {names : List String} {records : List (List String)}
    (h : List.Forall₂ (List.Forall₂ Csv.Padded) (linesOf xs) (names :: records)) :
    names.map Blank.trim = xs.map Column.key ∧
      records.map (·.map Blank.trim) = recordsOf xs := by
  obtain ⟨hnames, hrecords⟩ := List.forall₂_cons.1 h
  constructor
  · rw [map_trim_of_padded hnames, List.map_map]
    rfl
  · rw [map_map_trim_of_padded hrecords, List.map_map, recordsOf]
    apply List.map_congr_left
    intro k _
    exact List.map_map

/-- A file that encodes a table has the texts of a layout of it, with blanks around them. -/
private theorem exists_hasTexts_of_encodes {content : List UInt8} (h : Encodes a t content) :
    ∃ xs names records, IsLayout a t xs ∧ names.map Blank.trim = xs.map Column.key ∧
      records.map (·.map Blank.trim) = recordsOf xs ∧
      Csv.HasTexts (Csv.scan content) names records := by
  obtain ⟨xs, lines, text, hlayout, hpadded, hspells, hcontent⟩ := h
  cases lines with
  | nil => exact nomatch hpadded
  | cons names records =>
    obtain ⟨hnames, hrecords⟩ := trim_linesOf hpadded
    refine ⟨xs, names, records, hlayout, hnames, hrecords, .inl ?_⟩
    rcases hcontent with rfl | rfl
    · -- a file that looks marked would have a marked name
      apply Csv.scan_spells hspells
      intro hmark
      obtain ⟨name, hname, hstart⟩ := Csv.head?_trim_of_marked hspells hmark
      have hkey : Blank.trim name ∈ xs.map Column.key :=
        hnames ▸ List.mem_map_of_mem (List.mem_of_head? hname)
      obtain ⟨x, hx, hxname⟩ := List.mem_map.1 hkey
      apply hlayout.unmarked x hx
      rw [Column.Marked, hxname]
      exact hstart
    · exact Csv.scan_byteOrderMark_spells hspells

/-- A file is read as the table that it encodes. -/
theorem loads_of_encodes {content : ByteArray} (h : Encodes a t content.data.toList) :
    Loads (columnsOf a t.columns) (recordsOf t.columns) (readRows a content) := by
  obtain ⟨xs, names, records, hlayout, hnames, hrecords, htexts⟩ := exists_hasTexts_of_encodes h
  -- every record has a cell of each column, and so has the header
  have hwidth : ∀ cells ∈ records, cells.length = names.length := by
    intro cells hmem
    have htrimmed : cells.map Blank.trim ∈ recordsOf xs := hrecords ▸ List.mem_map_of_mem hmem
    obtain ⟨k, -, hk⟩ := List.mem_map.1 htrimmed
    have hcells := congrArg List.length hk
    have hheader := congrArg List.length hnames
    simp only [List.length_map] at hcells hheader
    omega
  have hloads := loads_ofRecords htexts (fun k r hr => Csv.getElem?_scan_record hr) hwidth a
  rw [hnames, hrecords] at hloads
  exact hloads.of_sameFields hlayout.sameFields

/-- A table has encodings. -/
theorem exists_encodes (a : Aliases) (t : Sheet n) :
    ∃ content : ByteArray, Encodes a t content.data.toList := by
  have hne : ∀ cells ∈ (linesOf t.columns).map (·.map Utf8.bytes), cells ≠ [] := by
    simp [linesOf, t.nonempty]
  obtain ⟨text, htext, -⟩ := Csv.exists_spells hne
  have hpadded : List.Forall₂ (List.Forall₂ Csv.Padded) (linesOf t.columns) (linesOf t.columns) :=
    List.forall₂_same.2 fun line _ => List.forall₂_same.2 fun cell _ => Csv.padded_self cell
  exact ⟨⟨text.toArray⟩, t.columns, _, text, ⟨[], by simp, by simp⟩, hpadded, htext, .inl rfl⟩

/-- A table is refused for a column or for a cell. -/
private theorem Loads.error_cases {c : Columns} {records : List (List String)} {e : ReportError}
    (h : Loads c records (.error e)) :
    (∃ f names, e = .missingColumn f names) ∨
      ∃ number column value, e = .invalidValue number column value := by
  cases h with
  | missing => exact .inl ⟨_, _, rfl⟩
  | noCounter => exact .inl ⟨_, _, rfl⟩
  | invalid _ _ _ hfault =>
    obtain ⟨_, column, _, value, -, -, -, -, rfl⟩ := hfault
    exact .inr ⟨_, column, value, rfl⟩

end

/-- A table decides what is read from every file that encodes it: rows, or an error for a column or a
    cell. A cell may be written between quotation marks with blanks around it, or bare. -/
theorem readRows_of_encodes (a : Aliases) (n : Nat) (t : Sheet n) :
    (∃ result, (∀ content : ByteArray, Encodes a t content.data.toList → readRows a content = result) ∧
      Loads (columnsOf a t.columns) (recordsOf t.columns) result ∧
      ∀ e, result = .error e → (∃ f names, e = .missingColumn f names) ∨
        ∃ number column value, e = .invalidValue number column value) ∧
    (∃ content : ByteArray, Encodes a t content.data.toList) ∧
    ∀ cell bytes, Csv.Writes cell bytes →
      ∃ text, Csv.Padded cell text ∧ Csv.SpellsCell (Utf8.bytes text) bytes := by
  obtain ⟨content, hcontent⟩ := exists_encodes a t
  have hloads := loads_of_encodes hcontent
  refine ⟨⟨readRows a content, ?_, hloads, ?_⟩, ⟨content, hcontent⟩, ?_⟩
  · intro other hother
    exact (loads_of_encodes hother).unique hloads
  · intro e he
    rw [he] at hloads
    exact hloads.error_cases
  · intro cell bytes h
    exact h.exists_padded

/-- Every field is read from the same column. -/
private def oneColumn : Aliases := ⟨fun _ => ["bytes"]⟩

/-- One record of one cell. -/
private def seven : Sheet 1 where
  columns := [⟨"bytes", fun _ => "7"⟩]
  nonempty := by simp
  distinct := by simp
  unmarked := by
    intro x hx
    rw [List.mem_singleton.1 hx]
    decide +kernel

/-- The table as it is. -/
private def plainFile : ByteArray := "bytes\n7\n".toUTF8

/-- The table behind a column of notes, with a mark, an empty line, blanks and quotation marks. -/
private def adornedFile : ByteArray := "\uFEFF\r\nnote,bytes \r\"a,\"\"b\"\"\",\"7\u00a0\"".toUTF8

/-- Both files have the record of the table. -/
theorem readRows_of_encodes_adorned :
    Encodes oneColumn seven plainFile.data.toList ∧
      Encodes oneColumn seven adornedFile.data.toList ∧
      readRows oneColumn adornedFile = readRows oneColumn plainFile ∧
      readRows oneColumn plainFile = .ok [⟨7, 7, some 7, 7, 7, 7, 7, 7, 7, 7, some 7⟩] := by
  have hplain : Encodes oneColumn seven plainFile.data.toList := by
    have hname : Csv.SpellsCells [Utf8.bytes "bytes"] (Utf8.bytes "bytes") :=
      .last (Csv.spellsCell_bytes (by simp) (by simp))
    have hseven : Csv.SpellsCells [Utf8.bytes "7"] (Utf8.bytes "7") :=
      .last (Csv.spellsCell_bytes (by simp) (by simp))
    have hspells : Csv.Spells ([["bytes"], ["7"]].map (·.map Utf8.bytes))
        (Utf8.bytes "bytes" ++ 0x0a :: (Utf8.bytes "7" ++ [0x0a])) :=
      .record hname (by decide) rfl (.record hseven (by decide) rfl .nothing)
    refine ⟨seven.columns, _, _, ⟨[], by simp, by simp⟩, ?_, hspells, .inl (by decide +kernel)⟩
    exact List.forall₂_same.2 fun line _ => List.forall₂_same.2 fun cell _ => Csv.padded_self cell
  have hadorned : Encodes oneColumn seven adornedFile.data.toList := by
    have hnames : Csv.SpellsCells [Utf8.bytes "note", Utf8.bytes "bytes "] _ :=
      .more (Csv.spellsCell_bytes (by simp) (by simp))
        (.last (Csv.spellsCell_bytes (by simp) (by simp)))
    have hcells : Csv.SpellsCells [Utf8.bytes "a,\"b\"", Utf8.bytes "7\u00a0"] _ :=
      .more .quoted (.last .quoted)
    -- a line break of its own and one of two bytes stand before the first record
    have hspells : Csv.Spells ([["note", "bytes "], ["a,\"b\"", "7\u00a0"]].map
        (·.map Utf8.bytes)) (0x0d :: 0x0a :: (_ ++ 0x0d :: _)) :=
      .lineBreak rfl (.lineBreak rfl (.record hnames (by decide) rfl (.lastRecord hcells (by decide))))
    have hbytes : Csv.Padded "bytes" "bytes " :=
      ⟨"", " ", by decide, by simp, by simp [Blank.isBlank, Blank.ranges]⟩
    have hnumber : Csv.Padded "7" "7\u00a0" :=
      ⟨"", "\u00a0", by decide, by simp, by simp [Blank.isBlank, Blank.ranges]⟩
    -- the column of notes has a name of no field
    let notes : Column 1 := ⟨"note", fun _ => "a,\"b\""⟩
    have hlayout : IsLayout oneColumn seven (notes :: seven.columns) := by
      refine ⟨[notes], .swap _ _ [], ?_⟩
      intro x hx
      obtain rfl := List.mem_singleton.1 hx
      have hother : Column.key notes ∉ ["bytes"] := by decide +kernel
      exact ⟨by decide +kernel, fun f => hother⟩
    refine ⟨_, _, _, hlayout, ?_, hspells, .inr (by decide +kernel)⟩
    exact .cons (.cons (Csv.padded_self _) (.cons hbytes .nil))
      (.cons (.cons (Csv.padded_self _) (.cons hnumber .nil)) .nil)
  obtain ⟨⟨result, hall, -⟩, -⟩ := readRows_of_encodes oneColumn 1 seven
  refine ⟨hplain, hadorned, ?_, by decide +kernel⟩
  rw [hall plainFile hplain, hall adornedFile hadorned]

end ProofSize.Table
