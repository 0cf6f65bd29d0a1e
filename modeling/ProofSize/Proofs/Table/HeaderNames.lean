import Mathlib.Data.List.Induction
import ProofSize.Proofs.Config.Decoding
import ProofSize.Proofs.Table.Extension
import ProofSize.Proofs.Table.InvalidCell

/-!
# Header names that are found

A configuration gives the header names of a field just as they are to stand in a file. Headers lose the
blanks around them before they are compared with these names, and the names keep theirs. So a name is
found in a header that is the same, character for character, if the name has no blanks around it. A name
with blanks around it is the same as no header that has lost its own, so the field has no column then,
or one that another of its names finds.

## Key results

- `Aliases.finds_iff`: a header that is one of the names is found if blanks around names do not matter
- `Config.of_overrides`: the names of a field are the standard ones or the ones that were given for it
- `readRows_ne_missingColumn`: a file is not refused for a field that has a column
- `overrides_find`: when names that are given are found
-/

namespace ProofSize

namespace Aliases

variable {a : Aliases} {f : Field} {header : List String}

/-- The field has a column. Its header carries the first of the field's names that any header
    carries. -/
def Finds (a : Aliases) (f : Field) (header : List String) : Prop :=
  ∃ i h k name, a.resolve? f header = some i ∧ header[i]? = some h ∧
    IsFirst (Carries header) (a.of f) k name ∧ Blank.trim h = Blank.trim name

/-- Where a header is one of the names, the field is found as it should be just if it makes no
    difference whether the names have blanks around them. -/
theorem finds_iff (hname : ∃ h ∈ header, h ∈ a.of f) :
    a.Finds f header ↔ a.resolve? f header = a.trimmed.resolve? f header := by
  constructor
  · intro ⟨i, h, k, name, hi, hh, hk, hcarries⟩
    -- the first header that is the alias found is the first one that carries the name
    obtain ⟨_, found, -, h', hfirst⟩ := resolve?_eq_some_iff.1 hi
    obtain rfl := Option.some.inj (hh.symm.trans hfirst.getElem?)
    have hfound : found = Blank.trim name := hfirst.holds.symm.trans hcarries
    rw [hi, eq_comm, resolve?_trimmed_eq_some_iff]
    exact ⟨k, name, hk, h, hfound ▸ hfirst⟩
  · intro heq
    obtain ⟨h, hh, hmem⟩ := hname
    have hcarries : Carries header h := ⟨h, hh, rfl⟩
    obtain ⟨k, name, hk⟩ := exists_isFirst_iff.2 ⟨h, hmem, hcarries⟩
    obtain ⟨i, h', hi⟩ := exists_isFirst_iff.2 hk.holds
    have htrimmed := resolve?_trimmed_eq_some_iff.2 ⟨k, name, hk, h', hi⟩
    exact ⟨i, h', k, name, heq.trans htrimmed, hi.getElem?, hk, hi.holds⟩

/-- Names without blanks around them are trimmed already. -/
theorem resolve?_trimmed_of_forall (h : ∀ name ∈ a.of f, Blank.trim name = name) :
    a.trimmed.resolve? f header = a.resolve? f header := by
  have hnames : a.trimmed.of f = a.of f := by
    show (a.of f).map Blank.trim = a.of f
    rw [List.map_congr_left h, List.map_id']
  rw [resolve?, resolve?, hnames]

/-- The standard names have no blanks around them. -/
theorem trim_standard (f : Field) : ∀ name ∈ standard.of f, Blank.trim name = name := by
  cases f <;> decide +kernel

end Aliases

/-- The names of a field are the standard ones, or the ones of a column that was given for it. -/
theorem Config.of_overrides (columns : List (Field × List String)) (f : Field) :
    (overrides columns).of f = Aliases.standard.of f ∨
      ∃ column ∈ columns, column.1 = f ∧ (overrides columns).of f = column.2 := by
  -- the column that is put in place last is the last one of the list
  induction columns using List.reverseRecOn with
  | nil => exact .inl rfl
  | append_singleton columns column ih =>
    have hlast : overrides (columns ++ [column]) =
        (overrides columns).override column.1 column.2 := by
      simp [overrides]
    rw [hlast]
    by_cases hf : f = column.1
    · subst hf
      exact .inr ⟨column, by simp, rfl, Aliases.of_override_self _ _ _⟩
    · rw [Aliases.of_override_ne hf]
      rcases ih with h | ⟨column', hmem, hcolumn⟩
      · exact .inl h
      · exact .inr ⟨column', List.mem_append_left _ hmem, hcolumn⟩

namespace Table

/-- A text is known by its bytes. -/
private theorem bytes_injective : Function.Injective Utf8.bytes := by
  intro s t h
  have hdecode : Utf8.decode (Utf8.bytes s) = Utf8.decode (Utf8.bytes t) := congrArg _ h
  rw [Utf8.decode_bytes, Utf8.decode_bytes] at hdecode
  exact Except.ok.inj hdecode

section

variable {a : Aliases} {f : Field} {names : List String} {i : Nat}

/-- The check of the columns never misses a field that has a column. -/
theorem check_ne_missingColumn (h : a.resolve? f names = some i) (accepted : List String) :
    (⟨a, names.map Blank.trim⟩ : Columns).check ≠ .error (.missingColumn f accepted) := by
  have ht := Columns.trimmed_map_trim a names
  have hcolumn : (⟨a, names.map Blank.trim⟩ : Columns).IsColumn f i := by
    rw [← Columns.position?_eq_some_iff ht, Columns.position?, Aliases.resolve?_map_trim]
    exact h
  intro he
  rcases (Columns.check_eq_error_iff ht).1 he with ⟨k, g, hg, hmissing⟩ | ⟨-, hlacks, -, hmissing⟩
  · obtain ⟨rfl, -⟩ := ReportError.missingColumn.inj hmissing
    exact hg.holds.2 i hcolumn
  · obtain ⟨rfl, -⟩ := ReportError.missingColumn.inj hmissing
    exact hlacks i hcolumn

/-- A file is never refused for want of a field that is found in its header. -/
theorem readRows_ne_missingColumn (h : a.resolve? f names = some i) {content : ByteArray}
    {head : Csv.RawRecord} (hhead : (Csv.scan content.data.toList)[0]? = some head)
    (hcells : head.cells = names.map Utf8.bytes) (accepted : List String) :
    readRows a content ≠ .error (.missingColumn f accepted) := by
  intro he
  have hrecords : ofRecords a (Csv.scan content.data.toList) = .error (.missingColumn f accepted) :=
    map_eq_error_iff.1 he
  unfold ofRecords at hrecords
  rcases bind_eq_error_iff.1 hrecords with herror | ⟨found, hfound, hrest⟩
  · obtain ⟨fault, hfault⟩ := exists_fault_of_header herror
    exact nomatch hfault
  generalize Csv.scan content.data.toList = raws at *
  rw [← List.head?_eq_getElem?] at hhead
  obtain ⟨rest, rfl⟩ := List.head?_eq_some_iff.1 hhead
  obtain ⟨texts, htexts, rfl⟩ := exists_texts_of_header hfound
  obtain rfl : texts = names :=
    List.map_injective_iff.2 bytes_injective (htexts.symm.trans hcells)
  rcases bind_eq_error_iff.1 hrest with herror | ⟨_, -, hrest⟩
  · exact check_ne_missingColumn h accepted herror
  rcases bind_eq_error_iff.1 hrest with herror | ⟨_, -, hrest⟩
  · -- an error for a record has the number of one
    obtain ⟨k, r, -, herror⟩ := mapM_eq_error_iff.1 herror
    exact nomatch names_rawRow _ r _ herror
  · exact nomatch hrest

end

/-- Whatever header names have been given, a field that is found in a header is never missed. If a
    header is one of its names, the field is found as it should be just if it makes no difference
    whether names have blanks around them; that is so if the names given for it have none. -/
theorem overrides_find (columns : List (Field × List String)) (f : Field) (names : List String)
    (hname : ∃ name ∈ names, name ∈ (Config.overrides columns).of f) :
    ((Config.overrides columns).Finds f names ↔
      (Config.overrides columns).resolve? f names =
        (Config.overrides columns).trimmed.resolve? f names) ∧
    ((∀ column ∈ columns, column.1 = f → ∀ name ∈ column.2, Blank.trim name = name) →
      (Config.overrides columns).Finds f names) ∧
    ∀ i, (Config.overrides columns).resolve? f names = some i →
      ∀ (content : ByteArray) (head : Csv.RawRecord),
        (Csv.scan content.data.toList)[0]? = some head → head.cells = names.map Utf8.bytes →
        ∀ accepted,
          readRows (Config.overrides columns) content ≠ .error (.missingColumn f accepted) := by
  refine ⟨Aliases.finds_iff hname, fun hgiven => ?_,
    fun i hi content head hhead hcells => readRows_ne_missingColumn hi hhead hcells⟩
  refine (Aliases.finds_iff hname).2 (Aliases.resolve?_trimmed_of_forall ?_).symm
  -- the aliases of the field are the standard ones, or those of a column that was given
  rcases Config.of_overrides columns f with hof | ⟨column, hmem, hf, hof⟩
  · rw [hof]
    exact Aliases.trim_standard f
  · rw [hof]
    exact hgiven column hmem hf

/-- Two names for the total, the first of which no header carries. -/
private def renamedTotal : List (Field × List String) := [(.totalBytes, ["total", "größe"])]

/-- The column named as it was given is found, behind one that has the same name after a blank. -/
theorem overrides_find_renamedTotal :
    (Config.overrides renamedTotal).Finds .totalBytes ["nUpdates", "\u00a0größe", "größe"] :=
  (overrides_find renamedTotal .totalBytes ["nUpdates", "\u00a0größe", "größe"]
    ⟨"größe", by decide +kernel, by decide +kernel⟩).2.1 (by decide +kernel)

/-- A name for the total with blanks around it. -/
private def paddedTotal : List (Field × List String) := [(.totalBytes, [" raw "])]

/-- A file of one row. The last name in its header has blanks around it. -/
private def paddedHeader : ByteArray :=
  ("nUpdates,nSignatures,signaturesSize,updateSize,updateProofSize,freshnessProofSize," ++
    "freshnessProofNoOptimizationSize, raw \n0,1,71,150,100,33,66,600\n").toUTF8

/-- The header has the name that was given, character for character, but the column is not found and
    the file is refused. -/
theorem overrides_miss_padded :
    (Csv.scan paddedHeader.data.toList)[0]?.map (·.cells) =
      some (["nUpdates", "nSignatures", "signaturesSize", "updateSize", "updateProofSize",
        "freshnessProofSize", "freshnessProofNoOptimizationSize", " raw "].map Utf8.bytes) ∧
    " raw " ∈ (Config.overrides paddedTotal).of .totalBytes ∧
    (Config.overrides paddedTotal).resolve? .totalBytes
      ["nUpdates", "nSignatures", "signaturesSize", "updateSize", "updateProofSize",
        "freshnessProofSize", "freshnessProofNoOptimizationSize", " raw "] = none ∧
    readRows (Config.overrides paddedTotal) paddedHeader =
      .error (.missingColumn .totalBytes [" raw "]) :=
  ⟨by decide +kernel, by decide +kernel, by decide +kernel, by decide +kernel⟩

end Table

end ProofSize
