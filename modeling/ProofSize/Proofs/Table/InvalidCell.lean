import ProofSize.Proofs.Table.Loading

/-!
# The cell that an error points at

An error for a cell tells the number of the record, the name of the column and what the cell holds. In
any file, whatever its bytes are, there is this record, the column is that of a field, and its cell
there holds nothing that can be read for the field. The error quotes the cell, but a number that is too
large for 32 bits is told by its digits, without a plus sign and zeros in front.

## Key results

- `Csv.RawRecord.decode_eq_ok`: what is read as text has the bytes of a text
- `row_eq_invalidValue`: an error for a record points at one of its cells
- `invalidValue_pointsAt`: an error for a file points at one of its cells
-/

namespace ProofSize

/-- Lists that correspond through something in between are images of one list. -/
private theorem exists_maps_of_forall₂ {α β γ : Type} {f : γ → α} {g : γ → β} {xs : List α}
    {ys : List β} (h : List.Forall₂ (fun x y => ∃ z, x = f z ∧ g z = y) xs ys) :
    ∃ zs : List γ, xs = zs.map f ∧ ys = zs.map g := by
  induction h with
  | nil => exact ⟨[], rfl, rfl⟩
  | cons hxy _ ih =>
    obtain ⟨z, rfl, rfl⟩ := hxy
    obtain ⟨zs, rfl, rfl⟩ := ih
    exact ⟨z :: zs, rfl, rfl⟩

namespace Csv.RawRecord

variable {r : RawRecord} {width : Nat} {record : Record}

/-- A record that is read has the width and the number asked for, and texts that are read from the bytes
    of its cells. -/
theorem decode_eq_ok (h : r.decode width = .ok record) :
    r.cells.length = width ∧ record.number = r.position.record ∧
      List.Forall₂ (fun cell text => ∃ t, Utf8.decode cell = .ok t ∧ Blank.trim t = text)
        r.cells record.cells := by
  unfold decode at h
  split at h
  · rename_i hwidth
    obtain ⟨cells, hcells, h⟩ := bind_eq_ok_iff.1 h
    obtain rfl := Except.ok.inj h
    refine ⟨hwidth, rfl, forall₂_zipIdx_iff.1 ((mapM_eq_ok_iff.1 hcells).imp ?_)⟩
    intro z text hz
    unfold cellText at hz
    split at hz
    · rename_i t ht
      exact ⟨t, ht, Except.ok.inj hz⟩
    · exact nomatch hz
  · exact nomatch h

/-- The texts of a record are trimmed whether its bytes have been trimmed before or not. -/
theorem exists_texts_of_decode_trimmed (h : r.trimmed.decode width = .ok record) :
    ∃ texts : List String, r.cells = texts.map Utf8.bytes ∧ record.cells = texts.map Blank.trim := by
  obtain ⟨-, -, hcells⟩ := decode_eq_ok h
  refine exists_maps_of_forall₂ ((List.forall₂_map_left_iff.1 hcells).imp ?_)
  intro cell text ⟨t, ht, htext⟩
  obtain ⟨s, hs, htrim⟩ := Blank.exists_bytes_of_decode_trimBytes ht
  exact ⟨s, hs, htrim.trans htext⟩

end Csv.RawRecord

namespace Table

open Decimal

/-- The names in a header are the trimmed texts of its cells. -/
theorem exists_texts_of_header {head : Csv.RawRecord} {rest : List Csv.RawRecord}
    {names : List String} (h : header (head :: rest) = .ok names) :
    ∃ texts : List String, head.cells = texts.map Utf8.bytes ∧ names = texts.map Blank.trim := by
  cases hdecode : head.decode head.cells.length with
  | error fault =>
    rw [header, hdecode] at h
    cases h
  | ok record =>
    rw [header, hdecode] at h
    obtain rfl := Except.ok.inj h
    obtain ⟨-, -, hcells⟩ := Csv.RawRecord.decode_eq_ok hdecode
    refine exists_maps_of_forall₂ (hcells.imp ?_)
    rintro cell text ⟨t, ht, htext⟩
    exact ⟨t, (Utf8.bytes_of_decode_eq_ok ht).symm, htext⟩

/-- The field can have this text in its cell: a number within its limit, or nothing if the field may be
    left out. -/
def Readable (f : Field) (text : String) : Prop :=
  (∃ n, Denotes text n ∧ n < f.limit) ∨ text = "" ∧ f.isNullable = true

/-- The text is a number that 64 bits hold but that is too large for its field, and it is not the
    shortest way to write the number. -/
def Respelled (f : Field) (text : String) : Prop :=
  f = .adsModified ∧ ∃ n, UInt32.size ≤ n ∧ n < UInt64.size ∧ Denotes text n ∧ text ≠ toString n

/-- In the file with these records, the one of the number has the text in the column that is looked up
    for the field, and the column has this name. The header has number 0. Blanks around texts do not
    count. -/
def HasCell (a : Aliases) (raws : List Csv.RawRecord) (number : Nat) (f : Field)
    (column text : String) : Prop :=
  ∃ (head record : Csv.RawRecord) (names cells : List String) (i : Nat),
    raws[0]? = some head ∧ head.cells = names.map Utf8.bytes ∧
    0 < number ∧ raws[number]? = some record ∧ record.cells = cells.map Utf8.bytes ∧
    a.resolve? f names = some i ∧ (names.map Blank.trim)[i]? = some column ∧
    (cells.map Blank.trim)[i]? = some text

section

variable {c : Columns} {r : Csv.Record} {f : Field}

/-- What can be read in the field's cell, the record says of the field. -/
theorem acceptable_of_readable {cells : List String} {i : Nat} {text : String}
    (hi : c.IsColumn f i) (htext : cells[i]? = some text) (h : Readable f text) :
    Acceptable c cells f := by
  rcases h with ⟨n, hn, hlt⟩ | ⟨rfl, hnull⟩
  · exact ⟨some n, .number hi htext hn hlt⟩
  · exact ⟨none, .empty hi htext hnull⟩

/-- A cell in which nothing can be read is quoted as it is, unless a number is respelled. -/
theorem Quotes.eq_or_respelled {text value : String} (h : Quotes text value)
    (hno : ¬Readable f text) :
    (value = text ∨ f = .adsModified ∧ ∃ n, UInt32.size ≤ n ∧ n < UInt64.size ∧ Denotes text n ∧
      value = toString n) ∧ (value = text ↔ ¬Respelled f text) := by
  rcases h with ⟨n, hn, hd, rfl⟩ | ⟨hnone, rfl⟩
  · -- a number that 64 bits hold is too large for one field only
    have hlimit : f.limit ≤ n := Nat.not_lt.1 fun hlt => hno (.inl ⟨n, hd, hlt⟩)
    obtain rfl : f = .adsModified := by
      cases f with
      | adsModified => rfl
      | _ => exact absurd hn (Nat.not_lt.2 hlimit)
    have hlarge : UInt32.size ≤ n := hlimit
    refine ⟨.inr ⟨rfl, n, hlarge, hn, hd, rfl⟩, fun h hrespelled => ?_, fun h => ?_⟩
    · obtain ⟨-, m, -, -, hm, hne⟩ := hrespelled
      rw [hm.unique hd] at hne
      exact hne h.symm
    · by_contra hne
      exact h ⟨rfl, n, hlarge, hn, hd, Ne.symm hne⟩
  · refine ⟨.inl rfl, fun _ hrespelled => ?_, fun _ => rfl⟩
    obtain ⟨-, n, -, hn, hd, -⟩ := hrespelled
    exact hnone n hn hd

/-- An error for a record is about the cell of a field in which nothing can be read. -/
theorem row_eq_invalidValue (ht : c.Trimmed) (hw : r.cells.length = c.header.length)
    (hc : c.Complete) {number : Nat} {column value : String}
    (h : row c r = .error (.invalidValue number column value)) :
    number = r.number ∧ ∃ f i text, c.IsColumn f i ∧ c.header[i]? = some column ∧
      r.cells[i]? = some text ∧ ¬Readable f text ∧ Quotes text value := by
  obtain ⟨j, f, hfirst, i, column', text, value', hi, hcolumn, htext, hquotes, he⟩ :=
    (row_eq_error_iff ht hw hc).1 h
  obtain ⟨rfl, rfl, rfl⟩ := ReportError.invalidValue.inj he
  exact ⟨rfl, f, i, text, hi, hcolumn, htext,
    fun hreadable => hfirst.holds (acceptable_of_readable hi htext hreadable), hquotes⟩

end

/-- A header that cannot be read is a fault of the file. -/
theorem exists_fault_of_header {raws : List Csv.RawRecord} {e : ReportError}
    (h : header raws = .error e) : ∃ fault, e = .csv fault := by
  unfold header at h
  split at h
  · exact nomatch h
  · split at h
    · exact ⟨_, (Except.error.inj h).symm⟩
    · exact nomatch h

/-- The check of the columns finds nothing but missing ones. -/
theorem exists_missing_of_check {c : Columns} {e : ReportError} (h : c.check = .error e) :
    ∃ f accepted, e = .missingColumn f accepted := by
  unfold Columns.check at h
  split at h
  · exact ⟨_, _, (Except.error.inj h).symm⟩
  · split at h
    · exact nomatch h
    · exact ⟨_, _, (Except.error.inj h).symm⟩

/-- An error for a cell comes from a record behind the header, once all columns have been found. -/
theorem ofRecords_eq_invalidValue {a : Aliases} {raws : List Csv.RawRecord} {number : Nat}
    {column value : String} (h : ofRecords a raws = .error (.invalidValue number column value)) :
    ∃ (names : List String) (i : Nat) (r : Csv.RawRecord), header raws = .ok names ∧
      (⟨a, names⟩ : Columns).check = .ok () ∧ raws.tail[i]? = some r ∧
      rawRow ⟨a, names⟩ r = .error (.invalidValue number column value) := by
  unfold ofRecords at h
  rcases bind_eq_error_iff.1 h with h | ⟨names, hnames, h⟩
  · obtain ⟨fault, hfault⟩ := exists_fault_of_header h
    exact nomatch hfault
  rcases bind_eq_error_iff.1 h with h | ⟨_, hcheck, h⟩
  · obtain ⟨f, accepted, hmissing⟩ := exists_missing_of_check h
    exact nomatch hmissing
  rcases bind_eq_error_iff.1 h with h | ⟨_, _, h⟩
  · obtain ⟨i, r, hfirst, he⟩ := mapM_eq_error_iff.1 h
    exact ⟨names, i, r, hnames, hcheck, hfirst.getElem?, he⟩
  · exact nomatch h

/-- A record that has an error for a cell has been read as text. -/
theorem rawRow_eq_invalidValue {c : Columns} {r : Csv.RawRecord} {number : Nat}
    {column value : String} (h : rawRow c r = .error (.invalidValue number column value)) :
    ∃ record, r.trimmed.decode c.header.length = .ok record ∧
      row c record = .error (.invalidValue number column value) := by
  unfold rawRow at h
  split at h
  · exact nomatch h
  · rename_i record hrecord
    exact ⟨record, hrecord, h⟩

/-- An error for a cell tells a record of the file and a column in which a field is looked up. There the
    record has a text that cannot be read for the field. The text is what the error quotes, unless it is
    a number too large for its field that could be written in a shorter way; then the number is quoted
    in this way. -/
theorem invalidValue_pointsAt (a : Aliases) (content : ByteArray) (number : Nat)
    (column value : String) (h : readRows a content = .error (.invalidValue number column value)) :
    ∃ f text, HasCell a (Csv.scan content.data.toList) number f column text ∧ ¬Readable f text ∧
      (value = text ∨ f = .adsModified ∧ ∃ n, UInt32.size ≤ n ∧ n < UInt64.size ∧
        Denotes text n ∧ value = toString n) ∧
      (value = text ↔ ¬Respelled f text) := by
  have hrecords : ofRecords a (Csv.scan content.data.toList) =
      .error (.invalidValue number column value) := map_eq_error_iff.1 h
  -- the error comes from a record behind a header that has been accepted
  obtain ⟨header, i, raw, hheader, hcheck, hraw, he⟩ := ofRecords_eq_invalidValue hrecords
  rw [List.getElem?_tail] at hraw
  have hplace := Csv.getElem?_scan_record hraw
  generalize Csv.scan content.data.toList = raws at *
  cases raws with
  | nil => exact nomatch hraw
  | cons head rest =>
    obtain ⟨names, hhead, rfl⟩ := exists_texts_of_header hheader
    obtain ⟨record, hrecord, hrow⟩ := rawRow_eq_invalidValue he
    obtain ⟨hwidth, hnumber, -⟩ := Csv.RawRecord.decode_eq_ok hrecord
    obtain ⟨cells, hbytes, hcells⟩ := Csv.RawRecord.exists_texts_of_decode_trimmed hrecord
    have ht := Columns.trimmed_map_trim a names
    have hw : record.cells.length = (names.map Blank.trim).length := by
      rw [← hwidth, hcells, Csv.RawRecord.trimmed, List.length_map, List.length_map, hbytes,
        List.length_map]
    -- in this record it comes from the cell of a field
    obtain ⟨rfl, f, j, text, hj, hcolumn, htext, hno, hquotes⟩ :=
      row_eq_invalidValue ht hw ((Columns.check_eq_ok_iff ht).1 hcheck) hrow
    have hnum : record.number = i + 1 := hnumber.trans hplace
    refine ⟨f, text, ⟨head, raw, names, cells, j, rfl, hhead, by omega, ?_, hbytes, ?_, hcolumn, ?_⟩,
      hno, hquotes.eq_or_respelled hno⟩
    · rw [hnum]
      exact hraw
    · rw [← Aliases.resolve?_map_trim]
      exact (Columns.position?_eq_some_iff ht).2 hj
    · rw [← hcells]
      exact htext

/-- Every field is read from a column of counts. -/
private def onlyCounts : Aliases := ⟨fun _ => ["count"]⟩

/-- The second record holds no number, between a blank of ASCII and another one. -/
private def noNumber : ByteArray := "count\n7\n\" 7x\u00a0\"".toUTF8

/-- Record 2 is there, and its cell in the column of counts is quoted as it is. -/
theorem invalidValue_pointsAt_noNumber :
    readRows onlyCounts noNumber = .error (.invalidValue 2 "count" "7x") ∧
      ∃ f text, HasCell onlyCounts (Csv.scan noNumber.data.toList) 2 f "count" text ∧
        ¬Readable f text ∧ "7x" = text := by
  have herror : readRows onlyCounts noNumber = .error (.invalidValue 2 "count" "7x") := by
    decide +kernel
  obtain ⟨f, text, hcell, hno, hvalue, -⟩ := invalidValue_pointsAt _ _ _ _ _ herror
  refine ⟨herror, f, text, hcell, hno, ?_⟩
  rcases hvalue with hvalue | ⟨-, n, -, -, -, hn⟩
  · exact hvalue
  · -- the digits of a number do not contain a letter
    have hdigit : ('x' : Char).isDigit = true := by
      refine Nat.isDigit_of_mem_toDigits (b := 10) (n := n) (by decide) (by decide) ?_
      rw [← Nat.toList_repr]
      show 'x' ∈ (toString n).toList
      rw [← hn]
      decide
    exact absurd hdigit (by decide)

/-- The count of touched data structures has a plus sign, and 32 bits do not hold it. -/
private def respelledCount : ByteArray :=
  ("nUpdates,nADSModifiedInLastUpdate,nSignatures,signaturesSize,updateSize,updateProofSize," ++
    "freshnessProofSize,freshnessProofNoOptimizationSize,proofSizeTotal\n" ++
    "0,+4294967296,1,71,150,100,33,66,600\n").toUTF8

/-- The error quotes a text that no cell of the record has. -/
theorem invalidValue_quotes_noCell :
    readRows .standard respelledCount =
      .error (.invalidValue 1 "nADSModifiedInLastUpdate" "4294967296") ∧
    (Csv.scan respelledCount.data.toList)[1]?.map (·.cells) =
      some (["0", "+4294967296", "1", "71", "150", "100", "33", "66", "600"].map Utf8.bytes) ∧
    "4294967296" ∉
      ["0", "+4294967296", "1", "71", "150", "100", "33", "66", "600"].map Blank.trim :=
  ⟨by decide +kernel, by decide +kernel, by decide +kernel⟩

end Table

end ProofSize
