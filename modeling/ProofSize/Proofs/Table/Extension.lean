import ProofSize.Proofs.Csv.Scan
import ProofSize.Proofs.FirstError
import ProofSize.Table.Reader

/-!
# Files that grow

Records are read one by one, front to back. So what is read from a file that ends with a whole record
stays when more is added to it: the error of the file is the error of the longer one, and its rows are
the first rows of the longer one. If what is added cannot be read, the error has the number of a record
behind them.

## Key results

- `names_row`, `names_rawRow`: the error for a record has the record's number
- `ofRecords_append`: records are read part by part
- `readRows_append`: what is added to a file leaves its error or its rows as they are
-/

namespace ProofSize

/-- The number of the record that an error is about. Only a cell that holds no acceptable number and a
    record that cannot be read are errors of a record. -/
def ReportError.record? : ReportError → Option Nat
  | .invalidValue record .. => some record
  | .csv fault => some fault.position.record
  | _ => none

namespace Table

/-! ### The record at fault -/

/-- If the computation fails, its error is about the record of this number. -/
def Names {α : Type} (number : Nat) (m : Except ReportError α) : Prop :=
  ∀ e, m = .error e → e.record? = some number

section

variable {α β : Type} {number : Nat} {c : Columns} {r : Csv.Record} {f : Field}

/-- What does not fail is about any record. -/
theorem names_ok (a : α) : Names number (.ok a : Except ReportError α) := by
  intro e h
  exact nomatch h

/-- A cell that holds no acceptable number is told of with the number of its record. -/
theorem names_invalid (position : Nat) (value : String) :
    Names r.number (.error (invalid c r position value) : Except ReportError α) := by
  intro e h
  obtain rfl := Except.error.inj h
  rfl

/-- Of two steps about one record the first that fails is about it. -/
theorem Names.bind {m : Except ReportError α} {g : α → Except ReportError β}
    (hm : Names number m) (hg : ∀ a, Names number (g a)) : Names number (m >>= g) := by
  intro e h
  rcases bind_eq_error_iff.1 h with h | ⟨a, -, h⟩
  · exact hm e h
  · exact hg a e h

/-- A field that may be left out fails for its own record. -/
theorem names_optional : Names r.number (optional c r f) := by
  unfold optional
  split
  · exact names_ok none
  · dsimp only
    split
    · exact names_ok none
    · split
      · exact names_ok _
      · exact names_invalid _ _

/-- A required field fails for its own record. -/
theorem names_required : Names r.number (required c r f) := by
  unfold required
  apply names_optional.bind
  intro v
  cases v with
  | some n => exact names_ok n
  | none => exact names_invalid _ _

/-- The counters fail for their own record, also where both are missing. -/
theorem names_counters : Names r.number (counters c r) := by
  unfold counters
  apply names_optional.bind
  intro since
  apply names_optional.bind
  intro total
  cases since with
  | some s => cases total <;> exact names_ok _
  | none =>
    cases total with
    | some t => exact names_ok _
    | none => exact names_invalid _ _

/-- The number of touched data structures fails for its own record. -/
theorem names_adsModified : Names r.number (adsModified c r) := by
  unfold adsModified
  apply names_optional.bind
  intro v
  cases v with
  | none => exact names_ok none
  | some n =>
    dsimp only
    split
    · exact names_ok _
    · exact names_invalid _ _

/-- Whichever field is at fault, the error has the number of the record. -/
theorem names_row (c : Columns) (r : Csv.Record) : Names r.number (row c r) := by
  unfold row
  apply names_counters.bind
  intro st
  apply names_adsModified.bind
  intro ads
  -- the seven required fields, each read in the same way
  repeat
    apply names_required.bind
    intro n
  apply names_optional.bind
  intro n
  exact names_ok _

/-- A record that cannot be read as text has its own position in the fault. -/
private theorem decode_eq_ok_or_error (width : Nat) (r : Csv.RawRecord) :
    (∃ record, r.decode width = .ok record ∧ record.number = r.position.record) ∨
      ∃ fault, r.decode width = .error fault ∧ fault.position = r.position := by
  unfold Csv.RawRecord.decode
  split
  · cases hcells : r.cells.zipIdx.mapM fun cell => Csv.RawRecord.cellText r.position cell.2 cell.1 with
    | ok cells => exact .inl ⟨_, rfl, rfl⟩
    | error fault =>
      refine .inr ⟨fault, rfl, ?_⟩
      obtain ⟨i, cell, -, hcell⟩ := mapM_eq_error_iff.1 hcells
      unfold Csv.RawRecord.cellText at hcell
      split at hcell
      · exact nomatch hcell
      · obtain rfl := Except.error.inj hcell
        rfl
  · exact .inr ⟨_, rfl, rfl⟩

/-- Bytes that cannot be read as a row fail for their own record. -/
theorem names_rawRow (c : Columns) (r : Csv.RawRecord) : Names r.position.record (rawRow c r) := by
  have hposition : r.trimmed.position = r.position := rfl
  unfold rawRow
  rcases decode_eq_ok_or_error c.header.length r.trimmed with ⟨record, hdecode, hnumber⟩ |
    ⟨fault, hdecode, hfault⟩
  · rw [hdecode]
    rw [hposition] at hnumber
    rw [← hnumber]
    exact names_row c record
  · rw [hdecode]
    intro e h
    obtain rfl := Except.error.inj h
    rw [ReportError.record?, hfault, hposition]

end

/-! ### Reading part by part -/

/-- With a header among them, records are read part by part. Only if the first part can be read, the
    second one is looked at, with the columns of the first. -/
theorem ofRecords_append (a : Aliases) {raws : List Csv.RawRecord} (hne : raws ≠ [])
    (more : List Csv.RawRecord) :
    ofRecords a (raws ++ more) = do
      let first ← ofRecords a raws
      let rows ← more.mapM (rawRow first.1)
      return (first.1, first.2 ++ rows) := by
  cases raws with
  | nil => exact absurd rfl hne
  | cons r rs =>
    -- the header is the first record in both cases
    have hheader : header (r :: rs ++ more) = header (r :: rs) := rfl
    have htail : (r :: rs ++ more).tail = rs ++ more := rfl
    rw [ofRecords, ofRecords, hheader, htail, List.tail_cons]
    simp only [List.mapM_append, bind_assoc, pure_bind]

/-- There is a row for each record behind the header. -/
private theorem length_rows {a : Aliases} {raws : List Csv.RawRecord} {c : Columns} {rows : List Row}
    (hne : raws ≠ []) (h : ofRecords a raws = .ok (c, rows)) : rows.length + 1 = raws.length := by
  unfold ofRecords at h
  obtain ⟨names, -, h⟩ := bind_eq_ok_iff.1 h
  obtain ⟨u, -, h⟩ := bind_eq_ok_iff.1 h
  obtain ⟨rows', hrows, h⟩ := bind_eq_ok_iff.1 h
  obtain ⟨rfl, rfl⟩ := Prod.mk.inj (Except.ok.inj h)
  have hlen := (mapM_eq_ok_iff.1 hrows).length_eq
  have hpos : 0 < raws.length := List.length_pos_iff.2 hne
  rw [List.length_tail] at hlen
  omega

/-- Behind a whole record, what is added brings more records and changes none. -/
private theorem scan_append_bytes {p : ByteArray} (hp : Csv.EndsRecord p.data.toList) (q : ByteArray) :
    ∃ more, Csv.scan (p ++ q).data.toList = Csv.scan p.data.toList ++ more := by
  rw [ByteArray.data_append, Array.toList_append]
  exact Csv.scan_append hp q.data.toList

/-- A file may be followed by anything, if it ends with a line break outside quotation marks and has a
    record. Its error stays the error, and its rows stay the first rows, unless a record behind them
    cannot be read. -/
theorem readRows_append (a : Aliases) (p q : ByteArray) (hend : Csv.EndsRecord p.data.toList)
    (hrecord : Csv.scan p.data.toList ≠ []) :
    (∀ e, readRows a p = .error e → readRows a (p ++ q) = .error e) ∧
    ∀ rows, readRows a p = .ok rows →
      (∃ more, readRows a (p ++ q) = .ok (rows ++ more)) ∨
        ∃ e k, readRows a (p ++ q) = .error e ∧ e.record? = some k ∧ rows.length < k := by
  -- the records of the longer file are those of the first part and more
  obtain ⟨more, hmore⟩ := scan_append_bytes hend q
  have hread := ofRecords_append a hrecord more
  rw [← hmore] at hread
  constructor
  · intro e he
    have hfirst : ofRecords a (Csv.scan p.data.toList) = .error e := map_eq_error_iff.1 he
    rw [readRows, read, hread, hfirst]
    rfl
  · intro rows hrows
    obtain ⟨⟨c, rows'⟩, hfirst, rfl⟩ := map_eq_ok_iff.1 hrows
    have hfirst : ofRecords a (Csv.scan p.data.toList) = .ok (c, rows') := hfirst
    have hlen : rows'.length + 1 = (Csv.scan p.data.toList).length := length_rows hrecord hfirst
    rw [readRows, read, hread, hfirst]
    cases hrest : more.mapM (rawRow c) with
    | ok rest =>
      refine .inl ⟨rest, ?_⟩
      simp [bind, Except.bind, hrest, pure, Except.pure, Except.map]
    | error e =>
      -- the record at fault stands behind those of the first part
      obtain ⟨i, r, hr, he⟩ := mapM_eq_error_iff.1 hrest
      have hplace : (Csv.scan (p ++ q).data.toList)[(Csv.scan p.data.toList).length + i]? = some r := by
        rw [hmore, List.getElem?_append_right (by omega)]
        simpa using hr.getElem?
      have hnumber := Csv.getElem?_scan_record hplace
      refine .inr ⟨e, _, ?_, names_rawRow c r e he, ?_⟩
      · simp [bind, Except.bind, hrest, Except.map]
      · show rows'.length < r.position.record
        omega

/-- All fields are read from a column of bytes. -/
private def onlyBytes : Aliases := ⟨fun _ => ["bytes"]⟩

/-- A header and a row, with carriage returns at their ends. -/
private def oneRow : ByteArray := "bytes\r7\r".toUTF8

/-- The row holds no number. -/
private def badRow : ByteArray := "bytes\rx\r".toUTF8

/-- A line feed, an open quotation mark and a byte that belongs to no text. -/
private def brokenTail : ByteArray := ⟨#[0x0a, 0x22, 0xff]⟩

/-- A broken record behind a row is refused with a greater number than that of the row. Behind a bad
    row it does not change the error. -/
theorem readRows_append_brokenTail :
    (∃ e k, readRows onlyBytes (oneRow ++ brokenTail) = .error e ∧ e.record? = some k ∧ 1 < k) ∧
      readRows onlyBytes (badRow ++ brokenTail) = .error (.invalidValue 1 "bytes" "x") := by
  constructor
  · have hend : Csv.EndsRecord oneRow.data.toList :=
      ⟨⟨0x0d, by decide +kernel, rfl⟩, by decide +kernel⟩
    have hrows : readRows onlyBytes oneRow = .ok [⟨7, 7, some 7, 7, 7, 7, 7, 7, 7, 7, some 7⟩] := by
      decide +kernel
    have hfails : (readRows onlyBytes (oneRow ++ brokenTail)).isOk = false := by decide +kernel
    rcases (readRows_append onlyBytes oneRow brokenTail hend (by decide +kernel)).2 _ hrows with
      ⟨more, hmore⟩ | hmore
    · rw [hmore] at hfails
      exact nomatch hfails
    · exact hmore
  · have hend : Csv.EndsRecord badRow.data.toList :=
      ⟨⟨0x0d, by decide +kernel, rfl⟩, by decide +kernel⟩
    exact (readRows_append onlyBytes badRow brokenTail hend (by decide +kernel)).1 _
      (by decide +kernel)

end Table

end ProofSize
