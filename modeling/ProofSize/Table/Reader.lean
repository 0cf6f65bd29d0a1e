import ProofSize.Columns
import ProofSize.Csv.Reader
import ProofSize.Text.Decimal

/-! # Reading a table of benchmark rows

The first record of a data file is its header, each further one a row. Records are read one by one:
the first record with a fault decides the error, and within a record the first bad cell in the order
of the fields.
-/

namespace ProofSize.Table

/-- The error for a cell that holds no acceptable number. -/
def invalid (c : Columns) (r : Csv.Record) (position : Nat) (value : String) : ReportError :=
  .invalidValue r.number (c.header[position]?.getD "?") value

/-- The number in the record's cell for the field. There is none when the file has no column for
    the field, or when the cell is empty and the field may be left out. -/
def optional (c : Columns) (r : Csv.Record) (f : Field) : Except ReportError (Option UInt64) :=
  match c.position? f with
  | none => .ok none
  | some i =>
    let value := r.cells[i]?.getD ""
    if value = "" ∧ f.isNullable = true then .ok none
    else
      match Decimal.parseWord? value with
      | some n => .ok (some n)
      | none => .error (invalid c r i value)

/-- The number in the record's cell for a field that has a column. -/
def required (c : Columns) (r : Csv.Record) (f : Field) : Except ReportError UInt64 := do
  match ← optional c r f with
  | some n => .ok n
  | none => .error (invalid c r ((c.position? f).getD 0) "")

/-- The two update counters. A counter without a column has the value of the other one. -/
def counters (c : Columns) (r : Csv.Record) : Except ReportError (UInt64 × UInt64) := do
  let since ← optional c r .updatesSinceRefresh
  let total ← optional c r .totalUpdates
  match since, total with
  | some s, some t => .ok (s, t)
  | some s, none => .ok (s, s)
  | none, some t => .ok (t, t)
  | none, none => .error (invalid c r 0 "")

/-- The number of data structures that the update touched, which has 32 bits. -/
def adsModified (c : Columns) (r : Csv.Record) : Except ReportError (Option UInt32) := do
  match ← optional c r .adsModified with
  | none => .ok none
  | some n =>
    if n.toNat < UInt32.size then .ok (some n.toUInt32)
    else .error (invalid c r ((c.position? .adsModified).getD 0) (toString n.toNat))

/-- The row that a record holds. -/
def row (c : Columns) (r : Csv.Record) : Except ReportError Row := do
  let (updatesSinceRefresh, totalUpdates) ← counters c r
  let adsModified ← adsModified c r
  let signatureCount ← required c r .signatureCount
  let signatureBytes ← required c r .signatureBytes
  let updateBytes ← required c r .updateBytes
  let updateProofBytes ← required c r .updateProofBytes
  let freshnessBytes ← required c r .freshnessBytes
  let uncachedFreshnessBytes ← required c r .uncachedFreshnessBytes
  let totalBytes ← required c r .totalBytes
  let adsCount ← optional c r .adsCount
  return { updatesSinceRefresh, totalUpdates, adsModified, signatureCount, signatureBytes,
           updateBytes, updateProofBytes, freshnessBytes, uncachedFreshnessBytes, totalBytes,
           adsCount }

/-- The row of a record that has been found but not yet read as text. ASCII blanks are taken off
    its cells before, so a fault in a cell counts the bytes behind them. -/
def rawRow (c : Columns) (r : Csv.RawRecord) : Except ReportError Row :=
  match r.trimmed.decode c.header.length with
  | .error fault => .error (.csv fault)
  | .ok record => row c record

/-- The header of a data file. An empty file has an empty one. -/
def header : List Csv.RawRecord → Except ReportError (List String)
  | [] => .ok []
  | r :: _ =>
    match r.decode r.cells.length with
    | .error fault => .error (.csv fault)
    | .ok record => .ok record.cells

/-- The columns and rows of a data file. -/
def ofRecords (a : Aliases) (records : List Csv.RawRecord) :
    Except ReportError (Columns × List Row) := do
  let columns : Columns := ⟨a, ← header records⟩
  columns.check
  let rows ← records.tail.mapM (rawRow columns)
  return (columns, rows)

/-- The columns and rows of a data file. -/
def read (a : Aliases) (content : ByteArray) : Except ReportError (Columns × List Row) :=
  ofRecords a (Csv.scan content.data.toList)

/-- The rows of a data file. -/
def readRows (a : Aliases) (content : ByteArray) : Except ReportError (List Row) :=
  (read a content).map (·.2)

end ProofSize.Table
