import ProofSize.Csv.Record
import ProofSize.Text.Blank
import ProofSize.Text.Utf8

/-! # Reading comma-separated values

A quotation mark opens a quoted cell only as the first byte of the cell. Within a quoted cell a
doubled mark stands for one, and commas and line breaks are data. Text behind the closing mark is
appended to the cell. A record ends at a line feed or a carriage return; empty lines are not
records, so a line feed behind a carriage return adds none. The last record needs no line break.

The scanner reads byte by byte and keeps the records that have ended. What it has found in a part of
the input does not depend on what follows.

## Key results
- `Scan.run_append`: scanning the parts of an input one after the other
-/

namespace ProofSize.Csv

/-- Where the scanner stands. -/
inductive Place where
  /-- Before the first byte of a record. -/
  | betweenRecords
  /-- Before the first byte of a further cell. -/
  | cellStart
  /-- In a cell, outside quotation marks. -/
  | bare
  /-- In a cell, behind an opening quotation mark. -/
  | quoted
  /-- Behind a quotation mark in a quoted cell. -/
  | quoteInQuoted
  deriving DecidableEq

/-- What the scanner has seen so far. Lists that grow have their last element first. -/
structure Scan where
  place : Place
  /-- The bytes of the open cell. -/
  cell : List UInt8
  /-- The finished cells of the open record. -/
  cells : List (List UInt8)
  /-- The finished records. -/
  records : List RawRecord
  /-- Where the open or next record starts. -/
  position : Position
  /-- The bytes read. -/
  bytes : Nat
  /-- The line feeds among them. -/
  lineFeeds : Nat

namespace Scan

def comma : UInt8 := 0x2c
def quote : UInt8 := 0x22
def lineFeed : UInt8 := 0x0a
def carriageReturn : UInt8 := 0x0d

/-- A byte that ends a record. -/
def isLineBreak (b : UInt8) : Bool := b == lineFeed || b == carriageReturn

/-- The scanner before an input of which `bytes` bytes are left out. -/
def start (bytes : Nat) : Scan :=
  ⟨.betweenRecords, [], [], [], .start, bytes, 0⟩

/-- The byte belongs to the open cell. -/
def push (s : Scan) (place : Place) (b : UInt8) : Scan :=
  { s with place, cell := b :: s.cell }

/-- The open cell ends and another follows. -/
def endCell (s : Scan) : Scan :=
  { s with place := .cellStart, cell := [], cells := s.cell.reverse :: s.cells }

/-- The cells of the open record. -/
def openCells (s : Scan) : List (List UInt8) := (s.cell.reverse :: s.cells).reverse

/-- The open record ends. -/
def endRecord (s : Scan) : Scan :=
  { s with
    place := .betweenRecords
    cell := []
    cells := []
    records := ⟨s.position, s.openCells⟩ :: s.records
    position := ⟨s.position.record + 1, s.lineFeeds + 1, s.bytes⟩ }

/-- A byte outside quotation marks. -/
def bareByte (s : Scan) (b : UInt8) : Scan :=
  if b = comma then s.endCell
  else if isLineBreak b then s.endRecord
  else s.push .bare b

/-- The first byte of a cell. -/
def firstByte (s : Scan) (b : UInt8) : Scan :=
  if b = quote then { s with place := .quoted } else s.bareByte b

/-- Counts a byte. -/
def advance (s : Scan) (b : UInt8) : Scan :=
  { s with
    bytes := s.bytes + 1
    lineFeeds := if b = lineFeed then s.lineFeeds + 1 else s.lineFeeds }

/-- Reads a byte. -/
def step (scan : Scan) (b : UInt8) : Scan :=
  let s := scan.advance b
  match s.place with
  | .betweenRecords => if isLineBreak b then s else s.firstByte b
  | .cellStart => s.firstByte b
  | .bare => s.bareByte b
  | .quoted => if b = quote then { s with place := .quoteInQuoted } else s.push .quoted b
  | .quoteInQuoted => if b = quote then s.push .quoted b else s.bareByte b

/-- Reads bytes. -/
def run (s : Scan) (bytes : List UInt8) : Scan := bytes.foldl step s

/-- The records when the input ends here, in their order. An open record ends with the input. -/
def finish (s : Scan) : List RawRecord :=
  match s.place with
  | .betweenRecords => s.records.reverse
  | _ => s.endRecord.records.reverse

@[simp] theorem run_nil (s : Scan) : s.run [] = s := rfl

@[simp] theorem run_cons (s : Scan) (b : UInt8) (bytes : List UInt8) :
    s.run (b :: bytes) = (s.step b).run bytes := rfl

/-- Bytes are read part by part. -/
theorem run_append (s : Scan) (p q : List UInt8) : s.run (p ++ q) = (s.run p).run q :=
  List.foldl_append

end Scan

/-- The records of an input. A byte order mark at its very start is left out. -/
def scan (input : List UInt8) : List RawRecord :=
  match input with
  | 0xef :: 0xbb :: 0xbf :: rest => ((Scan.start 3).run rest).finish
  | _ => ((Scan.start 0).run input).finish

/-- The cells of one record as text, without the blanks around them. -/
structure Record where
  number : Nat
  cells : List String
  deriving DecidableEq

namespace RawRecord

/-- A cell as text without the blanks around it. -/
def cellText (position : Position) (index : Nat) (cell : List UInt8) : Except Fault String :=
  match Utf8.decode cell with
  | .ok s => .ok (Blank.trim s)
  | .error valid => .error (.notText position index valid)

/-- The record without the ASCII blanks around its cells. -/
def trimmed (r : RawRecord) : RawRecord := { r with cells := r.cells.map Blank.trimBytes }

/-- The record as text, if it has the given number of cells. -/
def decode (width : Nat) (r : RawRecord) : Except Fault Record :=
  if r.cells.length = width then do
    let cells ← (r.cells.zipIdx).mapM fun c => cellText r.position c.2 c.1
    return ⟨r.position.record, cells⟩
  else .error (.unequalLengths r.position r.cells.length width)

end RawRecord

end ProofSize.Csv
