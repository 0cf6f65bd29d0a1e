/-! # Records of comma-separated values

A record is found in the bytes of a file before its cells are read as text, so that a fault can say
where it lies.
-/

namespace ProofSize.Csv

/-- Where a record starts. -/
structure Position where
  /-- The number of the record; the header has number 0. -/
  record : Nat
  /-- The number of the line, from 1. -/
  line : Nat
  /-- The number of bytes before the record. -/
  byte : Nat
  deriving DecidableEq

/-- The first record of a file starts it. -/
def Position.start : Position := ⟨0, 1, 0⟩

/-- The cells of one record, as bytes. -/
structure RawRecord where
  position : Position
  cells : List (List UInt8)
  deriving DecidableEq

/-- Why a record cannot be read. -/
inductive Fault where
  /-- The record has not as many cells as the header. -/
  | unequalLengths (position : Position) (found expected : Nat)
  /-- A cell is not UTF-8 text behind its first `valid` bytes. Cells count from 0. -/
  | notText (position : Position) (cell valid : Nat)
  deriving DecidableEq

def Fault.position : Fault → Position
  | unequalLengths position .. | notText position .. => position

def Fault.message : Fault → String
  | unequalLengths p found expected =>
    s!"CSV error: record {p.record} (line: {p.line}, byte: {p.byte}): found record with " ++
      s!"{found} fields, but the previous record has {expected} fields"
  | notText p cell valid =>
    s!"CSV parse error: record {p.record} (line {p.line}, field: {cell}, byte: {p.byte}): " ++
      s!"invalid utf-8: invalid UTF-8 in field {cell} near byte index {valid}"

end ProofSize.Csv
