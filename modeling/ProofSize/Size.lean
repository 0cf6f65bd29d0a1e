import ProofSize.Binary64.Basic
import ProofSize.Error
import ProofSize.Word

/-! # Derived sizes

Sizes are compared after the signatures that a row happens to carry have been replaced by a common
number of bytes. Every size is the exact integer; a row for which there is none, because its parts
exceed its total or because 64 bits do not hold the result, is an error at the row's place in the
selection.
-/

namespace ProofSize

/-- The bytes of `count` signatures of `size` bytes each. -/
def bytesOfSignatures (size count : UInt64) : Except ReportError UInt64 :=
  (ReportError.overflow (.signatures count size)).require (Word.mul? size count)

/-- The signature bytes to count in an adjusted total. -/
inductive Overhead where
  /-- The signatures that each row carries. -/
  | measured
  /-- The same number of bytes for every row. -/
  | fixed (bytes : UInt64)
  deriving DecidableEq

namespace Overhead

/-- `count` signatures of `size` bytes each. -/
def ofSignatures (size count : UInt64) : Except ReportError Overhead :=
  (bytesOfSignatures size count).map fixed

/-- The signature bytes counted for a row. -/
def bytes : Overhead → Row → UInt64
  | measured, row => row.signatureBytes
  | fixed n, _ => n

end Overhead

namespace Row

/-- The total less the row's own signatures. -/
def strippedTotal (row : Row) (index : Nat) : Except ReportError UInt64 :=
  (ReportError.dataIntegrity index
    (.signaturesExceedTotal row.signatureBytes row.totalBytes)).require
    (Word.sub? row.totalBytes row.signatureBytes)

/-- The total with the row's own signatures replaced by the overhead. -/
def adjustedTotal (o : Overhead) (row : Row) (index : Nat) : Except ReportError UInt64 := do
  let stripped ← row.strippedTotal index
  (ReportError.dataIntegrity index .adjustedTotalOverflow).require
    (Word.add? stripped (o.bytes row))

/-- The adjusted total that the row would have without caching of freshness proofs. -/
def uncachedTotal (o : Overhead) (row : Row) (index : Nat) : Except ReportError UInt64 := do
  let adjusted ← row.adjustedTotal o index
  let extra ← (ReportError.dataIntegrity index
    (.uncachedBelowCached row.uncachedFreshnessBytes row.freshnessBytes)).require
    (Word.sub? row.uncachedFreshnessBytes row.freshnessBytes)
  (ReportError.dataIntegrity index .uncachedTotalOverflow).require (Word.add? adjusted extra)

/-- The share of the data structures that were updated, in percent. -/
def percentUpdated (row : Row) (index : Nat) : Except ReportError Binary64 :=
  match row.adsCount with
  | some n =>
    if n = 0 then .error (.noAdsCount index)
    else .ok (((Binary64.ofWord row.updatesSinceRefresh).mul (.ofNat 100)).div (.ofWord n))
  | none => .error (.noAdsCount index)

/-- The row as if it carried `count` signatures of `size` bytes each. Its total and its update
    change by the difference; its proofs stay as they are. -/
def normalize (row : Row) (size count : UInt64) : Except ReportError Row := do
  let overhead ← bytesOfSignatures size count
  let total ← row.adjustedTotal (.fixed overhead) 0
  let update ← (ReportError.dataIntegrity 0
    (.signaturesExceedUpdate row.signatureBytes row.updateBytes)).require
    ((Word.sub? row.updateBytes row.signatureBytes).bind (Word.add? · overhead))
  return { row with
    signatureCount := count
    signatureBytes := overhead
    updateBytes := update
    totalBytes := total }

end Row

/-- Computes something for each row of a selection, in order. The first row for which it fails
    decides the error. -/
def forRows {α : Type} (f : Row → Nat → Except ReportError α) (rows : List Row) :
    Except ReportError (List α) :=
  rows.zipIdx.mapM fun r => f r.1 r.2

/-- The adjusted total of every row. -/
def adjustedTotals (o : Overhead) (rows : List Row) : Except ReportError (List UInt64) :=
  forRows (Row.adjustedTotal o) rows

/-- The adjusted total that every row would have without caching. -/
def uncachedTotals (o : Overhead) (rows : List Row) : Except ReportError (List UInt64) :=
  forRows (Row.uncachedTotal o) rows

/-- The share of updated data structures of every row. -/
def percentagesUpdated (rows : List Row) : Except ReportError (List Binary64) :=
  forRows Row.percentUpdated rows

/-- The rows that a selector picks, of which there must be one. -/
def Selector.selectSome (s : Selector) (rows : List Row) : Except ReportError (List Row) :=
  match s.select rows with
  | [] => .error (.emptySelection s)
  | selected => .ok selected

/-- What one verification object is made of. -/
structure Breakdown where
  totalBytes : UInt64
  signatureCount : UInt64
  signatureBytes : UInt64
  /-- The total less the signatures. -/
  updateBytes : UInt64
  updateProofBytes : UInt64
  deriving DecidableEq

namespace Breakdown

/-- The breakdown of a row. -/
def ofRow (row : Row) : Except ReportError Breakdown := do
  let stripped ← row.strippedTotal 0
  return ⟨row.totalBytes, row.signatureCount, row.signatureBytes, stripped, row.updateProofBytes⟩

/-- The breakdown of a row, if there is one. -/
def ofRow? (row : Option Row) (what : Representative) : Except ReportError Breakdown := do
  ofRow (← (ReportError.missingRow what).require row)

/-- The breakdown of the first row that a selector picks. -/
def representative (s : Selector) (rows : List Row) : Except ReportError Breakdown :=
  ofRow? (rows.find? s.accepts) (.selected s)

end Breakdown

end ProofSize
