import ProofSize.Config.Fault
import ProofSize.Csv.Record
import ProofSize.Files.Fault
import ProofSize.Scenario

/-! # Errors

Every way in which loading rows or deriving sizes from them can fail, and the text that tells it.
-/

namespace ProofSize

/-- What is inconsistent within one row. -/
inductive Inconsistency where
  | signaturesExceedTotal (signatures total : UInt64)
  | adjustedTotalOverflow
  | uncachedBelowCached (uncached cached : UInt64)
  | uncachedTotalOverflow
  | signaturesExceedUpdate (signatures update : UInt64)
  deriving DecidableEq

def Inconsistency.message : Inconsistency → String
  | signaturesExceedTotal signatures total =>
    s!"signature bytes {signatures.toNat} exceed total proof bytes {total.toNat}"
  | adjustedTotalOverflow => "adjusted total overflows u64"
  | uncachedBelowCached uncached cached =>
    s!"un-cached freshness proof {uncached.toNat} is smaller than cached {cached.toNat}"
  | uncachedTotalOverflow => "un-cached total overflows u64"
  | signaturesExceedUpdate signatures update =>
    s!"signature bytes {signatures.toNat} exceed update bytes {update.toNat}"

/-- A computed quantity that 64 bits may not hold. -/
inductive Quantity where
  | signatures (count size : UInt64)
  | rowCount
  | updatesSinceRefresh
  | signatureSize
  | signatureBytes
  | updateBytes
  | updateProofBytes
  | freshnessBytes
  | uncachedFreshnessBytes
  | totalBytes
  deriving DecidableEq

def Quantity.message : Quantity → String
  | signatures count size => s!"{count.toNat} signatures of {size.toNat} bytes"
  | rowCount => "row count"
  | updatesSinceRefresh => "updates since last refresh"
  | signatureSize => "signature size"
  | signatureBytes => "signatures size"
  | updateBytes => "update size"
  | updateProofBytes => "update proof size"
  | freshnessBytes => "freshness proof size"
  | uncachedFreshnessBytes => "un-cached freshness proof size"
  | totalBytes => "total proof size"

/-- What a representative row is looked for. -/
inductive Representative where
  | breakdown
  | selected (selector : Selector)
  deriving DecidableEq

def Representative.message : Representative → String
  | breakdown => "breakdown"
  | selected selector => selector.text

/-- Why rows cannot be loaded or sizes not derived. -/
inductive ReportError where
  | emptySelection (selector : Selector)
  /-- The row at `index` of the selection contradicts itself. -/
  | dataIntegrity (index : Nat) (reason : Inconsistency)
  | missingRow (what : Representative)
  /-- The row at `index` of the selection has no data structures to take a share of. -/
  | noAdsCount (index : Nat)
  | overflow (what : Quantity)
  /-- No header is accepted for the field. -/
  | missingColumn (field : Field) (accepted : List String)
  /-- A cell holds no acceptable number. -/
  | invalidValue (record : Nat) (column value : String)
  | csv (fault : Csv.Fault)
  | file (fault : Files.Fault)
  | config (fault : Config.Fault)
  deriving DecidableEq

def ReportError.message : ReportError → String
  | emptySelection selector => s!"no rows match selector {selector.text}"
  | dataIntegrity index reason =>
    s!"data integrity violated at selected row {index}: {reason.message}"
  | missingRow what => s!"no representative row for {what.message}"
  | noAdsCount index => s!"ads count is zero or missing at selected row {index}"
  | overflow what => s!"{what.message} does not fit in 64 bits"
  | missingColumn field accepted =>
    s!"no column for {field.name} (accepted headers: " ++ ", ".intercalate accepted ++ ")"
  | invalidValue record column value =>
    s!"record {record}: column {column} holds {Quoted.quote value}, " ++
      "expected a non-negative integer"
  | csv fault => s!"csv error: {fault.message}"
  | file fault => s!"io error: {fault.message}"
  | config fault => s!"config error: {fault.message}"

/-- The value, or the error that tells why there is none. -/
def ReportError.require {α : Type} (e : ReportError) : Option α → Except ReportError α
  | some a => .ok a
  | none => .error e

@[simp] theorem ReportError.require_some {α : Type} (e : ReportError) (a : α) :
    e.require (some a) = .ok a := rfl

@[simp] theorem ReportError.require_none {α : Type} (e : ReportError) :
    e.require (none : Option α) = .error e := rfl

end ProofSize
