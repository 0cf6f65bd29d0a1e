import ProofSize.Columns
import ProofSize.Size

/-! # Configurations

What a run of a report can vary: the signatures that rows are compared on, and the header names of
its data files.
-/

namespace ProofSize

/-- The parameters of a run. -/
structure Config where
  /-- Bytes of one signature. -/
  signatureSize : UInt64
  /-- Signatures that transfers and loans are compared on. -/
  targetSignatures : UInt64
  /-- Signature counts that are compared with each other. -/
  signatureCounts : List UInt64
  /-- For some fields, the header names that replace the standard ones. -/
  columns : Field → Option (List String)

namespace Config

/-- The parameters of the measured deployment. -/
def standard : Config where
  signatureSize := 71
  targetSignatures := 3
  signatureCounts := [2, 4]
  columns _ := none

/-- The header names that the run accepts. -/
def aliases (c : Config) : Aliases where
  of f := (c.columns f).getD (Aliases.standard.of f)

/-- The header names for one field replaced. -/
def withColumn (c : Config) (field : Field) (names : List String) : Config :=
  { c with columns := fun f => if f = field then some names else c.columns f }

/-- The signature bytes that compared rows are charged. -/
def targetBytes (c : Config) : Except ReportError UInt64 :=
  bytesOfSignatures c.signatureSize c.targetSignatures

/-- The signature bytes counted for rows of a scenario. -/
def overhead (c : Config) (s : Scenario) : Except ReportError Overhead :=
  if s.normalizesSignatures then c.targetBytes.map .fixed else .ok .measured

end Config

end ProofSize
