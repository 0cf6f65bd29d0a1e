import ProofSize.View

/-! # Reports -/

namespace ProofSize

/-- A data file that a report draws on. -/
structure Source where
  path : String
  /-- The digest of the file's content. -/
  sha256 : String
  /-- The number of rows in the file. -/
  rows : Nat
  deriving DecidableEq

/-- The circumstances of a run. -/
structure Run where
  schemaVersion : Nat
  toolVersion : String
  view : String
  sources : List Source
  signatureSize : UInt64
  targetSignatures : UInt64
  timestamp : String
  deriving DecidableEq

/-- What a run has found, and how. -/
structure Report where
  run : Run
  series : List Series
  breakdowns : List ScenarioBreakdown
  deriving DecidableEq

end ProofSize
