/-! # Benchmark rows -/

namespace ProofSize

/-- What was measured for one update of the server. All sizes are in bytes. -/
structure Row where
  /-- Modifications of other objects since this object's proof was refreshed. -/
  updatesSinceRefresh : UInt64
  /-- Modifications that the server has processed altogether. -/
  totalUpdates : UInt64
  /-- Distinct data structures that the update touched; not recorded in large-scale runs. -/
  adsModified : Option UInt32
  signatureCount : UInt64
  signatureBytes : UInt64
  /-- The update itself, signatures included. -/
  updateBytes : UInt64
  updateProofBytes : UInt64
  /-- The freshness proof when unchanged parts of paths are cached. -/
  freshnessBytes : UInt64
  /-- The freshness proof when full paths are sent every time. -/
  uncachedFreshnessBytes : UInt64
  /-- The whole verification object. -/
  totalBytes : UInt64
  /-- Data structures that the server tracks; recorded in large-scale runs. -/
  adsCount : Option UInt64
  deriving DecidableEq

end ProofSize
