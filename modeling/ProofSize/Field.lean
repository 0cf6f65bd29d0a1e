/-! # The recorded quantities

One benchmark record holds eleven quantities. `Field` names them; a data file may leave out some of
them, and may leave the cells of two of them empty.
-/

namespace ProofSize

/-- A quantity recorded for one update of the server. -/
inductive Field where
  | updatesSinceRefresh
  | totalUpdates
  | adsModified
  | signatureCount
  | signatureBytes
  | updateBytes
  | updateProofBytes
  | freshnessBytes
  | uncachedFreshnessBytes
  | totalBytes
  | adsCount
  deriving DecidableEq

namespace Field

/-- Every field, in the order in which fields are looked up, reported and listed. -/
def all : List Field :=
  [updatesSinceRefresh, totalUpdates, adsModified, signatureCount, signatureBytes, updateBytes,
    updateProofBytes, freshnessBytes, uncachedFreshnessBytes, totalBytes, adsCount]

/-- The name by which messages, reports and configurations call the field. -/
def name : Field → String
  | updatesSinceRefresh => "updates_since_last_refresh"
  | totalUpdates => "total_updates_processed"
  | adsModified => "ads_modified_in_update"
  | signatureCount => "signature_count"
  | signatureBytes => "signatures_byte_size"
  | updateBytes => "update_byte_size"
  | updateProofBytes => "update_proof_byte_size"
  | freshnessBytes => "freshness_proof_byte_size"
  | uncachedFreshnessBytes => "freshness_proof_unoptimized_byte_size"
  | totalBytes => "total_proof_byte_size"
  | adsCount => "ads_count"

/-- A file without a column for the field cannot be read. The two update counters are not required
    one by one, because each stands in for the other. -/
def isRequired : Field → Bool
  | updatesSinceRefresh | totalUpdates | adsModified | adsCount => false
  | _ => true

/-- An empty cell means that the quantity was not recorded. -/
def isNullable : Field → Bool
  | adsModified | adsCount => true
  | _ => false

/-- The field of that name. -/
def ofName? (s : String) : Option Field := all.find? (fun f => f.name == s)

/-- All fields are listed. -/
theorem mem_all (f : Field) : f ∈ all := by
  cases f <;> decide

/-- A field is found by its name. -/
@[simp] theorem ofName?_name (f : Field) : ofName? f.name = some f := by
  cases f <;> decide

end Field

end ProofSize
