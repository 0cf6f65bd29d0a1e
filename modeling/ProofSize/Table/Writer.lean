import ProofSize.Row

/-! # Writing a table of benchmark rows

Tables are written in the layout of the per-scenario runs, with the column of the number of data
structures added. No cell holds anything but digits, so none needs quotation marks; what was not
recorded is an empty cell.
-/

namespace ProofSize.Table

/-- The header names of a written table. -/
def writtenHeader : List String :=
  ["nUpdatesSince", "nUpdates", "nADSModifiedInLastUpdate", "nADSes", "proofSizeTotal",
    "lastUpdateSize", "nSignatures", "signaturesSize", "updateProofSize", "freshnessProofSize",
    "freshnessProofNoOptimizationSize"]

def wordCell (w : UInt64) : String := toString w.toNat

/-- The cells of a row, in the order of the header. -/
def writtenCells (r : Row) : List String :=
  [wordCell r.updatesSinceRefresh,
    wordCell r.totalUpdates,
    (r.adsModified.map fun n => toString n.toNat).getD "",
    (r.adsCount.map wordCell).getD "",
    wordCell r.totalBytes,
    wordCell r.updateBytes,
    wordCell r.signatureCount,
    wordCell r.signatureBytes,
    wordCell r.updateProofBytes,
    wordCell r.freshnessBytes,
    wordCell r.uncachedFreshnessBytes]

/-- A line of cells. -/
def line (cells : List String) : String := ",".intercalate cells ++ "\n"

/-- The text of a table. -/
def text (rows : List Row) : String :=
  String.join (line writtenHeader :: rows.map fun r => line (writtenCells r))

/-- The content of a file that holds the table. -/
def write (rows : List Row) : ByteArray := (text rows).toUTF8

end ProofSize.Table
