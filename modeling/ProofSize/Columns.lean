import ProofSize.Error
import ProofSize.Text.Blank

/-! # Columns

A data file names its columns in a header. Every field has a list of header names that stand for it,
its aliases; the first alias that occurs in the header decides, and of equal headers the first.

## Key results
- `Aliases.of_override_self`, `Aliases.of_override_ne`: what an override changes
-/

namespace ProofSize

/-- The header names accepted for each field, in the order in which they are tried. -/
structure Aliases where
  of : Field → List String

namespace Aliases

/-- Names used by the per-scenario runs and, where they differ, by the large-scale runs. -/
def standard : Aliases where
  of
    | .updatesSinceRefresh => ["nUpdatesSince"]
    | .totalUpdates => ["nUpdates"]
    | .adsModified => ["nADSModifiedInLastUpdate"]
    | .signatureCount => ["nSignatures"]
    | .signatureBytes => ["signaturesSize"]
    | .updateBytes => ["lastUpdateSize", "updateSize"]
    | .updateProofBytes => ["updateProofSize"]
    | .freshnessBytes => ["freshnessProofSize"]
    | .uncachedFreshnessBytes => ["freshnessProofNoOptimizationSize"]
    | .totalBytes => ["proofSizeTotal"]
    | .adsCount => ["nADSes"]

/-- The aliases with those of one field replaced. -/
def override (a : Aliases) (field : Field) (names : List String) : Aliases where
  of f := if f = field then names else a.of f

/-- The position of the first header that is accepted for the field. Blanks around a header do not
    count. -/
def resolve? (a : Aliases) (field : Field) (header : List String) : Option Nat :=
  (a.of field).findSome? fun name => header.findIdx? fun h => Blank.trim h == name

/-- A field whose aliases are replaced has the new ones. -/
@[simp] theorem of_override_self (a : Aliases) (field : Field) (names : List String) :
    (a.override field names).of field = names := by
  simp [override]

/-- The other fields keep their aliases. -/
theorem of_override_ne {a : Aliases} {field f : Field} {names : List String} (h : f ≠ field) :
    (a.override field names).of f = a.of f := by
  simp [override, h]

end Aliases

/-- The columns of one data file. -/
structure Columns where
  aliases : Aliases
  header : List String

namespace Columns

/-- The column of a field. -/
def position? (c : Columns) (f : Field) : Option Nat := c.aliases.resolve? f c.header

/-- The field has a column. -/
def has (c : Columns) (f : Field) : Bool := (c.position? f).isSome

/-- The fields that have a column. -/
def fields (c : Columns) : List Field := Field.all.filter c.has

/-- The error for fields that have no column, named by the first of them. -/
def missing (c : Columns) (field : Field) (others : List Field) : ReportError :=
  .missingColumn field ((field :: others).flatMap c.aliases.of)

/-- Every required field has a column, and so has at least one of the update counters. -/
def check (c : Columns) : Except ReportError Unit :=
  match Field.all.find? fun f => f.isRequired && !c.has f with
  | some f => .error (c.missing f [])
  | none =>
    if c.has .updatesSinceRefresh || c.has .totalUpdates then .ok ()
    else .error (c.missing .updatesSinceRefresh [.totalUpdates])

end Columns

end ProofSize
