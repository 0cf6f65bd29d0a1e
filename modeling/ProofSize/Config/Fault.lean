import ProofSize.Binary64.Text
import ProofSize.Field
import ProofSize.Json.Fault
import ProofSize.Text.Quoted

/-! # Why a configuration cannot be read -/

namespace ProofSize

/-- How a number is written in a report and in a message about a configuration: positionally from
    `0.00001` up to below `10 ^ 16`, otherwise with an exponent. -/
def numberLayout : Binary64.Layout := ⟨-5, 15⟩

namespace Config

/-- A value found where another kind of value was expected. -/
inductive Found where
  | integer (n : Int)
  | number (negative : Bool) (magnitude : Binary64.Magnitude)
  | boolean (b : Bool)
  | text (s : String)
  | null
  | list
  | table
  deriving DecidableEq

def Found.message : Found → String
  | integer n => s!"integer `{n}`"
  | number negative m => s!"floating point `{numberLayout.finite negative m}`"
  | boolean b => s!"boolean `{b}`"
  | text s => s!"string {Quoted.quote s}"
  | null => "null"
  | list => "sequence"
  | table => "map"

/-- A kind of value that a configuration expects. -/
inductive Expected where
  | word
  | list
  | table
  | text
  | config
  deriving DecidableEq

def Expected.message : Expected → String
  | word => "u64"
  | list => "a sequence"
  | table => "a map"
  | text => "a string"
  | config => "struct ReportConfig"

/-- Why a configuration cannot be read. -/
inductive Fault where
  /-- The text is not JSON. -/
  | json (fault : Json.Fault)
  /-- A value is not of the kind expected. -/
  | wrongKind (found : Found) (expected : Expected)
  /-- A negative integer stands where a word is expected. -/
  | negativeWord (n : Int)
  /-- A key of the configuration is given twice. -/
  | repeatedKey (key : String)
  /-- A column is configured for no field. -/
  | unknownField (name : String)
  deriving DecidableEq

def Fault.message : Fault → String
  | json .malformed => "malformed JSON"
  | json .truncated => "unexpected end of JSON"
  | wrongKind found expected => s!"invalid type: {found.message}, expected {expected.message}"
  | negativeWord n => s!"invalid value: integer `{n}`, expected u64"
  | repeatedKey key => s!"duplicate field `{key}`"
  | unknownField name =>
    s!"unknown variant `{name}`, expected one of " ++
      ", ".intercalate (Field.all.map fun f => s!"`{f.name}`")

end Config

end ProofSize
