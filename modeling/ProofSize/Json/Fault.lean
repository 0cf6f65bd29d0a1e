/-! # Faults in JSON text -/

namespace ProofSize.Json

/-- Why a text is not JSON. -/
inductive Fault where
  /-- No character of this kind may stand here, or a number is too large. -/
  | malformed
  /-- The text ends within a value. -/
  | truncated
  deriving DecidableEq

/-- A character that may stand between the parts of a value. -/
def isBlank (c : Char) : Bool := c == ' ' || c == '\t' || c == '\n' || c == '\r'

/-- The text from the next character on that is not blank. -/
def skipBlanks (cs : List Char) : List Char := cs.dropWhile isBlank

end ProofSize.Json
