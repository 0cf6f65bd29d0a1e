import ProofSize.Binary64.Basic
import ProofSize.Json.Fault

/-! # Numbers in JSON

A number is an integer when it has neither a fraction nor an exponent and 64 bits hold it, signed if
there is a minus sign; minus zero is no integer. Any other number is a binary64 number: its first
digits make up a significand of at most 64 bits, which is multiplied or divided by a power of ten.
A number beyond the greatest finite one is a fault.
-/

namespace ProofSize.Json

/-- A number as it is read. -/
inductive Number where
  | natural (n : UInt64)
  /-- A negative integer, by its absolute value. -/
  | negative (n : Nat)
  | binary64 (negative : Bool) (magnitude : Binary64.Magnitude)
  deriving DecidableEq

/-- Digits behind a significand, with the number of digits taken up. Digits are appended until one
    does not fit into 64 bits. -/
def appendDigits : Nat → Nat → List Char → Nat × Nat
  | significand, taken, [] => (significand, taken)
  | significand, taken, c :: cs =>
    let n := 10 * significand + (c.toNat - '0'.toNat)
    if n < UInt64.size then appendDigits n (taken + 1) cs else (significand, taken)

/-- The parts of a number without its sign. -/
structure Parts where
  significand : Nat
  exponent : Int
  /-- There is neither a fraction nor an exponent, and the significand holds every digit. -/
  isInteger : Bool

/-- Splits the digits off the front. -/
def spanDigits (cs : List Char) : List Char × List Char := cs.span Char.isDigit

/-- The fault where a digit is due. -/
def noDigit : List Char → Fault
  | [] => .truncated
  | _ => .malformed

/-- The exponent that ends a number, if there is one. -/
def readExponent (p : Parts) (cs : List Char) : Except Fault (Parts × List Char) :=
  let signed (sign : Int) (cs : List Char) : Except Fault (Parts × List Char) :=
    let (digits, rest) := spanDigits cs
    if digits = [] then .error (noDigit cs)
    else .ok (⟨p.significand, p.exponent + sign * Nat.ofDigitChars 10 digits 0, false⟩, rest)
  match cs with
  | 'e' :: '-' :: cs | 'E' :: '-' :: cs => signed (-1) cs
  | 'e' :: '+' :: cs | 'E' :: '+' :: cs => signed 1 cs
  | 'e' :: cs | 'E' :: cs => signed 1 cs
  | cs => .ok (p, cs)

/-- The fraction and exponent that end a number, where there are any. -/
def readFraction (p : Parts) (cs : List Char) : Except Fault (Parts × List Char) :=
  match cs with
  | '.' :: cs =>
    let (digits, rest) := spanDigits cs
    if digits = [] then .error (noDigit cs)
    else
      let (significand, taken) := appendDigits p.significand 0 digits
      readExponent ⟨significand, p.exponent - taken, false⟩ rest
  | cs => readExponent p cs

/-- The parts of a number from its first digit on. The first of several digits is not a zero. -/
def readParts (cs : List Char) : Except Fault (Parts × List Char) :=
  let (digits, rest) := spanDigits cs
  match digits with
  | [] => .error (noDigit cs)
  | '0' :: _ :: _ => .error .malformed
  | _ =>
    let (significand, taken) := appendDigits 0 0 digits
    readFraction ⟨significand, digits.length - taken, taken = digits.length⟩ rest

/-- The greatest exponent of a power of ten that the format holds. -/
def greatestPower : Nat := 308

/-- A number times a power of ten. A power too small for the format is reached in steps, `steps` of
    them at most. -/
def scale (x : Binary64) (exponent : Int) : Nat → Binary64
  | 0 => x
  | steps + 1 =>
    if exponent < -greatestPower then
      scale (x.div (.ofDecimal false 1 greatestPower)) (exponent + greatestPower) steps
    else if exponent < 0 then x.div (.ofDecimal false 1 (-exponent))
    else x.mul (.ofDecimal false 1 exponent)

/-- The magnitude of the number. Two steps take every significand to zero. -/
def Parts.magnitude? (p : Parts) : Option Binary64.Magnitude :=
  if p.significand = 0 then some .zero
  else if greatestPower < p.exponent then none
  else
    match scale (.ofNat p.significand) p.exponent 3 with
    | .finite _ m => some m
    | _ => none

/-- The number that the parts denote. -/
def Parts.number (p : Parts) (isNegative : Bool) : Except Fault Number :=
  if p.isInteger ∧ isNegative = false then .ok (.natural (UInt64.ofNat p.significand))
  else if p.isInteger ∧ 0 < p.significand ∧ p.significand ≤ UInt64.size / 2 then
    .ok (.negative p.significand)
  else
    match p.magnitude? with
    | some m => .ok (.binary64 isNegative m)
    | none => .error .malformed

/-- Reads a number from its sign or first digit on. -/
def readNumber (cs : List Char) : Except Fault (Number × List Char) := do
  match cs with
  | '-' :: cs =>
    let (parts, rest) ← readParts cs
    return (← parts.number true, rest)
  | cs =>
    let (parts, rest) ← readParts cs
    return (← parts.number false, rest)

end ProofSize.Json
