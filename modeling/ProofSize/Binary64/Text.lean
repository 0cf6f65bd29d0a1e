import ProofSize.Binary64.Shortest

/-! # Texts of numbers

A number is written either with its shortest decimal, laid out as a `Layout` says, or with a fixed
number of decimal places, rounded from the exact value.
-/

namespace ProofSize.Binary64

/-- Where a shortest decimal is written positionally. -/
structure Layout where
  /-- The least place of a first digit that is written positionally. -/
  lowest : Int
  /-- The greatest place of a first digit that is written positionally. -/
  highest : Int

namespace Layout

/-- Digits of which the first stands at `place`, written positionally and always with a fraction
    part. -/
def positional (digits : List Char) (place : Int) : List Char :=
  if place < 0 then
    '0' :: '.' :: (List.replicate (-place - 1).toNat '0' ++ digits)
  else
    let whole := place.toNat + 1
    let integer := digits.take whole ++ List.replicate (whole - digits.length) '0'
    let fraction := digits.drop whole
    integer ++ '.' :: (if fraction = [] then ['0'] else fraction)

/-- Digits of which the first stands at `place`, written with an exponent. Its sign is always
    written, and a single digit has no fraction part. -/
def exponential (digits : List Char) (place : Int) : List Char :=
  let significand := match digits with
    | d :: e :: ds => d :: '.' :: e :: ds
    | ds => ds
  let sign := if place < 0 then '-' else '+'
  significand ++ 'e' :: sign :: Nat.toDigits 10 place.natAbs

/-- The text of a decimal. -/
def decimal (layout : Layout) (s : Scientific) : List Char :=
  let all := Nat.toDigits 10 s.digits
  let place := s.exponent + all.length - 1
  let digits := (all.reverse.dropWhile (· == '0')).reverse
  if digits = [] then ['0', '.', '0']
  else if layout.lowest ≤ place ∧ place ≤ layout.highest then positional digits place
  else exponential digits place

/-- The text of a finite number. -/
def finite (layout : Layout) (negative : Bool) (m : Magnitude) : String :=
  let sign := if negative then ['-'] else []
  String.ofList (sign ++ layout.decimal m.shortest)

end Layout

/-- The magnitude rounded to a number of decimal places, at least one. -/
def Magnitude.fixed (m : Magnitude) (places : Nat) : List Char :=
  let digits := Nat.toDigits 10 (roundDiv (m.units * Nat.pow 10 places) one)
  let padded := List.replicate (places + 1 - digits.length) '0' ++ digits
  padded.take (padded.length - places) ++ '.' :: padded.drop (padded.length - places)

/-- The number rounded to a number of decimal places, at least one. -/
def fixed (places : Nat) : Binary64 → String
  | nan => "NaN"
  | infinite negative => if negative then "-inf" else "inf"
  | finite negative m =>
    let sign := if negative then ['-'] else []
    String.ofList (sign ++ m.fixed places)

/-- The whole part of a magnitude. -/
def Magnitude.whole (m : Magnitude) : Nat := m.units / one

/-- The magnitude is a whole number. -/
def Magnitude.isWhole (m : Magnitude) : Bool := m.units % one == 0

/-- The number cut to its whole part and kept within 64-bit words: what lies below zero, and what
    is not a number, gives zero, and what is too large gives the greatest word. -/
def toWord : Binary64 → UInt64
  | nan => 0
  | infinite negative => if negative then 0 else UInt64.ofNat (UInt64.size - 1)
  | finite negative m => if negative then 0 else UInt64.ofNat (min m.whole (UInt64.size - 1))

end ProofSize.Binary64
