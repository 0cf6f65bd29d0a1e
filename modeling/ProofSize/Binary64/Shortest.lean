import ProofSize.Binary64.Basic

/-! # The shortest decimal of a number

Among the decimals that round to a given magnitude, the shortest has the fewest significant digits;
of several it is the nearest, and of two equally near the one with an even last digit. On the grid
of decimals with a given last place the only candidates are the two neighbours of the magnitude: if
any point of the grid rounds to it, so does one of these.

## Key results
- `shortest_readsBack`: the shortest decimal denotes the magnitude
-/

namespace ProofSize.Binary64

/-- The decimal number `digits * 10 ^ exponent`. -/
structure Scientific where
  digits : Nat
  exponent : Int
  deriving DecidableEq

namespace Scientific

/-- The magnitude that the decimal denotes, if it is not too large. -/
def magnitude? (s : Scientific) : Option Magnitude :=
  Magnitude.ofRatio? (s.digits * Nat.pow 10 s.exponent.toNat * one)
    (Nat.pow 10 (-s.exponent).toNat)

end Scientific

namespace Magnitude

/-- How many decimal digits a natural number has. -/
def digitCount (n : Nat) : Nat := (Nat.toDigits 10 n).length

/-- The place of the first significant digit: `e` where `10 ^ e ≤ m < 10 ^ (e + 1)`. -/
def leadingPlace (m : Magnitude) : Int :=
  if one ≤ m.units then (digitCount (m.units / one) : Int) - 1
  else -(digitCount ((one + m.units - 1) / m.units - 1) : Int)

/-- The neighbours of the magnitude among the multiples of `10 ^ place`, the nearer one first. -/
def neighbours (m : Magnitude) (place : Int) : List Scientific :=
  let n := m.units * Nat.pow 10 (-place).toNat
  let d := one * Nat.pow 10 place.toNat
  let below := n / d
  if below = roundDiv n d then [⟨below, place⟩, ⟨below + 1, place⟩]
  else [⟨below + 1, place⟩, ⟨below, place⟩]

/-- The magnitude's own decimal expansion, which ends because `2` divides `10`. -/
def expansion (m : Magnitude) : Scientific := ⟨m.units * Nat.pow 5 unitPlaces, -unitPlaces⟩

/-- The decimals tried, those with fewer digits first. -/
def candidates (m : Magnitude) : List Scientific :=
  (List.range 17).flatMap fun n : Nat => m.neighbours (m.leadingPlace - n)

/-- The shortest decimal that denotes the magnitude. Seventeen digits always suffice. -/
def shortest (m : Magnitude) : Scientific :=
  (m.candidates.find? fun s => s.magnitude? == some m).getD m.expansion

/-- The full expansion of a number reads back as that number. -/
theorem expansion_readsBack (m : Magnitude) : m.expansion.magnitude? = some m := by
  have up : (-(unitPlaces : Int)).toNat = 0 := by omega
  have down : (-(-(unitPlaces : Int))).toNat = unitPlaces := by omega
  have key (k : Nat) :
      ofRatio? (m.units * Nat.pow 5 k * Nat.pow 10 0 * Nat.pow 2 k) (Nat.pow 10 k) = some m := by
    have zero : Nat.pow 10 0 = 1 := rfl
    have ten : Nat.pow 5 k * Nat.pow 2 k = Nat.pow 10 k := by simp only [Nat.pow_eq, ← Nat.mul_pow]
    rw [zero, Nat.mul_one, Nat.mul_assoc, ten]
    exact ofRatio?_units m (Nat.pow_pos (by decide))
  simp only [Scientific.magnitude?, expansion, up, down]
  unfold one
  generalize unitPlaces = k
  exact key k

/-- The shortest digits of a number read back as that number. -/
theorem shortest_readsBack (m : Magnitude) : m.shortest.magnitude? = some m := by
  unfold shortest
  cases h : m.candidates.find? fun s => s.magnitude? == some m with
  | none => exact expansion_readsBack m
  | some s =>
    have hit := List.find?_some h
    exact eq_of_beq hit

end Magnitude

end ProofSize.Binary64
