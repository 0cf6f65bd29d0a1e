import ProofSize.Word

/-! # Decimal numbers

Decimal digits as they are written in data files and on the command line.

## Key results
- `parse?_toDigits`: the digits of a number read back as the number
- `parseWord?_toString`: a word's text reads back as the word
-/

namespace ProofSize.Decimal

/-- The number that one or more ASCII digits denote. -/
def parse? (cs : List Char) : Option Nat :=
  if cs ≠ [] ∧ cs.all Char.isDigit = true then some (Nat.ofDigitChars 10 cs 0) else none

/-- The word that an optional plus sign and one or more digits denote. -/
def parseWord? (s : String) : Option UInt64 :=
  match s.toList with
  | '+' :: cs => (parse? cs).bind Word.ofNat?
  | cs => (parse? cs).bind Word.ofNat?

/-- The digits of a number are read as the number. -/
theorem parse?_toDigits (n : Nat) : parse? (Nat.toDigits 10 n) = some n := by
  have digits : ∀ c ∈ Nat.toDigits 10 n, c.isDigit = true := fun c hc =>
    Nat.isDigit_of_mem_toDigits (by decide) (by decide) hc
  rw [parse?, if_pos ⟨Nat.toDigits_ne_nil, List.all_eq_true.2 digits⟩,
    Nat.ofDigitChars_ten_toDigits]

/-- A word that is written is read as itself. -/
theorem parseWord?_toString (w : UInt64) : parseWord? (toString w.toNat) = some w := by
  have hl : (toString w.toNat).toList = Nat.toDigits 10 w.toNat := Nat.toList_repr
  unfold parseWord?
  rw [hl]
  split
  · rename_i cs h
    have : ('+' : Char).isDigit = true :=
      Nat.isDigit_of_mem_toDigits (b := 10) (n := w.toNat) (by decide) (by decide) (by simp [h])
    exact absurd this (by decide)
  · simp [parse?_toDigits]

end ProofSize.Decimal
