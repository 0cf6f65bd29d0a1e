/-! # Blank characters

A blank is a character of Unicode's property `White_Space`. Headers and cells of a data file are
read without the blanks around them.

## Key results
- `trimBy_eq_self`: what neither starts nor ends with a blank is kept whole
-/

namespace ProofSize.Blank

/-- The characters of `White_Space`, as ranges of code points. -/
def ranges : List (Nat × Nat) :=
  [(0x09, 0x0d), (0x20, 0x20), (0x85, 0x85), (0xa0, 0xa0), (0x1680, 0x1680), (0x2000, 0x200a),
    (0x2028, 0x2029), (0x202f, 0x202f), (0x205f, 0x205f), (0x3000, 0x3000)]

def isBlank (c : Char) : Bool := ranges.any (fun r => r.1 ≤ c.toNat && c.toNat ≤ r.2)

/-- A list less the elements of a kind at either end. -/
def trimBy {α : Type} (p : α → Bool) (xs : List α) : List α :=
  ((xs.dropWhile p).reverse.dropWhile p).reverse

/-- The text less the blanks at either end. -/
def trim (s : String) : String := String.ofList (trimBy isBlank s.toList)

/-- The byte is a space, tab, line feed, form feed or carriage return. -/
def isBlankByte (b : UInt8) : Bool :=
  b == 0x20 || b == 0x09 || b == 0x0a || b == 0x0c || b == 0x0d

/-- The bytes less the blanks at either end. -/
def trimBytes (bytes : List UInt8) : List UInt8 := trimBy isBlankByte bytes

/-- A text with nothing to trim at either end stays as it is. -/
theorem trimBy_eq_self {α : Type} {p : α → Bool} {xs : List α}
    (hd : ∀ x, xs.head? = some x → p x = false) (hl : ∀ x, xs.getLast? = some x → p x = false) :
    trimBy p xs = xs := by
  have keep : ∀ l : List α, (∀ x, l.head? = some x → p x = false) → l.dropWhile p = l := by
    intro l hl
    cases l with
    | nil => rfl
    | cons x l => simp [hl x rfl]
  rw [trimBy, keep xs hd, keep xs.reverse (by simpa using hl), List.reverse_reverse]

end ProofSize.Blank
