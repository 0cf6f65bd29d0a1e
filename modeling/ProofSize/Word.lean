/-! # Checked arithmetic on 64-bit words

Sizes and counters are 64-bit words, and no sum, difference or product of them may wrap around.
Each operation here takes the exact result in the natural numbers and gives the word of that value,
or nothing where no word has it.

## Key results
- `ofNat?_eq_some_iff`, `ofNat?_eq_none_iff`: which naturals are words
- `add?_eq_some_iff`, `sub?_eq_some_iff`, `mul?_eq_some_iff`: a result is the exact one
- `add?_eq_none_iff`, `sub?_eq_none_iff`, `mul?_eq_none_iff`: when there is none
- `total_cons`: the exact sum of a list
-/

namespace ProofSize.Word

/-- The word of value `n`, if 64 bits hold it. -/
def ofNat? (n : Nat) : Option UInt64 :=
  if n < UInt64.size then some (UInt64.ofNat n) else none

/-- The sum of two words. -/
def add? (a b : UInt64) : Option UInt64 := ofNat? (a.toNat + b.toNat)

/-- The first word less the second. -/
def sub? (a b : UInt64) : Option UInt64 :=
  if b.toNat ≤ a.toNat then ofNat? (a.toNat - b.toNat) else none

/-- The product of two words. -/
def mul? (a b : UInt64) : Option UInt64 := ofNat? (a.toNat * b.toNat)

/-- The exact sum of the words. -/
def total (words : List UInt64) : Nat := words.foldl (fun n w => n + w.toNat) 0

/-- A natural number is a word if it is the value of that word. -/
theorem ofNat?_eq_some_iff {n : Nat} {w : UInt64} : ofNat? n = some w ↔ w.toNat = n := by
  unfold ofNat?
  constructor
  · intro h
    split at h
    · rename_i hn
      obtain rfl := Option.some.inj h
      exact UInt64.toNat_ofNat_of_lt' hn
    · exact absurd h (by simp)
  · rintro rfl
    rw [if_pos (UInt64.toNat_lt w), UInt64.ofNat_toNat]

/-- A natural number is no word if 64 bits do not hold it. -/
theorem ofNat?_eq_none_iff {n : Nat} : ofNat? n = none ↔ UInt64.size ≤ n := by
  unfold ofNat?
  split <;> simp <;> omega

/-- A number below the size of words is the value of a word. -/
theorem exists_toNat_eq {n : Nat} (h : n < UInt64.size) : ∃ w : UInt64, w.toNat = n :=
  ⟨UInt64.ofNat n, UInt64.toNat_ofNat_of_lt' h⟩

/-- The value of a word is that word. -/
@[simp] theorem ofNat?_toNat (w : UInt64) : ofNat? w.toNat = some w :=
  ofNat?_eq_some_iff.2 rfl

/-- A sum of words is exact. -/
theorem add?_eq_some_iff {a b c : UInt64} : add? a b = some c ↔ c.toNat = a.toNat + b.toNat :=
  ofNat?_eq_some_iff

/-- Two words have no sum if 64 bits do not hold it. -/
theorem add?_eq_none_iff {a b : UInt64} : add? a b = none ↔ UInt64.size ≤ a.toNat + b.toNat :=
  ofNat?_eq_none_iff

/-- A difference of words is exact. -/
theorem sub?_eq_some_iff {a b c : UInt64} : sub? a b = some c ↔ c.toNat + b.toNat = a.toNat := by
  unfold sub?
  split
  · rw [ofNat?_eq_some_iff]; omega
  · simp; omega

/-- Two words have no difference if the second is the greater one. -/
theorem sub?_eq_none_iff {a b : UInt64} : sub? a b = none ↔ a.toNat < b.toNat := by
  unfold sub?
  split
  · rw [ofNat?_eq_none_iff]; have := UInt64.toNat_lt_size a; omega
  · simp; omega

/-- A product of words is exact. -/
theorem mul?_eq_some_iff {a b c : UInt64} : mul? a b = some c ↔ c.toNat = a.toNat * b.toNat :=
  ofNat?_eq_some_iff

/-- Two words have no product if 64 bits do not hold it. -/
theorem mul?_eq_none_iff {a b : UInt64} : mul? a b = none ↔ UInt64.size ≤ a.toNat * b.toNat :=
  ofNat?_eq_none_iff

/-- No words sum up to zero. -/
@[simp] theorem total_nil : total [] = 0 := rfl

/-- The first word counts once, and the others as they do by themselves. -/
@[simp] theorem total_cons (w : UInt64) (words : List UInt64) :
    total (w :: words) = w.toNat + total words := by
  -- the sum may start from any number, which is added to the total
  have h (words : List UInt64) (n : Nat) :
      words.foldl (fun n w => n + w.toNat) n = n + total words := by
    induction words generalizing n with
    | nil => rfl
    | cons w ws ih =>
      rw [total, List.foldl_cons, List.foldl_cons, ih, ih (0 + w.toNat)]
      omega
  rw [total, List.foldl_cons, h, Nat.zero_add]

end ProofSize.Word
