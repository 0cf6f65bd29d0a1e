import ProofSize.Random.ChaCha

/-! # Uniform draws from a range

To draw from the words `lo, …, hi` a word of the stream is multiplied by the number of words in the
range; the high half of the product is the offset of the draw, and a word whose low half is too
large is passed over, so that every offset has equally many words.

## Key results
- `within_uniform`: a draw lies in its range
-/

namespace ProofSize.Random

/-- The greatest low half of a product with `range` that is accepted: `range` shifted up to the top
    of 64 bits, less one. -/
def zone (range : Nat) : Nat := (range <<< (63 - range.log2)) - 1

/-- The number of 64-bit words in a stream before its block numbers repeat: a block has eight. -/
def period : Nat := UInt64.size * 8

/-- The offset of a draw from `range` numbers, taken from the first word that is accepted, or 0 when
    `tries` words have been passed over. -/
def offset (range : Nat) : Nat → Stream → Nat × Stream
  | 0, s => (0, s)
  | tries + 1, s =>
    let next := s.next
    let product := next.1.toNat * range
    if product % UInt64.size ≤ zone range then (product / UInt64.size, next.2)
    else offset range tries next.2

/-- A draw from the words `lo, …, hi`, of which there must be one. -/
@[irreducible] def uniform (lo hi : UInt64) (s : Stream) : UInt64 × Stream :=
  let drawn := offset (hi.toNat - lo.toNat + 1) period s
  (UInt64.ofNat (lo.toNat + drawn.1), drawn.2)

/-- A source of draws from ranges, which are given by their bounds. -/
abbrev Source (σ : Type) := UInt64 → UInt64 → StateM σ UInt64

/-- Every draw from a range lies in the range, if there is a word in it. -/
def Source.Within {σ : Type} (draw : Source σ) : Prop :=
  ∀ (lo hi : UInt64) (s : σ), lo.toNat ≤ hi.toNat →
    lo.toNat ≤ ((draw lo hi).run s).run.1.toNat ∧ ((draw lo hi).run s).run.1.toNat ≤ hi.toNat

/-- A number of draws from one range, the last one first, before those already drawn. -/
def draws {σ : Type} (draw : Source σ) (lo hi : UInt64) :
    Nat → List UInt64 → StateM σ (List UInt64)
  | 0, drawn => return drawn
  | n + 1, drawn => do
    let w ← draw lo hi
    draws draw lo hi n (w :: drawn)

/-- An offset stays within the range. -/
theorem offset_lt {range : Nat} (h : 0 < range) (tries : Nat) (s : Stream) :
    (offset range tries s).1 < range := by
  induction tries generalizing s with
  | zero => exact h
  | succ tries ih =>
    simp only [offset]
    split
    · refine Nat.div_lt_of_lt_mul ?_
      exact Nat.mul_lt_mul_of_pos_right (UInt64.toNat_lt _) h
    · exact ih _

/-- Uniform draws stay within their bounds. -/
theorem within_uniform : Source.Within uniform := by
  intro lo hi s h
  have hpos : 0 < hi.toNat - lo.toNat + 1 := Nat.succ_pos _
  have hlt := offset_lt hpos period s
  have hhi := UInt64.toNat_lt_size hi
  have hsum : lo.toNat + (offset (hi.toNat - lo.toNat + 1) period s).1 < UInt64.size := by omega
  show lo.toNat ≤ (uniform lo hi s).1.toNat ∧ (uniform lo hi s).1.toNat ≤ hi.toNat
  unfold uniform
  dsimp only
  rw [UInt64.toNat_ofNat_of_lt' hsum]
  omega

end ProofSize.Random
