/-! # Rounding a quotient to the nearest integer

`roundDiv n d` is the integer nearest to `n / d`; of two integers equally near it is the even one.

## Key results
- `two_mul_le_roundDiv`, `roundDiv_le_two_mul`: the result is within half a unit of the quotient
- `roundDiv_mul_right`: an exact quotient is kept
- `roundDiv_mul_mul_right`: the quotient decides, however it is written
-/

namespace ProofSize

/-- The integer nearest to `n / d`, a half going to the even neighbour. -/
def roundDiv (n d : Nat) : Nat :=
  if 2 * (n % d) < d ∨ (2 * (n % d) = d ∧ n / d % 2 = 0) then n / d else n / d + 1

/-- A rounded quotient is not below the quotient that is rounded down. -/
theorem div_le_roundDiv (n d : Nat) : n / d ≤ roundDiv n d := by
  unfold roundDiv; split <;> omega

/-- It is above that by one at most. -/
theorem roundDiv_le_div_add_one (n d : Nat) : roundDiv n d ≤ n / d + 1 := by
  unfold roundDiv; split <;> omega

/-- The result exceeds the quotient by at most a half. -/
theorem roundDiv_le_two_mul {n d : Nat} : 2 * (roundDiv n d * d) ≤ 2 * n + d := by
  have hn := Nat.div_add_mod n d
  rw [Nat.mul_comm] at hn
  unfold roundDiv
  split
  · omega
  · rename_i h
    have : d ≤ 2 * (n % d) := by omega
    rw [Nat.add_mul, Nat.one_mul]
    omega

/-- The result falls short of the quotient by at most a half. -/
theorem two_mul_le_roundDiv {n d : Nat} (hd : 0 < d) : 2 * n ≤ 2 * (roundDiv n d * d) + d := by
  have hn := Nat.div_add_mod n d
  have hm := Nat.mod_lt n hd
  rw [Nat.mul_comm] at hn
  unfold roundDiv
  split
  · rename_i h
    have : 2 * (n % d) ≤ d := by omega
    omega
  · rw [Nat.add_mul, Nat.one_mul]
    omega

/-- A quotient without rest is not rounded. -/
theorem roundDiv_mul_right {k d : Nat} (hd : 0 < d) : roundDiv (k * d) d = k := by
  simp [roundDiv, Nat.mul_div_cancel _ hd, hd]

/-- A common factor does not matter to a rounded quotient. -/
theorem roundDiv_mul_mul_right {k : Nat} (hk : 0 < k) (n d : Nat) :
    roundDiv (n * k) (d * k) = roundDiv n d := by
  have hlt : 2 * (n % d * k) < d * k ↔ 2 * (n % d) < d := by
    rw [← Nat.mul_assoc, Nat.mul_lt_mul_right hk]
  have heq : 2 * (n % d * k) = d * k ↔ 2 * (n % d) = d := by
    rw [← Nat.mul_assoc, Nat.mul_left_inj (by omega)]
  simp only [roundDiv, Nat.mul_mod_mul_right, Nat.mul_div_mul_right n d hk, hlt, heq]

end ProofSize
