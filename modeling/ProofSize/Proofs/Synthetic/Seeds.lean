import Mathlib.Algebra.Group.Nat.Defs
import Mathlib.Data.List.Nodup
import ProofSize.Proofs.Synthetic.Failing

/-!
# A stream for each row

The stream of a row is made from the seed of the dataset, advanced by the place of the row and
multiplied by an odd word. Neither of the two steps loses anything: an odd word has an inverse modulo
`2 ^ 64`. So the seed of a stream tells the place from all other places of the dataset, and at one place
it tells the dataset from those with another seed.

## Key results

- `rowSeed_eq_iff`: the seeds of two rows are the same if the advanced seeds of their datasets are
- `rowSeed_eq_iff_mod`, `rowSeed_left_inj`: the rows of one dataset, and those at one place
- `nodup_rowSeeds`: no seed occurs twice in a dataset
- `rowSeeds_apart`: rows of a dataset, and rows of different datasets, are made from streams of
  different seeds
-/

namespace ProofSize.Synthetic

open ProofSize.Random

section

variable {seed seed' : UInt64} {i j : Nat}

/-- Multiplication by a word with an inverse loses nothing. -/
theorem mul_left_inj_of_inverse {multiplier inverse : UInt64} (hinverse : multiplier * inverse = 1)
    {a b : UInt64} : a * multiplier = b * multiplier ↔ a = b := by
  constructor
  · intro h
    calc a = a * multiplier * inverse := by rw [UInt64.mul_assoc, hinverse, UInt64.mul_one]
      _ = b * multiplier * inverse := by rw [h]
      _ = b := by rw [UInt64.mul_assoc, hinverse, UInt64.mul_one]
  · exact fun h => h ▸ rfl

/-- The seed of a row tells the seed of the dataset, advanced by the place of the row. -/
theorem rowSeed_eq_iff :
    rowSeed seed i = rowSeed seed' j ↔ seed + UInt64.ofNat i = seed' + UInt64.ofNat j := by
  have hinverse : (0x517cc1b727220a95 : UInt64) * 0x2040003d780970bd = 1 := by decide
  exact mul_left_inj_of_inverse hinverse

/-- Places of one dataset have the same seed only if they are whole rounds of 64-bit words apart. -/
theorem rowSeed_eq_iff_mod :
    rowSeed seed i = rowSeed seed j ↔ i % UInt64.size = j % UInt64.size := by
  rw [rowSeed_eq_iff, UInt64.add_right_inj, ← UInt64.toNat_inj, UInt64.toNat_ofNat',
    UInt64.toNat_ofNat']

/-- At one place two datasets have the same seed only if they are made from the same one. -/
theorem rowSeed_left_inj : rowSeed seed i = rowSeed seed' i ↔ seed = seed' := by
  rw [rowSeed_eq_iff, UInt64.add_left_inj]

/-- Different places below `2 ^ 64` have different seeds. -/
theorem rowSeed_inj (hi : i < UInt64.size) (hj : j < UInt64.size) :
    rowSeed seed i = rowSeed seed j ↔ i = j := by
  rw [rowSeed_eq_iff_mod, Nat.mod_eq_of_lt hi, Nat.mod_eq_of_lt hj]

end

/-- The seeds of the first rows are different words, as long as there are no more rows than words. -/
theorem nodup_rowSeeds (seed : UInt64) {count : Nat} (hcount : count ≤ UInt64.size) :
    ((List.range count).map (rowSeed seed)).Nodup := by
  refine List.Nodup.map_on ?_ List.nodup_range
  intro i hi j hj h
  have hlt {k : Nat} (hk : k ∈ List.range count) : k < UInt64.size :=
    Nat.lt_of_lt_of_le (List.mem_range.1 hk) hcount
  exact (rowSeed_inj (hlt hi) (hlt hj)).1 h

/-- Two places of a dataset have streams of different seeds, and so has one place in two datasets that
    are made from different seeds. In particular every row of a dataset is made from the stream of a
    seed that no other row of it has. -/
theorem rowSeeds_apart :
    (∀ (seed : UInt64) (i j : Nat), i < 2 ^ 64 → j < 2 ^ 64 → i ≠ j →
      rowSeed seed i ≠ rowSeed seed j) ∧
    (∀ (seed seed' : UInt64) (i : Nat), seed ≠ seed' → rowSeed seed i ≠ rowSeed seed' i) ∧
    ∀ (c : Settings) (rs : List Row), rows c = .ok rs →
      ((List.range rs.length).map (rowSeed c.seed)).Nodup ∧
      ∀ (i : Nat) (r : Row), rs[i]? = some r →
        (rowFrom uniform c i (.ofSeed (rowSeed c.seed i))).1 = .ok r := by
  refine ⟨fun seed i j hi hj hne h => hne ((rowSeed_inj hi hj).1 h),
    fun seed seed' i hne h => hne (rowSeed_left_inj.1 h), fun c rs hrs => ?_⟩
  have hcount : rs.length ≤ UInt64.size := by
    obtain ⟨hsize, hrows⟩ := rowsAt_eq_ok_iff.1 hrs
    rw [← hrows.length_eq, List.length_range]
    exact Nat.le_of_lt hsize
  exact ⟨nodup_rowSeeds c.seed hcount, (rowsAt_eq_ok hrs).2⟩

/-- The first place and the last one that has a word of its own, where the greatest seed wraps around.
    A dataset of one batch has six seeds. -/
theorem rowSeeds_apart_atBounds :
    rowSeed 18446744073709551615 0 ≠ rowSeed 18446744073709551615 18446744073709551615 ∧
    rowSeed 0 1 ≠ rowSeed 18446744073709551615 1 ∧
    ∃ rs, rows ⟨1, 5, 4, 18446744073709551615, 71⟩ = .ok rs ∧
      ((List.range rs.length).map (rowSeed 18446744073709551615)).Nodup := by
  obtain ⟨hplaces, hseeds, hrows⟩ := rowSeeds_apart
  refine ⟨hplaces _ _ _ (by decide) (by decide) (by decide), hseeds _ _ _ (by decide), ?_⟩
  have hok : (rows ⟨1, 5, 4, 18446744073709551615, 71⟩).isOk = true := by decide +kernel
  obtain ⟨rs, hrs⟩ := exists_ok_of_isOk hok
  exact ⟨rs, hrs, (hrows _ rs hrs).1⟩

end ProofSize.Synthetic
