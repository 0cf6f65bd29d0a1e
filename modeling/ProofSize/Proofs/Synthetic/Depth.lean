import Mathlib.Algebra.Group.Nat.Defs
import Mathlib.Data.Nat.Log
import ProofSize.Synthetic

/-!
# The depth of a tree

The depth is found from the number of bits of the greatest leaf. It is the binary logarithm of the
number of leaves, rounded up, so a server with more data structures has no smaller depth, and even for
the greatest number of them the sizes of paths are words.

## Key results

- `treeDepth_eq_sub_clz`: the depth by the leading zeros of a word
- `treeDepth_eq_clog`: the depth as a logarithm
- `treeDepth_le_treeDepth`: the order of depths
- `pathBytes_eq`, `resentBytes_eq`, `mul?_treeDepth`: the sizes of paths
- `treeDepth_ceils_log`: the depth between powers of two, its bounds and what is derived from it
-/

namespace ProofSize.Synthetic

section

variable {n m : UInt64}

/-- The leaf of the greatest number in a tree. -/
private theorem toNat_lastLeaf (n : UInt64) : (max n 2 - 1).toNat = max n.toNat 2 - 1 := by
  have hmax : (max n 2).toNat = max n.toNat 2 := by
    show (if n ≤ 2 then 2 else n).toNat = max n.toNat 2
    split
    · rename_i hle
      exact (Nat.max_eq_right (UInt64.le_iff_toNat_le.1 hle)).symm
    · rename_i hlt
      exact (Nat.max_eq_left (Nat.le_of_not_le fun h => hlt (UInt64.le_iff_toNat_le.2 h))).symm
  have hone : (1 : UInt64) ≤ max n 2 := by
    rw [UInt64.le_iff_toNat_le, hmax]
    exact Nat.le_trans (by decide) (Nat.le_max_right _ _)
  rw [UInt64.toNat_sub_of_le _ _ hone, hmax]
  rfl

/-- The depth is the number of bits of the greatest leaf, in a word of 64 bits. -/
theorem treeDepth_eq_sub_clz (n : UInt64) :
    treeDepth n = 64 - (max n 2 - 1).toBitVec.clz.toNat := by
  have hleaf : (max n 2 - 1).toBitVec.toNat = max n.toNat 2 - 1 := toNat_lastLeaf n
  -- there are two leaves at least, so the last one is not the first
  have hne : (max n 2 - 1).toBitVec ≠ 0#64 := by
    intro h
    have hzero := congrArg BitVec.toNat h
    rw [hleaf, BitVec.toNat_zero] at hzero
    omega
  have hhigh := BitVec.toNat_lt_two_pow_sub_clz (x := (max n 2 - 1).toBitVec)
  have hlow := BitVec.two_pow_sub_clz_le_toNat_of_ne_zero (by decide) hne
  have hzeros := BitVec.lt_def.1 (BitVec.clz_lt_iff_ne_zero.2 hne)
  have hwidth : ((64 : Nat) : BitVec 64).toNat = 64 := rfl
  rw [hwidth] at hzeros
  rw [hleaf] at hhigh hlow
  generalize (max n 2 - 1).toBitVec.clz.toNat = zeros at *
  have hbits : 64 - 1 - zeros + 1 = 64 - zeros := by omega
  -- the leading zeros tell the binary logarithm
  have hlog : (max n.toNat 2 - 1).log2 = 64 - 1 - zeros :=
    (Nat.log2_eq_iff (by omega)).2 ⟨hlow, hbits ▸ hhigh⟩
  rw [treeDepth, hlog, hbits]

/-- A tree of a depth has at most as many leaves as there are paths. -/
theorem treeDepth_le_iff {depth : Nat} : treeDepth n ≤ depth ↔ max n.toNat 2 ≤ 2 ^ depth := by
  obtain ⟨hlow, hhigh⟩ := treeDepth_spec n
  constructor
  · exact fun h => Nat.le_trans hhigh (Nat.pow_le_pow_right (by decide) h)
  · intro h
    have hlt : 2 ^ (treeDepth n - 1) < 2 ^ depth := Nat.lt_of_lt_of_le hlow h
    have := (Nat.pow_lt_pow_iff_right (by decide)).1 hlt
    omega

/-- The depth is the binary logarithm, rounded up. -/
theorem treeDepth_eq_clog (n : UInt64) : treeDepth n = Nat.clog 2 (max n.toNat 2) := by
  refine eq_of_forall_ge_iff fun depth => ?_
  rw [treeDepth_le_iff, Nat.clog_le_iff_le_pow (by decide)]

/-- More data structures have no smaller depth. -/
theorem treeDepth_le_treeDepth (h : n ≤ m) : treeDepth n ≤ treeDepth m := by
  rw [treeDepth_eq_clog, treeDepth_eq_clog]
  have hle := UInt64.le_iff_toNat_le.1 h
  exact Nat.clog_mono_right 2 (by omega)

/-- Every tree has one level at least. -/
theorem one_le_treeDepth (n : UInt64) : 1 ≤ treeDepth n := Nat.succ_pos _

/-- A path takes 33 bytes for each level. -/
theorem pathBytes_eq (n : UInt64) : pathBytes n = 33 * treeDepth n := by
  rw [pathBytes, hashBytes, Nat.mul_comm]

/-- Two hashes at least are sent again. -/
theorem resentBytes_eq (n : UInt64) : resentBytes n = max (33 * treeDepth n) 66 := by
  rw [resentBytes, pathBytes_eq, hashBytes]

/-- The size of a full path is a word, whatever the number of data structures is. -/
theorem mul?_treeDepth (n : UInt64) : ∃ path : UInt64,
    Word.mul? (UInt64.ofNat (treeDepth n)) (UInt64.ofNat hashBytes) = some path ∧
      path.toNat = pathBytes n := by
  have hle := treeDepth_le n
  have hdepth : (UInt64.ofNat (treeDepth n)).toNat = treeDepth n :=
    UInt64.toNat_ofNat_of_lt' (Nat.lt_of_le_of_lt hle (by decide))
  have hhash : (UInt64.ofNat hashBytes).toNat = hashBytes := rfl
  have hlt : pathBytes n < UInt64.size := by
    simp only [pathBytes, hashBytes, UInt64.size]
    omega
  obtain ⟨path, hpath⟩ := Word.exists_toNat_eq hlt
  refine ⟨path, Word.mul?_eq_some_iff.2 ?_, hpath⟩
  rw [hdepth, hhash, hpath, pathBytes]

end

/-- For every number of data structures, taken as two at least, the depth of the tree is its binary
    logarithm rounded up. It is found from leading zeros, lies between 1 and 64, and grows with the
    number. The size of a path fits a word, and half of what is sent again leaves a range of suffixes
    to draw from. -/
theorem treeDepth_ceils_log (n : UInt64) :
    (2 ^ (treeDepth n - 1) < max n.toNat 2 ∧ max n.toNat 2 ≤ 2 ^ treeDepth n) ∧
    treeDepth n = 64 - (max n 2 - 1).toBitVec.clz.toNat ∧
    (1 ≤ treeDepth n ∧ treeDepth n ≤ 64) ∧
    (∀ m, n ≤ m → treeDepth n ≤ treeDepth m) ∧
    (∃ path, Word.mul? (UInt64.ofNat (treeDepth n)) 33 = some path ∧
      path.toNat = 33 * treeDepth n ∧ pathBytes n = 33 * treeDepth n) ∧
    33 ≤ max (33 * treeDepth n) 66 / 2 ∧
    UInt64.ofNat hashBytes ≤ UInt64.ofNat (resentBytes n / 2) ∧
    (UInt64.ofNat (resentBytes n / 2)).toNat = max (33 * treeDepth n) 66 / 2 := by
  obtain ⟨hrange, hlt⟩ := suffix_range n
  -- half of what is sent again is a word
  have hhalf : (UInt64.ofNat (resentBytes n / 2)).toNat = resentBytes n / 2 :=
    UInt64.toNat_ofNat_of_lt' hlt
  obtain ⟨path, hmul, hpath⟩ := mul?_treeDepth n
  refine ⟨treeDepth_spec n, treeDepth_eq_sub_clz n, ⟨one_le_treeDepth n, treeDepth_le n⟩,
    fun m => treeDepth_le_treeDepth, ⟨path, hmul, hpath.trans (pathBytes_eq n), pathBytes_eq n⟩,
    ?_, ?_, ?_⟩
  · rw [← resentBytes_eq]
    exact hrange
  · rw [UInt64.le_iff_toNat_le, hhalf]
    exact hrange
  · rw [hhalf, resentBytes_eq]

/-- The depth is 63 for `2 ^ 63` data structures, and 64 for one more and for the greatest number. -/
theorem treeDepth_ceils_log_atPowers :
    treeDepth 9223372036854775808 = 63 ∧ treeDepth 9223372036854775809 = 64 ∧
      treeDepth 18446744073709551615 = 64 := by
  obtain ⟨-, hleaves, -⟩ := treeDepth_ceils_log 9223372036854775808
  obtain ⟨-, hmore, -, hmono, -⟩ := treeDepth_ceils_log 9223372036854775809
  obtain ⟨-, -, ⟨-, hle⟩, -⟩ := treeDepth_ceils_log 18446744073709551615
  have hsixtyfour : treeDepth 9223372036854775809 = 64 := hmore.trans (by decide)
  refine ⟨hleaves.trans (by decide), hsixtyfour, Nat.le_antisymm hle ?_⟩
  rw [← hsixtyfour]
  exact hmono _ (by decide)

end ProofSize.Synthetic
