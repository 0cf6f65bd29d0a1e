import ProofSize.Error
import ProofSize.Random.Uniform
import ProofSize.Word

/-! # Synthetic datasets

A synthetic dataset has one row for each scenario before the first batch of updates and after each
batch. The sizes that vary in practice are drawn from a stream of their own for each row, which the
seed of the dataset and the place of the row decide; so a row depends on nothing but its place and
the settings.

## Key results
- `treeDepth_spec`: the depth is the binary logarithm of the number of structures, rounded up
- `suffix_range`: the range of the suffix sizes is not empty
-/

namespace ProofSize.Synthetic

open ProofSize.Random

/-- What a synthetic dataset is made from. -/
structure Settings where
  /-- Batches of updates behind the first commitment. -/
  batches : UInt64
  /-- Updates in each batch. -/
  batchSize : UInt64
  /-- Data structures that the simulated server tracks. -/
  adsCount : UInt64
  seed : UInt64
  /-- The nominal size of a signature; single signatures vary by one byte. -/
  signatureSize : UInt64
  deriving DecidableEq

def Settings.standard : Settings := ⟨10, 10000, 1000000, 42, 71⟩

/-- Bytes that a hash takes in a path. -/
def hashBytes : Nat := 33

/-- Bytes of a verification object beside its parts. -/
def framingBytes : Nat := 16

/-- The seed of a row's stream. -/
def rowSeed (seed : UInt64) (index : Nat) : UInt64 :=
  (seed + UInt64.ofNat index) * 0x517cc1b727220a95

/-- The depth of a binary tree with a leaf for each data structure, two leaves at least. -/
def treeDepth (adsCount : UInt64) : Nat := (max adsCount.toNat 2 - 1).log2 + 1

/-- Bytes of a full path in the tree. -/
def pathBytes (adsCount : UInt64) : Nat := treeDepth adsCount * hashBytes

/-- Bytes of the path that is sent again for a batch, two hashes at least. -/
def resentBytes (adsCount : UInt64) : Nat := max (pathBytes adsCount) (hashBytes * 2)

/-- The word of a computed quantity. -/
def fit (what : Quantity) (n : Nat) : Except ReportError UInt64 :=
  (ReportError.overflow what).require (Word.ofNat? n)

/-- The row at a place, made from draws. The places run through the scenarios of one batch, then of
    the next. With caching only the changed suffix of a path is sent again for each batch, without it
    the full path. -/
def makeRow {σ : Type} (draw : Source σ) (c : Settings) (index : Nat) :
    ExceptT ReportError (StateM σ) Row := do
  let batch := index / 3
  let touched := index % 3 + 1
  let updates ← fit .updatesSinceRefresh (batch * c.batchSize.toNat)
  let largest ← fit .signatureSize (c.signatureSize.toNat + 1)
  let smallest := UInt64.ofNat (c.signatureSize.toNat - 1)
  let signatures ← draws draw smallest largest touched []
  let signatureBytes ← fit .signatureBytes (Word.total signatures)
  let updateBytes ← fit .updateBytes (signatureBytes.toNat + 40 + 34 * touched)
  let extra ← draw 0 15
  let updateProofBytes ← fit .updateProofBytes (touched * pathBytes c.adsCount + extra.toNat)
  let resent := resentBytes c.adsCount
  let suffixes ← draws draw (UInt64.ofNat hashBytes) (UInt64.ofNat (resent / 2)) batch []
  let freshnessBytes ← fit .freshnessBytes (Word.total suffixes)
  let uncachedFreshnessBytes ← fit .uncachedFreshnessBytes (batch * resent)
  let totalBytes ← fit .totalBytes
    (updateBytes.toNat + updateProofBytes.toNat + freshnessBytes.toNat + framingBytes)
  return {
    updatesSinceRefresh := updates
    totalUpdates := updates
    adsModified := some (UInt32.ofNat touched)
    signatureCount := UInt64.ofNat touched
    signatureBytes, updateBytes, updateProofBytes, freshnessBytes, uncachedFreshnessBytes
    totalBytes
    adsCount := some c.adsCount }

/-- The row at a place that the source has when it stands as given, and what is left of the source
    behind it. -/
def rowFrom {σ : Type} (draw : Source σ) (c : Settings) (index : Nat) (s : σ) :
    Except ReportError Row × σ :=
  ((makeRow draw c index).run.run s).run

/-- The row at a place. -/
def row (c : Settings) (index : Nat) : Except ReportError Row :=
  (rowFrom uniform c index (.ofSeed (rowSeed c.seed index))).1

/-- The rows at `count` places from `index` on, behind rows that stand last first. The first row
    that fails decides the error. -/
def rowsFrom (rowAt : Nat → Except ReportError Row) :
    Nat → Nat → List Row → Except ReportError (List Row)
  | _, 0, done => .ok done.reverse
  | index, count + 1, done => do
    let r ← rowAt index
    rowsFrom rowAt (index + 1) count (r :: done)

/-- The rows of a dataset whose rows are as given. -/
def rowsAt (rowAt : Nat → Except ReportError Row) (c : Settings) :
    Except ReportError (List Row) := do
  let count ← fit .rowCount ((c.batches.toNat + 1) * 3)
  rowsFrom rowAt 0 count.toNat []

/-- The rows of the dataset. -/
def rows (c : Settings) : Except ReportError (List Row) := rowsAt (row c) c

/-- The depth is the least number of levels with a leaf for each data structure. -/
theorem treeDepth_spec (adsCount : UInt64) :
    Nat.pow 2 (treeDepth adsCount - 1) < max adsCount.toNat 2 ∧
      max adsCount.toNat 2 ≤ Nat.pow 2 (treeDepth adsCount) := by
  have hpos : max adsCount.toNat 2 - 1 ≠ 0 := by omega
  have hlo := Nat.log2_self_le hpos
  have hhi := Nat.lt_log2_self (n := max adsCount.toNat 2 - 1)
  simp only [treeDepth, Nat.add_sub_cancel, Nat.pow_eq]
  omega

/-- A tree over as many leaves as a word can count has 64 levels at most. -/
theorem treeDepth_le (adsCount : UInt64) : treeDepth adsCount ≤ 64 := by
  have h := UInt64.toNat_lt adsCount
  have hpos : max adsCount.toNat 2 - 1 ≠ 0 := by omega
  have : (max adsCount.toNat 2 - 1).log2 < 64 := (Nat.log2_lt hpos).2 (by omega)
  simp only [treeDepth]
  omega

/-- The range from which the suffix sizes are drawn is not empty, and its bounds are words. -/
theorem suffix_range (adsCount : UInt64) :
    hashBytes ≤ resentBytes adsCount / 2 ∧ resentBytes adsCount / 2 < UInt64.size := by
  have h := treeDepth_le adsCount
  simp only [resentBytes, pathBytes, hashBytes, UInt64.size]
  omega

end ProofSize.Synthetic
