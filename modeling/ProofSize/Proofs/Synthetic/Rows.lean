import ProofSize.Proofs.FirstError
import ProofSize.Proofs.Synthetic.Depth
import ProofSize.Proofs.Synthetic.Making

/-!
# The rows of a synthetic dataset

Every row has the sizes that its place and the settings call for, whatever is drawn. Nothing wraps
around: the sizes are sums and products of natural numbers. No draw is made from an empty range, not
even on the way to a failure.

## Key results

- `ensures_makeRow`: what a row is like, whatever its source is
- `follows_makeRow`: a source that carries more along makes the same row
- `rowsFrom_eq_mapM`: the rows of a dataset are made one by one
-/

namespace ProofSize.Synthetic

open ProofSize.Random

/-- The row is one that belongs to a place of a dataset. Each group of three rows is a batch, and
    the rows of a batch touch one, two and three data structures. -/
structure Belongs (c : Settings) (index : Nat) (r : Row) : Prop where
  updatesSinceRefresh : r.updatesSinceRefresh.toNat = index / 3 * c.batchSize.toNat
  totalUpdates : r.totalUpdates.toNat = index / 3 * c.batchSize.toNat
  adsModified : r.adsModified.map UInt32.toNat = some (index % 3 + 1)
  signatureCount : r.signatureCount.toNat = index % 3 + 1
  adsCount : r.adsCount = some c.adsCount
  signatureBytes : (index % 3 + 1) * (c.signatureSize.toNat - 1) ≤ r.signatureBytes.toNat ∧
    r.signatureBytes.toNat ≤ (index % 3 + 1) * (c.signatureSize.toNat + 1)
  updateBytes : r.updateBytes.toNat = r.signatureBytes.toNat + 40 + 34 * (index % 3 + 1)
  updateProofBytes :
    (index % 3 + 1) * (33 * treeDepth c.adsCount) ≤ r.updateProofBytes.toNat ∧
      r.updateProofBytes.toNat ≤ (index % 3 + 1) * (33 * treeDepth c.adsCount) + 15
  freshnessBytes : 33 * (index / 3) ≤ r.freshnessBytes.toNat ∧
    r.freshnessBytes.toNat ≤ index / 3 * (max (33 * treeDepth c.adsCount) 66 / 2)
  uncachedFreshnessBytes :
    r.uncachedFreshnessBytes.toNat = index / 3 * max (33 * treeDepth c.adsCount) 66
  twice : 2 * r.freshnessBytes.toNat ≤ r.uncachedFreshnessBytes.toNat
  totalBytes : r.totalBytes.toNat =
    r.updateBytes.toNat + r.updateProofBytes.toNat + r.freshnessBytes.toNat + 16

/-! ### One row -/

section

variable {σ : Type} {I : σ → Prop} {draw : Source σ}

/-- Twice the half is not more than the whole, also where the half is rounded down. -/
private theorem two_mul_mul_half_le (n m : Nat) : 2 * (n * (m / 2)) ≤ n * m :=
  calc 2 * (n * (m / 2)) = n * (2 * (m / 2)) := by rw [Nat.mul_left_comm]
    _ ≤ n * m := Nat.mul_le_mul_left n (Nat.mul_div_le m 2)

/-- A row belongs to its place, and only ranges with a word in them are drawn from. -/
theorem ensures_makeRow (hdraw : Keeps I draw) (c : Settings) (index : Nat) :
    Ensures I (makeRow draw c index) (Belongs c index) := by
  refine (ensures_fit .updatesSinceRefresh _).bind fun updates hupdates => ?_
  refine (ensures_fit .signatureSize _).bind fun largest hlargest => ?_
  -- the sizes of signatures are words around the nominal one
  have hsmallest : (UInt64.ofNat (c.signatureSize.toNat - 1)).toNat = c.signatureSize.toNat - 1 := by
    have hlt := UInt64.toNat_lt_size c.signatureSize
    exact UInt64.toNat_ofNat_of_lt' (by omega)
  refine (ensures_draws hdraw (by omega) _).bind fun signatures hsignatures => ?_
  -- sums and products below are exact, because each of them has a word
  refine (ensures_fit .signatureBytes _).bind fun signatureBytes hsb => ?_
  refine (ensures_fit .updateBytes _).bind fun updateBytes hub => ?_
  refine (ensures_draw hdraw (by decide)).bind fun extra hextra => ?_
  refine (ensures_fit .updateProofBytes _).bind fun updateProofBytes hup => ?_
  -- a suffix has a hash at least and half of a path at most
  obtain ⟨hrange, hlt⟩ := suffix_range c.adsCount
  have hhash : (UInt64.ofNat hashBytes).toNat = 33 := rfl
  have hhalf : (UInt64.ofNat (resentBytes c.adsCount / 2)).toNat = resentBytes c.adsCount / 2 :=
    UInt64.toNat_ofNat_of_lt' hlt
  have hle : (UInt64.ofNat hashBytes).toNat ≤
      (UInt64.ofNat (resentBytes c.adsCount / 2)).toNat := by
    rw [hhalf]
    exact hrange
  refine (ensures_draws hdraw hle _).bind fun suffixes hsuffixes => ?_
  refine (ensures_fit .freshnessBytes _).bind fun freshnessBytes hfb => ?_
  refine (ensures_fit .uncachedFreshnessBytes _).bind fun uncachedFreshnessBytes huf => ?_
  refine (ensures_fit .totalBytes _).bind fun totalBytes htb => ?_
  have hthree : index % 3 + 1 ≤ 3 := by omega
  have htouched : (UInt64.ofNat (index % 3 + 1)).toNat = index % 3 + 1 :=
    UInt64.toNat_ofNat_of_lt' (Nat.lt_of_le_of_lt hthree (by decide))
  have htouched' : (UInt32.ofNat (index % 3 + 1)).toNat = index % 3 + 1 :=
    UInt32.toNat_ofNat_of_lt' (Nat.lt_of_le_of_lt hthree (by decide))
  have hfifteen : (15 : UInt64).toNat = 15 := rfl
  -- in terms of the settings, with words replaced by their values
  rw [hsmallest, hlargest, ← hsb] at hsignatures
  rw [hhash, hhalf, ← hfb, resentBytes_eq] at hsuffixes
  rw [pathBytes_eq] at hup
  rw [resentBytes_eq] at huf
  refine ensures_pure ?_
  exact {
    updatesSinceRefresh := hupdates
    totalUpdates := hupdates
    adsModified := congrArg some htouched'
    signatureCount := htouched
    adsCount := rfl
    signatureBytes := hsignatures
    updateBytes := hub
    updateProofBytes := by
      show _ ≤ updateProofBytes.toNat ∧ updateProofBytes.toNat ≤ _
      omega
    freshnessBytes := ⟨by rw [Nat.mul_comm]; exact hsuffixes.1, hsuffixes.2⟩
    uncachedFreshnessBytes := huf
    twice := by
      show 2 * freshnessBytes.toNat ≤ uncachedFreshnessBytes.toNat
      rw [huf]
      exact Nat.le_trans (Nat.mul_le_mul_left 2 hsuffixes.2) (two_mul_mul_half_le _ _)
    totalBytes := htb }

end

/-- With a source that carries more along a row is made as with its part. -/
theorem follows_makeRow {σ τ : Type} {part : τ → σ} {draw' : Source τ} {draw : Source σ}
    (hdraw : Extends part draw' draw) (c : Settings) (index : Nat) :
    Follows part (makeRow draw' c index) (makeRow draw c index) := by
  refine (follows_lift _).bind fun updates => ?_
  refine (follows_lift _).bind fun largest => ?_
  refine (follows_draws hdraw _ _ _ _).bind fun signatures => ?_
  refine (follows_lift _).bind fun signatureBytes => ?_
  refine (follows_lift _).bind fun updateBytes => ?_
  refine (follows_draw hdraw _ _).bind fun extra => ?_
  refine (follows_lift _).bind fun updateProofBytes => ?_
  refine (follows_draws hdraw _ _ _ _).bind fun suffixes => ?_
  refine (follows_lift _).bind fun freshnessBytes => ?_
  refine (follows_lift _).bind fun uncachedFreshnessBytes => ?_
  refine (follows_lift _).bind fun totalBytes => ?_
  exact follows_pure _

/-! ### The ranges that are drawn from -/

/-- A source that notes the ranges which it is asked to draw from, the last one first. -/
def noting {σ : Type} (draw : Source σ) : Source (σ × List (UInt64 × UInt64)) :=
  fun lo hi s => do
    let drawn := ((draw lo hi).run s.1).run
    return (drawn.1, (drawn.2, (lo, hi) :: s.2))

/-- A source that notes its draws draws as before. -/
private theorem extends_noting {σ : Type} (draw : Source σ) : Extends Prod.fst (noting draw) draw :=
  fun _ _ _ => rfl

/-- As long as ranges with a word in them are drawn from, only such ranges are noted. -/
private theorem keeps_noting {σ : Type} {draw : Source σ} (hdraw : draw.Within) :
    Keeps (fun s => ∀ range ∈ s.2, range.1.toNat ≤ range.2.toNat) (noting draw) := by
  intro lo hi s h hs
  refine ⟨?_, hdraw lo hi s.1 h⟩
  intro range hrange
  rcases List.mem_cons.1 hrange with rfl | hrange
  · exact h
  · exact hs range hrange

/-! ### All rows -/

section

variable {rowAt : Nat → Except ReportError Row}

/-- The rows of a dataset are made one by one. -/
theorem rowsFrom_eq_mapM (index count : Nat) (done : List Row) :
    rowsFrom rowAt index count done =
      ((List.range' index count).mapM rowAt).map (done.reverse ++ ·) := by
  induction count generalizing index done with
  | zero => rw [rowsFrom, List.range'_zero, List.mapM_nil]; exact congrArg _ (List.append_nil _).symm
  | succ count ih =>
    rw [rowsFrom, List.range'_succ, List.mapM_cons]
    cases rowAt index with
    | error e => rfl
    | ok r =>
      -- the row has joined those before it, and the others are made behind it
      show rowsFrom rowAt (index + 1) count (r :: done) = _
      rw [ih, List.reverse_cons]
      cases (List.range' (index + 1) count).mapM rowAt with
      | error e => rfl
      | ok rs => exact congrArg Except.ok (List.append_assoc done.reverse [r] rs)

/-- A dataset has three rows for each batch and three more, each of them made at its place. -/
theorem rowsAt_eq_ok {c : Settings} {rs : List Row} (h : rowsAt rowAt c = .ok rs) :
    rs.length = 3 * (c.batches.toNat + 1) ∧
      ∀ (i : Nat) (r : Row), rs[i]? = some r → rowAt i = .ok r := by
  obtain ⟨count, hcount, h⟩ := bind_eq_ok_iff.1 h
  have hcount : count.toNat = (c.batches.toNat + 1) * 3 :=
    Word.ofNat?_eq_some_iff.1 (require_eq_ok_iff.1 hcount)
  rw [rowsFrom_eq_mapM, List.reverse_nil, map_eq_ok_iff] at h
  obtain ⟨made, hmade, rfl⟩ := h
  have hall := mapM_eq_ok_iff.1 hmade
  have hlen := hall.length_eq
  rw [List.length_range'] at hlen
  refine ⟨by rw [List.nil_append]; omega, fun i r hr => ?_⟩
  rw [List.nil_append] at hr
  obtain ⟨hi, hget⟩ := List.getElem?_eq_some_iff.1 hr
  -- places are numbered from 0, so a row is made at the place where it stands
  have hmadeAt := (List.forall₂_iff_get.1 hall).2 i (by rw [List.length_range']; omega) hi
  rw [List.get_eq_getElem, List.get_eq_getElem, List.getElem_range', Nat.one_mul, Nat.zero_add,
    hget] at hmadeAt
  exact hmadeAt

end

/-- Whatever the settings are, the rows that are made belong to their places, and no draw is made
    from an empty range, also where making a row fails. The same is true of every other source whose
    draws lie in their ranges. -/
theorem rows_belong (c : Settings) :
    (∀ rs, rows c = .ok rs → rs.length = 3 * (c.batches.toNat + 1) ∧
      ∀ (i : Nat) (r : Row), rs[i]? = some r → Belongs c i r) ∧
    (∀ i, (rowFrom (noting uniform) c i (.ofSeed (rowSeed c.seed i), [])).1 = row c i ∧
      ∀ range ∈ (rowFrom (noting uniform) c i (.ofSeed (rowSeed c.seed i), [])).2.2,
        range.1.toNat ≤ range.2.toNat) ∧
    ∀ (σ : Type) (draw : Source σ) (start : Nat → σ), draw.Within →
      (∀ rs, rowsAt (fun i => (rowFrom draw c i (start i)).1) c = .ok rs →
        rs.length = 3 * (c.batches.toNat + 1) ∧
          ∀ (i : Nat) (r : Row), rs[i]? = some r → Belongs c i r) ∧
      ∀ i, (rowFrom (noting draw) c i (start i, [])).1 = (rowFrom draw c i (start i)).1 ∧
        ∀ range ∈ (rowFrom (noting draw) c i (start i, [])).2.2, range.1.toNat ≤ range.2.toNat := by
  have hsource : ∀ (σ : Type) (draw : Source σ) (start : Nat → σ), draw.Within →
      (∀ rs, rowsAt (fun i => (rowFrom draw c i (start i)).1) c = .ok rs →
        rs.length = 3 * (c.batches.toNat + 1) ∧
          ∀ (i : Nat) (r : Row), rs[i]? = some r → Belongs c i r) ∧
      ∀ i, (rowFrom (noting draw) c i (start i, [])).1 = (rowFrom draw c i (start i)).1 ∧
        ∀ range ∈ (rowFrom (noting draw) c i (start i, [])).2.2,
          range.1.toNat ≤ range.2.toNat := by
    intro σ draw start hdraw
    constructor
    · intro rs hrs
      obtain ⟨hlen, hmade⟩ := rowsAt_eq_ok hrs
      -- nothing needs to be kept of the source here
      have hkeeps : Keeps (fun _ => True) draw := fun lo hi s h _ => ⟨trivial, hdraw lo hi s h⟩
      refine ⟨hlen, fun i r hr => ?_⟩
      exact (ensures_makeRow hkeeps c i (start i) trivial).2 r (hmade i r hr)
    · intro i
      have hfollows := follows_makeRow (extends_noting draw) c i (start i, [])
      refine ⟨congrArg Prod.fst hfollows, ?_⟩
      -- nothing is noted at the start
      exact (ensures_makeRow (keeps_noting hdraw) c i (start i, [])
        fun range hrange => absurd hrange List.not_mem_nil).1
  obtain ⟨hrows, hranges⟩ := hsource Stream uniform (fun i => .ofSeed (rowSeed c.seed i))
    within_uniform
  exact ⟨hrows, hranges, hsource⟩

/-- A dataset of one batch has six rows, and the fifth one touches two data structures. -/
theorem rows_belong_oneBatch :
    ∃ rs, rows ⟨1, 5, 4, 1, 71⟩ = .ok rs ∧ rs.length = 6 ∧
      Belongs ⟨1, 5, 4, 1, 71⟩ 4 ⟨5, 5, some 2, 2, 143, 251, 132, 33, 66, 432, some 4⟩ := by
  let rs : List Row :=
    [⟨0, 0, some 1, 1, 71, 145, 80, 0, 0, 241, some 4⟩,
      ⟨0, 0, some 2, 2, 142, 250, 144, 0, 0, 410, some 4⟩,
      ⟨0, 0, some 3, 3, 212, 354, 203, 0, 0, 573, some 4⟩,
      ⟨5, 5, some 1, 1, 71, 145, 79, 33, 66, 273, some 4⟩,
      ⟨5, 5, some 2, 2, 143, 251, 132, 33, 66, 432, some 4⟩,
      ⟨5, 5, some 3, 3, 216, 358, 205, 33, 66, 612, some 4⟩]
  have hrs : rows ⟨1, 5, 4, 1, 71⟩ = .ok rs := by decide +kernel
  obtain ⟨hrows, -, hsource⟩ := rows_belong ⟨1, 5, 4, 1, 71⟩
  obtain ⟨hlen, -⟩ := hrows rs hrs
  -- the stream of the dataset is one of the sources
  obtain ⟨hother, -⟩ := hsource Stream uniform (fun i => .ofSeed (rowSeed 1 i)) within_uniform
  obtain ⟨-, hbelongs⟩ := hother rs hrs
  exact ⟨rs, hrs, hlen, hbelongs 4 _ rfl⟩

end ProofSize.Synthetic
