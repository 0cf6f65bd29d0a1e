import ProofSize.Proofs.View.Scenarios
import ProofSize.Text.Decimal

/-!
# The view by server size

Rows are told apart by the number of data structures of their server. Each number has a pair of series,
and together the pairs show every row once, in the order of the rows. What a pair shows of a row depends
on the row only, so the rows of several files can be shown together or file by file.

## Key results

- `pairwise_serverSizes`, `mem_serverSizes`: the server sizes ascend, and they are those of the rows
- `perm_flatMap_rowsOf`: the rows of all server sizes are the rows
- `exists_scaleSeries_iff`, `scaleSeries_eq_ok`: when there are series, and which
- `scale_partitions_rows`: what the view shows of the rows, and of two lists of rows together
-/

namespace ProofSize.View

/-! ### Server sizes -/

section

variable {n m : UInt64} {ns ms : List UInt64} {rows : List Row}

/-- A word that is put at its place is there, and so are the others. -/
theorem mem_insertAscending : m ∈ insertAscending n ns ↔ m = n ∨ m ∈ ns := by
  induction ns with
  | nil => simp [insertAscending]
  | cons x xs ih =>
    unfold insertAscending
    by_cases hlt : n < x
    · simp [hlt]
    · by_cases heq : n = x
      · simp [heq]
      · simp only [hlt, heq, if_false, List.mem_cons, ih]
        exact or_left_comm

/-- A word that is put at its place keeps the order. -/
theorem pairwise_insertAscending (h : ns.Pairwise (· < ·)) :
    (insertAscending n ns).Pairwise (· < ·) := by
  induction ns with
  | nil => simp [insertAscending]
  | cons x xs ih =>
    obtain ⟨hx, hxs⟩ := List.pairwise_cons.1 h
    unfold insertAscending
    by_cases hlt : n < x
    · rw [if_pos hlt, List.pairwise_cons]
      refine ⟨fun y hy => ?_, h⟩
      rcases List.mem_cons.1 hy with rfl | hy
      · exact hlt
      · exact UInt64.lt_trans hlt (hx y hy)
    · by_cases heq : n = x
      · rw [if_neg hlt, if_pos heq]
        exact h
      · rw [if_neg hlt, if_neg heq, List.pairwise_cons]
        refine ⟨fun y hy => ?_, ih hxs⟩
        rcases mem_insertAscending.1 hy with rfl | hy
        · -- the new word is neither below the head nor the head
          have hne : y.toNat ≠ x.toNat := fun h => heq (UInt64.toNat_inj.1 h)
          rw [UInt64.lt_iff_toNat_lt] at hlt ⊢
          omega
        · exact hx y hy

/-- Putting words at their places one after the other keeps the order. -/
private theorem foldl_insertAscending (ms : List UInt64) (h : ns.Pairwise (· < ·)) :
    (ms.foldl (fun ns n => insertAscending n ns) ns).Pairwise (· < ·) ∧
      ∀ x, x ∈ ms.foldl (fun ns n => insertAscending n ns) ns ↔ x ∈ ms ∨ x ∈ ns := by
  induction ms generalizing ns with
  | nil => simp [h]
  | cons m ms ih =>
    obtain ⟨hpairwise, hmem⟩ := ih (pairwise_insertAscending (n := m) h)
    refine ⟨hpairwise, fun x => ?_⟩
    rw [List.foldl_cons, hmem x, mem_insertAscending, List.mem_cons]
    exact or_left_comm.trans or_assoc.symm

/-- The server sizes are strictly ascending. -/
theorem pairwise_serverSizes (rows : List Row) : (serverSizes rows).Pairwise (· < ·) :=
  (foldl_insertAscending _ List.Pairwise.nil).1

/-- The server sizes are those of the rows. -/
theorem mem_serverSizes : n ∈ serverSizes rows ↔ ∃ r ∈ rows, r.adsCount = some n := by
  have hmem := (foldl_insertAscending (rows.filterMap Row.adsCount) List.Pairwise.nil).2 n
  rw [serverSizes, hmem]
  simp

/-- No server size occurs twice. -/
private theorem nodup_serverSizes (rows : List Row) : (serverSizes rows).Nodup :=
  (pairwise_serverSizes rows).imp fun h => UInt64.ne_of_lt h

/-! ### The rows of a server size -/

/-- The rows of one server size, in their order. -/
def rowsOf (rows : List Row) (n : UInt64) : List Row := rows.filter fun r => r.adsCount == some n

/-- A row belongs to its own server size only. -/
theorem mem_rowsOf {r : Row} : r ∈ rowsOf rows n ↔ r ∈ rows ∧ r.adsCount = some n := by
  simp [rowsOf]

/-- The rows of several server sizes are the rows, if each has one of the sizes. -/
private theorem perm_flatMap {sizes : List UInt64} (hnodup : sizes.Nodup) (rows : List Row)
    (h : ∀ r ∈ rows, ∃ n ∈ sizes, r.adsCount = some n) : (sizes.flatMap (rowsOf rows)).Perm rows := by
  induction rows with
  | nil =>
    have hempty : sizes.flatMap (rowsOf []) = [] := by simp [rowsOf]
    rw [hempty]
  | cons r rows ih =>
    obtain ⟨n, hn, hr⟩ := h r List.mem_cons_self
    obtain ⟨before, after, rfl⟩ := List.append_of_mem hn
    have hperm := ih fun x hx => h x (List.mem_cons_of_mem r hx)
    -- the row joins the rows of its own size and of no other one
    have hself : rowsOf (r :: rows) n = r :: rowsOf rows n := by simp [rowsOf, hr]
    have hother : ∀ sizes : List UInt64, n ∉ sizes →
        sizes.flatMap (rowsOf (r :: rows)) = sizes.flatMap (rowsOf rows) := by
      intro sizes hsizes
      apply List.flatMap_congr
      intro m hm
      have hne : n ≠ m := fun he => hsizes (he ▸ hm)
      simp [rowsOf, hr, hne]
    obtain ⟨-, hafter, hdisjoint⟩ := List.nodup_append.1 hnodup
    have hbefore : n ∉ before := fun hmem => hdisjoint n hmem n List.mem_cons_self rfl
    rw [List.flatMap_append, List.flatMap_cons] at hperm ⊢
    rw [hself, hother before hbefore, hother after (List.nodup_cons.1 hafter).1]
    exact List.perm_middle.trans (hperm.cons r)

/-- If every row has a server size, the rows of all server sizes are the rows. -/
theorem perm_flatMap_rowsOf (h : ∀ r ∈ rows, ∃ n, r.adsCount = some n) :
    ((serverSizes rows).flatMap (rowsOf rows)).Perm rows := by
  apply perm_flatMap (nodup_serverSizes rows)
  intro r hr
  obtain ⟨n, hn⟩ := h r hr
  exact ⟨n, mem_serverSizes.2 ⟨r, hr, hn⟩, hn⟩

end

/-! ### What a pair shows of its rows -/

/-- The share of the data structures of a server that were updated, in percent. -/
def share (n : UInt64) (r : Row) : Binary64 :=
  ((Binary64.ofWord r.updatesSinceRefresh).mul (.ofNat 100)).div (.ofWord n)

/-- The bytes of a row. A solid line is with caching, a dashed one without it. -/
def lineBytes : Line → Row → Nat
  | .solid, r => r.totalBytes.toNat
  | .dashed, r => r.totalBytes.toNat + r.saved

/-- The point of a row on a line of its server size. -/
def serverPoint (line : Line) (n : UInt64) (r : Row) : Point := ⟨share n r, .ofNat (lineBytes line r)⟩

/-- The label of a line of a server size. -/
def serverLabel (n : UInt64) : Line → String
  | .solid => s!"{n.toNat} ADSes"
  | .dashed => s!"{n.toNat} ADSes without optimization"

/-- The line of the server size at a place. -/
def serverLine (rows : List Row) (place : Nat) (n : UInt64) (line : Line) : Series :=
  ⟨serverLabel n line, .percentUpdated, .ofIndex place line, (rowsOf rows n).map (serverPoint line n)⟩

/-- The row has a server size, and sizes with caching and without it. -/
structure Scalable (r : Row) : Prop where
  counted : ∃ n, r.adsCount = some n ∧ n ≠ 0
  signatures : r.signatureBytes.toNat ≤ r.totalBytes.toNat
  cached : r.freshnessBytes.toNat ≤ r.uncachedFreshnessBytes.toNat
  fits : lineBytes .dashed r < UInt64.size

section

variable {rows : List Row} {r : Row} {n w : UInt64} {i k : Nat}

/-- The share of a row can be told if its server has data structures. -/
theorem percentUpdated_eq_ok_iff {x : Binary64} :
    r.percentUpdated i = .ok x ↔ ∃ n, r.adsCount = some n ∧ n ≠ 0 ∧ x = share n r := by
  unfold Row.percentUpdated share
  cases r.adsCount with
  | none => simp
  | some n =>
    by_cases hn : n = 0
    · simp [hn]
    · simp [hn, eq_comm]

/-- With its own signatures a row has its own total. -/
private theorem adjustedTotal_measured_eq_ok_iff :
    r.adjustedTotal .measured i = .ok w ↔
      r.signatureBytes.toNat ≤ r.totalBytes.toNat ∧ w.toNat = lineBytes .solid r := by
  rw [Row.adjustedTotal_eq_ok_iff]
  show ¬r.totalBytes.toNat < r.signatureBytes.toNat ∧
    w.toNat = r.totalBytes.toNat - r.signatureBytes.toNat + r.signatureBytes.toNat ↔
    _ ∧ w.toNat = r.totalBytes.toNat
  omega

/-- With its own signatures and without caching a row has its own total and what caching saves. -/
private theorem uncachedTotal_measured_eq_ok_iff :
    r.uncachedTotal .measured i = .ok w ↔ r.signatureBytes.toNat ≤ r.totalBytes.toNat ∧
      r.freshnessBytes.toNat ≤ r.uncachedFreshnessBytes.toNat ∧ w.toNat = lineBytes .dashed r := by
  rw [Row.uncachedTotal_eq_ok_iff]
  show ¬r.totalBytes.toNat < r.signatureBytes.toNat ∧ _ ∧
    w.toNat = r.totalBytes.toNat - r.signatureBytes.toNat + r.signatureBytes.toNat + r.saved ↔
    _ ∧ _ ∧ w.toNat = r.totalBytes.toNat + r.saved
  omega

/-- The shares of rows can be told if each of their servers has data structures. -/
theorem exists_percentagesUpdated_iff {rs : List Row} :
    (∃ xs, percentagesUpdated rs = .ok xs) ↔ ∀ r ∈ rs, ∃ n, r.adsCount = some n ∧ n ≠ 0 := by
  apply exists_forRows_eq_ok_iff
  intro r i
  simp [percentUpdated_eq_ok_iff]

/-- The totals without caching can be told if the sizes of each row go together. -/
private theorem exists_uncachedTotals_iff {rs : List Row} :
    (∃ zs, uncachedTotals .measured rs = .ok zs) ↔
      ∀ r ∈ rs, r.signatureBytes.toNat ≤ r.totalBytes.toNat ∧
        r.freshnessBytes.toNat ≤ r.uncachedFreshnessBytes.toNat ∧
        lineBytes .dashed r < UInt64.size := by
  apply exists_forRows_eq_ok_iff
  intro r i
  simp only [uncachedTotal_measured_eq_ok_iff]
  constructor
  · intro ⟨w, hle, hcached, hw⟩
    exact ⟨hle, hcached, hw ▸ UInt64.toNat_lt_size w⟩
  · intro ⟨hle, hcached, hlt⟩
    obtain ⟨w, hw⟩ := Word.exists_toNat_eq hlt
    exact ⟨w, hle, hcached, hw⟩

/-- A server size has its two lines if its rows have all that these show. -/
theorem exists_serverSeries_iff :
    (∃ pair, serverSeries rows k n = .ok pair) ↔ ∀ r ∈ rowsOf rows n, Scalable r := by
  -- the three lists are computed one after the other, and none depends on another
  have hlists : (∃ pair, serverSeries rows k n = .ok pair) ↔
      (∃ xs, percentagesUpdated (rowsOf rows n) = .ok xs) ∧
        (∃ ys, adjustedTotals .measured (rowsOf rows n) = .ok ys) ∧
        ∃ zs, uncachedTotals .measured (rowsOf rows n) = .ok zs := by
    unfold serverSeries
    simp only [bind_eq_ok_iff]
    constructor
    · intro ⟨_, xs, hxs, ys, hys, zs, hzs, _⟩
      exact ⟨⟨xs, hxs⟩, ⟨ys, hys⟩, ⟨zs, hzs⟩⟩
    · intro ⟨⟨xs, hxs⟩, ⟨ys, hys⟩, ⟨zs, hzs⟩⟩
      exact ⟨_, xs, hxs, ys, hys, zs, hzs, rfl⟩
  rw [hlists, exists_percentagesUpdated_iff, exists_adjustedTotals_measured_iff,
    exists_uncachedTotals_iff]
  constructor
  · intro ⟨hcounted, _, h⟩ r hr
    obtain ⟨hle, hcached, hlt⟩ := h r hr
    exact ⟨hcounted r hr, hle, hcached, hlt⟩
  · intro h
    exact ⟨fun r hr => (h r hr).counted, fun r hr => (h r hr).signatures,
      fun r hr => ⟨(h r hr).signatures, (h r hr).cached, (h r hr).fits⟩⟩

/-- The two lines of a server size show its rows. -/
theorem serverSeries_eq_ok {pair : List Series} (h : serverSeries rows k n = .ok pair) :
    pair = [serverLine rows k n .solid, serverLine rows k n .dashed] := by
  unfold serverSeries at h
  obtain ⟨xs, hxs, h⟩ := bind_eq_ok_iff.1 h
  obtain ⟨ys, hys, h⟩ := bind_eq_ok_iff.1 h
  obtain ⟨zs, hzs, h⟩ := bind_eq_ok_iff.1 h
  obtain rfl := Except.ok.inj h
  have hshares : xs.map id = (rowsOf rows n).map (share n) := by
    apply map_of_forRows_eq_ok hxs
    intro r hr i x hx
    obtain ⟨m, hm, -, hx⟩ := percentUpdated_eq_ok_iff.1 hx
    rw [(mem_rowsOf.1 hr).2] at hm
    rw [id, hx, Option.some.inj hm]
  have hcached : ys.map Binary64.ofWord =
      (rowsOf rows n).map fun r => Binary64.ofNat (lineBytes .solid r) :=
    map_of_forRows_eq_ok hys fun r hr i w hw => by
      rw [Binary64.ofWord, (adjustedTotal_measured_eq_ok_iff.1 hw).2]
  have huncached : zs.map Binary64.ofWord =
      (rowsOf rows n).map fun r => Binary64.ofNat (lineBytes .dashed r) :=
    map_of_forRows_eq_ok hzs fun r hr i w hw => by
      rw [Binary64.ofWord, (uncachedTotal_measured_eq_ok_iff.1 hw).2.2]
  -- the points of a row have their coordinates at the same place of the lists
  have hzip (line : Line) : List.zipWith Point.mk ((rowsOf rows n).map (share n))
      ((rowsOf rows n).map fun r => Binary64.ofNat (lineBytes line r)) =
        (rowsOf rows n).map (serverPoint line n) := by
    rw [List.zipWith_map, List.zipWith_self]
    rfl
  rw [List.map_id] at hshares
  rw [hshares, hcached, huncached, Series.ofLists, Series.ofLists, hzip, hzip]
  rfl

/-- There are series if every row has a server size and all that the series show. -/
theorem exists_scaleSeries_iff :
    (∃ series, scaleSeries rows = .ok series) ↔ ∀ r ∈ rows, Scalable r := by
  constructor
  · intro ⟨series, h⟩ r hr
    obtain ⟨xs, hxs, h⟩ := bind_eq_ok_iff.1 h
    obtain ⟨pairs, hpairs, -⟩ := bind_eq_ok_iff.1 h
    -- a row without a server size would have been noticed before
    obtain ⟨n, hn, -⟩ := exists_percentagesUpdated_iff.1 ⟨xs, hxs⟩ r hr
    obtain ⟨k, hk⟩ := List.getElem?_of_mem (mem_serverSizes.2 ⟨r, hr, hn⟩)
    have hz : (serverSizes rows).zipIdx[k]? = some (n, k) := by simp [hk]
    obtain ⟨pair, -, hpair⟩ := (forall₂_iff_getElem?.1 (mapM_eq_ok_iff.1 hpairs)).2 k _ hz
    exact exists_serverSeries_iff.1 ⟨pair, hpair⟩ r (mem_rowsOf.2 ⟨hr, hn⟩)
  · intro h
    obtain ⟨xs, hxs⟩ := exists_percentagesUpdated_iff.2 fun r hr => (h r hr).counted
    cases hpairs : (serverSizes rows).zipIdx.mapM fun z => serverSeries rows z.2 z.1 with
    | ok pairs => exact ⟨_, bind_eq_ok_iff.2 ⟨xs, hxs, bind_eq_ok_iff.2 ⟨pairs, hpairs, rfl⟩⟩⟩
    -- an error would be that of some server size, but each of them has its lines
    | error e =>
      obtain ⟨i, z, -, he⟩ := mapM_eq_error_iff.1 hpairs
      obtain ⟨pair, hpair⟩ := (exists_serverSeries_iff (k := z.2) (n := z.1)).2
        fun r hr => h r (mem_rowsOf.1 hr).1
      rw [hpair] at he
      exact nomatch he

/-- The series are the two lines of each server size, one size after the other. -/
theorem scaleSeries_eq_ok {series : List Series} (h : scaleSeries rows = .ok series) :
    series = (serverSizes rows).zipIdx.flatMap fun z =>
      [serverLine rows z.2 z.1 .solid, serverLine rows z.2 z.1 .dashed] := by
  obtain ⟨xs, -, h⟩ := bind_eq_ok_iff.1 h
  obtain ⟨pairs, hpairs, h⟩ := bind_eq_ok_iff.1 h
  obtain rfl := Except.ok.inj h
  have hmap := map_of_mapM_eq_ok (h := id) hpairs fun z _ pair hpair => serverSeries_eq_ok hpair
  rw [List.map_id] at hmap
  rw [hmap, List.flatMap_def]

end

/-! ### The series of a label -/

/-- The points of the series with a label. -/
def pointsAt (label : String) (series : List Series) : List Point :=
  series.flatMap fun s => if s.label = label then s.points else []

section

variable {rows : List Row} {n m : UInt64} {line line' : Line}

/-- The label tells the server size and the line. -/
private theorem serverLabel_inj : serverLabel n line = serverLabel m line' ↔ n = m ∧ line = line' := by
  have hsame (suffix : String) :
      toString n.toNat ++ suffix = toString m.toNat ++ suffix ↔ n = m := by
    rw [String.append_left_inj]
    constructor
    · intro h
      have hread := congrArg Decimal.parseWord? h
      rw [Decimal.parseWord?_toString, Decimal.parseWord?_toString] at hread
      exact Option.some.inj hread
    · intro h
      rw [h]
  -- the last letter of a label is that of its line
  have hother (a b : String) : a ++ " ADSes" ≠ b ++ " ADSes without optimization" := by
    intro h
    have hlast := congrArg (fun s : String => s.toList.getLast?) h
    simp at hlast
  cases line with
  | solid =>
    cases line' with
    | solid => exact (hsame " ADSes").trans (and_iff_left rfl).symm
    | dashed => exact iff_of_false (hother _ _) (by simp)
  | dashed =>
    cases line' with
    | solid => exact iff_of_false (hother _ _).symm (by simp)
    | dashed => exact (hsame " ADSes without optimization").trans (and_iff_left rfl).symm

/-- Of different server sizes at most one is the size of the label. -/
private theorem flatMap_ite {sizes : List UInt64} (hnodup : sizes.Nodup) (points : List Point) :
    (sizes.flatMap fun m => if m = n then points else []) = if n ∈ sizes then points else [] := by
  induction sizes with
  | nil => simp
  | cons m sizes ih =>
    obtain ⟨hm, hsizes⟩ := List.nodup_cons.1 hnodup
    rw [List.flatMap_cons, ih hsizes]
    by_cases hmn : m = n
    · have hn : n ∉ sizes := hmn ▸ hm
      simp [hmn, hn]
    · have hnm : n ≠ m := fun h => hmn h.symm
      simp [hmn, hnm]

/-- The series of a label shows the rows of its server size, also if there are none. -/
theorem pointsAt_scaleSeries {series : List Series} (h : scaleSeries rows = .ok series) :
    pointsAt (serverLabel n line) series = (rowsOf rows n).map (serverPoint line n) := by
  -- of a pair the label picks the one line of its own size, or nothing
  have hpair (place : Nat) (m : UInt64) :
      pointsAt (serverLabel n line)
        [serverLine rows place m .solid, serverLine rows place m .dashed] =
      if m = n then (rowsOf rows n).map (serverPoint line n) else [] := by
    by_cases hm : m = n
    · subst hm
      cases line <;> simp [pointsAt, serverLine, serverLabel_inj]
    · simp [pointsAt, serverLine, serverLabel_inj, hm]
  rw [scaleSeries_eq_ok h, pointsAt, List.flatMap_assoc]
  show ((serverSizes rows).zipIdx.flatMap fun z => pointsAt (serverLabel n line)
    [serverLine rows z.2 z.1 .solid, serverLine rows z.2 z.1 .dashed]) = _
  have hsizes : (serverSizes rows).zipIdx.flatMap (fun z => if z.1 = n then
      (rowsOf rows n).map (serverPoint line n) else []) =
        (serverSizes rows).flatMap fun m => if m = n then
          (rowsOf rows n).map (serverPoint line n) else [] := by
    conv_rhs => rw [← List.zipIdx_map_fst 0 (serverSizes rows), List.flatMap_map]
  simp only [hpair]
  rw [hsizes, flatMap_ite (nodup_serverSizes rows)]
  by_cases hn : n ∈ serverSizes rows
  · rw [if_pos hn]
  · have hnone : rowsOf rows n = [] := by
      rw [List.eq_nil_iff_forall_not_mem]
      exact fun r hr => hn (mem_serverSizes.2 ⟨r, mem_rowsOf.1 hr⟩)
    rw [if_neg hn, hnone, List.map_nil]

end

/-! ### The whole view -/

/-- The colours and markers of the pairs. They repeat after four pairs. -/
def palette : List (Color × Marker) :=
  [(.red, .triangle), (.blue, .circle), (.green, .square), (.black, .diamond)]

/-- The pair of series of the server size at a place. -/
structure IsPair (rows : List Row) (place : Nat) (n : UInt64) (solid dashed : Series) : Prop where
  labels : solid.label = serverLabel n .solid ∧ dashed.label = serverLabel n .dashed
  styles : ∃ color marker, palette[place % 4]? = some (color, marker) ∧
    solid.style = ⟨color, marker, .solid⟩ ∧ dashed.style = ⟨color, marker, .dashed⟩
  axes : solid.axis = .percentUpdated ∧ dashed.axis = .percentUpdated
  solidPoints : solid.points = (rowsOf rows n).map (serverPoint .solid n)
  dashedPoints : dashed.points = (rowsOf rows n).map (serverPoint .dashed n)
  sameShares : solid.points.map Point.x = dashed.points.map Point.x

/-- The pairs of the server sizes in ascending order. Together they show each row once. -/
structure Partitions (rows : List Row) (sizes : List UInt64) (pairs : List (Series × Series)) :
    Prop where
  ascending : sizes.Pairwise (· < ·)
  occurs : ∀ n, n ∈ sizes ↔ ∃ r ∈ rows, r.adsCount = some n
  onePairEach : pairs.length = sizes.length
  isPair : ∀ k n, sizes[k]? = some n →
    ∃ solid dashed, pairs[k]? = some (solid, dashed) ∧ IsPair rows k n solid dashed
  rowsOnce : (sizes.flatMap (rowsOf rows)).Perm rows
  /-- The solid series have as many points together as there are rows. -/
  pointsOnce : (pairs.flatMap fun z => z.1.points).length = rows.length

section

variable {rows : List Row}

/-- The style at a place is that of the palette. -/
theorem exists_ofIndex (place : Nat) : ∃ color marker,
    palette[place % 4]? = some (color, marker) ∧
      ∀ line, Style.ofIndex place line = ⟨color, marker, line⟩ := by
  have hplace : place % 4 = 0 ∨ place % 4 = 1 ∨ place % 4 = 2 ∨ place % 4 = 3 := by omega
  unfold Style.ofIndex
  rcases hplace with h | h | h | h
  all_goals
    rw [h]
    exact ⟨_, _, rfl, fun _ => rfl⟩

/-- The two lines of the server size at a place. -/
private def serverPair (rows : List Row) (z : UInt64 × Nat) : Series × Series :=
  (serverLine rows z.2 z.1 .solid, serverLine rows z.2 z.1 .dashed)

/-- The two lines of a server size are a pair. -/
private theorem isPair_serverPair (rows : List Row) (n : UInt64) (place : Nat) :
    IsPair rows place n (serverPair rows (n, place)).1 (serverPair rows (n, place)).2 := by
  obtain ⟨color, marker, hpalette, hstyle⟩ := exists_ofIndex place
  have hpoints (line : Line) : (serverLine rows place n line).points =
      (rowsOf rows n).map (serverPoint line n) := by
    rw [serverLine]
  have hshares (line : Line) :
      (serverLine rows place n line).points.map Point.x = (rowsOf rows n).map (share n) := by
    rw [hpoints, List.map_map]
    apply List.map_congr_left
    intro r _
    rw [Function.comp_apply, serverPoint]
  exact {
    labels := ⟨rfl, rfl⟩
    styles := ⟨color, marker, hpalette, hstyle .solid, hstyle .dashed⟩
    axes := ⟨rfl, rfl⟩
    solidPoints := hpoints .solid
    dashedPoints := hpoints .dashed
    sameShares := (hshares .solid).trans (hshares .dashed).symm }

/-- The pairs of the server sizes show rows once that can be shown at all. -/
private theorem partitions_serverSizes (h : ∀ r ∈ rows, Scalable r) :
    Partitions rows (serverSizes rows) ((serverSizes rows).zipIdx.map (serverPair rows)) := by
  have hperm : ((serverSizes rows).flatMap (rowsOf rows)).Perm rows :=
    perm_flatMap_rowsOf fun r hr => (h r hr).counted.imp fun n hn => hn.1
  -- a solid line has as many points as its server size has rows
  have hlengths : (((serverSizes rows).zipIdx.map (serverPair rows)).flatMap
      fun z => z.1.points).length = ((serverSizes rows).flatMap (rowsOf rows)).length := by
    rw [List.length_flatMap, List.length_flatMap, List.map_map]
    conv_rhs => rw [← List.zipIdx_map_fst 0 (serverSizes rows), List.map_map]
    congr 1
    apply List.map_congr_left
    intro z _
    simp [serverPair, serverLine]
  exact {
    ascending := pairwise_serverSizes rows
    occurs := fun n => mem_serverSizes
    onePairEach := by rw [List.length_map, List.length_zipIdx]
    isPair := by
      intro k n hk
      refine ⟨_, _, ?_, isPair_serverPair rows n k⟩
      simp [hk]
    rowsOnce := hperm
    pointsOnce := hlengths.trans hperm.length_eq }

/-- The view partitions the rows by their server size. Two lists of rows can be shown together if each
    of them can, and each server size then has its points of the first list and those of the second. -/
theorem scale_partitions_rows :
    (∀ rows series, scaleSeries rows = .ok series → ∃ sizes pairs, Partitions rows sizes pairs ∧
      series = pairs.flatMap fun z => [z.1, z.2]) ∧
    ∀ first second,
      ((∃ series, scaleSeries (first ++ second) = .ok series) ↔
        (∃ series, scaleSeries first = .ok series) ∧ ∃ series, scaleSeries second = .ok series) ∧
      ∀ whole before after, scaleSeries (first ++ second) = .ok whole →
        scaleSeries first = .ok before → scaleSeries second = .ok after →
        ∀ n line, pointsAt (serverLabel n line) whole =
          pointsAt (serverLabel n line) before ++ pointsAt (serverLabel n line) after := by
  constructor
  · intro rows series h
    refine ⟨_, _, partitions_serverSizes (exists_scaleSeries_iff.1 ⟨series, h⟩), ?_⟩
    rw [scaleSeries_eq_ok h, List.flatMap_map]
    rfl
  · intro first second
    constructor
    · simp only [exists_scaleSeries_iff, List.forall_mem_append]
    -- each label picks the rows of its size, first those of one list and then those of the other
    · intro whole before after hwhole hbefore hafter n line
      rw [pointsAt_scaleSeries hwhole, pointsAt_scaleSeries hbefore, pointsAt_scaleSeries hafter]
      rw [rowsOf, List.filter_append, List.map_append]
      rfl

/-- Rows of a small server and of a large one. -/
private def firstRun : List Row :=
  [⟨512, 900, none, 4, 284, 700, 330, 40, 80, 1070, some 1024⟩,
    ⟨64, 200, none, 2, 142, 400, 210, 20, 60, 630, some 256⟩]

/-- A row of the large server, and one of a middle-sized server that the first run does not have. -/
private def secondRun : List Row :=
  [⟨700, 950, none, 5, 355, 800, 370, 50, 90, 1220, some 1024⟩,
    ⟨128, 300, none, 3, 213, 500, 250, 30, 70, 780, some 512⟩]

/-- Two runs together show the four rows in three pairs, and the large server has a row of each run. -/
theorem scale_partitions_rows_twoRuns :
    ∃ whole before after, scaleSeries (firstRun ++ secondRun) = .ok whole ∧
      scaleSeries firstRun = .ok before ∧ scaleSeries secondRun = .ok after ∧
      (∃ sizes pairs, Partitions (firstRun ++ secondRun) sizes pairs ∧ 512 ∈ sizes ∧
        (pairs.flatMap fun z => z.1.points).length = 4) ∧
      pointsAt "1024 ADSes" whole = pointsAt "1024 ADSes" before ++ pointsAt "1024 ADSes" after := by
  -- each of the four rows has a server size and sizes that go together
  have hscalable : ∀ r ∈ firstRun ++ secondRun, Scalable r := by
    intro r hr
    simp only [firstRun, secondRun, List.cons_append, List.nil_append, List.mem_cons,
      List.not_mem_nil, or_false] at hr
    rcases hr with rfl | rfl | rfl | rfl
    all_goals exact ⟨⟨_, rfl, by decide⟩, by decide, by decide, by decide⟩
  obtain ⟨whole, hwhole⟩ := exists_scaleSeries_iff.2 hscalable
  obtain ⟨hiff, happend⟩ := scale_partitions_rows.2 firstRun secondRun
  obtain ⟨⟨before, hbefore⟩, after, hafter⟩ := hiff.1 ⟨whole, hwhole⟩
  obtain ⟨sizes, pairs, hpartitions, -⟩ := scale_partitions_rows.1 _ _ hwhole
  have hmiddle : 512 ∈ sizes := (hpartitions.occurs 512).2 ⟨_, .tail _ (.tail _ (.tail _ (.head _))), rfl⟩
  exact ⟨whole, before, after, hwhole, hbefore, hafter,
    ⟨sizes, pairs, hpartitions, hmiddle, hpartitions.pointsOnce⟩,
    happend whole before after hwhole hbefore hafter 1024 .solid⟩

end

end ProofSize.View
