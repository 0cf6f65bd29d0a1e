import Mathlib.Data.List.Lex
import ProofSize.Proofs.Files.Visiting

/-!
# All that a walk reaches

A walk visits the ends of the trails without loops from its root: files, links that lead to files, and
paths at which it cannot go on. It misses none of them and visits nothing else, comes to an end by
itself, and visits their paths in their order, each once.

## Key results

- `visitIn_eq_of_le`: a walk ends before its depth is used up
- `mem_walkIn_iff`: what a walk visits
- `pairwise_before_walkIn`: the order in which it does so
-/

namespace ProofSize.Files

variable {t : Tree} {root path : ByteString} {kind : Kind} {dirs : List Entered} {v : Visit}

/-! ### The order of paths -/

namespace Path

/-- One path comes before another one, compared name by name in the order of their bytes. -/
def Before (p q : ByteString) : Prop :=
  List.Lex (fun a b => a.bytes < b.bytes) (names p) (names q)

/-- Below one directory the first name that differs decides. -/
theorem before_of_prefix {p q a b : ByteString} {above : List ByteString} (hp : above ++ [a] <+: names p)
    (hq : above ++ [b] <+: names q) (h : a.bytes < b.bytes) : Before p q := by
  obtain ⟨as, has⟩ := hp
  obtain ⟨bs, hbs⟩ := hq
  rw [Before, ← has, ← hbs, List.append_assoc, List.append_assoc]
  refine List.Lex.append_left _ (.rel ?_) above
  exact h

/-- No path comes before itself. -/
theorem not_before_self (p : ByteString) : ¬Before p p := by
  unfold Before
  induction names p with
  | nil => exact fun h => nomatch h
  | cons name names ih =>
    intro h
    cases h with
    | rel hlt => exact List.lt_irrefl _ hlt
    | cons h => exact ih h

end Path

namespace Tree

/-! ### All trails without loops -/

/-- A trail goes on to each entry of a directory that it enters. -/
theorem Enters.trail {p : Place} {name : ByteString} {kind' : Kind} (h : t.Enters dirs path kind p)
    (htrail : t.Trail root dirs path kind) (hname : (name, kind') ∈ t.entriesAt p) :
    t.Trail root (⟨path, kind, p⟩ :: dirs) (Path.join path name) kind' :=
  .entry htrail h.enterable h.get hname

/-- A trail without loops has none with the directory that it enters. -/
theorem Enters.loopFree {p : Place} (h : t.Enters dirs path kind p) (hfree : LoopFree dirs) :
    LoopFree (⟨path, kind, p⟩ :: dirs) :=
  loopFree_cons_iff.2 ⟨h.new, hfree⟩

/-- Below a directory that is entered a walk visits what it visits below the entries, in their order. -/
theorem Enters.visitIn_eq (ht : t.WellNamed) (htrail : t.Trail root dirs path kind) {p : Place}
    (h : t.Enters dirs path kind p) (depth : Nat) :
    t.visitIn (depth + 1) (dirs.map (·.path)) path kind =
      (Walk.sorted (t.entriesAt p)).flatMap fun e =>
        t.visitIn depth ((⟨path, kind, p⟩ :: dirs).map (·.path)) (Path.join path e.1) e.2 := by
  rw [visitIn, h.stepAt_eq ht htrail]
  rfl

/-- Entries that are put in order are the same entries. -/
theorem mem_sorted_entriesAt {p : Place} {e : ByteString × Kind} :
    e ∈ Walk.sorted (t.entriesAt p) ↔ e ∈ t.entriesAt p :=
  (List.mergeSort_perm _ _).mem_iff

/-- A walk ends before its depth is used up: more of it makes no difference. -/
theorem visitIn_eq_of_le (ht : t.WellNamed) (htrail : t.Trail root dirs path kind) {depth depth' : Nat}
    (h : Walk.depthLimit ≤ depth + dirs.length) (h' : Walk.depthLimit ≤ depth' + dirs.length) :
    t.visitIn depth (dirs.map (·.path)) path kind = t.visitIn depth' (dirs.map (·.path)) path kind := by
  have hshort := htrail.length_lt ht
  induction depth generalizing depth' dirs path kind with
  | zero => omega
  | succ depth ih =>
    -- no trail is as long as the limit, so some depth is left
    obtain ⟨depth', rfl⟩ : ∃ n, depth' = n + 1 := ⟨depth' - 1, by omega⟩
    by_cases henters : ∃ p, t.Enters dirs path kind p
    · obtain ⟨p, henters⟩ := henters
      rw [henters.visitIn_eq ht htrail, henters.visitIn_eq ht htrail]
      refine List.flatMap_congr fun e he => ?_
      have hnext := henters.trail htrail (mem_sorted_entriesAt.1 he)
      refine ih hnext ?_ ?_ (hnext.length_lt ht)
      · rw [List.length_cons]
        omega
      · rw [List.length_cons]
        omega
    · obtain ⟨visits, hstep, -⟩ := htrail.stops ht (not_exists.1 henters)
      rw [visitIn, visitIn, hstep]

/-- What a walk visits is at the end of a trail without loops. -/
theorem exists_trail_of_mem_visitIn (ht : t.WellNamed) (htrail : t.Trail root dirs path kind)
    (hfree : LoopFree dirs) {depth : Nat} (hv : v ∈ t.visitIn depth (dirs.map (·.path)) path kind) :
    ∃ dirs' path' kind', t.Trail root dirs' path' kind' ∧ LoopFree dirs' ∧
      t.Ends dirs' path' kind' v := by
  induction depth generalizing dirs path kind with
  | zero => exact (List.not_mem_nil hv).elim
  | succ depth ih =>
    by_cases henters : ∃ p, t.Enters dirs path kind p
    · obtain ⟨p, henters⟩ := henters
      rw [henters.visitIn_eq ht htrail] at hv
      obtain ⟨e, he, hv⟩ := List.mem_flatMap.1 hv
      exact ih (henters.trail htrail (mem_sorted_entriesAt.1 he)) (henters.loopFree hfree) hv
    · obtain ⟨visits, hstep, -, hends⟩ := htrail.stops ht (not_exists.1 henters)
      rw [visitIn, hstep] at hv
      exact ⟨dirs, path, kind, htrail, hfree, (hends v).1 hv⟩

/-- A walk goes along each trail without loops. -/
theorem visitIn_subset_of_trail (ht : t.WellNamed) {start : Kind}
    (hroot : t.kind root false = .ok start) (htrail : t.Trail root dirs path kind)
    (hfree : LoopFree dirs) :
    ∃ depth, depth + dirs.length = Walk.depthLimit ∧
      t.visitIn depth (dirs.map (·.path)) path kind ⊆ t.visitIn Walk.depthLimit [] root start := by
  induction htrail with
  | root hkind =>
    obtain rfl := Except.ok.inj (hkind.symm.trans hroot)
    exact ⟨_, rfl, fun v hv => hv⟩
  | @entry dirs path name kind kind' p htrail hkind hget hname ih =>
    obtain ⟨hnew, hfree⟩ := loopFree_cons_iff.1 hfree
    obtain ⟨depth, hdepth, hsub⟩ := ih hfree
    -- the trail is shorter than the limit, so the walk has depth left to enter the directory
    have hshort := htrail.length_lt ht
    obtain ⟨depth, rfl⟩ : ∃ n, depth = n + 1 := ⟨depth - 1, by omega⟩
    refine ⟨depth, by rw [List.length_cons]; omega, fun v hv => hsub ?_⟩
    have henters : t.Enters dirs path kind p := ⟨hget, hkind, hnew⟩
    rw [henters.visitIn_eq ht htrail]
    exact List.mem_flatMap.2 ⟨_, mem_sorted_entriesAt.2 hname, hv⟩

/-- The end of a trail without loops is visited. -/
theorem mem_visitIn_of_trail (ht : t.WellNamed) {start : Kind} (hroot : t.kind root false = .ok start)
    (htrail : t.Trail root dirs path kind) (hfree : LoopFree dirs) (hends : t.Ends dirs path kind v) :
    v ∈ t.visitIn Walk.depthLimit [] root start := by
  obtain ⟨depth, hdepth, hsub⟩ := visitIn_subset_of_trail ht hroot htrail hfree
  have hshort := htrail.length_lt ht
  obtain ⟨depth, rfl⟩ : ∃ n, depth = n + 1 := ⟨depth - 1, by omega⟩
  obtain ⟨visits, hstep, -, hvisits⟩ := htrail.stops ht fun p h => h.not_ends hends
  refine hsub ?_
  rw [visitIn, hstep]
  exact (hvisits v).2 hends

/-! ### The order of visits -/

/-- The names of a path start the names of each path that is visited from there on. -/
theorem names_prefix_of_mem_visitIn (ht : t.WellNamed) (htrail : t.Trail root dirs path kind)
    {depth : Nat} (hv : v ∈ t.visitIn depth (dirs.map (·.path)) path kind) :
    Path.names path <+: Path.names v.path := by
  induction depth generalizing dirs path kind with
  | zero => exact (List.not_mem_nil hv).elim
  | succ depth ih =>
    by_cases henters : ∃ p, t.Enters dirs path kind p
    · obtain ⟨p, henters⟩ := henters
      rw [henters.visitIn_eq ht htrail] at hv
      obtain ⟨e, he, hv⟩ := List.mem_flatMap.1 hv
      have hname := mem_sorted_entriesAt.1 he
      have hbelow := ih (henters.trail htrail hname) hv
      rw [Path.names_join (ht.of_mem_entriesAt hname)] at hbelow
      exact (List.prefix_append _ _).trans hbelow
    · obtain ⟨visits, hstep, -, hends⟩ := htrail.stops ht (not_exists.1 henters)
      rw [visitIn, hstep] at hv
      exact ((hends v).1 hv).path_eq ▸ List.prefix_rfl

/-- Visits are in the order of their paths. -/
theorem pairwise_before_visitIn (ht : t.WellNamed) (htrail : t.Trail root dirs path kind)
    (depth : Nat) :
    (t.visitIn depth (dirs.map (·.path)) path kind).Pairwise
      fun v w => Path.Before v.path w.path := by
  induction depth generalizing dirs path kind with
  | zero => exact .nil
  | succ depth ih =>
    by_cases henters : ∃ p, t.Enters dirs path kind p
    · obtain ⟨p, henters⟩ := henters
      rw [henters.visitIn_eq ht htrail, List.pairwise_flatMap]
      refine ⟨fun e he => ih (henters.trail htrail (mem_sorted_entriesAt.1 he)), ?_⟩
      refine (pairwise_lt_sorted (t.nodup_entriesAt p)).imp_of_mem ?_
      -- what lies below one entry comes before what lies below another one
      intro a b ha hb hab v hv w hw
      have ha := mem_sorted_entriesAt.1 ha
      have hb := mem_sorted_entriesAt.1 hb
      have hv := names_prefix_of_mem_visitIn ht (henters.trail htrail ha) hv
      have hw := names_prefix_of_mem_visitIn ht (henters.trail htrail hb) hw
      rw [Path.names_join (ht.of_mem_entriesAt ha)] at hv
      rw [Path.names_join (ht.of_mem_entriesAt hb)] at hw
      exact Path.before_of_prefix hv hw hab
    · obtain ⟨visits, hstep, hlength, -⟩ := htrail.stops ht (not_exists.1 henters)
      rw [visitIn, hstep]
      rcases visits with _ | ⟨v, _ | ⟨w, visits⟩⟩
      · exact .nil
      · exact List.pairwise_singleton _ v
      · exact absurd hlength (by simp)

/-! ### The whole walk -/

/-- What is to be visited from a root on: the ends of the trails without loops, or the root itself if it
    leads nowhere. -/
inductive Reaches (t : Tree) (root : ByteString) : Visit → Prop
  | missing {fault : Fault} :
      t.kind root false = .error fault → Reaches t root (.fault root (.refused root fault))
  | along {dirs : List Entered} {path : ByteString} {kind : Kind} {v : Visit} :
      t.Trail root dirs path kind → LoopFree dirs → t.Ends dirs path kind v → Reaches t root v

/-- Where a fault is visited no file can be read. -/
theorem Reaches.not_file {fault : WalkFault} (h : t.Reaches root (.fault path fault)) (p : Place)
    (content : ByteArray) : t.get .follow path ≠ .ok (p, .file content) := by
  intro hget
  cases h with
  | missing hroot => rcases kind_keep hget with h | h <;> simp [hroot] at h
  | along _ _ hends =>
    cases hends with
    | refused _ hfault => simp [hget] at hfault
    | loop _ _ hdir => simp [hget] at hdir

/-- A walk visits all that is to be visited and nothing else. -/
theorem mem_walkIn_iff (ht : t.WellNamed) : v ∈ t.walkIn root ↔ t.Reaches root v := by
  rw [walkIn]
  cases hroot : t.kind root false with
  -- a root that leads nowhere is all that is visited
  | error fault =>
    rw [List.mem_singleton]
    constructor
    · rintro rfl
      exact .missing hroot
    · intro hv
      cases hv with
      | missing hroot' => rw [Except.error.inj (hroot.symm.trans hroot')]
      | along htrail _ _ => exact (htrail.not_of_error hroot).elim
  | ok kind =>
    constructor
    · intro hv
      obtain ⟨dirs, path, kind', htrail, hfree, hends⟩ :=
        exists_trail_of_mem_visitIn ht (.root hroot) .nil hv
      exact .along htrail hfree hends
    · intro hv
      cases hv with
      | missing hroot' => simp [hroot] at hroot'
      | along htrail hfree hends => exact mem_visitIn_of_trail ht hroot htrail hfree hends

/-- What is visited comes in the order of the paths. -/
theorem pairwise_before_walkIn (ht : t.WellNamed) (root : ByteString) :
    (t.walkIn root).Pairwise fun v w => Path.Before v.path w.path := by
  rw [walkIn]
  cases hroot : t.kind root false with
  | error fault => exact List.pairwise_singleton _ _
  | ok kind => exact pairwise_before_visitIn ht (.root hroot) Walk.depthLimit

end Tree

end ProofSize.Files
