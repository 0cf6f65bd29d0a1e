import ProofSize.Proofs.Files.Trails

/-!
# What a walk does at the end of a trail

At each path a walk either enters a directory or stops, with one visit at most. It enters where a trail
can go on without a loop, and what it visits where it stops ends the trail. That a link leads to a
directory on the trail is told from the paths of places, which differ for different places.

## Key results

- `Enters.stepAt_eq`: where a trail goes on, a walk enters the directory
- `Trail.stops`: elsewhere a walk visits what ends the trail
-/

namespace ProofSize.Files

variable {t : Tree} {root path : ByteString} {kind : Kind} {dirs : List Entered} {v : Visit}

namespace Tree

/-! ### The end of a trail -/

/-- A trail goes on through a directory, or through a link to a directory that is not on it yet. -/
structure Enters (t : Tree) (dirs : List Entered) (path : ByteString) (kind : Kind) (p : Place) :
    Prop where
  get : t.get .follow path = .ok (p, .directory)
  enterable : kind = .directory ∨ kind = .link
  new : kind = .link → ∀ d ∈ dirs, p ≠ d.place

/-- What is visited where a trail ends: a file, a link to a file, a directory or a link that cannot be
    followed, or a link to a directory that is on the trail. -/
inductive Ends (t : Tree) (dirs : List Entered) (path : ByteString) : Kind → Visit → Prop
  | file : Ends t dirs path .file (.file path)
  | linked {p : Place} {content : ByteArray} :
      t.get .follow path = .ok (p, .file content) → Ends t dirs path .link (.file path)
  | refused {kind : Kind} {fault : Fault} :
      kind = Kind.directory ∨ kind = Kind.link → t.get .follow path = .error fault →
      Ends t dirs path kind (.fault path (.refused path fault))
  | loop {before behind : List Entered} {d : Entered} :
      dirs = before ++ d :: behind → (∀ e ∈ before, e.place ≠ d.place) →
      t.get .follow path = .ok (d.place, .directory) →
      Ends t dirs path .link (.fault path (.loop path d.path))

/-- What is visited at the end of a trail is visited at its path. -/
theorem Ends.path_eq (h : t.Ends dirs path kind v) : v.path = path := by
  cases h <;> rfl

/-- A directory that is entered through a link makes no loop if it is not on the trail. -/
theorem loopFree_cons_iff {d : Entered} :
    LoopFree (d :: dirs) ↔ (d.kind = .link → ∀ e ∈ dirs, d.place ≠ e.place) ∧ LoopFree dirs := by
  rw [LoopFree, List.pairwise_cons]
  refine and_congr_left fun _ => ?_
  exact ⟨fun h hlink e he => h e he hlink, fun h e he hlink => h hlink e he⟩

/-- Where a trail goes on, nothing is visited. -/
theorem Enters.not_ends {p : Place} (h : t.Enters dirs path kind p) : ¬t.Ends dirs path kind v := by
  intro hends
  cases hends with
  | file =>
    rcases h.enterable with hkind | hkind <;> exact nomatch hkind
  | linked hget => exact nomatch h.get.symm.trans hget
  | refused _ hget => exact nomatch h.get.symm.trans hget
  | @loop before behind d hdirs _ hget =>
    obtain ⟨rfl, -⟩ := Prod.mk.inj (Except.ok.inj (h.get.symm.trans hget))
    exact h.new rfl d (by rw [hdirs]; simp) rfl

/-- A path that leads to a directory is entered. -/
theorem enterAt_eq_enter {p : Place} (h : t.get .follow path = .ok (p, .directory)) :
    t.enterAt path = .enter (Walk.sorted (t.entriesAt p)) := by
  rw [enterAt, entries_eq_ok_iff.2 ⟨p, h, rfl⟩]

/-- A path that leads nowhere is reported with the fault. -/
theorem enterAt_eq_stop {fault : Fault} (h : t.get .follow path = .error fault) :
    t.enterAt path = .stop [.fault path (.refused path fault)] := by
  rw [enterAt, entries, h]
  rfl

/-- Among the directories of a trail the nearest one at a place is found by the path of the place. -/
theorem findIn_map (ht : t.WellNamed) {p : Place} {n : Node} (hp : t.lookup p = some n)
    (hdirs : ∀ d ∈ dirs, t.get .follow d.path = .ok (d.place, .directory)) :
    t.findIn (pathOf p) (dirs.map (·.path)) =
      .ok ((dirs.find? fun d => d.place == p).map (·.path)) := by
  induction dirs with
  | nil => rfl
  | cons d dirs ih =>
    have hget := hdirs d List.mem_cons_self
    have hplace := ht.pathOf_inj (get_eq_ok_iff.1 hget).2 hp
    rw [List.map_cons, findIn, identity_eq_ok hget]
    dsimp only
    by_cases hsame : d.place = p
    · rw [if_pos (hplace.2 hsame), List.find?_cons, beq_iff_eq.2 hsame]
      rfl
    · rw [if_neg fun h => hsame (hplace.1 h), List.find?_cons, beq_eq_false_iff_ne.2 hsame]
      exact ih fun e he => hdirs e (List.mem_cons_of_mem _ he)

/-- A link to a directory is a loop if the directory is on the trail. -/
theorem loopIn_map (ht : t.WellNamed) {p : Place} (h : t.Trail root dirs path kind)
    (hget : t.get .follow path = .ok (p, .directory)) :
    t.loopIn path (dirs.map (·.path)) =
      .ok ((dirs.find? fun d => d.place == p).map (·.path)) := by
  rw [loopIn, identity_eq_ok hget]
  exact findIn_map ht (get_eq_ok_iff.1 hget).2 h.get_of_mem

/-- Where a trail goes on, a walk enters the directory. -/
theorem Enters.stepAt_eq (ht : t.WellNamed) (h : t.Trail root dirs path kind) {p : Place}
    (henters : t.Enters dirs path kind p) :
    t.stepAt (dirs.map (·.path)) path kind = .enter (Walk.sorted (t.entriesAt p)) := by
  rcases henters.enterable with rfl | rfl
  · exact enterAt_eq_enter henters.get
  · have hnone : (dirs.find? fun d => d.place == p) = none := by
      refine List.find?_eq_none.2 fun d hd => ?_
      rw [beq_iff_eq]
      exact fun hplace => henters.new rfl d hd hplace.symm
    rw [stepAt, kind_eq_ok true henters.get]
    dsimp only [Node.kind]
    rw [loopIn_map ht h henters.get, hnone]
    exact enterAt_eq_enter henters.get

/-- A trail that comes to a file ends with this file. -/
theorem ends_file_iff : t.Ends dirs path .file v ↔ v = .file path := by
  constructor
  · intro h
    cases h with
    | file => rfl
    | refused hkind => exact hkind.elim (fun h => nomatch h) (fun h => nomatch h)
  · rintro rfl
    exact .file

/-- A trail that comes to a path that leads nowhere ends with the fault. -/
theorem ends_iff_of_error {fault : Fault} (hkind : kind = .directory ∨ kind = .link)
    (hget : t.get .follow path = .error fault) :
    t.Ends dirs path kind v ↔ v = .fault path (.refused path fault) := by
  constructor
  · intro h
    cases h with
    | file => exact hkind.elim (fun h => nomatch h) (fun h => nomatch h)
    | linked hget' | loop _ _ hget' => exact nomatch hget.symm.trans hget'
    | refused _ hget' => rw [Except.error.inj (hget.symm.trans hget')]
  · rintro rfl
    exact .refused hkind hget

/-- A trail that comes to a link to a file ends with the file, under the path of the link. -/
theorem ends_link_iff_of_file {p : Place} {content : ByteArray}
    (hget : t.get .follow path = .ok (p, .file content)) :
    t.Ends dirs path .link v ↔ v = .file path := by
  constructor
  · intro h
    cases h with
    | linked => rfl
    | refused _ hget' | loop _ _ hget' => exact nomatch hget.symm.trans hget'
  · rintro rfl
    exact .linked hget

/-- What a link leads to is no link, so there is nothing with which a trail would end there. -/
theorem not_ends_of_link {p : Place} {target : ByteString}
    (hget : t.get .follow path = .ok (p, .link target)) : ¬t.Ends dirs path .link v := by
  intro h
  cases h with
  | linked hget' | refused _ hget' | loop _ _ hget' => exact nomatch hget.symm.trans hget'

/-- The nearest of the directories at the place to which a link leads is the one that is told of. -/
theorem ends_link_iff_of_directory {p : Place} {d : Entered}
    (hget : t.get .follow path = .ok (p, .directory))
    (hfind : (dirs.find? fun d => d.place == p) = some d) :
    t.Ends dirs path .link v ↔ v = .fault path (.loop path d.path) := by
  constructor
  · intro h
    cases h with
    | linked hget' | refused _ hget' => exact nomatch hget.symm.trans hget'
    | @loop before behind e hdirs hbefore hget' =>
      obtain ⟨rfl, -⟩ := Prod.mk.inj (Except.ok.inj (hget.symm.trans hget'))
      -- the directory of the loop is the nearest one at its place
      have hfirst : (dirs.find? fun d => d.place == e.place) = some e := by
        rw [hdirs]
        refine List.find?_eq_some_iff_append.2 ⟨beq_self_eq_true _, before, behind, rfl, fun x hx => ?_⟩
        simpa using hbefore x hx
      rw [Option.some.inj (hfind.symm.trans hfirst)]
  · rintro rfl
    obtain ⟨hplace, before, behind, hdirs, hbefore⟩ := List.find?_eq_some_iff_append.1 hfind
    obtain rfl := beq_iff_eq.1 hplace
    exact .loop hdirs (fun e he => by simpa using hbefore e he) hget

/-- A walk stops at the path, with one visit at most, and visits what ends the trail. -/
def Stops (t : Tree) (dirs : List Entered) (path : ByteString) (kind : Kind) : Prop :=
  ∃ visits, t.stepAt (dirs.map (·.path)) path kind = .stop visits ∧ visits.length ≤ 1 ∧
    ∀ v, v ∈ visits ↔ t.Ends dirs path kind v

/-- A walk stops where the trail ends if it visits the one thing that ends it. -/
private theorem stops_of_one {w : Visit} (hstep : t.stepAt (dirs.map (·.path)) path kind = .stop [w])
    (hends : ∀ v, t.Ends dirs path kind v ↔ v = w) : t.Stops dirs path kind :=
  ⟨[w], hstep, Nat.le_refl 1, fun v => by rw [List.mem_singleton, hends]⟩

/-- What is listed as a directory is entered, or else it cannot be listed. -/
private theorem stops_directory (ht : t.WellNamed) (h : t.Trail root dirs path .directory)
    (hstop : ∀ p, ¬t.Enters dirs path .directory p) : t.Stops dirs path .directory := by
  cases hget : t.get .follow path with
  | error fault => exact stops_of_one (enterAt_eq_stop hget) fun v => ends_iff_of_error (.inl rfl) hget
  | ok found =>
    obtain ⟨p, n⟩ := found
    -- what is listed as a directory is one, if its path leads there
    have hkind : n.kind = .directory := (h.fits ht).resolve_left (by decide) p n hget
    cases n with
    | directory => exact absurd ⟨hget, .inl rfl, fun hlink => nomatch hlink⟩ (hstop p)
    | file => exact nomatch hkind
    | link => exact nomatch hkind

/-- The directory to which a link leads is entered, or else it is on the trail. -/
private theorem stops_link (ht : t.WellNamed) (h : t.Trail root dirs path .link)
    (hstop : ∀ p, ¬t.Enters dirs path .link p) : t.Stops dirs path .link := by
  cases hget : t.get .follow path with
  | error fault =>
    have hkind : t.kind path true = .error fault := by
      rw [Tree.kind, if_pos rfl, hget]
      rfl
    exact stops_of_one (by rw [stepAt, hkind]) fun v => ends_iff_of_error (.inr rfl) hget
  | ok found =>
    obtain ⟨p, n⟩ := found
    have hkind : t.kind path true = .ok n.kind := kind_eq_ok true hget
    cases n with
    | file content =>
      exact stops_of_one (by rw [stepAt, hkind]; rfl) fun v => ends_link_iff_of_file hget
    | link target =>
      refine ⟨[], by rw [stepAt, hkind]; rfl, Nat.zero_le 1, fun v => ?_⟩
      exact ⟨fun hv => (List.not_mem_nil hv).elim, fun hends => (not_ends_of_link hget hends).elim⟩
    | directory =>
      -- a directory that is not entered is on the trail already
      obtain ⟨d, hfind⟩ : ∃ d, (dirs.find? fun d => d.place == p) = some d := by
        refine Option.ne_none_iff_exists'.1 fun hnone => hstop p ⟨hget, .inr rfl, fun _ d hd => ?_⟩
        exact Ne.symm (by simpa using List.find?_eq_none.1 hnone d hd)
      refine stops_of_one ?_ fun v => ends_link_iff_of_directory hget hfind
      rw [stepAt, hkind]
      dsimp only [Node.kind]
      rw [loopIn_map ht h hget, hfind]
      rfl

/-- Where no trail goes on, a walk visits what ends the trail, if anything does. -/
theorem Trail.stops (ht : t.WellNamed) (h : t.Trail root dirs path kind)
    (hstop : ∀ p, ¬t.Enters dirs path kind p) : t.Stops dirs path kind := by
  cases kind with
  | other => exact absurd rfl h.kind_ne_other
  | file => exact stops_of_one rfl fun v => ends_file_iff
  | directory => exact stops_directory ht h hstop
  | link => exact stops_link ht h hstop

end Tree

end ProofSize.Files
