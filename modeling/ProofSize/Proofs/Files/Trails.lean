import Mathlib.Algebra.Group.Nat.Defs
import Mathlib.Data.List.Perm.Subperm
import Mathlib.Data.List.ProdSigma
import ProofSize.Proofs.Files.Walking

/-!
# Trails through a tree

A trail is a way from a root to a path, entry by entry, through directories and links to directories.
In a tree with cycles of links there are trails of any length. A trail without loops enters no directory
through a link while it is in that directory already; it may do so under the directory's own name. That
is enough to bound it: between two links a trail goes down the tree, and each link leads to a directory
that is new on it.

## Key results

- `Trail.unique`: a path has one trail
- `Trail.length_lt`: a trail is shorter than the paths of the system are long
- `Trail.length_le`: a trail without loops is bounded by the number of things in the tree
-/

namespace ProofSize.Files

/-! ### Directories on the way -/

/-- A directory that is entered: the path under which it is, what stands at the end of that path, and
    the place to which it leads. -/
structure Entered where
  path : ByteString
  kind : Kind
  place : Place

/-- From a root one gets to a path through these directories, the nearest first, and what stands there
    has this kind. -/
inductive Tree.Trail (t : Tree) (root : ByteString) : List Entered → ByteString → Kind → Prop
  | root {kind : Kind} : t.kind root false = .ok kind → Trail t root [] root kind
  | entry {dirs : List Entered} {path name : ByteString} {kind kind' : Kind} {p : Place} :
      Trail t root dirs path kind → kind = .directory ∨ kind = .link →
      t.get .follow path = .ok (p, .directory) → (name, kind') ∈ t.entriesAt p →
      Trail t root (⟨path, kind, p⟩ :: dirs) (Path.join path name) kind'

/-- No link is entered that leads to a directory in which one is already. -/
def LoopFree (dirs : List Entered) : Prop :=
  dirs.Pairwise fun d e => d.kind = .link → d.place ≠ e.place

/-- What has been entered by its own name lies in what was entered before it. -/
def Descending (dirs : List Entered) : Prop :=
  dirs.IsChain fun d e => d.kind = .link ∨ ∃ name, d.place = e.place ++ [name]

namespace Tree

variable {t : Tree} {root path name : ByteString} {dirs dirs' : List Entered} {kind kind' : Kind}
  {p : Place}

/-- A path has the kind of what it leads to. -/
theorem kind_eq_ok_iff {followed : Bool} :
    t.kind path followed = .ok kind ↔
      ∃ p n, t.get (if followed then .follow else .keep) path = .ok (p, n) ∧ n.kind = kind := by
  constructor
  · intro h
    rw [Tree.kind, bind_eq_ok_iff] at h
    obtain ⟨⟨p, n⟩, hget, h⟩ := h
    exact ⟨p, n, hget, Except.ok.inj h⟩
  · rintro ⟨p, n, hget, h⟩
    rw [kind_eq_ok followed hget, h]

/-- Only what can be a path leads anywhere. -/
theorem isPath_of_get {ending : Ending} {n : Node} (h : t.get ending path = .ok (p, n)) : IsPath path :=
  (locate_eq_ok_iff.1 (get_eq_ok_iff.1 h).1).1

/-- What is listed in a directory has a name. -/
theorem WellNamed.of_mem_entriesAt (ht : t.WellNamed) (h : (name, kind) ∈ t.entriesAt p) :
    Path.IsName name := by
  obtain ⟨n, hn, -⟩ := mem_entriesAt.1 h
  exact ht.isName hn

/-- The kind is that of what the path leads to, unless it is a link. -/
def Fits (t : Tree) (path : ByteString) (kind : Kind) : Prop :=
  kind = .link ∨ ∀ p n, t.get .follow path = .ok (p, n) → n.kind = kind

/-- A path that is followed leads to the same when a link at its end is kept, or to a link. -/
theorem kind_keep {n : Node} (hget : t.get .follow path = .ok (p, n)) :
    t.kind path false = .ok n.kind ∨ t.kind path false = .ok .link := by
  rcases get_keep hget with hget | ⟨q, target, hget⟩
  · exact .inl (kind_eq_ok false hget)
  · exact .inr (kind_eq_ok false hget)

/-- The kind of a path from which a walk starts fits. -/
theorem fits_root (h : t.kind path false = .ok kind) : t.Fits path kind := by
  by_cases hlink : kind = .link
  · exact .inl hlink
  · refine .inr fun p n hget => ?_
    rcases kind_keep hget with hkeep | hkeep
    · exact Except.ok.inj (hkeep.symm.trans h)
    · exact absurd (Except.ok.inj (h.symm.trans hkeep)) hlink

/-- The kinds in a directory fit the paths of its entries. -/
theorem fits_join (ht : t.WellNamed) (hdir : t.get .follow path = .ok (p, .directory))
    (he : (name, kind) ∈ t.entriesAt p) : t.Fits (Path.join path name) kind := by
  obtain ⟨n, hn, rfl⟩ := mem_entriesAt.1 he
  cases n with
  | link target => exact .inl rfl
  | file content =>
    refine .inr fun q m hget => ?_
    rw [(get_join hdir hn (fun _ h => by cases h) (ht.isName hn) hget).2]
  | directory =>
    refine .inr fun q m hget => ?_
    rw [(get_join hdir hn (fun _ h => by cases h) (ht.isName hn) hget).2]

namespace Trail

/-- Each directory on a trail is entered where its path leads. -/
theorem get_of_mem (h : t.Trail root dirs path kind) :
    ∀ d ∈ dirs, t.get .follow d.path = .ok (d.place, .directory) := by
  induction h with
  | root => exact fun d hd => nomatch hd
  | entry _ _ hget _ ih =>
    intro d hd
    rcases List.mem_cons.1 hd with rfl | hd
    · exact hget
    · exact ih d hd

/-- There are no trails from a root that leads nowhere. -/
theorem not_of_error {fault : Fault} (h : t.Trail root dirs path kind)
    (hroot : t.kind root false = .error fault) : False := by
  induction h with
  | root hkind => exact nomatch hroot.symm.trans hkind
  | entry _ _ _ _ ih => exact ih

/-- The kind at the end of a trail fits its path. -/
theorem fits (ht : t.WellNamed) (h : t.Trail root dirs path kind) : t.Fits path kind := by
  cases h with
  | root hkind => exact fits_root hkind
  | entry _ _ hget hname => exact fits_join ht hget hname

/-- A tree has nothing but files, directories and links. -/
theorem kind_ne_other (h : t.Trail root dirs path kind) : kind ≠ .other := by
  have hnode (n : Node) : n.kind ≠ .other := by cases n <;> exact fun h => nomatch h
  cases h with
  | root hkind =>
    obtain ⟨p, n, -, rfl⟩ := kind_eq_ok_iff.1 hkind
    exact hnode n
  | entry _ _ _ hname =>
    obtain ⟨n, -, rfl⟩ := mem_entriesAt.1 hname
    exact hnode n

/-- What is entered by its own name lies in the directory before it. -/
theorem descending (ht : t.WellNamed) (h : t.Trail root dirs path kind) : Descending dirs := by
  induction h with
  | root => exact .nil
  | @entry dirs path name kind _ p htrail hkind hget _ ih =>
    cases htrail with
    | root => exact .singleton _
    | entry _ _ hget' hname' =>
      refine List.isChain_cons_cons.2 ⟨?_, ih⟩
      rcases hkind with rfl | rfl
      · obtain ⟨n, hn, hdir⟩ := mem_entriesAt.1 hname'
        have hlink : ∀ target, n ≠ .link target := by
          rintro target rfl
          exact nomatch hdir
        exact .inr ⟨_, (get_join hget' hn hlink (ht.isName hn) hget).1⟩
      · exact .inl rfl

/-! ### The path of a trail -/

/-- Each directory adds a name to the path. -/
theorem length_names (ht : t.WellNamed) (h : t.Trail root dirs path kind) :
    (Path.names path).length = (Path.names root).length + dirs.length := by
  induction h with
  | root => rfl
  | entry _ _ _ hname ih =>
    rw [Path.names_join (ht.of_mem_entriesAt hname), List.length_append, ih]
    rfl

/-- Each directory adds a byte or more to the path. -/
theorem length_lt_bytes (ht : t.WellNamed) (h : t.Trail root dirs path kind) :
    dirs.length < path.size := by
  induction h with
  | root hkind =>
    obtain ⟨p, n, hget, -⟩ := kind_eq_ok_iff.1 hkind
    exact Nat.pos_of_ne_zero fun h => (isPath_of_get hget).ne_empty (ByteString.size_eq_zero_iff.1 h)
  | @entry _ path name _ _ _ _ _ _ hname ih =>
    have hpos : name.size ≠ 0 := fun h =>
      (ht.of_mem_entriesAt hname).1 (ByteString.size_eq_zero_iff.1 h)
    have hjoin : path.size + name.size ≤ (Path.join path name).size := by
      unfold Path.join
      split <;> simp only [ByteString.size_append] <;> omega
    rw [List.length_cons]
    omega

/-- A trail is shorter than the paths of the system are long. -/
theorem length_lt (ht : t.WellNamed) (h : t.Trail root dirs path kind) :
    dirs.length < Walk.depthLimit := by
  cases h with
  | root => decide
  | entry htrail _ hget _ =>
    have hlt := htrail.length_lt_bytes ht
    have hshort := (isPath_of_get hget).short
    rw [pathLimit] at hshort
    rw [List.length_cons, Walk.depthLimit]
    omega

/-- The path of an entry does not end with a slash, nor is it empty. -/
private theorem ends_of_entry (ht : t.WellNamed) {d : Entered}
    (h : t.Trail root (d :: dirs) path kind) : ¬(path = "" ∨ Path.endsWithSlash path = true) := by
  have hpos := h.length_lt_bytes ht
  cases h with
  | entry _ _ _ hname =>
    rintro (hempty | hslash)
    · rw [hempty] at hpos
      exact absurd hpos (Nat.not_lt_zero _)
    · exact nomatch hslash.symm.trans (Path.endsWithSlash_join (ht.of_mem_entriesAt hname))

/-- On trails of one length, paths with the same name behind them are the same: they are both the root,
    or a slash stands between each of them and the name. -/
private theorem eq_of_join_eq (ht : t.WellNamed) {path' : ByteString} (h : t.Trail root dirs path kind)
    (h' : t.Trail root dirs' path' kind') (hlength : dirs.length = dirs'.length)
    (hjoin : Path.join path name = Path.join path' name) : path = path' := by
  cases dirs with
  | nil =>
    obtain rfl := List.length_eq_zero_iff.1 hlength.symm
    cases h
    cases h'
    rfl
  | cons d dirs =>
    cases dirs' with
    | nil => exact nomatch hlength
    | cons d' dirs' =>
      rw [Path.join, if_neg (ends_of_entry ht h), Path.join, if_neg (ends_of_entry ht h'),
        ByteString.append_left_inj, ByteString.append_left_inj] at hjoin
      exact hjoin

/-- A path has one trail. -/
theorem unique (ht : t.WellNamed) {path' : ByteString} (h : t.Trail root dirs path kind)
    (h' : t.Trail root dirs' path' kind') (hpath : path = path') : dirs = dirs' ∧ kind = kind' := by
  have hlength : dirs.length = dirs'.length := by
    have hnames := h.length_names ht
    rw [hpath, h'.length_names ht] at hnames
    omega
  induction h generalizing dirs' path' kind' with
  | root hkind =>
    cases h' with
    | root hkind' => exact ⟨rfl, Except.ok.inj (hkind.symm.trans hkind')⟩
    | entry => exact nomatch hlength
  | @entry dirs path name kind _ p htrail _ hget hname ih =>
    cases h' with
    | root => exact nomatch hlength
    | @entry dirs' path' name' kind' _ p' htrail' _ hget' hname' =>
      have hnames : Path.names path ++ [name] = Path.names path' ++ [name'] := by
        rw [← Path.names_join (ht.of_mem_entriesAt hname), hpath,
          Path.names_join (ht.of_mem_entriesAt hname')]
      obtain ⟨-, hlast⟩ := List.append_inj' hnames rfl
      obtain rfl := (List.cons.inj hlast).1
      have hshorter : dirs.length = dirs'.length := Nat.succ.inj hlength
      have hsame : path = path' := htrail.eq_of_join_eq ht htrail' hshorter hpath
      obtain ⟨rfl, rfl⟩ := ih htrail' hsame hshorter
      subst hsame
      obtain ⟨rfl, -⟩ := Prod.mk.inj (Except.ok.inj (hget.symm.trans hget'))
      -- the directory lists a name once
      have hinj := List.inj_on_of_nodup_map (t.nodup_entriesAt p) hname hname' rfl
      exact ⟨rfl, (Prod.mk.inj hinj).2⟩

end Trail

end Tree

/-! ### Trails without loops -/

/-- For each directory the place where the way down to it starts: that of the last link before it, or of
    the root. -/
def waysDown : List Entered → List (Place × Place)
  | [] => []
  | d :: dirs =>
    match waysDown dirs with
    | [] => [(d.place, d.place)]
    | w :: ws => ((if d.kind = .link then d.place else w.1), d.place) :: w :: ws

section

variable {dirs : List Entered}

/-- The ways down pass the directories of the trail. -/
theorem map_snd_waysDown (dirs : List Entered) :
    (waysDown dirs).map (·.2) = dirs.map (·.place) := by
  induction dirs with
  | nil => rfl
  | cons d dirs ih =>
    rw [waysDown, List.map_cons, ← ih]
    split
    · rename_i hnil
      rw [hnil]
      rfl
    · rename_i w ws hcons
      rw [hcons]
      rfl

/-- Each way down starts at a directory that has been entered. -/
theorem fst_mem_of_mem_waysDown : ∀ w ∈ waysDown dirs, w.1 ∈ dirs.map (·.place) := by
  induction dirs with
  | nil => exact fun w hw => nomatch hw
  | cons d dirs ih =>
    intro w hw
    rw [waysDown] at hw
    split at hw
    · obtain rfl := List.mem_singleton.1 hw
      exact List.mem_cons_self
    · rename_i x xs hcons
      rw [hcons] at ih
      rcases List.mem_cons.1 hw with rfl | hw
      · dsimp only
        split
        · exact List.mem_cons_self
        · exact List.mem_cons_of_mem _ (ih x List.mem_cons_self)
      · exact List.mem_cons_of_mem _ (ih w hw)

/-- On a trail without loops the ways down from one start get deeper: a link starts a way of its own, and
    what is entered by its own name lies in the directory before it. -/
theorem pairwise_deeper_waysDown (hdown : Descending dirs) (hfree : LoopFree dirs) :
    (waysDown dirs).Pairwise fun w x => x.1 = w.1 → x.2.length < w.2.length := by
  induction dirs with
  | nil => exact .nil
  | cons d dirs ih =>
    cases dirs with
    | nil => exact List.pairwise_singleton _ _
    | cons e dirs =>
      obtain ⟨hstep, hdown⟩ := List.isChain_cons_cons.1 hdown
      obtain ⟨hnew, hfree⟩ := List.pairwise_cons.1 hfree
      have ih := ih hdown hfree
      have hstart := @fst_mem_of_mem_waysDown (e :: dirs)
      have hplaces := map_snd_waysDown (e :: dirs)
      rw [waysDown]
      cases hways : waysDown (e :: dirs) with
      | nil =>
        rw [hways] at hplaces
        exact nomatch hplaces
      | cons w ws =>
        rw [hways] at ih hstart hplaces
        refine List.pairwise_cons.2 ⟨fun x hx => ?_, ih⟩
        dsimp only
        by_cases hlink : d.kind = .link
        · -- no other way starts where the link leads
          obtain ⟨f, hf, hplace⟩ := List.mem_map.1 (hstart x hx)
          rw [if_pos hlink]
          exact fun hsame => absurd (hplace.trans hsame).symm (hnew f hf hlink)
        · -- what is on this way already is not as deep
          obtain ⟨name, hplace⟩ := hstep.resolve_left hlink
          have hw : w.2 = e.place := (List.cons.inj hplaces).1
          have hdeeper : w.2.length < d.place.length := by
            rw [hplace, hw, List.length_append]
            exact Nat.lt_succ_self _
          rw [if_neg hlink]
          intro hsame
          rcases List.mem_cons.1 hx with rfl | hx
          · exact hdeeper
          · exact Nat.lt_trans ((List.pairwise_cons.1 ih).1 x hx hsame) hdeeper

/-- A trail without loops goes no way down twice. -/
theorem nodup_waysDown (hdown : Descending dirs) (hfree : LoopFree dirs) : (waysDown dirs).Nodup := by
  refine (pairwise_deeper_waysDown hdown hfree).imp fun {w x} hdeeper hsame => ?_
  subst hsame
  exact Nat.lt_irrefl _ (hdeeper rfl)

end

/-- A trail without loops is bounded by the number of things in the tree: it has at most one way down
    from each directory to each other one. -/
theorem Tree.Trail.length_le {t : Tree} {root path : ByteString} {dirs : List Entered} {kind : Kind}
    (ht : t.WellNamed) (h : t.Trail root dirs path kind) (hfree : LoopFree dirs) :
    dirs.length ≤ (t.nodes.length + 1) ^ 2 := by
  let places : List Place := [] :: t.nodes.map (·.1)
  have hplace : ∀ d ∈ dirs, d.place ∈ places := by
    intro d hd
    obtain ⟨-, hdir⟩ := get_eq_ok_iff.1 (h.get_of_mem d hd)
    by_cases hroot : d.place = []
    · exact hroot ▸ List.mem_cons_self
    · exact List.mem_cons_of_mem _ (List.mem_map_of_mem ((lookup_eq_some_iff hroot).1 hdir))
  -- a way down leads from one of the places to another
  have hsub : waysDown dirs ⊆ places ×ˢ places := by
    intro w hw
    obtain ⟨d, hd, hfst⟩ := List.mem_map.1 (fst_mem_of_mem_waysDown w hw)
    have hsnd : w.2 ∈ dirs.map (·.place) := map_snd_waysDown dirs ▸ List.mem_map_of_mem hw
    obtain ⟨e, he, hsnd⟩ := List.mem_map.1 hsnd
    exact List.mem_product.2 ⟨hfst ▸ hplace d hd, hsnd ▸ hplace e he⟩
  have hways := (List.subperm_of_subset (nodup_waysDown (h.descending ht) hfree) hsub).length_le
  have hlength : (waysDown dirs).length = dirs.length := by
    simpa using congrArg List.length (map_snd_waysDown dirs)
  rw [List.length_product, hlength] at hways
  rwa [Nat.pow_two, ← show places.length = t.nodes.length + 1 by simp [places]]

end ProofSize.Files
