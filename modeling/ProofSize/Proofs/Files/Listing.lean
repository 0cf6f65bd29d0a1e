import Mathlib.Data.List.Induction
import Mathlib.Data.List.Nodup
import ProofSize.Files.Walk
import ProofSize.Proofs.Files.Changing

/-!
# What directories list

A directory lists each name under which something stands in it, once. The path of an entry, made of
the path of the directory and the name, leads to what is listed, if it leads anywhere at all: it may be
too long. The content of files does not matter to a list of names.

## Key results

- `mem_entriesAt`: what is listed in a directory
- `get_join`: where the path of an entry leads
- `WellNamed.pathOf_inj`: the path of a place tells it from all others
- `pairwise_lt_sorted`: entries are listed in the order of their names
- `SameOutline.sorted_entries`: the entries in their order do not depend on what is in the files
-/

open scoped List

namespace ProofSize.Files

/-! ### Paths of entries -/

namespace Path

/-- These bytes are a name that an entry of a directory can have. -/
def IsName (name : ByteString) : Prop :=
  name ≠ "" ∧ name ≠ "." ∧ name ≠ ".." ∧ slash ∉ name.bytes

instance (name : ByteString) : Decidable (IsName name) := inferInstanceAs (Decidable (_ ∧ _))

variable {directory name : ByteString}

/-- Bytes have one part at least, if it is only an empty one. -/
private theorem splitSlash_ne_nil (bs : List UInt8) : splitSlash bs ≠ [] := by
  cases bs with
  | nil => simp [splitSlash]
  | cons b bs =>
    rw [splitSlash]
    split
    · simp
    · split <;> simp

/-- Bytes without a slash are one part. -/
private theorem splitSlash_eq_self {bs : List UInt8} (h : slash ∉ bs) : splitSlash bs = [bs] := by
  induction bs with
  | nil => rfl
  | cons b bs ih =>
    rw [List.mem_cons, not_or] at h
    rw [splitSlash, if_neg (Ne.symm h.1), ih h.2]

/-- The parts of two lists of bytes with a slash between them. -/
private theorem splitSlash_append (bs cs : List UInt8) :
    splitSlash (bs ++ slash :: cs) = splitSlash bs ++ splitSlash cs := by
  induction bs with
  | nil => rfl
  | cons b bs ih =>
    rw [List.cons_append, splitSlash, splitSlash, ih]
    split
    · rfl
    · cases hparts : splitSlash bs with
      | nil => exact absurd hparts (splitSlash_ne_nil bs)
      | cons part parts => rfl

/-- The slash is one byte. -/
@[simp] theorem bytes_slash : (("/" : ByteString)).bytes = [slash] := rfl

/-- A name is not empty. -/
theorem IsName.bytes_ne_nil (h : IsName name) : name.bytes ≠ [] :=
  fun hnil => h.1 (ByteString.eq_empty_iff.2 hnil)

/-- A slash at the end of a path adds no name. -/
theorem names_append_slash (path : ByteString) : names (path ++ "/") = names path := by
  rw [names, names, ByteString.bytes_append, bytes_slash, splitSlash_append, List.filter_append,
    List.map_append]
  simp [splitSlash]

/-- The name of an entry comes last in its path. -/
theorem names_join (h : IsName name) : names (join directory name) = names directory ++ [name] := by
  have hname : name.bytes ≠ [] := h.bytes_ne_nil
  have hlast : names name = [name] := by
    rw [names, splitSlash_eq_self h.2.2.2, List.filter_cons_of_pos (by simpa using hname)]
    rfl
  have hbehind : ∀ bs : List UInt8,
      ((splitSlash (bs ++ slash :: name.bytes)).filter fun part => part ≠ []).map ByteString.mk =
        ((splitSlash bs).filter fun part => part ≠ []).map ByteString.mk ++ [name] := by
    intro bs
    rw [splitSlash_append, List.filter_append, List.map_append]
    exact congrArg _ hlast
  rw [join]
  split
  · rename_i hends
    rcases hends with rfl | hends
    · exact hlast
    · -- the slash is there already, and behind it is an empty part
      obtain ⟨bs, hbs⟩ : ∃ bs, directory.bytes = bs ++ [slash] := by
        rw [endsWithSlash, beq_iff_eq] at hends
        exact List.getLast?_eq_some_iff.1 hends
      rw [names, names, ByteString.bytes_append, hbs, List.append_assoc, List.singleton_append, hbehind,
        splitSlash_append, List.filter_append, List.map_append]
      simp [splitSlash]
  · rw [names, names, ByteString.bytes_append, ByteString.bytes_append, bytes_slash, List.append_assoc]
    exact hbehind directory.bytes

/-- The path of an entry ends with its name, not with a slash. -/
theorem endsWithSlash_join (h : IsName name) : endsWithSlash (join directory name) = false := by
  have hname : name.bytes ≠ [] := h.bytes_ne_nil
  have hlast : (join directory name).bytes.getLast? = some (name.bytes.getLast hname) := by
    unfold join
    split <;> simp [List.getLast?_append, List.getLast?_cons, List.getLast?_eq_some_getLast hname]
  rw [endsWithSlash, hlast, beq_eq_false_iff_ne]
  intro hc
  exact h.2.2.2 (Option.some.inj hc ▸ List.getLast_mem hname)

/-- The path of an entry starts where that of the directory does. -/
theorem isAbsolute_join (h : IsName name) :
    isAbsolute (join directory name) = isAbsolute directory := by
  unfold join isAbsolute
  by_cases hempty : directory = ""
  · -- a name does not start with a slash
    subst hempty
    have hhead : name.bytes.head? ≠ some slash := fun hc => h.2.2.2 (List.mem_of_head? hc)
    rw [if_pos (.inl rfl)]
    show (name.bytes.head? == some slash) = false
    simpa using hhead
  · have hdir : directory.bytes ≠ [] := fun hnil => hempty (ByteString.eq_empty_iff.2 hnil)
    split <;> simp [List.head?_append, List.head?_eq_some_head hdir]

/-- The last part goes behind a slash, if there is a part before it. -/
private theorem intercalate_concat {parts : List (List UInt8)} (hparts : parts ≠ [])
    (last : List UInt8) :
    [slash].intercalate (parts ++ [last]) = [slash].intercalate parts ++ slash :: last := by
  induction parts with
  | nil => exact absurd rfl hparts
  | cons first parts ih =>
    cases parts with
    | nil => simp
    | cons second parts =>
      rw [List.cons_append, List.cons_append, List.intercalate_cons_cons, ← List.cons_append,
        ih (List.cons_ne_nil _ _), List.intercalate_cons_cons]
      simp

/-- The path of a place is a path of its names, and ends with a slash only if that is the root. -/
private theorem names_pathOf_and {p : List ByteString} (hp : ∀ name ∈ p, IsName name) :
    names (Tree.pathOf p) = p ∧ (p ≠ [] → endsWithSlash (Tree.pathOf p) = false) := by
  induction p using List.reverseRecOn with
  | nil => exact ⟨rfl, fun h => absurd rfl h⟩
  | append_singleton q name ih =>
    obtain ⟨hnames, hends⟩ := ih fun n hn => hp n (List.mem_append_left _ hn)
    have hname : IsName name := hp name (by simp)
    -- the path of a place is made like that of an entry of the directory above
    have hjoin : Tree.pathOf (q ++ [name]) = join (Tree.pathOf q) name := by
      by_cases hq : q = []
      · subst hq
        rw [join, if_pos (.inr rfl)]
        refine ByteString.ext ?_
        simp [Tree.pathOf]
      · have hne : ¬(Tree.pathOf q = "" ∨ endsWithSlash (Tree.pathOf q) = true) := by
          rw [hends hq, ByteString.eq_empty_iff]
          simp [Tree.pathOf]
        rw [join, if_neg hne]
        refine ByteString.ext ?_
        have hparts : q.map ByteString.bytes ≠ [] := by simpa using hq
        rw [Tree.pathOf, List.map_append, List.map_singleton, intercalate_concat hparts]
        simp [Tree.pathOf]
    rw [hjoin, names_join hname, hnames]
    exact ⟨rfl, fun _ => endsWithSlash_join hname⟩

/-- The path of a place names it. -/
theorem names_pathOf {p : List ByteString} (hp : ∀ name ∈ p, IsName name) :
    names (Tree.pathOf p) = p := (names_pathOf_and hp).1

end Path

namespace Tree

variable {t t' : Tree} {path name : ByteString} {p q : Place} {n m : Node} {kind : Kind}

/-- What stands in the tree stands under names that entries of directories can have. -/
def WellNamed (t : Tree) : Prop := ∀ n ∈ t.nodes, ∀ name ∈ n.1, Path.IsName name

/-- What stands in the tree has a name. -/
theorem WellNamed.isName (h : t.WellNamed) (hn : t.lookup (p ++ [name]) = some n) :
    Path.IsName name :=
  h _ ((lookup_eq_some_iff (by simp)).1 hn) name (by simp)

/-- A place at which something stands is made of names. -/
theorem WellNamed.isName_of_mem (h : t.WellNamed) (hn : t.lookup p = some n) :
    ∀ name ∈ p, Path.IsName name := by
  by_cases hp : p = []
  · subst hp
    exact fun name hname => nomatch hname
  · exact h _ ((lookup_eq_some_iff hp).1 hn)

/-- What a path leads to is told by the path of its place. -/
theorem identity_eq_ok (h : t.get .follow path = .ok (p, n)) :
    t.identity path = .ok (pathOf p) := by
  rw [identity, h]
  rfl

/-- Places of a tree with proper names have different paths. -/
theorem WellNamed.pathOf_inj (ht : t.WellNamed) (hp : t.lookup p = some n)
    (hq : t.lookup q = some m) : pathOf p = pathOf q ↔ p = q := by
  constructor
  · intro h
    rw [← Path.names_pathOf (ht.isName_of_mem hp), h, Path.names_pathOf (ht.isName_of_mem hq)]
  · rintro rfl
    rfl

/-- The path of an entry leads to what stands under its name, if it leads anywhere and that is no
    link. -/
theorem get_join (hdir : t.get .follow path = .ok (p, .directory))
    (hn : t.lookup (p ++ [name]) = some n) (hlink : ∀ target, n ≠ .link target)
    (hname : Path.IsName name) (h : t.get .follow (Path.join path name) = .ok (q, m)) :
    q = p ++ [name] ∧ m = n := by
  obtain ⟨hloc, hplace⟩ := get_eq_ok_iff.1 hdir
  obtain ⟨-, hleads⟩ := locate_eq_ok_iff.1 hloc
  obtain ⟨hloc', hm⟩ := get_eq_ok_iff.1 h
  obtain ⟨-, hleads'⟩ := locate_eq_ok_iff.1 hloc'
  -- the path goes along that of the directory and then takes one step more
  have hsteps : stepsOf (Path.join path name) = Path.names path ++ [name] := by
    rw [stepsOf, Path.endsWithSlash_join hname, Path.names_join hname]
    simp
  have hslash : (if Path.endsWithSlash path then [("" : ByteString)] else []) = [] ∨
      (if Path.endsWithSlash path then [("" : ByteString)] else []) = [("" : ByteString)] := by
    split <;> simp
  rw [hsteps, startOf, Path.isAbsolute_join hname, ← startOf] at hleads'
  obtain ⟨k, hk⟩ := follow_append hslash (List.cons_ne_nil name []) hleads
  rw [← follow_eq_ok_iff, hk, follow_eq_ok_iff] at hleads'
  cases hleads' with
  | stay _ hself _ => exact absurd hself (not_or.2 ⟨hname.1, hname.2.1⟩)
  | up _ _ => exact absurd rfl hname.2.2.1
  | stop _ _ _ hkeep => exact absurd hkeep (by decide)
  | link _ _ hsome _ _ =>
    rw [hn] at hsome
    exact absurd (Option.some.inj hsome) (hlink _)
  | enter _ _ _ _ hrest =>
    cases hrest
    rw [hn] at hm
    exact ⟨rfl, (Option.some.inj hm).symm⟩

/-! ### Entries -/

/-- What stands in a directory, as it is listed. -/
def entriesAt (t : Tree) (p : Place) : List (ByteString × Kind) := t.nodes.filterMap (entryIn p)

/-- What stands right in the directory is listed by its name and its kind, and nothing else is. -/
theorem entryIn_eq_some_iff {x : Place × Node} :
    entryIn p x = some (name, kind) ↔ x.1 = p ++ [name] ∧ x.2.kind = kind := by
  unfold entryIn
  constructor
  · intro h
    split at h
    · rename_i hp
      obtain ⟨last, hlast, h⟩ := Option.map_eq_some_iff.1 h
      obtain ⟨rfl, rfl⟩ := Prod.mk.inj h
      obtain ⟨ys, hys⟩ := List.getLast?_eq_some_iff.1 hlast
      refine ⟨?_, rfl⟩
      rw [hys, List.dropLast_concat] at hp
      rw [hys, hp]
    · exact nomatch h
  · intro ⟨hx, hk⟩
    rw [hx, if_pos List.dropLast_concat, List.getLast?_concat, Option.map_some, hk]

/-- A name is listed with the kind of what stands under it in the directory. -/
theorem mem_entriesAt :
    (name, kind) ∈ t.entriesAt p ↔ ∃ n, t.lookup (p ++ [name]) = some n ∧ n.kind = kind := by
  -- an entry stands somewhere below the root
  have hne : p ++ [name] ≠ [] := by simp
  simp only [entriesAt, List.mem_filterMap, entryIn_eq_some_iff, lookup_eq_some_iff hne]
  constructor
  · intro ⟨x, hx, hp, hk⟩
    exact ⟨x.2, hp ▸ hx, hk⟩
  · intro ⟨n, hn, hk⟩
    exact ⟨_, hn, rfl, hk⟩

/-- A name is listed once. -/
theorem nodup_entriesAt (t : Tree) (p : Place) : ((t.entriesAt p).map (·.1)).Nodup := by
  rw [List.Nodup, List.pairwise_map, entriesAt]
  refine List.Pairwise.filterMap _ ?_ (List.pairwise_map.1 t.distinct)
  intro x y hxy a ha b hb hab
  -- two entries of one name would stand at one place
  obtain ⟨hx, -⟩ := entryIn_eq_some_iff.1 ha
  obtain ⟨hy, -⟩ := entryIn_eq_some_iff.1 hb
  exact hxy (by rw [hx, hy, hab])

/-- The path of a directory lists what stands in the directory. -/
theorem entries_eq_ok_iff {es : List (ByteString × Kind)} :
    t.entries path = .ok es ↔
      ∃ p, t.get .follow path = .ok (p, .directory) ∧ es = t.entriesAt p := by
  rw [entries, bind_eq_ok_iff]
  constructor
  · intro ⟨⟨p, n⟩, hget, h⟩
    cases n with
    | directory => exact ⟨p, hget, (Except.ok.inj h).symm⟩
    | file content => exact nomatch h
    | link target => exact nomatch h
  · intro ⟨p, hget, hes⟩
    exact ⟨_, hget, by rw [hes, entriesAt]⟩

/-- What is no directory lists nothing. -/
theorem entries_eq_error (hget : t.get .follow path = .ok (p, n)) (hn : n ≠ .directory) :
    t.entries path = .error .notDirectory := by
  rw [entries, hget]
  cases n with
  | directory => exact absurd rfl hn
  | file content => rfl
  | link target => rfl

/-! ### The order of entries -/

/-- Sorted entries stand in the order of their names. -/
private theorem pairwise_sorted (es : List (ByteString × Kind)) :
    (Walk.sorted es).Pairwise fun a b => a.1.bytes ≤ b.1.bytes := by
  refine (List.pairwise_mergeSort ?_ ?_ es).imp fun hab => of_decide_eq_true hab
  · intro a b c hab hbc
    exact decide_eq_true (List.le_trans (of_decide_eq_true hab) (of_decide_eq_true hbc))
  · intro a b
    simpa using List.le_total a.1.bytes b.1.bytes

/-- Entries under names of their own stand in the strict order of the names. -/
theorem pairwise_lt_sorted {es : List (ByteString × Kind)} (hes : (es.map (·.1)).Nodup) :
    (Walk.sorted es).Pairwise fun a b => a.1.bytes < b.1.bytes := by
  have hperm : Walk.sorted es ~ es := List.mergeSort_perm _ _
  have hnodup : ((Walk.sorted es).map (·.1)).Nodup := (hperm.map _).nodup_iff.2 hes
  refine ((pairwise_sorted es).and (List.pairwise_map.1 hnodup)).imp fun hab => ?_
  exact Std.lt_of_le_of_ne hab.1 fun hsame => hab.2 (ByteString.ext hsame)

/-- Lists of the same entries, each of them under a name of its own, are the same in their order. -/
private theorem sorted_eq_of_mem_iff {es es' : List (ByteString × Kind)} (hes : (es.map (·.1)).Nodup)
    (hes' : (es'.map (·.1)).Nodup) (h : ∀ e, e ∈ es' ↔ e ∈ es) :
    Walk.sorted es' = Walk.sorted es := by
  have hperm : Walk.sorted es' ~ Walk.sorted es := by
    have hsame : es' ~ es :=
      (List.perm_ext_iff_of_nodup (List.Nodup.of_map _ hes') (List.Nodup.of_map _ hes)).2 h
    exact (List.mergeSort_perm _ _).trans (hsame.trans (List.mergeSort_perm _ _).symm)
  refine hperm.eq_of_pairwise ?_ (pairwise_sorted es') (pairwise_sorted es)
  intro a b ha hb hab hba
  -- entries of one name are one entry
  have hname : a.1 = b.1 := ByteString.ext (List.le_antisymm hab hba)
  have ha : a ∈ es := (h a).1 ((List.mergeSort_perm _ _).mem_iff.1 ha)
  have hb : b ∈ es := (List.mergeSort_perm _ _).mem_iff.1 hb
  exact List.inj_on_of_nodup_map hes ha hb hname

/-- What is in the files does not matter to the entries of a directory. -/
theorem SameOutline.sorted_entries (h : SameOutline t t') (path : ByteString) :
    (t'.entries path).map Walk.sorted = (t.entries path).map Walk.sorted := by
  rcases h.get_cases .follow path with ⟨fault, hget, hget'⟩ | ⟨p, n, n', hget, hget', hout⟩
  · rw [entries, entries, hget, hget']
    rfl
  -- the other tree has a directory at the place as well, or neither has
  · have hdir : n' = .directory ↔ n = .directory := by
      rw [← Node.outline_eq_directory_iff, hout, Node.outline_eq_directory_iff]
    by_cases hn : n = .directory
    · obtain rfl := hn
      obtain rfl := hdir.2 rfl
      rw [entries_eq_ok_iff.2 ⟨p, hget, rfl⟩, entries_eq_ok_iff.2 ⟨p, hget', rfl⟩]
      refine congrArg Except.ok
        (sorted_eq_of_mem_iff (t.nodup_entriesAt p) (t'.nodup_entriesAt p) fun ⟨name, kind⟩ => ?_)
      rw [mem_entriesAt, mem_entriesAt, h.exists_kind_iff]
    · rw [entries_eq_error hget hn, entries_eq_error hget' (fun h => hn (hdir.1 h))]

end Tree

end ProofSize.Files
