import Mathlib.Data.List.Perm.Basic
import ProofSize.Proofs.Files.Following
import ProofSize.Proofs.FirstError

/-!
# What a change of a tree changes

A file or a directory that is put at a vacant place leaves everything else where it was, and the path
that was vacant leads to it. New content of a file changes nothing but what is read there: every path
leads where it led before, and every directory lists what it listed.

## Key results

- `locate_eq_ok_iff`, `get_eq_ok_iff`: where a path leads, and what stands there
- `extends_put`, `sameOutline_put`: what putting a node keeps
- `Leads.put`: a path that was vacant leads to what is put there
- `read_put_of_writable`: a file that has been written is read back
- `write_of_fits`, `write_of_cut`: what writing a file leaves where all of the content is taken, and
  where it is not
- `get_of_makeDirectory`: a directory that has been made is found
- `SameOutline.locate_eq`, `SameOutline.kind_eq`, `SameOutline.identity_eq`: the content of files does
  not matter to these
-/

namespace ProofSize.Files

namespace Tree

variable {t t' : Tree} {ending : Ending} {path : ByteString} {p : Place} {n : Node} {loc : Located}

/-! ### Paths -/

/-- The text can be a path: it has no null character, and is neither empty nor too long. -/
structure IsPath (path : ByteString) : Prop where
  noNull : Path.hasNull path = false
  ne_empty : path ≠ ""
  short : path.size ≤ pathLimit

/-- Steps lead to a location if the text can be a path and they lead there. -/
theorem locateSteps_eq_ok_iff {steps : List ByteString} :
    t.locateSteps ending path steps = .ok loc ↔
      IsPath path ∧ Leads t ending linkLimit (startOf t.current path) steps loc := by
  rw [← follow_eq_ok_iff, locateSteps]
  constructor
  · intro h
    split at h
    · exact nomatch h
    rename_i hnull
    split at h
    · exact nomatch h
    rename_i hempty
    split at h
    · exact nomatch h
    rename_i hlong
    exact ⟨⟨Bool.eq_false_iff.2 hnull, hempty, Nat.le_of_not_lt hlong⟩, h⟩
  · intro ⟨hpath, h⟩
    rw [hpath.noNull, if_neg (by decide), if_neg hpath.ne_empty,
      if_neg (Nat.not_lt_of_le hpath.short)]
    exact h

/-- A path leads to a location along its steps. -/
theorem locate_eq_ok_iff :
    t.locate ending path = .ok loc ↔
      IsPath path ∧ Leads t ending linkLimit (startOf t.current path) (stepsOf path) loc :=
  locateSteps_eq_ok_iff

/-- What a path leads to is what stands at the place found. -/
theorem get_eq_ok_iff :
    t.get ending path = .ok (p, n) ↔ t.locate ending path = .ok (.found p) ∧ t.lookup p = some n := by
  rw [get, bind_eq_ok_iff]
  constructor
  · intro ⟨loc, hloc, h⟩
    cases loc with
    | vacant q => exact nomatch h
    | found q =>
      cases hq : t.lookup q with
      | none => simp [hq] at h
      | some m =>
        simp only [hq] at h
        obtain ⟨rfl, rfl⟩ := Prod.mk.inj (Except.ok.inj h)
        exact ⟨hloc, hq⟩
  · intro ⟨hloc, hn⟩
    exact ⟨_, hloc, by simp only [hn]⟩

/-- A path leads to the same when a link at its end is kept, unless there is such a link. -/
theorem get_keep (h : t.get .follow path = .ok (p, n)) :
    t.get .keep path = .ok (p, n) ∨ ∃ q target, t.get .keep path = .ok (q, .link target) := by
  obtain ⟨hloc, hn⟩ := get_eq_ok_iff.1 h
  obtain ⟨hpath, hleads⟩ := locate_eq_ok_iff.1 hloc
  -- the last step may pass through a link, which is what is found without following
  rcases hleads.keep with hkeep | ⟨q, target, hkeep, hlink⟩
  · exact .inl (get_eq_ok_iff.2 ⟨locate_eq_ok_iff.2 ⟨hpath, hkeep⟩, hn⟩)
  · exact .inr ⟨q, target, get_eq_ok_iff.2 ⟨locate_eq_ok_iff.2 ⟨hpath, hkeep⟩, hlink⟩⟩

/-- The kind of what a path leads to. -/
theorem kind_eq_ok (followed : Bool)
    (h : t.get (if followed then .follow else .keep) path = .ok (p, n)) :
    t.kind path followed = .ok n.kind := by
  rw [kind, h]
  rfl

/-- What is read is the content of the file that a path leads to. -/
theorem read_eq_ok_iff {content : ByteArray} :
    t.read path = .ok content ↔ ∃ p, t.get .follow path = .ok (p, .file content) := by
  rw [read, bind_eq_ok_iff]
  constructor
  · intro ⟨⟨p, n⟩, hget, h⟩
    cases n with
    | file c =>
      obtain rfl := Except.ok.inj h
      exact ⟨p, hget⟩
    | directory => exact nomatch h
    | link target => exact nomatch h
  · intro ⟨p, hget⟩
    exact ⟨_, hget, rfl⟩

/-- A file can be written where nothing stands, or where a file stands. -/
theorem writable_eq_ok_iff :
    t.writable path = .ok p ↔
      t.locate .create path = .ok (.vacant p) ∨
        t.locate .create path = .ok (.found p) ∧ ∃ content, t.lookup p = some (.file content) := by
  rw [writable, bind_eq_ok_iff]
  constructor
  · intro ⟨loc, hloc, h⟩
    -- what is found must be a file, and what is vacant can become one
    cases loc with
    | vacant q =>
      obtain rfl := Except.ok.inj h
      exact .inl hloc
    | found q =>
      simp only at h
      split at h
      · rename_i content hq
        obtain rfl := Except.ok.inj h
        exact .inr ⟨hloc, content, hq⟩
      · exact nomatch h
  · intro h
    rcases h with hloc | ⟨hloc, content, hp⟩
    · exact ⟨_, hloc, rfl⟩
    · exact ⟨_, hloc, by simp only [hp]⟩

/-! ### A node at a vacant place -/

/-- At the root there is a directory. -/
theorem lookup_root (t : Tree) : t.lookup [] = some .directory := if_pos rfl

/-- No file stands at the root. -/
theorem ne_root_of_lookup_file {content : ByteArray} (h : t.lookup p = some (.file content)) :
    p ≠ [] := by
  rintro rfl
  rw [lookup_root] at h
  exact nomatch h

/-- A node that is put where nothing stands takes nothing away. -/
theorem extends_put (h : t.lookup p = none) (n : Node) : Extends t (t.put p n) where
  current := rfl
  lookup q m hq := by
    have hne : q ≠ p := by
      rintro rfl
      rw [h] at hq
      exact nomatch hq
    rw [lookup_put_ne t hne, hq]

/-- Steps that lead to a vacant place lead to what is put there, unless that is a link. -/
theorem Leads.put {links : Nat} {at_ : Place} {names : List ByteString}
    (h : Leads t ending links at_ names (.vacant p)) (hn : ∀ target, n ≠ .link target) :
    Leads (t.put p n) .follow links at_ names (.found p) := by
  obtain ⟨hroot, hnone⟩ := h.vacant_place
  refine (h.follow fun _ => ⟨p, rfl⟩).extends (extends_put hnone n) fun q hq => ?_
  obtain rfl := Located.vacant.inj hq
  exact ⟨n, lookup_put_self t hroot n, hn⟩

/-- What a path leads to is still there in a tree that has more. -/
theorem Extends.get (hext : Extends t t') (h : t.get ending path = .ok (p, n)) :
    t'.get ending path = .ok (p, n) := by
  obtain ⟨hloc, hn⟩ := get_eq_ok_iff.1 h
  obtain ⟨hpath, hleads⟩ := locate_eq_ok_iff.1 hloc
  have hleads := hleads.extends hext fun q hq => nomatch hq
  rw [← hext.current] at hleads
  exact get_eq_ok_iff.2 ⟨locate_eq_ok_iff.2 ⟨hpath, hleads⟩, hext.lookup p n hn⟩

/-- Once a directory stands at a vacant place, the path to it leads there. Slashes at the end of the
    path do not matter then. -/
theorem get_of_makeDirectory (h : t.makeDirectory path = .ok t') :
    ∃ p, t.lookup p = none ∧ t' = t.put p .directory ∧
      t'.get .follow path = .ok (p, .directory) := by
  rw [makeDirectory, bind_eq_ok_iff] at h
  obtain ⟨loc, hloc, h⟩ := h
  cases loc with
  | found p => exact nomatch h
  | vacant p =>
    obtain rfl := Except.ok.inj h
    obtain ⟨hpath, hleads⟩ := locateSteps_eq_ok_iff.1 hloc
    obtain ⟨hroot, hnone⟩ := hleads.vacant_place
    have hdir := lookup_put_self t hroot .directory
    -- the path led to a vacant place, and a directory is no link
    have hleads := hleads.put fun _ (h : Node.directory = .link _) => nomatch h
    refine ⟨p, hnone, rfl, get_eq_ok_iff.2 ⟨locate_eq_ok_iff.2 ⟨hpath, ?_⟩, hdir⟩⟩
    show Leads (t.put p .directory) .follow linkLimit (startOf t.current path) (stepsOf path) (.found p)
    unfold stepsOf
    split
    · -- the slash is a step within the directory
      rw [← List.append_nil (Path.names path)] at hleads
      obtain ⟨k, hk⟩ := follow_append (.inl rfl) (List.cons_ne_nil _ []) hleads
      rw [← follow_eq_ok_iff, hk, follow_stay (passable_follow hdir) (.inl rfl), follow_nil]
    · rw [List.append_nil]
      exact hleads

end Tree

/-! ### The content of files -/

/-- What stands at a place, whatever the content of a file is. -/
def Node.outline : Node → Node
  | .file _ => .file .empty
  | n => n

/-- The content of a file does not matter to its kind. -/
theorem Node.kind_outline (n : Node) : n.outline.kind = n.kind := by
  cases n <;> rfl

/-- Only a directory has the outline of a directory. -/
theorem Node.outline_eq_directory_iff {n : Node} : n.outline = .directory ↔ n = .directory := by
  cases n <;> simp [Node.outline]

namespace Tree

variable {t t' : Tree} {ending : Ending} {path : ByteString} {p : Place} {n : Node} {loc : Located}

/-- The trees differ in nothing but the content of files. -/
structure SameOutline (t t' : Tree) : Prop where
  current : t'.current = t.current
  lookup : ∀ p : Place, (t'.lookup p).map Node.outline = (t.lookup p).map Node.outline

/-- New content of a file changes nothing else. -/
theorem sameOutline_put {old : ByteArray} (h : t.lookup p = some (.file old)) (new : ByteArray) :
    SameOutline t (t.put p (.file new)) where
  current := rfl
  lookup q := by
    by_cases hq : q = p
    · subst hq
      rw [lookup_put_self t (ne_root_of_lookup_file h), h]
      rfl
    · rw [lookup_put_ne t hq]

/-- At each place the same stands in both trees, or there are two files. -/
theorem SameOutline.lookup_cases (h : SameOutline t t') (p : Place) :
    t'.lookup p = t.lookup p ∨
      ∃ content content', t.lookup p = some (.file content) ∧ t'.lookup p = some (.file content') := by
  have hp := h.lookup p
  cases hn : t.lookup p with
  | none =>
    rw [hn] at hp
    exact .inl (Option.map_eq_none_iff.1 hp)
  | some n =>
    rw [hn] at hp
    obtain ⟨n', hn', hout⟩ := Option.map_eq_some_iff.1 hp
    rw [hn']
    -- two outlines of different kinds are never the same
    cases n <;> cases n' <;> simp_all [Node.outline]

/-- What stands at a place is of one kind in both trees. -/
theorem SameOutline.exists_kind_iff (h : SameOutline t t') {kind : Kind} :
    (∃ n, t'.lookup p = some n ∧ n.kind = kind) ↔ ∃ n, t.lookup p = some n ∧ n.kind = kind := by
  rcases h.lookup_cases p with heq | ⟨content, content', hfile, hfile'⟩
  · rw [heq]
  · simp [hfile, hfile', Node.kind]

/-- Steps lead to the same place whatever is in the files. -/
theorem SameOutline.follow_eq (h : SameOutline t t') (ending : Ending) (links : Nat) (at_ : Place)
    (names : List ByteString) : t'.follow ending links at_ names = t.follow ending links at_ names := by
  have hdescend : ∀ onLink at_ names,
      t'.descend ending onLink at_ names = t.descend ending onLink at_ names := by
    intro onLink at_ names
    induction names generalizing at_ with
    | nil => rfl
    | cons name names ih =>
      rw [descend, descend]
      rcases h.lookup_cases at_ with hdir | ⟨c, c', hc, hc'⟩
      · rcases h.lookup_cases (at_ ++ [name]) with hentry | ⟨c, c', hc, hc'⟩
        · simp only [hdir, hentry, ih]
        · simp only [hdir, hc, hc', ih]
      · -- no step leads on from a file, whatever is in it
        rw [hc, hc']
  -- each link on the way uses up one of those that are left
  induction links generalizing at_ names with
  | zero => exact hdescend _ at_ names
  | succ links ih =>
    rw [follow, follow, hdescend]
    simp only [ih]

/-- Where a path leads does not depend on what is in the files. -/
theorem SameOutline.locate_eq (h : SameOutline t t') (ending : Ending) (path : ByteString) :
    t'.locate ending path = t.locate ending path := by
  simp only [locate, locateSteps, h.current, h.follow_eq]

/-- A path leads to the same place in both trees, where the same stands or two files, or it fails in
    both. -/
theorem SameOutline.get_cases (h : SameOutline t t') (ending : Ending) (path : ByteString) :
    (∃ fault, t.get ending path = .error fault ∧ t'.get ending path = .error fault) ∨
      ∃ p n n', t.get ending path = .ok (p, n) ∧ t'.get ending path = .ok (p, n') ∧
        n'.outline = n.outline := by
  rw [get, get, h.locate_eq]
  cases hloc : t.locate ending path with
  | error fault => exact .inl ⟨fault, rfl, rfl⟩
  | ok loc =>
    cases loc with
    | vacant p => exact .inl ⟨.noEntry, rfl, rfl⟩
    -- what stands at the place has the same outline in the other tree
    | found p =>
      have hp := h.lookup p
      cases hn : t.lookup p with
      | none =>
        rw [hn] at hp
        have hn' := Option.map_eq_none_iff.1 hp
        exact .inl ⟨.noEntry, by simp [bind, Except.bind, hn], by simp [bind, Except.bind, hn']⟩
      | some n =>
        rw [hn] at hp
        obtain ⟨n', hn', hout⟩ := Option.map_eq_some_iff.1 hp
        exact .inr ⟨p, n, n', by simp [bind, Except.bind, hn], by simp [bind, Except.bind, hn'], hout⟩

/-- Kinds do not depend on what is in the files. -/
theorem SameOutline.kind_eq (h : SameOutline t t') (path : ByteString) (followed : Bool) :
    t'.kind path followed = t.kind path followed := by
  rcases h.get_cases (if followed then .follow else .keep) path with
    ⟨fault, hget, hget'⟩ | ⟨p, n, n', hget, hget', hout⟩
  · rw [kind, kind, hget, hget']
  · rw [kind_eq_ok followed hget, kind_eq_ok followed hget', ← n'.kind_outline, hout, n.kind_outline]

/-- Where a directory stands does not depend on what is in the files. -/
theorem SameOutline.identity_eq (h : SameOutline t t') (path : ByteString) :
    t'.identity path = t.identity path := by
  rw [identity, identity]
  rcases h.get_cases .follow path with ⟨fault, hget, hget'⟩ | ⟨p, n, n', hget, hget', -⟩
  · rw [hget, hget']
  · rw [hget, hget']
    rfl

/-- New content of a file is not seen under a path that leads elsewhere. -/
theorem read_put_of_ne {old : ByteArray} (h : t.lookup p = some (.file old)) (new : ByteArray)
    (hne : ∀ n, t.get .follow path ≠ .ok (p, n)) :
    (t.put p (.file new)).read path = t.read path := by
  have hget : (t.put p (.file new)).get .follow path = t.get .follow path := by
    rcases (sameOutline_put h new).get_cases .follow path with
      ⟨fault, hget, hget'⟩ | ⟨q, n, n', hget, hget', -⟩
    · rw [hget, hget']
    · -- the same stands at every other place
      have hq : q ≠ p := fun hq => hne n (hq ▸ hget)
      have hn := (get_eq_ok_iff.1 hget).2
      have hn' := (get_eq_ok_iff.1 hget').2
      rw [lookup_put_ne t hq, hn] at hn'
      rw [hget, hget', Option.some.inj hn']
  rw [read, read, hget]

/-- A file that has been written is read back. -/
theorem read_put_of_writable (h : t.writable path = .ok p) (content : ByteArray) :
    (t.put p (.file content)).read path = .ok content := by
  rw [read_eq_ok_iff]
  refine ⟨p, get_eq_ok_iff.2 ?_⟩
  -- the file is new, or it replaces one that has been there
  rcases writable_eq_ok_iff.1 h with hloc | ⟨hloc, old, hold⟩
  · obtain ⟨hpath, hleads⟩ := locate_eq_ok_iff.1 hloc
    have hroot := hleads.vacant_place.1
    have hleads := hleads.put fun _ (h : Node.file content = .link _) => nomatch h
    exact ⟨locate_eq_ok_iff.2 ⟨hpath, hleads⟩, lookup_put_self t hroot (.file content)⟩
  · obtain ⟨hpath, hleads⟩ := locate_eq_ok_iff.1 hloc
    rw [(sameOutline_put hold content).locate_eq]
    exact ⟨locate_eq_ok_iff.2 ⟨hpath, hleads.follow fun he => nomatch he⟩,
      lookup_put_self t (ne_root_of_lookup_file hold) _⟩

end Tree

/-! ### Limits -/

/-- All of the content is taken within the limit. -/
def Limit.Fits (limit : Option Limit) (content : ByteArray) : Prop :=
  ∀ l, limit = some l → content.size ≤ l.size

/-- The limit cuts the content off behind its first bytes. -/
def Limit.Cuts (limit : Option Limit) (content taken : ByteArray) (fault : Fault) : Prop :=
  ∃ size, limit = some ⟨size, fault⟩ ∧ size < content.size ∧ taken = content.extract 0 size

/-- Without a limit, all of the content is taken. -/
theorem Limit.fits_none (content : ByteArray) : Fits none content := fun _ h => nomatch h

/-- Content within the limit is taken as it is. -/
theorem Limit.take_of_fits {limit : Option Limit} {content : ByteArray} (h : Fits limit content) :
    take limit content = (content, none) := by
  cases limit with
  | none => rfl
  | some l => rw [take, if_pos (h l rfl)]

/-- Content is taken as a whole or cut off. -/
theorem Limit.fits_or_cuts (limit : Option Limit) (content : ByteArray) :
    Fits limit content ∨ ∃ taken fault, Cuts limit content taken fault := by
  cases limit with
  | none => exact .inl (fits_none content)
  | some l =>
    by_cases h : content.size ≤ l.size
    · exact .inl fun k hk => Option.some.inj hk ▸ h
    · exact .inr ⟨_, l.fault, l.size, rfl, Nat.lt_of_not_le h, rfl⟩

/-- Content beyond the limit is taken up to it, and the fault is told. -/
theorem Limit.Cuts.take_eq {limit : Option Limit} {content taken : ByteArray} {fault : Fault}
    (h : Cuts limit content taken fault) : take limit content = (taken, some fault) := by
  obtain ⟨size, rfl, hlt, rfl⟩ := h
  rw [take, if_neg (Nat.not_le_of_lt hlt)]

namespace Tree

variable {t : Tree} {path : ByteString} {p : Place} {content taken : ByteArray} {fault : Fault}

/-- A file that cannot be opened for writing changes nothing. -/
theorem write_of_error (h : t.writable path = .error fault) (content : ByteArray) :
    t.write path content = (.unopened fault, t) := by
  rw [write, h]

/-- A file that takes all of the content holds it. -/
theorem write_of_fits (h : t.writable path = .ok p) (hfits : Limit.Fits (t.limit p) content) :
    t.write path content = (.complete, t.put p (.file content)) := by
  simp only [write, h, Limit.take_of_fits hfits]

/-- A file that does not take all of the content holds the first bytes of it. -/
theorem write_of_cut (h : t.writable path = .ok p)
    (hcut : Limit.Cuts (t.limit p) content taken fault) :
    t.write path content = (.partly fault, t.put p (.file taken)) := by
  simp only [write, h, hcut.take_eq]

end Tree

end ProofSize.Files
