import ProofSize.Files.Tree

/-!
# Where paths lead

A path is followed step by step. `Leads` says where steps get to, with one rule for each kind of step:
a name of the directory itself or of the one above, a name that leads into what stands under it, a
link, and at the end a vacant place or a link that is kept.

## Key results

- `follow_eq_ok_iff`: following steps gives what `Leads` says
- `Leads.follow`, `Leads.keep`: how the endings of a path compare
- `Leads.extends`: where a path leads in a tree that has more
- `follow_append`: steps behind a directory are followed from there
-/

namespace ProofSize.Files.Tree

variable {t t' : Tree} {ending : Ending} {links : Nat} {at_ p : Place} {name target : ByteString}
  {names : List ByteString} {node : Node} {loc : Located}

/-- A step can be taken from a place, with these names behind it: a directory stands there, and it is
    no slash behind a file that is to be written. -/
def Passable (t : Tree) (ending : Ending) (at_ : Place) (names : List ByteString) : Prop :=
  t.lookup at_ = some .directory ∧ ¬(ending = .create ∧ names = [("" : ByteString)])

/-- The name can be one of an entry of a directory. -/
def IsEntryName (name : ByteString) : Prop :=
  ¬(name = "" ∨ name = ".") ∧ name ≠ ".." ∧ ¬nameLimit < name.size

/-- Steps from a place lead to a location, and `links` links at most are followed. -/
inductive Leads (t : Tree) (ending : Ending) : Nat → Place → List ByteString → Located → Prop
  | arrived {links : Nat} {at_ : Place} : Leads t ending links at_ [] (.found at_)
  | stay {links : Nat} {at_ : Place} {name : ByteString} {names : List ByteString} {loc : Located} :
      t.Passable ending at_ names → name = "" ∨ name = "." →
      Leads t ending links at_ names loc → Leads t ending links at_ (name :: names) loc
  | up {links : Nat} {at_ : Place} {names : List ByteString} {loc : Located} :
      t.Passable ending at_ names →
      Leads t ending links at_.dropLast names loc → Leads t ending links at_ (".." :: names) loc
  | vacant {links : Nat} {at_ : Place} {name : ByteString} :
      t.Passable ending at_ [] → IsEntryName name → t.lookup (at_ ++ [name]) = none →
      Leads t ending links at_ [name] (.vacant (at_ ++ [name]))
  | stop {links : Nat} {at_ : Place} {name target : ByteString} :
      t.Passable ending at_ [] → IsEntryName name →
      t.lookup (at_ ++ [name]) = some (.link target) → ending = .keep →
      Leads t ending links at_ [name] (.found (at_ ++ [name]))
  | link {links : Nat} {at_ : Place} {name target : ByteString} {names : List ByteString}
      {loc : Located} :
      t.Passable ending at_ names → IsEntryName name →
      t.lookup (at_ ++ [name]) = some (.link target) → ¬(names = [] ∧ ending = .keep) →
      Leads t ending links (startOf at_ target) (stepsThrough target names) loc →
      Leads t ending (links + 1) at_ (name :: names) loc
  | enter {links : Nat} {at_ : Place} {name : ByteString} {names : List ByteString} {node : Node}
      {loc : Located} :
      t.Passable ending at_ names → IsEntryName name →
      t.lookup (at_ ++ [name]) = some node → (∀ target, node ≠ .link target) →
      Leads t ending links (at_ ++ [name]) names loc → Leads t ending links at_ (name :: names) loc

/-! ### Following and leading -/

/-- How `follow` goes on from a link. -/
private def throughLink (t : Tree) (ending : Ending) :
    Nat → Place → ByteString → List ByteString → Except Fault Located
  | 0 => fun _ _ _ => .error .tooManyLinks
  | links + 1 => fun directory target names =>
    t.follow ending links (startOf directory target) (stepsThrough target names)

/-- Steps are followed name by name, and through a link with one link less. -/
private theorem follow_eq_descend (t : Tree) (ending : Ending) (links : Nat) :
    t.follow ending links = t.descend ending (t.throughLink ending links) := by
  cases links <;> rfl

/-- A path without steps has arrived. -/
theorem follow_nil (t : Tree) (ending : Ending) (links : Nat) (at_ : Place) :
    t.follow ending links at_ [] = .ok (.found at_) := by
  rw [follow_eq_descend, descend]

/-- A step to the directory itself stays there. -/
theorem follow_stay (h : t.Passable ending at_ names) (hname : name = "" ∨ name = ".") :
    t.follow ending links at_ (name :: names) = t.follow ending links at_ names := by
  rw [follow_eq_descend, descend, h.1]
  simp only [h.2, hname, ↓reduceIte]

/-- A step to the directory above goes there. -/
theorem follow_up (h : t.Passable ending at_ names) :
    t.follow ending links at_ (".." :: names) = t.follow ending links at_.dropLast names := by
  rw [follow_eq_descend, descend, h.1]
  simp only [h.2, ↓reduceIte]
  rfl

/-- A name that is neither that of the directory itself nor of the one above leads to what stands
    under it. -/
private theorem follow_entry (h : t.Passable ending at_ names) (hname : IsEntryName name) :
    t.follow ending links at_ (name :: names) =
      match t.lookup (at_ ++ [name]) with
      | none => if names = [] then .ok (.vacant (at_ ++ [name])) else .error .noEntry
      | some (.link target) =>
        if names = [] ∧ ending = .keep then .ok (.found (at_ ++ [name]))
        else t.throughLink ending links at_ target names
      | some _ => t.follow ending links (at_ ++ [name]) names := by
  rw [follow_eq_descend, descend, h.1]
  exact (if_neg h.2).trans ((if_neg hname.1).trans ((if_neg hname.2.1).trans (if_neg hname.2.2)))

/-- A step to a link goes on with the steps of its target. -/
theorem follow_link (h : t.Passable ending at_ names) (hname : IsEntryName name)
    (hsome : t.lookup (at_ ++ [name]) = some (.link target))
    (hgo : ¬(names = [] ∧ ending = .keep)) :
    t.follow ending (links + 1) at_ (name :: names) =
      t.follow ending links (startOf at_ target) (stepsThrough target names) := by
  rw [follow_entry h hname, hsome]
  simp only [hgo, ↓reduceIte]
  rfl

/-- A step to what is no link goes there. -/
theorem follow_enter (h : t.Passable ending at_ names) (hname : IsEntryName name)
    (hsome : t.lookup (at_ ++ [name]) = some node) (hnode : ∀ target, node ≠ .link target) :
    t.follow ending links at_ (name :: names) = t.follow ending links (at_ ++ [name]) names := by
  rw [follow_entry h hname, hsome]
  cases node with
  | link target => exact absurd rfl (hnode target)
  | file content => rfl
  | directory => rfl

/-- Only from a directory, and to no slash behind a file, a step is taken. -/
private theorem passable_of_follow (h : t.follow ending links at_ (name :: names) = .ok loc) :
    t.Passable ending at_ names := by
  rw [follow_eq_descend, descend] at h
  split at h
  · rename_i hdir
    split at h
    · exact nomatch h
    · rename_i hslash
      exact ⟨hdir, hslash⟩
  · exact nomatch h

/-- A step is one to the directory itself, to the one above, or to an entry. -/
private theorem name_cases (h : t.follow ending links at_ (name :: names) = .ok loc) :
    (name = "" ∨ name = ".") ∨ name = ".." ∨ IsEntryName name := by
  by_cases hself : name = "" ∨ name = "."
  · exact .inl hself
  by_cases habove : name = ".."
  · exact .inr (.inl habove)
  refine .inr (.inr ⟨hself, habove, fun hlong => ?_⟩)
  obtain ⟨hdir, hslash⟩ := passable_of_follow h
  rw [follow_eq_descend, descend, hdir] at h
  simp only [hslash, hself, habove, hlong, ↓reduceIte] at h
  exact nomatch h

/-- Within one path the names that are left bound the steps. What happens at links is known. -/
private theorem leads_of_throughLink
    (hlink : ∀ directory target names loc, t.throughLink ending links directory target names = .ok loc →
      ∃ k, links = k + 1 ∧
        Leads t ending k (startOf directory target) (stepsThrough target names) loc)
    (h : t.follow ending links at_ names = .ok loc) : Leads t ending links at_ names loc := by
  induction names generalizing at_ with
  | nil =>
    rw [follow_nil] at h
    obtain rfl := Except.ok.inj h
    exact .arrived
  | cons name names ih =>
    have hpass := passable_of_follow h
    rcases name_cases h with hself | rfl | hname
    · rw [follow_stay hpass hself] at h
      exact .stay hpass hself (ih h)
    · rw [follow_up hpass] at h
      exact .up hpass (ih h)
    · rw [follow_entry hpass hname] at h
      split at h
      · -- nothing stands there, so the path must end here
        rename_i hnone
        split at h
        · rename_i hnil
          obtain rfl := Except.ok.inj h
          subst hnil
          exact .vacant hpass hname hnone
        · exact nomatch h
      · rename_i target hsome
        split at h
        · rename_i hkeep
          obtain rfl := Except.ok.inj h
          obtain ⟨rfl, hkeep⟩ := hkeep
          exact .stop hpass hname hsome hkeep
        · rename_i hgo
          obtain ⟨k, rfl, hleads⟩ := hlink _ _ _ _ h
          exact .link hpass hname hsome hgo hleads
      · rename_i node hnode hsome
        exact .enter hpass hname hsome hnode (ih h)

/-- Steps that are followed lead to where they are followed to. -/
private theorem leads_of_follow (h : t.follow ending links at_ names = .ok loc) :
    Leads t ending links at_ names loc := by
  -- the induction is on the links that may still be followed
  induction links generalizing at_ names loc with
  | zero => exact leads_of_throughLink (fun _ _ _ _ h => nomatch h) h
  | succ links ih => exact leads_of_throughLink (fun _ _ _ _ h => ⟨links, rfl, ih h⟩) h

/-- Following steps gives the location to which they lead, and fails if there is none. -/
theorem follow_eq_ok_iff :
    t.follow ending links at_ names = .ok loc ↔ Leads t ending links at_ names loc := by
  refine ⟨leads_of_follow, fun h => ?_⟩
  -- each rule is one equation for a step that is followed
  induction h with
  | arrived => rw [follow_nil]
  | stay hpass hself _ ih => rw [follow_stay hpass hself, ih]
  | up hpass _ ih => rw [follow_up hpass, ih]
  | vacant hpass hname hnone =>
    rw [follow_entry hpass hname, hnone]
    rfl
  | stop hpass hname hsome hkeep =>
    rw [follow_entry hpass hname, hsome]
    simp only [hkeep, and_self, ↓reduceIte]
  | link hpass hname hsome hgo _ ih => rw [follow_link hpass hname hsome hgo, ih]
  | enter hpass hname hsome hnode _ ih => rw [follow_enter hpass hname hsome hnode, ih]

/-! ### The end of a path -/

/-- What can be passed can be passed as well when nothing is to be created. -/
theorem Passable.of_ne_create (h : t.Passable ending at_ names) {ending' : Ending}
    (he : ending' ≠ .create) : t.Passable ending' at_ names :=
  ⟨h.1, fun hslash => he hslash.1⟩

/-- A directory can be passed by a path that is just followed. -/
theorem passable_follow (h : t.lookup at_ = some .directory) : t.Passable .follow at_ names :=
  ⟨h, fun hcreate => nomatch hcreate.1⟩

/-- A path leads to the same location when it is just followed. Only a link that has been kept would be
    followed. -/
theorem Leads.follow (h : Leads t ending links at_ names loc)
    (hkeep : ending = .keep → ∃ p, loc = .vacant p) : Leads t .follow links at_ names loc := by
  have hne : Ending.follow ≠ .create := by decide
  induction h with
  | arrived => exact .arrived
  | stay hpass hself _ ih => exact .stay (hpass.of_ne_create hne) hself (ih hkeep)
  | up hpass _ ih => exact .up (hpass.of_ne_create hne) (ih hkeep)
  | vacant hpass hname hnone => exact .vacant (hpass.of_ne_create hne) hname hnone
  | stop _ _ _ he =>
    obtain ⟨p, hp⟩ := hkeep he
    exact nomatch hp
  | link hpass hname hsome _ _ ih =>
    exact .link (hpass.of_ne_create hne) hname hsome (fun h => nomatch h.2) (ih hkeep)
  | enter hpass hname hsome hnode _ ih =>
    exact .enter (hpass.of_ne_create hne) hname hsome hnode (ih hkeep)

/-- A path that is followed leads to the same location when a link at its end is kept, unless there is
    such a link. -/
theorem Leads.keep (h : Leads t .follow links at_ names loc) :
    Leads t .keep links at_ names loc ∨
      ∃ p target, Leads t .keep links at_ names (.found p) ∧ t.lookup p = some (.link target) := by
  have hne : Ending.keep ≠ .create := by decide
  induction h with
  | arrived => exact .inl .arrived
  | stay hpass hself _ ih =>
    have hpass := hpass.of_ne_create hne
    rcases ih with ih | ⟨p, target, ih, hlink⟩
    · exact .inl (.stay hpass hself ih)
    · exact .inr ⟨p, target, .stay hpass hself ih, hlink⟩
  | up hpass _ ih =>
    have hpass := hpass.of_ne_create hne
    rcases ih with ih | ⟨p, target, ih, hlink⟩
    · exact .inl (.up hpass ih)
    · exact .inr ⟨p, target, .up hpass ih, hlink⟩
  | vacant hpass hname hnone => exact .inl (.vacant (hpass.of_ne_create hne) hname hnone)
  | stop _ _ _ hkeep => exact nomatch hkeep
  | @link links at_ name target names loc hpass hname hsome _ _ ih =>
    have hpass := hpass.of_ne_create hne
    by_cases hnil : names = []
    · -- here the two ways of following part
      subst hnil
      exact .inr ⟨_, target, .stop hpass hname hsome rfl, hsome⟩
    · have hgo : ¬(names = [] ∧ Ending.keep = .keep) := fun h => hnil h.1
      rcases ih with ih | ⟨p, target', ih, hlink⟩
      · exact .inl (.link hpass hname hsome hgo ih)
      · exact .inr ⟨p, target', .link hpass hname hsome hgo ih, hlink⟩
  | enter hpass hname hsome hnode _ ih =>
    have hpass := hpass.of_ne_create hne
    rcases ih with ih | ⟨p, target, ih, hlink⟩
    · exact .inl (.enter hpass hname hsome hnode ih)
    · exact .inr ⟨p, target, .enter hpass hname hsome hnode ih, hlink⟩

/-- A location is vacant if nothing stands there. It is not the root. -/
theorem Leads.vacant_place (h : Leads t ending links at_ names (.vacant p)) :
    p ≠ [] ∧ t.lookup p = none := by
  generalize hloc : Located.vacant p = loc at h
  induction h with
  | arrived | stop => exact nomatch hloc
  | stay _ _ _ ih | up _ _ ih | link _ _ _ _ _ ih | enter _ _ _ _ _ ih => exact ih hloc
  | vacant _ _ hnone =>
    obtain rfl := Located.vacant.inj hloc
    exact ⟨by simp, hnone⟩

/-! ### Trees that have more -/

/-- The tree has everything that the first one has, at the same places. -/
structure Extends (t t' : Tree) : Prop where
  current : t'.current = t.current
  lookup : ∀ (p : Place) (n : Node), t.lookup p = some n → t'.lookup p = some n

/-- The place of a location. -/
def Located.place : Located → Place
  | found p => p
  | vacant p => p

/-- In a tree that has more, steps lead to the same place. What was vacant may be found there. -/
theorem Leads.extends (h : Leads t ending links at_ names loc) (hext : Extends t t')
    (hvacant : ∀ p, loc = .vacant p →
      ∃ node, t'.lookup p = some node ∧ ∀ target, node ≠ .link target) :
    Leads t' ending links at_ names (.found loc.place) := by
  -- the directories that are passed are still there
  have hpassable {at_ : Place} {names : List ByteString} (h : t.Passable ending at_ names) :
      t'.Passable ending at_ names := ⟨hext.lookup _ _ h.1, h.2⟩
  induction h with
  | arrived => exact .arrived
  | stay hpass hself _ ih => exact .stay (hpassable hpass) hself (ih hvacant)
  | up hpass _ ih => exact .up (hpassable hpass) (ih hvacant)
  | vacant hpass hname _ =>
    obtain ⟨node, hsome, hnode⟩ := hvacant _ rfl
    exact .enter (hpassable hpass) hname hsome hnode .arrived
  | stop hpass hname hsome hkeep =>
    exact .stop (hpassable hpass) hname (hext.lookup _ _ hsome) hkeep
  | link hpass hname hsome hgo _ ih =>
    exact .link (hpassable hpass) hname (hext.lookup _ _ hsome) hgo (ih hvacant)
  | enter hpass hname hsome hnode _ ih =>
    exact .enter (hpassable hpass) hname (hext.lookup _ _ hsome) hnode (ih hvacant)

/-! ### Steps behind a directory -/

/-- The steps behind a link are followed when those of its target have been. -/
theorem stepsThrough_append {rest : List ByteString} (hrest : rest ≠ []) :
    stepsThrough target (names ++ rest) = Path.names target ++ names ++ rest := by
  rw [stepsThrough, if_neg (by simp [hrest]), List.append_assoc]

/-- A slash at the end of a path does not matter where more steps follow. -/
theorem stepsThrough_slash {slash : List ByteString}
    (hslash : slash = [] ∨ slash = [("" : ByteString)]) :
    ∃ slash', (slash' = [] ∨ slash' = [("" : ByteString)]) ∧
      stepsThrough target (names ++ slash) = Path.names target ++ names ++ slash' := by
  by_cases hnil : names ++ slash = []
  · obtain ⟨rfl, rfl⟩ := List.append_eq_nil_iff.1 hnil
    refine ⟨if Path.endsWithSlash target then [("" : ByteString)] else [], ?_, ?_⟩
    · split
      · exact .inr rfl
      · exact .inl rfl
    · rw [stepsThrough, if_pos hnil, stepsOf, List.append_nil]
  · exact ⟨slash, hslash, by rw [stepsThrough, if_neg hnil, List.append_assoc]⟩

/-- A slash at the end of a path comes behind its names. -/
private theorem cons_eq_append_slash {tail slash : List ByteString}
    (hslash : slash = [] ∨ slash = [("" : ByteString)])
    (h : name :: tail = names ++ slash) :
    name = "" ∧ tail = [] ∧ names = [] ∨
      ∃ others, names = name :: others ∧ tail = others ++ slash := by
  cases names with
  | nil =>
    rcases hslash with rfl | rfl
    · exact nomatch h
    · obtain ⟨rfl, rfl⟩ := List.cons.inj h
      exact .inl ⟨rfl, rfl, rfl⟩
  | cons x others =>
    obtain ⟨rfl, rfl⟩ := List.cons.inj h
    exact .inr ⟨others, rfl, rfl⟩

/-- Where a path leads to a place, perhaps with a slash at the end, more steps are followed from that
    place on, with the links that are left. -/
theorem follow_append {slash : List ByteString} (hslash : slash = [] ∨ slash = [("" : ByteString)])
    {rest : List ByteString} (hrest : rest ≠ [])
    (h : Leads t .follow links at_ (names ++ slash) (.found p)) :
    ∃ k, t.follow .follow links at_ (names ++ rest) = t.follow .follow k p rest := by
  -- what is passed does not depend on the steps behind it
  have hpassable {at_ : Place} {names names' : List ByteString} (h : t.Passable .follow at_ names) :
      t.Passable .follow at_ names' := passable_follow h.1
  generalize hsteps : names ++ slash = steps at h
  generalize hloc : Located.found p = loc at h
  induction h generalizing names slash with
  | arrived =>
    obtain ⟨rfl, rfl⟩ := List.append_eq_nil_iff.1 hsteps
    obtain rfl := Located.found.inj hloc
    exact ⟨_, rfl⟩
  | stay hpass hself h ih =>
    rcases cons_eq_append_slash hslash hsteps.symm with ⟨rfl, rfl, rfl⟩ | ⟨others, rfl, rfl⟩
    · -- only the slash is left, so the place has been reached
      cases h
      obtain rfl := Located.found.inj hloc
      exact ⟨_, rfl⟩
    · rw [List.cons_append, follow_stay (hpassable hpass) hself]
      exact ih hslash rfl hloc
  | up hpass h ih =>
    rcases cons_eq_append_slash hslash hsteps.symm with ⟨hname, -⟩ | ⟨others, rfl, rfl⟩
    · exact absurd hname (by decide)
    · rw [List.cons_append, follow_up (hpassable hpass)]
      exact ih hslash rfl hloc
  | vacant => exact nomatch hloc
  | stop _ _ _ hkeep => exact nomatch hkeep
  | link hpass hname hsome hgo h ih =>
    rcases cons_eq_append_slash hslash hsteps.symm with ⟨rfl, -⟩ | ⟨others, rfl, rfl⟩
    · exact absurd (.inl rfl) hname.1
    · rw [List.cons_append, follow_link (hpassable hpass) hname hsome (fun h => nomatch h.2),
        stepsThrough_append hrest]
      obtain ⟨slash', hslash', hsteps'⟩ := stepsThrough_slash hslash
      exact ih hslash' hsteps'.symm hloc
  | enter hpass hname hsome hnode h ih =>
    rcases cons_eq_append_slash hslash hsteps.symm with ⟨rfl, -⟩ | ⟨others, rfl, rfl⟩
    · exact absurd (.inl rfl) hname.1
    · rw [List.cons_append, follow_enter (hpassable hpass) hname hsome hnode]
      exact ih hslash rfl hloc

end ProofSize.Files.Tree
