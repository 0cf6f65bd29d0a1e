import ProofSize.Files.Tree

/-!
# Running on a tree

A program over `Access` runs on a tree as a computation that passes the tree on. Requests that only
look at the tree leave it as it is, and one that is refused does so too.

## Key results

- `run_bind`: a computation goes on from the value and the tree of its first step
- `run_makeDirectory_ok`, `run_makeDirectory_error`: what a change leaves
- `run_flatMapM`, `run_filterMapM`: computations over lists that leave the tree as it is
-/

namespace ProofSize.Files.TreeM

variable {α β : Type} {t t' : Tree} {path : ByteString} {fault : Fault}

/-- The second step runs on the tree that the first one leaves. -/
theorem run_bind {m : TreeM α} {k : α → TreeM β} {a : α} (h : m.run t = (a, t')) :
    (m >>= k).run t = (k a).run t' := by
  rw [StateT.run_bind, h]
  rfl

/-! ### Requests -/

/-- Reading is answered by the tree, which stays. -/
theorem run_read (t : Tree) (path : ByteString) :
    (Access.read path : TreeM _).run t = (t.read path, t) := rfl

/-- The kind of a path is answered by the tree, which stays. -/
theorem run_kind (t : Tree) (path : ByteString) (follow : Bool) :
    (Access.kind path follow : TreeM _).run t = (t.kind path follow, t) := rfl

/-- A listing is answered by the tree, which stays. -/
theorem run_entries (t : Tree) (path : ByteString) :
    (Access.entries path : TreeM _).run t = (t.entries path, t) := rfl

/-- The place of a directory is answered by the tree, which stays. -/
theorem run_identity (t : Tree) (path : ByteString) :
    (Access.identity path : TreeM _).run t = (t.identity path, t) := rfl

/-- A change that succeeds leaves the new tree. -/
private theorem run_change_ok {f : Tree → Except Fault Tree} (h : f t = .ok t') :
    (change f).run t = (.ok (), t') := by
  simp only [StateT.run, change, h]

/-- A change that fails leaves the old tree. -/
private theorem run_change_error {f : Tree → Except Fault Tree} (h : f t = .error fault) :
    (change f).run t = (.error fault, t) := by
  simp only [StateT.run, change, h]

/-- Writing may fail and change the tree, so both stand in its answer. -/
theorem run_write (t : Tree) (path : ByteString) (content : ByteArray) :
    (Access.write path content : TreeM _).run t = t.write path content := rfl

/-- A directory that can be made is in the tree then. -/
theorem run_makeDirectory_ok (h : t.makeDirectory path = .ok t') :
    (Access.makeDirectory path : TreeM _).run t = (.ok (), t') := run_change_ok h

/-- A directory that cannot be made leaves no trace. -/
theorem run_makeDirectory_error (h : t.makeDirectory path = .error fault) :
    (Access.makeDirectory path : TreeM _).run t = (.error fault, t) := run_change_error h

/-! ### Lists -/

/-- Where every step leaves the tree as it is, the answers are put together. -/
theorem run_flatMapM {f : α → TreeM (List β)} {g : α → List β} {xs : List α}
    (h : ∀ x ∈ xs, (f x).run t = (g x, t)) : (xs.flatMapM f).run t = (xs.flatMap g, t) := by
  induction xs with
  | nil => rfl
  | cons x xs ih =>
    rw [List.flatMapM_cons, run_bind (h x List.mem_cons_self),
      run_bind (ih fun y hy => h y (List.mem_cons_of_mem x hy))]
    rfl

/-- Where every step leaves the tree as it is, the answers that there are are kept. -/
theorem run_filterMapM {f : α → TreeM (Option β)} {g : α → Option β} {xs : List α}
    (h : ∀ x ∈ xs, (f x).run t = (g x, t)) : (xs.filterMapM f).run t = (xs.filterMap g, t) := by
  induction xs with
  | nil => rfl
  | cons x xs ih =>
    have hrest := ih fun y hy => h y (List.mem_cons_of_mem x hy)
    rw [List.filterMapM_cons, run_bind (h x List.mem_cons_self), List.filterMap_cons]
    -- the first answer only decides whether it stands before the others
    cases g x with
    | none => exact hrest
    | some y =>
      show (List.filterMapM f xs >>= fun ys => pure (y :: ys)).run t = _
      rw [run_bind hrest]
      rfl

end ProofSize.Files.TreeM
