import ProofSize.Proofs.Files.Listing
import ProofSize.Proofs.Files.Running

/-!
# A walk as a function of the tree

A walk only looks at a tree, so what it visits is a function of the tree. It depends on the names, the
directories and the links in the tree, and not on what is in the files.

## Key results

- `run_visit`, `run_walk`: a walk over a tree as a function of the tree
- `SameOutline.walkIn_eq`: a walk visits the same in trees that differ in the content of files only
-/

namespace ProofSize.Files

/-! ### A walk over a tree -/

/-- What a walk does at a path. -/
inductive Step where
  | stop (visits : List Visit)
  | enter (entries : List (ByteString × Kind))

namespace Tree

/-- The first of the ancestors that leads to the place with this path. -/
def findIn (t : Tree) (text : ByteString) : List ByteString → Except Fault (Option ByteString)
  | [] => .ok none
  | ancestor :: ancestors =>
    match t.identity ancestor with
    | .error fault => .error fault
    | .ok i => if i = text then .ok (some ancestor) else t.findIn text ancestors

/-- The first of the ancestors that leads where the link leads. -/
def loopIn (t : Tree) (link : ByteString) (ancestors : List ByteString) :
    Except Fault (Option ByteString) :=
  match t.identity link with
  | .error fault => .error fault
  | .ok text => t.findIn text ancestors

/-- A directory is entered if it can be listed. -/
def enterAt (t : Tree) (path : ByteString) : Step :=
  match t.entries path with
  | .error fault => .stop [.fault path (.refused path fault)]
  | .ok es => .enter (Walk.sorted es)

/-- What a walk does at a path, given the paths of the directories in which it is. -/
def stepAt (t : Tree) (ancestors : List ByteString) (path : ByteString) : Kind → Step
  | .file => .stop [.file path]
  | .directory => t.enterAt path
  | .other => .stop []
  | .link =>
    match t.kind path true with
    | .error fault => .stop [.fault path (.refused path fault)]
    | .ok .file => .stop [.file path]
    | .ok .directory =>
      match t.loopIn path ancestors with
      | .error _ => .stop []
      | .ok (some ancestor) => .stop [.fault path (.loop path ancestor)]
      | .ok none => t.enterAt path
    | .ok _ => .stop []

/-- What a walk visits from a path on. -/
def visitIn (t : Tree) : Nat → List ByteString → ByteString → Kind → List Visit
  | 0, _, _, _ => []
  | depth + 1, ancestors, path, kind =>
    match t.stepAt ancestors path kind with
    | .stop visits => visits
    | .enter es =>
      es.flatMap fun e => t.visitIn depth (path :: ancestors) (Path.join path e.1) e.2

/-- Looking for an ancestor leaves the tree as it is. -/
theorem run_findAncestor (t : Tree) (text : ByteString) (ancestors : List ByteString) :
    (Walk.findAncestor text ancestors : TreeM _).run t = (t.findIn text ancestors, t) := by
  induction ancestors with
  | nil => rfl
  | cons ancestor ancestors ih =>
    rw [Walk.findAncestor, TreeM.run_bind (TreeM.run_identity t ancestor), findIn]
    cases t.identity ancestor with
    | error fault => rfl
    | ok i =>
      dsimp only
      split
      · rfl
      · exact ih

/-- Looking for a loop leaves the tree as it is. -/
theorem run_loopOf (t : Tree) (link : ByteString) (ancestors : List ByteString) :
    (Walk.loopOf link ancestors : TreeM _).run t = (t.loopIn link ancestors, t) := by
  rw [Walk.loopOf, TreeM.run_bind (TreeM.run_identity t link), loopIn]
  cases t.identity link with
  | error fault => rfl
  | ok text => exact t.run_findAncestor text ancestors

/-- A walk leaves the tree as it is. -/
theorem run_visit (t : Tree) (depth : Nat) (ancestors : List ByteString) (path : ByteString)
    (kind : Kind) :
    (Walk.visit depth ancestors path kind : TreeM _).run t =
      (t.visitIn depth ancestors path kind, t) := by
  induction depth generalizing ancestors path kind with
  | zero => rfl
  | succ depth ih =>
    -- a directory is entered alike, whether it is listed as one or a link leads to it
    have henter : (Walk.visit (depth + 1) ancestors path .directory : TreeM _).run t =
        (match t.enterAt path with
          | .stop visits => visits
          | .enter es =>
            es.flatMap fun e => t.visitIn depth (path :: ancestors) (Path.join path e.1) e.2, t) := by
      rw [Walk.visit, TreeM.run_bind (TreeM.run_entries t path), enterAt]
      cases t.entries path with
      | error fault => rfl
      | ok es => exact TreeM.run_flatMapM fun e _ => ih _ _ _
    rw [visitIn]
    cases kind with
    | file => rfl
    | other => rfl
    | directory => exact henter
    | link =>
      rw [Walk.visit] at henter
      rw [Walk.visit, TreeM.run_bind (TreeM.run_kind t path true), stepAt]
      cases t.kind path true with
      | error fault => rfl
      | ok kind =>
        cases kind with
        | file => rfl
        | link => rfl
        | other => rfl
        | directory =>
          dsimp only
          rw [TreeM.run_bind (t.run_loopOf path ancestors)]
          cases t.loopIn path ancestors with
          | error fault => rfl
          | ok ancestor =>
            cases ancestor with
            | some ancestor => rfl
            | none => exact henter

/-- What a walk visits. -/
def walkIn (t : Tree) (root : ByteString) : List Visit :=
  match t.kind root false with
  | .error fault => [.fault root (.refused root fault)]
  | .ok kind => t.visitIn Walk.depthLimit [] root kind

/-- A walk from its root leaves the tree as it is. -/
theorem run_walk (t : Tree) (root : ByteString) :
    (Walk.below root : TreeM _).run t = (t.walkIn root, t) := by
  rw [Walk.below, TreeM.run_bind (TreeM.run_kind t root false), walkIn]
  cases t.kind root false with
  | error fault => rfl
  | ok kind => exact t.run_visit _ _ _ _

/-! ### The content of files -/

section

variable {t t' : Tree}

/-- Which ancestor is found does not depend on what is in the files. -/
theorem SameOutline.findIn_eq (h : SameOutline t t') (text : ByteString) (ancestors : List ByteString) :
    t'.findIn text ancestors = t.findIn text ancestors := by
  induction ancestors with
  | nil => rfl
  | cons ancestor ancestors ih => rw [findIn, findIn, h.identity_eq, ih]

/-- Whether a link makes a loop does not depend on what is in the files. -/
theorem SameOutline.loopIn_eq (h : SameOutline t t') (link : ByteString) (ancestors : List ByteString) :
    t'.loopIn link ancestors = t.loopIn link ancestors := by
  rw [loopIn, loopIn, h.identity_eq]
  cases t.identity link with
  | error fault => rfl
  | ok text => exact h.findIn_eq text ancestors

/-- A directory is entered with the same entries, in their order. -/
theorem SameOutline.enterAt_eq (h : SameOutline t t') (path : ByteString) :
    t'.enterAt path = t.enterAt path := by
  have hsorted := h.sorted_entries path
  rw [enterAt, enterAt]
  cases hes : t.entries path with
  | error fault =>
    rw [hes] at hsorted
    rw [map_eq_error_iff.1 hsorted]
  | ok es =>
    rw [hes] at hsorted
    obtain ⟨es', hes', hsame⟩ := map_eq_ok_iff.1 hsorted
    rw [hes']
    exact congrArg Step.enter hsame

/-- What a walk does at a path does not depend on what is in the files. -/
theorem SameOutline.stepAt_eq (h : SameOutline t t') (ancestors : List ByteString) (path : ByteString)
    (kind : Kind) : t'.stepAt ancestors path kind = t.stepAt ancestors path kind := by
  cases kind with
  | file | other => rfl
  | directory => exact h.enterAt_eq path
  | link => rw [stepAt, stepAt, h.kind_eq, h.loopIn_eq, h.enterAt_eq]

/-- A walk visits the same from a path on, whatever is in the files. -/
theorem SameOutline.visitIn_eq (h : SameOutline t t') (depth : Nat) (ancestors : List ByteString)
    (path : ByteString) (kind : Kind) :
    t'.visitIn depth ancestors path kind = t.visitIn depth ancestors path kind := by
  -- what is done at the path is the same, and so is what is visited below it, with less depth left
  induction depth generalizing ancestors path kind with
  | zero => rfl
  | succ depth ih => simp only [visitIn, h.stepAt_eq, ih]

/-- A walk visits the same in trees that differ in the content of files only. -/
theorem SameOutline.walkIn_eq (h : SameOutline t t') (root : ByteString) :
    t'.walkIn root = t.walkIn root := by
  rw [walkIn, walkIn, h.kind_eq]
  cases t.kind root false with
  | error fault => rfl
  | ok kind => exact h.visitIn_eq _ _ _ _

end

end Tree

end ProofSize.Files
