import ProofSize.Files.Access

/-! # File trees

A file tree is a finite file system: files, directories and symbolic links at places below a root.
A path is followed name by name; a link in it is replaced by its target, and so is one at its end
where links are to be followed. At most forty links are followed for one path.

## Key results
- `lookup_eq_some_iff`: what stands at a place is what the tree lists there
- `lookup_put_self`, `lookup_put_ne`: what putting a node at a place changes
-/

namespace ProofSize.Files

/-- A place: the names from the root to it. -/
abbrev Place := List ByteString

/-- What stands at a place. -/
inductive Node where
  | file (content : ByteArray)
  | directory
  | link (target : ByteString)

def Node.kind : Node → Kind
  | file _ => .file
  | directory => .directory
  | link _ => .link

/-- A file system. Its root is a directory, and is not listed. -/
structure Tree where
  nodes : List (Place × Node)
  /-- The place from which relative paths start. -/
  current : Place
  /-- What keeps the file at a place from taking more than a number of bytes. -/
  limit : Place → Option Limit := fun _ => none
  /-- At each place stands one node at most. -/
  distinct : (nodes.map (·.1)).Nodup

namespace Tree

/-- What stands at a place. -/
def lookup (t : Tree) (p : Place) : Option Node :=
  if p = [] then some .directory
  else (t.nodes.find? fun n => n.1 == p).map (·.2)

/-- The tree with a node put at a place other than the root. -/
def put (t : Tree) (p : Place) (n : Node) : Tree where
  nodes := (p, n) :: t.nodes.filter fun m => m.1 != p
  current := t.current
  limit := t.limit
  distinct := by
    rw [List.map_cons, List.nodup_cons]
    refine ⟨?_, t.distinct.sublist (List.filter_sublist.map _)⟩
    simp

/-- The tree of one directory, from which relative paths start. -/
def ofDirectory (name : ByteString) : Tree where
  nodes := [([name], .directory)]
  current := [name]
  distinct := by simp

/-- Away from the root, the tree lists exactly what stands at a place. -/
theorem lookup_eq_some_iff {t : Tree} {p : Place} (hp : p ≠ []) {n : Node} :
    t.lookup p = some n ↔ (p, n) ∈ t.nodes := by
  rw [lookup, if_neg hp]
  constructor
  · intro h
    obtain ⟨m, hm, rfl⟩ := Option.map_eq_some_iff.1 h
    have hkey : m.1 = p := by simpa using List.find?_some hm
    exact hkey ▸ List.mem_of_find?_eq_some hm
  · intro h
    have hd := t.distinct
    generalize t.nodes = nodes at h hd
    induction nodes with
    | nil => exact absurd h (by simp)
    | cons m ms ih =>
      rw [List.map_cons, List.nodup_cons] at hd
      rcases List.mem_cons.1 h with rfl | h
      · simp
      · have hne : (m.1 == p) = false := by
          simpa using fun e : m.1 = p => hd.1 (e ▸ List.mem_map_of_mem h)
        rw [List.find?_cons, hne]
        exact ih h hd.2

/-- What is put at a place stands there. -/
theorem lookup_put_self (t : Tree) {p : Place} (h : p ≠ []) (n : Node) :
    (t.put p n).lookup p = some n := by
  simp [lookup, put, h]

/-- What is put at a place changes no other one. -/
theorem lookup_put_ne (t : Tree) {p q : Place} (h : q ≠ p) (n : Node) :
    (t.put p n).lookup q = t.lookup q := by
  unfold lookup
  split
  · rfl
  · have hp : ((p, n).1 == q) = false := by simpa using fun e : p = q => h e.symm
    simp only [put, List.find?_cons, hp, List.find?_filter]
    congr 2
    funext m
    by_cases hm : m.1 = q <;> simp [hm, h]

/-- How many bytes a name has at most. -/
def nameLimit : Nat := 255

/-- How many bytes a path has at most. -/
def pathLimit : Nat := 4095

/-- How many links are followed for one path at most. -/
def linkLimit : Nat := 40

/-- Where a path leads. -/
inductive Located where
  /-- Something stands there. -/
  | found (place : Place)
  /-- Nothing stands there, but in the directory above. -/
  | vacant (place : Place)
  deriving DecidableEq

/-- What is to happen at the end of a path. -/
inductive Ending where
  /-- A link is not followed. -/
  | keep
  /-- A link is followed. -/
  | follow
  /-- A link is followed, and a file is to be written where it leads. -/
  | create
  deriving DecidableEq

/-- Follows steps from a place: names, and last perhaps the empty name, which stands for a slash at
    the end. `onLink` goes on from a link, given the directory of the link, the link's target, and the
    steps behind it. -/
def descend (t : Tree) (ending : Ending)
    (onLink : Place → ByteString → List ByteString → Except Fault Located) :
    Place → List ByteString → Except Fault Located
  | at_, [] => .ok (.found at_)
  | at_, name :: names =>
    match t.lookup at_ with
    | some .directory =>
      if ending = .create ∧ names = [("" : ByteString)] then .error .isDirectory
      else if name = "" ∨ name = "." then descend t ending onLink at_ names
      else if name = ".." then descend t ending onLink at_.dropLast names
      else if nameLimit < name.size then .error .nameTooLong
      else
        match t.lookup (at_ ++ [name]) with
        | none => if names = [] then .ok (.vacant (at_ ++ [name])) else .error .noEntry
        | some (.link target) =>
          if names = [] ∧ ending = .keep then .ok (.found (at_ ++ [name]))
          else onLink at_ target names
        | some _ => descend t ending onLink (at_ ++ [name]) names
    | _ => .error .notDirectory

/-- The place where a path starts, followed from a directory. -/
def startOf (directory : Place) (path : ByteString) : Place :=
  if Path.isAbsolute path then [] else directory

/-- The steps along which a path is followed. -/
def stepsOf (path : ByteString) : List ByteString :=
  Path.names path ++ (if Path.endsWithSlash path then [("" : ByteString)] else [])

/-- The steps along which a link's target and then the steps behind the link are followed. -/
def stepsThrough (target : ByteString) (names : List ByteString) : List ByteString :=
  if names = [] then stepsOf target else Path.names target ++ names

/-- Follows steps from a place, and `links` links at most. -/
def follow (t : Tree) (ending : Ending) : Nat → Place → List ByteString → Except Fault Located
  | 0 => t.descend ending fun _ _ _ => .error .tooManyLinks
  | links + 1 =>
    t.descend ending fun directory target names =>
      follow t ending links (startOf directory target) (stepsThrough target names)

/-- Where steps lead from the start of a path. -/
def locateSteps (t : Tree) (ending : Ending) (path : ByteString) (steps : List ByteString) :
    Except Fault Located :=
  if Path.hasNull path then .error .nullInPath
  else if path = "" then .error .noEntry
  else if pathLimit < path.size then .error .nameTooLong
  else t.follow ending linkLimit (startOf t.current path) steps

/-- Where a path leads. -/
def locate (t : Tree) (ending : Ending) (path : ByteString) : Except Fault Located :=
  t.locateSteps ending path (stepsOf path)

/-- What a path leads to, and where. -/
def get (t : Tree) (ending : Ending) (path : ByteString) : Except Fault (Place × Node) := do
  match ← t.locate ending path with
  | .vacant _ => .error .noEntry
  | .found p =>
    match t.lookup p with
    | some n => .ok (p, n)
    | none => .error .noEntry

/-- The content of the file that a path leads to. -/
def read (t : Tree) (path : ByteString) : Except Fault ByteArray := do
  match ← t.get .follow path with
  | (_, .file content) => .ok content
  | _ => .error .isDirectory

/-- The place of a file that is to be written. -/
def writable (t : Tree) (path : ByteString) : Except Fault Place := do
  match ← t.locate .create path with
  | .vacant p => .ok p
  | .found p =>
    match t.lookup p with
    | some (.file _) => .ok p
    | _ => .error .isDirectory

/-- Replaces the content of a file. As much of it is put there as the place takes. -/
def write (t : Tree) (path : ByteString) (content : ByteArray) : WriteResult × Tree :=
  match t.writable path with
  | .error fault => (.unopened fault, t)
  | .ok p =>
    match Limit.take (t.limit p) content with
    | (taken, none) => (.complete, t.put p (.file taken))
    | (taken, some fault) => (.partly fault, t.put p (.file taken))

/-- What a path leads to; a link at its end is followed or not. -/
def kind (t : Tree) (path : ByteString) (followed : Bool) : Except Fault Kind := do
  return (← t.get (if followed then .follow else .keep) path).2.kind

/-- The name and the kind under which a directory lists a node, if it does. -/
def entryIn (directory : Place) (n : Place × Node) : Option (ByteString × Kind) :=
  if n.1.dropLast = directory then n.1.getLast?.map fun name => (name, n.2.kind) else none

/-- The names in a directory, with what stands there. -/
def entries (t : Tree) (path : ByteString) : Except Fault (List (ByteString × Kind)) := do
  match ← t.get .follow path with
  | (p, .directory) => .ok (t.nodes.filterMap (entryIn p))
  | _ => .error .notDirectory

/-- The path of a place. -/
def pathOf (p : Place) : ByteString :=
  ⟨Path.slash :: [Path.slash].intercalate (p.map ByteString.bytes)⟩

/-- The place to which a path leads, as the path of the place. -/
def identity (t : Tree) (path : ByteString) : Except Fault ByteString := do
  let (p, _) ← t.get .follow path
  return pathOf p

/-- The tree with a directory made. -/
def makeDirectory (t : Tree) (path : ByteString) : Except Fault Tree := do
  match ← t.locateSteps .keep path (Path.names path) with
  | .found _ => .error .alreadyExists
  | .vacant p => .ok (t.put p .directory)

/-- The tree with a link made. -/
def makeLink (t : Tree) (path target : ByteString) : Except Fault Tree := do
  match ← t.locateSteps .keep path (Path.names path) with
  | .found _ => .error .alreadyExists
  | .vacant p => .ok (t.put p (.link target))

end Tree

/-- Programs over a file tree. -/
abbrev TreeM := StateM Tree

namespace TreeM

/-- Asks the tree. -/
def ask {α : Type} (f : Tree → Except Fault α) : TreeM (Except Fault α) := fun t => (f t, t)

/-- Changes the tree, unless the change is refused. -/
def change (f : Tree → Except Fault Tree) : TreeM (Except Fault Unit) := fun t =>
  match f t with
  | .ok t => (.ok (), t)
  | .error e => (.error e, t)

instance : Access TreeM where
  read path := ask fun t => t.read path
  write path content := fun t => t.write path content
  kind path followed := ask fun t => t.kind path followed
  entries path := ask fun t => t.entries path
  identity path := ask fun t => t.identity path
  makeDirectory path := change fun t => t.makeDirectory path

end TreeM

end ProofSize.Files
