import ProofSize.Files.Access

/-! # Walking a directory tree

A walk visits what lies below a path, depth first and the names of each directory in the order of
their bytes. Links are followed. A link that leads to a directory in which the walk already is would
go on for ever; it is visited as a fault.
-/

namespace ProofSize.Files

/-- Why a walk cannot go on at a path. -/
inductive WalkFault where
  | refused (path : ByteString) (fault : Fault)
  /-- The link leads to a directory in which it lies. -/
  | loop (link ancestor : ByteString)
  deriving DecidableEq

def WalkFault.message : WalkFault → String
  | refused path fault => s!"IO error for operation on {path.shown}: {fault.message}"
  | loop link ancestor =>
    s!"File system loop found: {link.shown} points to an ancestor {ancestor.shown}"

/-- What a walk comes upon. Directories are not among it. -/
inductive Visit where
  | file (path : ByteString)
  | fault (path : ByteString) (fault : WalkFault)
  deriving DecidableEq

def Visit.path : Visit → ByteString
  | file path => path
  | fault path _ => path

namespace Walk

variable {m : Type → Type} [Monad m] [Access m]

/-- Entries in the order of the bytes of their names. -/
def sorted (entries : List (ByteString × Kind)) : List (ByteString × Kind) :=
  entries.mergeSort fun a b => decide (a.1.bytes ≤ b.1.bytes)

/-- The first of the ancestors that is the directory of a given identity. -/
def findAncestor (identity : ByteString) : List ByteString → m (Except Fault (Option ByteString))
  | [] => return .ok none
  | ancestor :: ancestors => do
    match ← Access.identity ancestor with
    | .error fault => return .error fault
    | .ok i => if i = identity then return .ok (some ancestor) else findAncestor identity ancestors

/-- The directory in which a link to a directory lies and to which it leads, if there is one. -/
def loopOf (link : ByteString) (ancestors : List ByteString) :
    m (Except Fault (Option ByteString)) := do
  match ← Access.identity link with
  | .error fault => return .error fault
  | .ok identity => findAncestor identity ancestors

/-- Visits a path, given what it leads to, `depth` directories deep at most. The ancestors are the
    directories in which the walk is, the nearest first. -/
def visit : Nat → List ByteString → ByteString → Kind → m (List Visit)
  | 0, _, _, _ => return []
  | depth + 1, ancestors, path, kind => do
    let refused (fault : Fault) : m (List Visit) := return [.fault path (.refused path fault)]
    let enter : m (List Visit) := do
      match ← Access.entries path with
      | .error fault => refused fault
      | .ok entries =>
        (sorted entries).flatMapM fun e =>
          visit depth (path :: ancestors) (Path.join path e.1) e.2
    match kind with
    | .file => return [.file path]
    | .directory => enter
    | .other => return []
    | .link =>
      match ← Access.kind path true with
      | .error fault => refused fault
      | .ok .file => return [.file path]
      | .ok .directory =>
        match ← loopOf path ancestors with
        -- a fault of the search for loops is told of no path
        | .error _ => return []
        | .ok (some ancestor) => return [.fault path (.loop path ancestor)]
        | .ok none => enter
      | .ok _ => return []

/-- How deep a walk can go. A path has less than 4096 bytes, and each directory adds one or more. -/
def depthLimit : Nat := 4096

/-- Visits what lies below a path. -/
def below (path : ByteString) : m (List Visit) := do
  match ← Access.kind path false with
  | .error fault => return [.fault path (.refused path fault)]
  | .ok kind => visit depthLimit [] path kind

end Walk

end ProofSize.Files
