import ProofSize.Files.Fault
import ProofSize.Files.Path

/-! # Access to files

What a program may ask of a file system. A program that is written over `Access` runs on the file
tree of `ProofSize.Files.Tree` as well as on the files of the machine.
-/

namespace ProofSize.Files

/-- What a path leads to. -/
inductive Kind where
  | file
  | directory
  | link
  | other
  deriving DecidableEq

/-- What came of writing a file. A file that is written is made or emptied first, and takes its content
    then. -/
inductive WriteResult where
  /-- The file has the whole content. -/
  | complete
  /-- The file could be neither made nor emptied. -/
  | unopened (fault : Fault)
  /-- The file has been emptied and has taken no more than a part of the content. -/
  | partly (fault : Fault)
  deriving DecidableEq

/-- What keeps a file or the console from taking more than a number of bytes. -/
structure Limit where
  size : Nat
  fault : Fault
  deriving DecidableEq

/-- The bytes that are taken within a limit, and the fault if there are more. -/
def Limit.take (limit : Option Limit) (content : ByteArray) : ByteArray × Option Fault :=
  match limit with
  | none => (content, none)
  | some l => if content.size ≤ l.size then (content, none) else (content.extract 0 l.size, some l.fault)

/-- Operations on a file system. A link at the end of a path is followed unless said otherwise. -/
class Access (m : Type → Type) where
  /-- The content of a file. -/
  read (path : ByteString) : m (Except Fault ByteArray)
  /-- Replaces the content of a file, which is made if there is none. -/
  write (path : ByteString) (content : ByteArray) : m WriteResult
  /-- What the path leads to; a link at its end is followed or not. -/
  kind (path : ByteString) (follow : Bool) : m (Except Fault Kind)
  /-- The names in a directory, with what stands there. Links are not followed. -/
  entries (path : ByteString) : m (Except Fault (List (ByteString × Kind)))
  /-- Bytes that paths have in common if and only if they lead to the same place. -/
  identity (path : ByteString) : m (Except Fault ByteString)
  /-- Makes a directory in an existing one. -/
  makeDirectory (path : ByteString) : m (Except Fault Unit)

namespace Access

variable {m : Type → Type} [Monad m] [Access m]

/-- The path leads to a directory. -/
def isDirectory (path : ByteString) : m Bool := do
  match ← kind path true with
  | .ok .directory => return true
  | _ => return false

/-- Makes a directory and those above it that are missing, given the nearest to the directory first.
    A directory that exists already is no fault. -/
def makeDirectories : List ByteString → m (Except Fault Unit)
  | [] => return .ok ()
  | path :: above => do
    match ← makeDirectory path with
    | .ok () => return .ok ()
    | .error .noEntry =>
      match ← makeDirectories above with
      | .error f => return .error f
      | .ok () =>
        match ← makeDirectory path with
        | .ok () => return .ok ()
        | .error f => if ← isDirectory path then return .ok () else return .error f
    | .error f => if ← isDirectory path then return .ok () else return .error f

/-- Makes the directories in which a file is to lie. -/
def makeParents (path : ByteString) : m (Except Fault Unit) :=
  makeDirectories (Path.directoriesAbove path)

end Access

end ProofSize.Files
