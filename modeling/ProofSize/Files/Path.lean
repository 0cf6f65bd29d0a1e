import ProofSize.Text.ByteString

/-! # Paths

A path is made of names with slashes between them. Several slashes count as one, and the name `.`
stands for the directory in which it occurs.
-/

namespace ProofSize.Files.Path

/-- The slash, which stands between names. -/
def slash : UInt8 := 0x2f

/-- The dot. -/
def dot : UInt8 := 0x2e

/-- The parts of bytes between slashes. There is at least one. -/
def splitSlash : List UInt8 → List (List UInt8)
  | [] => [[]]
  | b :: bs =>
    if b = slash then [] :: splitSlash bs
    else
      match splitSlash bs with
      | [] => [[b]]
      | part :: parts => (b :: part) :: parts

/-- The names of a path. -/
def names (path : ByteString) : List ByteString :=
  ((splitSlash path.bytes).filter fun part => part ≠ []).map .mk

/-- The path starts at the root of the file system. -/
def isAbsolute (path : ByteString) : Bool := path.bytes.head? == some slash

/-- There is a null character in the path, so that it leads nowhere. -/
def hasNull (path : ByteString) : Bool := path.bytes.contains 0

/-- The path can only lead to a directory. -/
def endsWithSlash (path : ByteString) : Bool := path.bytes.getLast? == some slash

/-- The names of a path less those that stand for the directory in which they occur. -/
def significantNames (path : ByteString) : List ByteString :=
  (names path).filter fun name => name ≠ "."

/-- What stands before the first name of a path: the root, the dot of a path that starts with that
    name, or nothing. -/
def start (path : ByteString) : List UInt8 :=
  match path.bytes with
  | [] => []
  | first :: rest =>
    if first = slash then [slash]
    else if first = dot ∧ (rest = [] ∨ rest.head? = some slash) then [dot]
    else []

/-- The paths that lead along the same bytes up to one of its names, the longest first. The parts of
    the path behind `start` come last one first. -/
def leadingFrom (start : List UInt8) : List (List UInt8) → List ByteString
  | [] => []
  | part :: above =>
    if part = [] ∨ part = [dot] then leadingFrom start above
    else ⟨start ++ [slash].intercalate (part :: above).reverse⟩ :: leadingFrom start above

/-- The path and the paths of the directories above it, as they are written in it, the longest
    first. -/
def leading (path : ByteString) : List ByteString :=
  leadingFrom (start path) (splitSlash (path.bytes.drop (start path).length)).reverse

/-- The paths of the directories in which a path lies, as they are written in it, the nearest
    first. -/
def directoriesAbove (path : ByteString) : List ByteString :=
  match leading path with
  | [] => []
  | _ :: above => above ++ (if start path = [dot] then [("." : ByteString)] else [])

/-- The last name of a path, unless that leads back to the parent of a directory. -/
def fileName? (path : ByteString) : Option ByteString :=
  match (significantNames path).getLast? with
  | some name => if name = ".." then none else some name
  | none => none

/-- The part of a name behind its last dot. A dot that starts the name does not count. -/
def extension? (name : ByteString) : Option ByteString :=
  let reversed := name.bytes.reverse
  match reversed.dropWhile (· ≠ dot) with
  | _ :: _ :: _ => some ⟨(reversed.takeWhile (· ≠ dot)).reverse⟩
  | _ => none

/-- The path names a data file. -/
def isCsv (path : ByteString) : Bool := (fileName? path).bind extension? == some ↑"csv"

/-- The path of a name in a directory. -/
def join (directory name : ByteString) : ByteString :=
  if directory = "" ∨ endsWithSlash directory = true then directory ++ name
  else directory ++ "/" ++ name

end ProofSize.Files.Path
