import ProofSize.Digest
import ProofSize.Files.Access
import ProofSize.Synthetic
import ProofSize.Table.Reader
import ProofSize.Table.Writer

/-! # Data files

A data file is loaded together with the digest of its content, so that a report can cite it.
-/

namespace ProofSize

open Files

/-- The rows of a data file, and what is needed to cite it. -/
structure Dataset where
  path : ByteString
  sha256 : String
  rows : List Row
  deriving DecidableEq

namespace Dataset

/-- The dataset of a file with a given content. -/
def ofContent (aliases : Aliases) (path : ByteString) (content : ByteArray) :
    Except ReportError Dataset := do
  return ⟨path, Digest.ofContent content, ← Table.readRows aliases content⟩

variable {m : Type → Type} [Monad m] [Access m]

/-- Loads a data file. -/
def load (aliases : Aliases) (path : ByteString) : m (Except ReportError Dataset) := do
  match ← Access.read path with
  | .error fault => return .error (.file fault)
  | .ok content => return ofContent aliases path content

/-- Loads data files one after the other. The first that cannot be loaded decides the error, which
    comes with its path. -/
def loadAll (aliases : Aliases) :
    List ByteString → m (Except (ByteString × ReportError) (List Dataset))
  | [] => return .ok []
  | path :: paths => do
    match ← load aliases path with
    | .error e => return .error (path, e)
    | .ok dataset =>
      match ← loadAll aliases paths with
      | .error e => return .error e
      | .ok datasets => return .ok (dataset :: datasets)

/-- Writes a synthetic dataset, and gives the number of its rows. Nothing is written unless there is
    a dataset. A file that does not take all of it is a fault of the file. -/
def writeSynthetic (path : ByteString) (settings : Synthetic.Settings) :
    m (Except ReportError Nat) := do
  match Synthetic.rows settings with
  | .error e => return .error e
  | .ok rows =>
    match ← Access.write path (Table.write rows) with
    | .unopened fault => return .error (.file fault)
    | .partly fault => return .error (.file fault)
    | .complete => return .ok rows.length

end Dataset

end ProofSize
