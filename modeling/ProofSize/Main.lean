import Std.Time.DateTime.Timestamp
import ProofSize.Command.Run

/-! # The command line

The outer layer: the files of the machine, its clock and its console.
-/

namespace ProofSize

open Files Command

/-- The number of an error. Some requests report it with its sign changed. -/
def errorNumber (code : UInt32) : Nat :=
  if code.toNat < UInt32.size / 2 then code.toNat else UInt32.size - code.toNat

/-- The fault that an error of the operating system is. -/
def faultOfError : IO.Error → Fault
  | .alreadyExists _ code _ | .otherError code _ | .resourceBusy code _ | .resourceVanished code _
  | .unsupportedOperation code _ | .hardwareFault code _ | .unsatisfiedConstraints code _
  | .illegalOperation code _ | .protocolError code _ | .timeExpired code _
  | .interrupted _ code _ | .noFileOrDirectory _ code _ | .invalidArgument _ code _
  | .permissionDenied _ code _ | .resourceExhausted _ code _ | .inappropriateType _ code _
  | .noSuchThing _ code _ => .ofCode (errorNumber code)
  | .unexpectedEof | .userError _ => .other 0

/-- Asks the operating system about a path. It is asked by the text of a path: one that is no text is
    an illegal byte sequence to it. -/
def request {α : Type} (path : ByteString) (action : String → IO α) : IO (Except Fault α) := do
  if Path.hasNull path then return .error .nullInPath
  match path.text? with
  | none => return .error (.other 84)
  | some text =>
    match ← (action text).toBaseIO with
    | .ok a => return .ok a
    | .error e => return .error (faultOfError e)

/-- The kind of file that the operating system reports. -/
def kindOfType : IO.FS.FileType → Kind
  | .dir => .directory
  | .file => .file
  | .symlink => .link
  | .other => .other

instance : Access IO where
  read path := request path fun path => IO.FS.readBinFile path
  write path content := do
    match ← request path fun path => IO.FS.writeBinFile path .empty with
    | .error fault => return .unopened fault
    | .ok () =>
      match ← request path fun path => IO.FS.writeBinFile path content with
      | .error fault => return .partly fault
      | .ok () => return .complete
  kind path follow := request path fun path => do
    let entry : IO.FS.DirEntry := ⟨path, ""⟩
    let data ← if follow then entry.root.metadata else entry.root.symlinkMetadata
    return kindOfType data.type
  entries path := request path fun path => do
    let directory ← IO.FS.realPath path
    (← directory.readDir).toList.mapM fun entry => do
      match ← entry.path.symlinkMetadata.toBaseIO with
      | .ok data => return (↑entry.fileName, kindOfType data.type)
      | .error _ => return (↑entry.fileName, .other)
  identity path := request path fun path => do
    return .ofText (toString (← IO.FS.realPath path))
  makeDirectory path := request path fun path => IO.FS.createDir path

/-- The help on a topic: how a command line is written. -/
def usage : Topic → String
  | .program => "Usage: ads-proof-report [OPTIONS] <COMMAND>\n"
  | .command verb => s!"Usage: ads-proof-report {verb.name} [OPTIONS]\n"
  | .help => "Usage: ads-proof-report help [COMMAND]\n"

end ProofSize

/-- Runs the command line, and prints what it gives. -/
def main (args : List String) : IO UInt32 := do
  let time ← Std.Time.Timestamp.now
  let seconds := time.toSecondsSinceUnixEpoch.val.toNat
  let outcome ← ProofSize.Command.run ⟨seconds, none, ProofSize.usage⟩ (args.map .ofText)
  (← IO.getStdout).write outcome.output
  IO.eprint outcome.complaint
  return outcome.exitCode
