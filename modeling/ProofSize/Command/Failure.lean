import ProofSize.Text.Align
import ProofSize.Text.ByteString
import ProofSize.View

/-! # Failures of commands

A failure is told with the step that failed and with its causes, the nearest one first.
-/

namespace ProofSize.Command

open Files

/-- The step that failed, and why. -/
inductive Failure where
  | readingConfig (path : ByteString) (e : ReportError)
  | loading (path : ByteString) (e : ReportError)
  | computing (view : View) (e : ReportError)
  | creating (path : ByteString) (fault : Fault)
  | makingDirectories (fault : Fault)
  | writing (path : ByteString) (e : ReportError)
  /-- The digest of a data file cannot be cut to the length that is shown. -/
  | digestCut
  /-- The path of a data file cannot be written in JSON. -/
  | pathNotText
  /-- The console or the file does not take all of the output. -/
  | delivering (fault : Fault)
  deriving DecidableEq

/-- The text of an error, and below it that of the fault from which it arose. -/
def causes (e : ReportError) : List String :=
  e.message ::
    match e with
    | .csv fault => [fault.message]
    | .file fault => [fault.message]
    | .config fault => [fault.message]
    | _ => []

/-- What is told of a failure, the failed step first. -/
def Failure.messages : Failure → List String
  | readingConfig path e => s!"reading config {path.shown}" :: causes e
  | loading path e => s!"loading {path.shown}" :: causes e
  | computing view e => s!"computing {view.name}" :: causes e
  | creating path fault => [s!"creating {path.shown}", fault.message]
  | makingDirectories fault => [fault.message]
  | writing path e => s!"writing {path.shown}" :: causes e
  | digestCut => ["digest cut within a character"]
  | pathNotText => ["path contains invalid UTF-8 characters"]
  | delivering fault => [fault.message]

/-- The text of a failure: the step, and its causes, which are numbered if there are several. -/
def Failure.text (f : Failure) : String :=
  match f.messages with
  | [] => ""
  | [message] => s!"Error: {message}\n"
  | [message, cause] => s!"Error: {message}\n\nCaused by:\n    {indentLines 4 cause}\n"
  | message :: several =>
    let lines := several.zipIdx.map fun c =>
      "\n" ++ alignRight 5 (toString c.2) ++ ": " ++ indentLines 7 c.1
    s!"Error: {message}\n\nCaused by:" ++ String.join lines ++ "\n"

end ProofSize.Command
