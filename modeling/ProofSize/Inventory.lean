import ProofSize.Digest
import ProofSize.Files.Walk
import ProofSize.Json.Value
import ProofSize.Table.Reader

/-! # Inventories

An inventory describes every data file below a directory. A file that cannot be loaded is listed
with the reason, and disturbs no other.
-/

namespace ProofSize

open Files

namespace Inventory

/-- What is known of a data file. -/
inductive Status where
  /-- The file can be loaded. The fields are those that have a column. -/
  | loaded (sha256 : String) (rows : Nat) (fields : List Field)
  /-- The content of the file is no table. -/
  | rejected (sha256 : String) (e : ReportError)
  /-- The file has no content that can be read. -/
  | unread (fault : Fault)
  /-- The walk that looks for data files cannot go on here. -/
  | unvisited (fault : WalkFault)
  deriving DecidableEq

/-- A data file in an inventory. -/
structure Entry where
  path : ByteString
  status : Status
  deriving DecidableEq

namespace Entry

/-- The digest of the content, if there is content. -/
def sha256 (e : Entry) : String :=
  match e.status with
  | .loaded sha256 _ _ | .rejected sha256 _ => sha256
  | .unread _ | .unvisited _ => ""

/-- The number of rows that can be loaded. -/
def rows (e : Entry) : Nat :=
  match e.status with
  | .loaded _ rows _ => rows
  | _ => 0

/-- The fields that have a column, if the file can be loaded. -/
def fields (e : Entry) : List Field :=
  match e.status with
  | .loaded _ _ fields => fields
  | _ => []

/-- Why the file cannot be loaded, if it cannot. -/
def error (e : Entry) : Option String :=
  match e.status with
  | .loaded _ _ _ => none
  | .rejected _ e => some e.message
  | .unread fault => some fault.message
  | .unvisited fault => some fault.message

/-- The entry of a file with a given content. -/
def ofContent (aliases : Aliases) (path : ByteString) (content : ByteArray) : Entry :=
  match Table.read aliases content with
  | .ok (columns, rows) => ⟨path, .loaded (Digest.ofContent content) rows.length columns.fields⟩
  | .error e => ⟨path, .rejected (Digest.ofContent content) e⟩

/-- The entry as a line of text. -/
def text (e : Entry) : String :=
  match e.error with
  | none => s!"{e.path.shown}: {e.rows} rows [" ++ ", ".intercalate (e.fields.map Field.name) ++ "]\n"
  | some error => s!"{e.path.shown}: unreadable ({error})\n"

/-- The entry as a document, with a text for its path. -/
def json (e : Entry) (path : String) : Json.Value :=
  .table [
    ("path", .text path),
    ("sha256", .text e.sha256),
    ("rows", .natural e.rows),
    ("fields", .list (e.fields.map fun f => .text f.name)),
    ("error", match e.error with
      | none => .null
      | some error => .text error)]

end Entry

/-- The inventory as text, a line for each entry. -/
def text (entries : List Entry) : String := String.join (entries.map Entry.text)

/-- The entries as documents, or those before the first one whose path is no text. -/
def documents : List Entry → Except (List Json.Value) (List Json.Value)
  | [] => .ok []
  | e :: entries =>
    match e.path.text? with
    | none => .error []
    | some path =>
      match documents entries with
      | .ok found => .ok (e.json path :: found)
      | .error found => .error (e.json path :: found)

/-- What has been written of a list of documents when the path of the next one is to be written. -/
def begun (found : List Json.Value) : List Char :=
  let next := '\x7b' :: (Json.newLine 2 ++ Json.quote "path" ++ [':', ' '])
  let lines := (Json.renderItems numberLayout 1 found ++ [next]).map fun item =>
    Json.newLine 1 ++ item
  '[' :: [','].intercalate lines

/-- The inventory as JSON text. A path that is no text ends it early, and then it is what has been
    written until there. -/
def json (entries : List Entry) : Except String String :=
  match documents entries with
  | .ok found => .ok (String.ofList ((Json.Value.list found).render numberLayout 0))
  | .error found => .error (String.ofList (begun found))

variable {m : Type → Type} [Monad m] [Access m]

/-- The entry for what a walk has come upon, if that is named as a data file. -/
def describe (aliases : Aliases) (v : Visit) : m (Option Entry) := do
  if Path.isCsv v.path then
    match v with
    | .fault path fault => return some ⟨path, .unvisited fault⟩
    | .file path =>
      match ← Access.read path with
      | .error fault => return some ⟨path, .unread fault⟩
      | .ok content => return some (.ofContent aliases path content)
  else return none

/-- The data files below a path. -/
def below (aliases : Aliases) (path : ByteString) : m (List Entry) := do
  (← Walk.below path).filterMapM (describe aliases)

end Inventory

end ProofSize
