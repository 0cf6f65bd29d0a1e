import ProofSize.Config.Basic
import ProofSize.Json.Number
import ProofSize.Json.Skip

/-! # Configurations as JSON

A configuration is a table, of which every key may be left out, or a list with the values in the
order of the keys, of which the last may be left out. Keys that are not known are passed over. The
text is read once from front to back and the first fault decides, so a value of the wrong kind in
front of a missing bracket is reported as such.
-/

namespace ProofSize.Config

open Json (skipBlanks skipValue readText readNumber)

def malformed {α : Type} : Except Fault α := .error (.json .malformed)

def truncated {α : Type} : Except Fault α := .error (.json .truncated)

/-- The outcome of reading a part of JSON. -/
def lift {α : Type} (r : Except Json.Fault α) : Except Fault α := r.mapError .json

/-- A number of the wrong kind. -/
def Found.ofNumber : Json.Number → Found
  | .natural n => .integer n.toNat
  | .negative n => .integer (-n)
  | .binary64 negative m => .number negative m

/-- The fault of a value that is not of the kind expected. Only a list or a table is not read to its
    end. -/
def wrongKind {α : Type} (expected : Expected) (cs : List Char) : Except Fault α :=
  let word (text : List Char) (cs : List Char) (found : Found) : Except Fault α :=
    if text.isPrefixOf cs then .error (.wrongKind found expected)
    else if cs.isPrefixOf text then truncated
    else malformed
  match cs with
  | [] => truncated
  | 'n' :: cs => word ['u', 'l', 'l'] cs .null
  | 't' :: cs => word ['r', 'u', 'e'] cs (.boolean true)
  | 'f' :: cs => word ['a', 'l', 's', 'e'] cs (.boolean false)
  | '"' :: cs => do
    let (s, _) ← lift (readText [] cs)
    .error (.wrongKind (.text s) expected)
  | '[' :: _ => .error (.wrongKind .list expected)
  | '\x7b' :: _ => .error (.wrongKind .table expected)
  | c :: cs =>
    if c = '-' ∨ c.isDigit then do
      let (n, _) ← lift (readNumber (c :: cs))
      .error (.wrongKind (.ofNumber n) expected)
    else malformed

/-- Reads a word. -/
def readWord (cs : List Char) : Except Fault (UInt64 × List Char) :=
  match skipBlanks cs with
  | [] => truncated
  | c :: cs =>
    if c = '-' ∨ c.isDigit then do
      match ← lift (readNumber (c :: cs)) with
      | (.natural n, rest) => return (n, rest)
      | (.negative n, _) => .error (.negativeWord (-n))
      | (.binary64 negative m, _) => .error (.wrongKind (.number negative m) .word)
    else wrongKind .word (c :: cs)

/-- Reads a text. -/
def readString (cs : List Char) : Except Fault (String × List Char) :=
  match skipBlanks cs with
  | '"' :: cs => lift (readText [] cs)
  | cs => wrongKind .text cs

/-- Finds the next item of a list: what starts it, or what follows the list. -/
def nextItem (isFirst : Bool) (cs : List Char) : Except Fault (List Char ⊕ List Char) :=
  match skipBlanks cs with
  | [] => truncated
  | ']' :: cs => .ok (.inr cs)
  | c :: cs =>
    if isFirst then .ok (.inl (c :: cs))
    else if c = ',' then
      match skipBlanks cs with
      | [] => truncated
      | ']' :: _ => malformed
      | cs => .ok (.inl cs)
    else malformed

/-- Reads the items of a list, `fuel` of them at most, behind items that stand last first. -/
def readItems {α : Type} (item : List Char → Except Fault (α × List Char)) :
    Nat → List α → List Char → Except Fault (List α × List Char)
  | 0, _, _ => malformed
  | fuel + 1, items, cs => do
    match ← nextItem items.isEmpty cs with
    | .inr rest => return (items.reverse, rest)
    | .inl cs =>
      let (a, rest) ← item cs
      readItems item fuel (a :: items) rest

/-- Reads a list. Every item takes up a character, so there are no more items than characters. -/
def readList {α : Type} (item : List Char → Except Fault (α × List Char)) (cs : List Char) :
    Except Fault (List α × List Char) :=
  match skipBlanks cs with
  | '[' :: cs => readItems item (cs.length + 1) [] cs
  | cs => wrongKind .list cs

/-- Finds the next key of a table: what follows its opening quotation mark, or what follows the
    table. -/
def nextKey (isFirst : Bool) (cs : List Char) : Except Fault (List Char ⊕ List Char) :=
  match skipBlanks cs with
  | [] => truncated
  | '\x7d' :: cs => .ok (.inr cs)
  | c :: cs =>
    if isFirst then if c = '"' then .ok (.inl cs) else malformed
    else if c = ',' then
      match skipBlanks cs with
      | [] => truncated
      | '"' :: cs => .ok (.inl cs)
      | _ => malformed
    else malformed

/-- Passes over the colon between a key and its value. -/
def readColon (cs : List Char) : Except Fault (List Char) :=
  match skipBlanks cs with
  | [] => truncated
  | ':' :: cs => .ok cs
  | _ => malformed

/-- Reads the members of a table, `fuel` of them at most, from a state on. `member` reads what
    follows a key, its colon included. -/
def readMembers {σ : Type}
    (member : σ → String → List Char → Except Fault (σ × List Char)) :
    Nat → Bool → σ → List Char → Except Fault (σ × List Char)
  | 0, _, _, _ => malformed
  | fuel + 1, isFirst, state, cs => do
    match ← nextKey isFirst cs with
    | .inr rest => return (state, rest)
    | .inl cs =>
      let (key, rest) ← lift (readText [] cs)
      let (state, rest) ← member state key rest
      readMembers member fuel false state rest

/-- Header names for some of the fields. -/
abbrev ColumnNames := Field → Option (List String)

/-- Reads the header names of a field. Names that were given before are replaced. -/
def readColumn (names : ColumnNames) (key : String) (cs : List Char) :
    Except Fault (ColumnNames × List Char) := do
  match Field.ofName? key with
  | none => .error (.unknownField key)
  | some field =>
    let (headers, rest) ← readList readString (← readColon cs)
    return (fun f => if f = field then some headers else names f, rest)

/-- Reads a table of header names. -/
def readColumns (cs : List Char) : Except Fault (ColumnNames × List Char) :=
  match skipBlanks cs with
  | '\x7b' :: cs => readMembers readColumn (cs.length + 1) true (fun _ => none) cs
  | cs => wrongKind .table cs

/-- A key of a configuration. -/
inductive Key where
  | signatureSize
  | targetSignatures
  | signatureCounts
  | columns
  deriving DecidableEq

namespace Key

def all : List Key := [signatureSize, targetSignatures, signatureCounts, columns]

def name : Key → String
  | signatureSize => "signature_size"
  | targetSignatures => "target_signatures"
  | signatureCounts => "signature_counts"
  | columns => "columns"

/-- The key of that name. -/
def ofName? (s : String) : Option Key := all.find? fun k => k.name == s

/-- Reads the value of the key into a configuration. -/
def read (k : Key) (c : Config) (cs : List Char) : Except Fault (Config × List Char) := do
  match k with
  | signatureSize =>
    let (n, rest) ← readWord cs
    return ({ c with signatureSize := n }, rest)
  | targetSignatures =>
    let (n, rest) ← readWord cs
    return ({ c with targetSignatures := n }, rest)
  | signatureCounts =>
    let (counts, rest) ← readList readWord cs
    return ({ c with signatureCounts := counts }, rest)
  | columns =>
    let (names, rest) ← readColumns cs
    return ({ c with columns := names }, rest)

end Key

/-- A configuration that has been read in part: what it is so far, and the keys that were given. -/
structure Draft where
  config : Config
  given : List Key

/-- Reads the value of a key of the configuration. -/
def readMember (d : Draft) (key : String) (cs : List Char) :
    Except Fault (Draft × List Char) := do
  match Key.ofName? key with
  | none =>
    let rest ← lift (skipValue (← readColon cs))
    return (d, rest)
  | some k =>
    if k ∈ d.given then .error (.repeatedKey key)
    else
      let (config, rest) ← k.read d.config (← readColon cs)
      return (⟨config, k :: d.given⟩, rest)

/-- Reads the values of keys in their order until the list ends. -/
def readPositional :
    List Key → Bool → Config → List Char → Except Fault (Config × List Char)
  | [], _, c, cs =>
    match skipBlanks cs with
    | [] => truncated
    | ']' :: rest => .ok (c, rest)
    | _ => malformed
  | k :: ks, isFirst, c, cs => do
    match ← nextItem isFirst cs with
    | .inr rest => return (c, rest)
    | .inl cs =>
      let (c, rest) ← k.read c cs
      readPositional ks false c rest

/-- Reads a configuration. -/
def readConfig (cs : List Char) : Except Fault (Config × List Char) :=
  match skipBlanks cs with
  | '\x7b' :: cs => do
    let (d, rest) ← readMembers readMember (cs.length + 1) true ⟨standard, []⟩ cs
    return (d.config, rest)
  | '[' :: cs => readPositional Key.all true standard cs
  | cs => wrongKind .config cs

/-- The configuration that a text denotes. Nothing but blanks may follow it. -/
def decode (text : String) : Except Fault Config := do
  let (c, rest) ← readConfig text.toList
  if skipBlanks rest = [] then return c else malformed

end ProofSize.Config
