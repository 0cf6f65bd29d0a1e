import ProofSize.Binary64.Text

/-! # JSON documents

A document is printed over several lines, with two more spaces of indentation for each level. Lists
and tables without content take no line of their own. Of the characters of a text, quotation marks,
backslashes and control characters are escaped, and nothing else.
-/

namespace ProofSize.Json

/-- A JSON document with the kinds of numbers that reports hold. -/
inductive Value where
  | null
  | text (s : String)
  | natural (n : Nat)
  | number (negative : Bool) (magnitude : Binary64.Magnitude)
  | list (items : List Value)
  | table (members : List (String × Value))

/-- The number as a document. What is no number of mathematics is written as null. -/
def Value.ofBinary64 : Binary64 → Value
  | .finite negative m => number negative m
  | .nan | .infinite _ => null

/-- A character as it stands in a text. -/
def escape (c : Char) : List Char :=
  if c = '"' then ['\\', '"']
  else if c = '\\' then ['\\', '\\']
  else if c = '\x08' then ['\\', 'b']
  else if c = '\x0c' then ['\\', 'f']
  else if c = '\n' then ['\\', 'n']
  else if c = '\r' then ['\\', 'r']
  else if c = '\t' then ['\\', 't']
  else if c.toNat < 0x20 then
    ['\\', 'u', '0', '0', Nat.digitChar (c.toNat / 16), Nat.digitChar (c.toNat % 16)]
  else [c]

/-- A text between its quotation marks. -/
def quote (s : String) : List Char := '"' :: (s.toList.flatMap escape ++ ['"'])

/-- A line break and the spaces of a level. -/
def newLine (level : Nat) : List Char := '\n' :: List.replicate (2 * level) ' '

/-- Items between brackets, each on a line of its own. -/
def enclose (left right : Char) (level : Nat) (items : List (List Char)) : List Char :=
  if items = [] then [left, right]
  else
    let lines := (items.map fun item => newLine (level + 1) ++ item)
    left :: ([','].intercalate lines ++ newLine level ++ [right])

mutual

/-- The document as it is printed at a level. -/
def Value.render (layout : Binary64.Layout) (level : Nat) : Value → List Char
  | .null => ['n', 'u', 'l', 'l']
  | .text s => quote s
  | .natural n => Nat.toDigits 10 n
  | .number negative m => (layout.finite negative m).toList
  | .list items => enclose '[' ']' level (renderItems layout (level + 1) items)
  | .table members => enclose '\x7b' '\x7d' level (renderMembers layout (level + 1) members)

/-- The items of a list at a level. -/
def renderItems (layout : Binary64.Layout) (level : Nat) : List Value → List (List Char)
  | [] => []
  | v :: vs => v.render layout level :: renderItems layout level vs

/-- The members of a table at a level, each behind its key. -/
def renderMembers (layout : Binary64.Layout) (level : Nat) :
    List (String × Value) → List (List Char)
  | [] => []
  | (key, v) :: members =>
    (quote key ++ ':' :: ' ' :: v.render layout level) :: renderMembers layout level members

end

end ProofSize.Json
