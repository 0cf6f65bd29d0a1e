import ProofSize.Json.Fault

/-! # Texts in JSON

A text stands between quotation marks. Control characters may not stand in it unescaped, and a
character beyond the first plane is escaped as a leading and a trailing surrogate.
-/

namespace ProofSize.Json

/-- The value of a hexadecimal digit. -/
def hexDigit? (c : Char) : Option Nat :=
  if c.isDigit then some (c.toNat - '0'.toNat)
  else if 'a' ≤ c ∧ c ≤ 'f' then some (c.toNat - 'a'.toNat + 10)
  else if 'A' ≤ c ∧ c ≤ 'F' then some (c.toNat - 'A'.toNat + 10)
  else none

/-- The number that four hexadecimal digits denote. -/
def hexUnit? (a b c d : Char) : Option Nat := do
  return 4096 * (← hexDigit? a) + 256 * (← hexDigit? b) + 16 * (← hexDigit? c) + (← hexDigit? d)

def isLeading (n : Nat) : Bool := 0xd800 ≤ n && n ≤ 0xdbff

def isTrailing (n : Nat) : Bool := 0xdc00 ≤ n && n ≤ 0xdfff

/-- The character that two surrogates denote. -/
def pairChar (leading trailing : Nat) : Char :=
  Char.ofNat (0x10000 + 0x400 * (leading - 0xd800) + (trailing - 0xdc00))

/-- The character that an escape of one character denotes. -/
def escaped? (c : Char) : Option Char :=
  match c with
  | '"' => some '"'
  | '\\' => some '\\'
  | '/' => some '/'
  | 'b' => some '\x08'
  | 'f' => some '\x0c'
  | 'n' => some '\n'
  | 'r' => some '\r'
  | 't' => some '\t'
  | _ => none

/-- The fault where four hexadecimal digits are due and do not follow. The text counts as ended when
    fewer than four bytes are left. -/
def noUnit (cs : List Char) : Fault :=
  if (String.ofList cs).utf8ByteSize < 4 then .truncated else .malformed

/-- The fault where no trailing surrogate follows a leading one. -/
def unpaired : List Char → Fault
  | [] | ['\\'] => .truncated
  | '\\' :: 'u' :: cs => noUnit cs
  | _ => .malformed

/-- Reads a text from behind its opening quotation mark, with the characters read so far, the last
    one first. Gives the text and what follows its closing mark. -/
def readText : List Char → List Char → Except Fault (String × List Char)
  | _, [] => .error .truncated
  | read, '"' :: cs => .ok (String.ofList read.reverse, cs)
  | read, '\\' :: 'u' :: a :: b :: c :: d :: cs =>
    match hexUnit? a b c d with
    | none => .error .malformed
    | some n =>
      if isTrailing n then .error .malformed
      else if isLeading n then
        match cs with
        | '\\' :: 'u' :: e :: f :: g :: h :: cs =>
          match hexUnit? e f g h with
          | none => .error .malformed
          | some m =>
            if isTrailing m then readText (pairChar n m :: read) cs else .error .malformed
        | _ => .error (unpaired cs)
      else readText (Char.ofNat n :: read) cs
  | _, '\\' :: 'u' :: cs => .error (noUnit cs)
  | read, '\\' :: c :: cs =>
    match escaped? c with
    | some e => readText (e :: read) cs
    | none => .error .malformed
  | _, ['\\'] => .error .truncated
  | read, c :: cs => if c.toNat < 0x20 then .error .malformed else readText (c :: read) cs

end ProofSize.Json
