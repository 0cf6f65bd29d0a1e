import ProofSize.Json.Text

/-! # Passing over JSON values

A value that nobody asks for is passed over character by character. The state of the pass is what
may stand next, together with the brackets that are open, the innermost one first. Numbers may be of
any size and texts may hold lone surrogates, since neither is read.

## Key results
- `skip_cons`: a pass goes character by character
-/

namespace ProofSize.Json

/-- An open bracket. -/
inductive Bracket where
  | list
  | table
  deriving DecidableEq

/-- Where a number stands. -/
inductive NumberPart where
  | sign
  | zero
  | integer
  | point
  | fraction
  | exponentMark
  | exponentSign
  | exponent
  deriving DecidableEq

namespace NumberPart

/-- The number may end here. -/
def isComplete : NumberPart → Bool
  | zero | integer | fraction | exponent => true
  | sign | point | exponentMark | exponentSign => false

/-- The part behind one more character, if the number goes on with it. -/
def next? (p : NumberPart) (c : Char) : Option NumberPart :=
  match p with
  | sign => if c = '0' then some zero else if c.isDigit then some integer else none
  | zero => if c = '.' then some point else if c = 'e' ∨ c = 'E' then some exponentMark else none
  | integer =>
    if c.isDigit then some integer
    else if c = '.' then some point
    else if c = 'e' ∨ c = 'E' then some exponentMark
    else none
  | point => if c.isDigit then some fraction else none
  | fraction =>
    if c.isDigit then some fraction
    else if c = 'e' ∨ c = 'E' then some exponentMark
    else none
  | exponentMark =>
    if c = '+' ∨ c = '-' then some exponentSign
    else if c.isDigit then some exponent
    else none
  | exponentSign => if c.isDigit then some exponent else none
  | exponent => if c.isDigit then some exponent else none

end NumberPart

/-- What may stand next. -/
inductive Awaited where
  | value
  /-- A first item or the end of a list. -/
  | firstItem
  /-- A first key or the end of a table. -/
  | firstKey
  | key
  | colon
  /-- A comma or a closing bracket. -/
  | separator
  /-- The rest of a word such as `null`. -/
  | word (rest : List Char)
  /-- The rest of a text, which may be a key. -/
  | text (isKey : Bool)
  /-- What follows a backslash in a text. -/
  | escape (isKey : Bool)
  | number (part : NumberPart)
  deriving DecidableEq

/-- The outcome of one character. -/
inductive Step where
  | goOn (awaited : Awaited) (enclosing : List Bracket)
  /-- The value has ended with this character. -/
  | ended
  /-- The value has ended before this character. -/
  | endedBefore
  | fault (f : Fault)

/-- A value has ended with this character. -/
def valueEnds : List Bracket → Step
  | [] => .ended
  | enclosing => .goOn .separator enclosing

/-- The character starts a value. -/
def startValue (enclosing : List Bracket) (c : Char) : Step :=
  match c with
  | 'n' => .goOn (.word ['u', 'l', 'l']) enclosing
  | 't' => .goOn (.word ['r', 'u', 'e']) enclosing
  | 'f' => .goOn (.word ['a', 'l', 's', 'e']) enclosing
  | '"' => .goOn (.text false) enclosing
  | '[' => .goOn .firstItem (.list :: enclosing)
  | '\x7b' => .goOn .firstKey (.table :: enclosing)
  | '-' => .goOn (.number .sign) enclosing
  | '0' => .goOn (.number .zero) enclosing
  | c => if c.isDigit then .goOn (.number .integer) enclosing else .fault .malformed

/-- The character follows a value. -/
def separate (enclosing : List Bracket) (c : Char) : Step :=
  match c, enclosing with
  | ',', .list :: _ => .goOn .value enclosing
  | ',', .table :: _ => .goOn .key enclosing
  | ']', .list :: rest | '\x7d', .table :: rest => valueEnds rest
  | _, [] => .endedBefore
  | _, _ => if isBlank c then .goOn .separator enclosing else .fault .malformed

/-- A character within a text that is no key or is one. -/
def textStep (enclosing : List Bracket) (isKey : Bool) (c : Char) : Step :=
  if c = '"' then if isKey then .goOn .colon enclosing else valueEnds enclosing
  else if c = '\\' then .goOn (.escape isKey) enclosing
  else if c.toNat < 0x20 then .fault .malformed
  else .goOn (.text isKey) enclosing

/-- Four hexadecimal digits follow, or the fault for their lack. -/
def unitFollows : List Char → Option Fault
  | a :: b :: c :: d :: _ => if (hexUnit? a b c d).isSome then none else some .malformed
  | cs => some (noUnit cs)

/-- A character behind a backslash. -/
def escapeStep (enclosing : List Bracket) (isKey : Bool) (c : Char) (rest : List Char) : Step :=
  if c = 'u' then
    match unitFollows rest with
    | none => .goOn (.text isKey) enclosing
    | some f => .fault f
  else if (escaped? c).isSome then .goOn (.text isKey) enclosing
  else .fault .malformed

/-- The outcome of a character, before the rest of the text. -/
def skipStep (awaited : Awaited) (enclosing : List Bracket) (c : Char) (rest : List Char) : Step :=
  match awaited with
  | .value => if isBlank c then .goOn .value enclosing else startValue enclosing c
  | .firstItem =>
    if isBlank c then .goOn .firstItem enclosing
    else if c = ']' then valueEnds enclosing.tail
    else startValue enclosing c
  | .firstKey =>
    if isBlank c then .goOn .firstKey enclosing
    else if c = '\x7d' then valueEnds enclosing.tail
    else if c = '"' then .goOn (.text true) enclosing
    else .fault .malformed
  | .key =>
    if isBlank c then .goOn .key enclosing
    else if c = '"' then .goOn (.text true) enclosing
    else .fault .malformed
  | .colon =>
    if isBlank c then .goOn .colon enclosing
    else if c = ':' then .goOn .value enclosing
    else .fault .malformed
  | .separator => separate enclosing c
  | .word [] => separate enclosing c
  | .word [d] => if c = d then valueEnds enclosing else .fault .malformed
  | .word (d :: ds) => if c = d then .goOn (.word ds) enclosing else .fault .malformed
  | .text isKey => textStep enclosing isKey c
  | .escape isKey => escapeStep enclosing isKey c rest
  | .number part =>
    match part.next? c with
    | some part => .goOn (.number part) enclosing
    | none =>
      -- no digit follows a leading zero
      if part.isComplete ∧ ¬(part = .zero ∧ c.isDigit) then separate enclosing c
      else .fault .malformed

/-- The outcome of the end of the text. A number that cannot end here is not JSON, rather than cut
    short. -/
def skipEnd (awaited : Awaited) (enclosing : List Bracket) : Except Fault (List Char) :=
  match awaited with
  | .number part =>
    if part.isComplete then if enclosing = [] then .ok [] else .error .truncated
    else .error .malformed
  | _ => .error .truncated

/-- Passes over what is awaited, and gives what follows the value. -/
def skip : Awaited → List Bracket → List Char → Except Fault (List Char)
  | awaited, enclosing, [] => skipEnd awaited enclosing
  | awaited, enclosing, c :: cs =>
    match skipStep awaited enclosing c cs with
    | .goOn awaited enclosing => skip awaited enclosing cs
    | .ended => .ok cs
    | .endedBefore => .ok (c :: cs)
    | .fault f => .error f

/-- Each character is looked at once, and then skipping goes on, ends or fails. -/
theorem skip_cons (awaited : Awaited) (enclosing : List Bracket) (c : Char) (cs : List Char) :
    skip awaited enclosing (c :: cs) =
      match skipStep awaited enclosing c cs with
      | .goOn awaited enclosing => skip awaited enclosing cs
      | .ended => .ok cs
      | .endedBefore => .ok (c :: cs)
      | .fault f => .error f := rfl

/-- Passes over a value. -/
def skipValue (cs : List Char) : Except Fault (List Char) := skip .value [] cs

end ProofSize.Json
