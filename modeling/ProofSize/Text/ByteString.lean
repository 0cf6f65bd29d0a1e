import ProofSize.Text.Utf8

/-! # Byte strings

The arguments of a command, the names in a directory and paths are bytes. Most of them are the bytes of
a text. What is no text is shown with a mark in place of each part that belongs to none.

## Key results
- `text?_ofText`: the bytes of a text are that text
- `ofText_of_text?_eq_some`: what is a text has its bytes
-/

namespace ProofSize

/-- An argument, a name or a path. -/
@[ext] structure ByteString where
  bytes : List UInt8
  deriving DecidableEq

namespace ByteString

/-- The bytes of a text. -/
def ofText (s : String) : ByteString := ⟨Utf8.bytes s⟩

instance : Coe String ByteString := ⟨ofText⟩

instance : Append ByteString := ⟨fun a b => ⟨a.bytes ++ b.bytes⟩⟩

/-- The number of bytes. -/
def size (b : ByteString) : Nat := b.bytes.length

/-- The text whose bytes these are, if there is one. -/
def text? (b : ByteString) : Option String :=
  match Utf8.decode b.bytes with
  | .ok s => some s
  | .error _ => none

/-- The two bytes start a character of three or of four bytes. -/
def startsLong (b c : UInt8) : Bool :=
  if b = 0xe0 then 0xa0 ≤ c && c ≤ 0xbf
  else if b = 0xed then 0x80 ≤ c && c ≤ 0x9f
  else if b = 0xf0 then 0x90 ≤ c && c ≤ 0xbf
  else if b = 0xf4 then 0x80 ≤ c && c ≤ 0x8f
  else 0xe1 ≤ b && b ≤ 0xf3 && 0x80 ≤ c && c ≤ 0xbf

/-- How many bytes one mark stands for where no character starts: those that a character could start
    with, and one at least. -/
def faultLength : List UInt8 → Nat
  | b :: c :: rest =>
    if startsLong b c then
      match rest with
      | d :: _ => if 0xf0 ≤ b ∧ 0x80 ≤ d ∧ d ≤ 0xbf then 3 else 2
      | [] => 2
    else 1
  | _ => 1

/-- The text that shows bytes, of which there are `fuel` at most. -/
def shownWithin : Nat → List UInt8 → String
  | 0, _ => ""
  | fuel + 1, bytes =>
    match Utf8.decode bytes with
    | .ok s => s
    | .error n =>
      let valid := match Utf8.decode (bytes.take n) with
        | .ok s => s
        | .error _ => ""
      let rest := bytes.drop n
      valid ++ "\ufffd" ++ shownWithin fuel (rest.drop (faultLength rest))

/-- The text that shows the bytes. -/
def shown (b : ByteString) : String := shownWithin (b.size + 1) b.bytes

/-- The bytes of a text are those of its UTF-8 form. -/
theorem bytes_ofText (s : String) : (ofText s).bytes = Utf8.bytes s := rfl

@[simp] theorem bytes_append (a b : ByteString) : (a ++ b).bytes = a.bytes ++ b.bytes := rfl

@[simp] theorem size_append (a b : ByteString) : (a ++ b).size = a.size + b.size :=
  List.length_append

/-- Only the empty text has no bytes. -/
theorem eq_empty_iff {b : ByteString} : b = "" ↔ b.bytes = [] := by
  rw [ByteString.ext_iff]
  rfl

/-- Only the empty string has no bytes. -/
theorem size_eq_zero_iff {b : ByteString} : b.size = 0 ↔ b = "" := by
  rw [eq_empty_iff, size, List.length_eq_zero_iff]

/-- What stands behind two byte strings does not tell them apart. -/
theorem append_left_inj {a b c : ByteString} : a ++ c = b ++ c ↔ a = b := by
  rw [ByteString.ext_iff, ByteString.ext_iff]
  exact List.append_left_inj c.bytes

/-- The bytes of a text are that text. -/
@[simp] theorem text?_ofText (s : String) : (ofText s).text? = some s := by
  rw [text?, bytes_ofText, Utf8.decode_bytes]

/-- What is a text has its bytes. -/
theorem ofText_of_text?_eq_some {b : ByteString} {s : String} (h : b.text? = some s) :
    ofText s = b := by
  unfold text? at h
  split at h
  · rename_i t ht
    obtain rfl := Option.some.inj h
    exact ByteString.ext (Utf8.bytes_of_decode_eq_ok ht)
  · exact nomatch h

/-- Texts with the same bytes are the same. -/
theorem ofText_inj {s t : String} : ofText s = ofText t ↔ s = t := by
  refine ⟨fun h => ?_, congrArg ofText⟩
  have htext := congrArg text? h
  rw [text?_ofText, text?_ofText] at htext
  exact Option.some.inj htext

/-- A byte that belongs to no character is shown by a mark, and so is the start of a character that
    does not go on. -/
example : shown ⟨[0xff, 0x2e, 0x63, 0x73, 0x76, 0xe2, 0x82, 0x2f]⟩ = "\ufffd.csv\ufffd/" := by
  decide +kernel

end ByteString

end ProofSize
