/-! # Bytes as text

## Key results
- `decode_bytes`: the bytes of a text are read as the text
- `bytes_of_decode_eq_ok`: what is read has the bytes that it was read from
-/

namespace ProofSize.Utf8

/-- The bytes of a text. -/
def bytes (s : String) : List UInt8 := s.toByteArray.data.toList

/-- How many bytes from the position `i` on are text, when there are `fuel` bytes at most. -/
def validFrom (b : ByteArray) (i : Nat) : Nat → Nat
  | 0 => i
  | fuel + 1 =>
    match b.utf8DecodeChar? i with
    | some c => validFrom b (i + c.utf8Size) fuel
    | none => i

/-- The number of bytes before the first that cannot belong to a text. -/
def validLength (b : ByteArray) : Nat := validFrom b 0 b.size

/-- The text of the bytes, or the number of bytes before the first fault. -/
def decode (input : List UInt8) : Except Nat String :=
  let b : ByteArray := ⟨input.toArray⟩
  match String.fromUTF8? b with
  | some s => .ok s
  | none => .error (validLength b)

/-- The bytes of a text are decoded to the text. -/
theorem decode_bytes (s : String) : decode (bytes s) = .ok s := by
  have h : String.fromUTF8? s.toByteArray = some s := by
    simp [String.fromUTF8?, s.isValidUTF8, String.fromUTF8]
  simp [decode, bytes, h]

/-- What is decoded are the bytes of the text. -/
theorem bytes_of_decode_eq_ok {input : List UInt8} {s : String} (h : decode input = .ok s) :
    bytes s = input := by
  unfold decode at h
  dsimp only at h
  split at h
  · rename_i t ht
    obtain rfl := Except.ok.inj h
    unfold String.fromUTF8? at ht
    split at ht
    · obtain rfl := Option.some.inj ht
      rfl
    · exact absurd ht (by simp)
  · exact absurd h (by simp)

end ProofSize.Utf8
