import Mathlib.Data.List.TakeWhile
import ProofSize.Text.Blank
import ProofSize.Text.Utf8

/-!
# Blanks around a text and around its bytes

Cells are trimmed twice: the ASCII blanks are taken off the bytes, and what remains is read as text
and loses all blanks around it. The first step does not change the outcome of the second, because no
byte of a character outside ASCII looks like a blank.

## Key results

- `Utf8.bytes_append`, `Utf8.bytes_eq_flatMap`: the bytes of a text are those of its characters
- `Utf8.head?_of_starts`, `Utf8.mem_of_mem_bytes`: characters that can be told from the bytes
- `Blank.trimBy_trimBy`: trimming fewer characters before changes nothing
- `Blank.trim_trim`: a trimmed text has no blanks around it
- `Blank.head?_trim`: a text that starts with no blank still starts so when it is trimmed
- `Blank.decode_trimBytes`: trimming the bytes of a text before it is read changes nothing
- `Blank.exists_bytes_of_decode_trimBytes`: what is read then are the bytes of a text
-/

namespace ProofSize.Utf8

/-- The bytes of a text are those of its characters. -/
theorem bytes_eq_flatMap (s : String) : bytes s = s.toList.flatMap String.utf8EncodeChar := by
  rw [bytes, ← String.utf8Encode_toList, List.utf8Encode]
  simp

/-- The bytes of two texts follow each other. -/
@[simp] theorem bytes_append (s t : String) : bytes (s ++ t) = bytes s ++ bytes t := by
  simp [bytes_eq_flatMap]

/-- A character of ASCII is one byte. -/
theorem utf8EncodeChar_of_lt {c : Char} (h : c.toNat < 128) :
    String.utf8EncodeChar c = [UInt8.ofNat c.toNat] := by
  have hle : c.val.toNat ≤ 127 := Nat.le_of_lt_succ h
  simp only [String.utf8EncodeChar, hle, ↓reduceIte]
  rfl

/-- Every byte of a character outside ASCII is outside ASCII. -/
theorem le_of_mem_utf8EncodeChar {c : Char} (h : 128 ≤ c.toNat) {b : UInt8}
    (hb : b ∈ String.utf8EncodeChar c) : 128 ≤ b.toNat := by
  have hlt : c.val.toNat < 0x110000 := by
    have := c.valid
    simp only [UInt32.isValidChar, Nat.isValidChar] at this
    omega
  have hgt : ¬c.val.toNat ≤ 127 := by
    have : c.toNat = c.val.toNat := rfl
    omega
  simp only [String.utf8EncodeChar, hgt, ↓reduceIte] at hb
  -- two, three or four bytes, each of them at least `0x80` before it is cut to eight bits
  split at hb
  · simp only [List.mem_cons, List.not_mem_nil, or_false] at hb
    rcases hb with rfl | rfl <;> simp only [UInt8.toNat_ofNat'] <;> omega
  · split at hb
    · simp only [List.mem_cons, List.not_mem_nil, or_false] at hb
      rcases hb with rfl | rfl | rfl <;> simp only [UInt8.toNat_ofNat'] <;> omega
    · simp only [List.mem_cons, List.not_mem_nil, or_false] at hb
      rcases hb with rfl | rfl | rfl | rfl <;> simp only [UInt8.toNat_ofNat'] <;> omega

/-- A text starts with the character with whose bytes it starts. -/
theorem head?_of_starts {s : String} {c : Char} (h : String.utf8EncodeChar c <+: bytes s) :
    s.toList.head? = some c := by
  have hfirst {rest : List UInt8} {d : Char} :
      (String.utf8EncodeChar d ++ rest).toByteArray.utf8DecodeChar? 0 = some d := by
    rw [List.toByteArray_append]
    exact ByteArray.utf8DecodeChar?_utf8EncodeChar_append
  obtain ⟨rest, hrest⟩ := h
  rw [bytes_eq_flatMap] at hrest
  cases hs : s.toList with
  | nil =>
    rw [hs, List.flatMap_nil, List.append_eq_nil_iff] at hrest
    exact absurd hrest.1 String.utf8EncodeChar_ne_nil
  | cons d ds =>
    rw [hs, List.flatMap_cons] at hrest
    have hd : some c = some d := by rw [← hfirst, hrest, hfirst]
    exact hd.symm

/-- A byte of ASCII among the bytes of a text is one of its characters. -/
theorem mem_of_mem_bytes {s : String} {c : Char} (hc : c.toNat < 128)
    (h : UInt8.ofNat c.toNat ∈ bytes s) : c ∈ s.toList := by
  rw [bytes_eq_flatMap] at h
  obtain ⟨d, hd, hmem⟩ := List.mem_flatMap.1 h
  have hb : (UInt8.ofNat c.toNat).toNat = c.toNat := by
    rw [UInt8.toNat_ofNat']
    omega
  by_cases hlt : d.toNat < 128
  · rw [utf8EncodeChar_of_lt hlt, List.mem_singleton] at hmem
    have hcode : c.toNat = d.toNat := by
      rw [← hb, hmem, UInt8.toNat_ofNat']
      omega
    rwa [Char.toNat_inj.1 hcode]
  · -- the bytes of other characters are not in ASCII
    have hge := le_of_mem_utf8EncodeChar (Nat.le_of_not_lt hlt) hmem
    omega

end ProofSize.Utf8

namespace ProofSize.Blank

section

variable {α β : Type} {p q : α → Bool}

/-- What is trimmed off either end of a list has the property. -/
theorem exists_trimBy_append (p : α → Bool) (xs : List α) :
    ∃ before after, xs = before ++ trimBy p xs ++ after ∧
      (∀ x ∈ before, p x = true) ∧ ∀ x ∈ after, p x = true := by
  let front := xs.takeWhile p
  let rest := xs.dropWhile p
  refine ⟨front, (rest.reverse.takeWhile p).reverse, ?_, ?_, ?_⟩
  · -- what is taken off behind stands where the list backwards starts
    have hrest : trimBy p xs ++ (rest.reverse.takeWhile p).reverse = rest := by
      rw [trimBy, ← List.reverse_append, List.takeWhile_append_dropWhile, List.reverse_reverse]
    rw [List.append_assoc, hrest, List.takeWhile_append_dropWhile]
  · intro x hx
    exact List.mem_takeWhile_imp hx
  · intro x hx
    exact List.mem_takeWhile_imp (List.mem_reverse.1 hx)

/-- Elements with the property at either end of a list do not change how it is trimmed. -/
theorem trimBy_append {before after : List α} (hb : ∀ x ∈ before, p x = true)
    (ha : ∀ x ∈ after, p x = true) (xs : List α) :
    trimBy p (before ++ xs ++ after) = trimBy p xs := by
  have hafter : after.dropWhile p = [] := List.dropWhile_eq_nil_iff.2 ha
  have hrev : ∀ x ∈ after.reverse, p x = true := fun x hx => ha x (List.mem_reverse.1 hx)
  rw [List.append_assoc, trimBy, List.dropWhile_append_of_pos hb, List.dropWhile_append, trimBy]
  split
  · rename_i hnil
    rw [hafter, List.isEmpty_iff.1 hnil]
  · rw [List.reverse_append, List.dropWhile_append_of_pos hrev]

/-- An element that is not trimmed off remains the first one. -/
theorem head?_trimBy_cons {x : α} (hx : p x = false) (xs : List α) :
    (trimBy p (x :: xs)).head? = some x := by
  obtain ⟨before, after, hxs, hbefore, hafter⟩ := exists_trimBy_append p (x :: xs)
  cases before with
  | cons y before =>
    obtain rfl : x = y := (List.cons.inj hxs).1
    simp [hx] at hbefore
  | nil =>
    cases htrim : trimBy p (x :: xs) with
    | nil =>
      rw [htrim] at hxs
      obtain rfl : x :: xs = after := hxs
      simp [hx] at hafter
    | cons y ys =>
      rw [htrim] at hxs
      rw [List.head?_cons, (List.cons.inj hxs).1]

/-- Trimming elements of fewer kinds before changes nothing. -/
theorem trimBy_trimBy (hqp : ∀ x, q x = true → p x = true) (xs : List α) :
    trimBy p (trimBy q xs) = trimBy p xs := by
  obtain ⟨before, after, hxs, hb, ha⟩ := exists_trimBy_append q xs
  calc trimBy p (trimBy q xs)
      = trimBy p (before ++ trimBy q xs ++ after) :=
        (trimBy_append (fun x hx => hqp x (hb x hx)) (fun x hx => hqp x (ha x hx)) _).symm
    _ = trimBy p xs := by rw [← hxs]

/-- Trimming a list that is put together of pieces trims whole pieces, if each piece is of one
    kind. -/
theorem trimBy_flatMap {p : β → Bool} {f : α → List β} (hne : ∀ x, f x ≠ [])
    (hkind : ∀ x, ∀ y ∈ f x, p y = q x) (xs : List α) :
    trimBy p (xs.flatMap f) = (trimBy q xs).flatMap f := by
  have dropWhile_flatMap : ∀ (g : α → List β), (∀ x, g x ≠ []) → (∀ x, ∀ y ∈ g x, p y = q x) →
      ∀ xs : List α, (xs.flatMap g).dropWhile p = (xs.dropWhile q).flatMap g := by
    intro g hne hkind xs
    induction xs with
    | nil => rfl
    | cons x xs ih =>
      rw [List.flatMap_cons, List.dropWhile_cons]
      cases hx : q x with
      | true =>
        rw [List.dropWhile_append_of_pos (fun y hy => by rw [hkind x y hy, hx]), ih]
        rfl
      | false =>
        obtain ⟨y, ys, hy⟩ := List.exists_cons_of_ne_nil (hne x)
        have hpy : p y = false := by rw [hkind x y (by simp [hy]), hx]
        simp [hy, hpy]
  -- the pieces backwards are of one kind too, so the other end is trimmed alike
  have hne' : ∀ x, (List.reverse ∘ f) x ≠ [] := fun x => by simpa using hne x
  have hkind' : ∀ x, ∀ y ∈ (List.reverse ∘ f) x, p y = q x := by
    intro x y hy
    exact hkind x y (List.mem_reverse.1 hy)
  rw [trimBy, dropWhile_flatMap f hne hkind, List.reverse_flatMap,
    dropWhile_flatMap _ hne' hkind', List.reverse_flatMap, trimBy]
  congr 1
  funext x
  simp

end

/-- A trimmed text has no blanks around it. -/
@[simp] theorem trim_trim (s : String) : trim (trim s) = trim s := by
  rw [trim, trim, String.toList_ofList, trimBy_trimBy (fun _ h => h)]

/-- A text that starts with no blank starts so when it is trimmed. -/
theorem head?_trim {s : String} {c : Char} (hc : isBlank c = false) (h : s.toList.head? = some c) :
    (trim s).toList.head? = some c := by
  obtain ⟨cs, hcs⟩ := List.head?_eq_some_iff.1 h
  rw [trim, String.toList_ofList, hcs]
  exact head?_trimBy_cons hc cs

/-- A character that is a blank byte. -/
def isBlankAscii (c : Char) : Bool := c.toNat < 128 && isBlankByte (UInt8.ofNat c.toNat)

/-- The bytes of a character are blanks if the character is a blank of ASCII. -/
theorem isBlankByte_of_mem_utf8EncodeChar {c : Char} {b : UInt8}
    (hb : b ∈ String.utf8EncodeChar c) : isBlankByte b = isBlankAscii c := by
  by_cases h : c.toNat < 128
  · rw [Utf8.utf8EncodeChar_of_lt h, List.mem_singleton] at hb
    simp [isBlankAscii, h, hb]
  · -- no byte of another character can be mistaken for a blank
    have hge := Utf8.le_of_mem_utf8EncodeChar (Nat.le_of_not_lt h) hb
    have hne : ∀ k : UInt8, k.toNat < 128 → (b == k) = false := by
      intro k hk
      rw [beq_eq_false_iff_ne]
      intro h
      rw [h] at hge
      omega
    simp only [isBlankByte, isBlankAscii, h, decide_false, Bool.false_and]
    rw [hne _ (by decide), hne _ (by decide), hne _ (by decide), hne _ (by decide),
      hne _ (by decide)]
    rfl

/-- The blanks of ASCII are blanks. -/
theorem isBlank_of_isBlankAscii {c : Char} (h : isBlankAscii c = true) : isBlank c = true := by
  simp only [isBlankAscii, isBlankByte, Bool.and_eq_true, decide_eq_true_eq, Bool.or_eq_true,
    beq_iff_eq] at h
  obtain ⟨hlt, hb⟩ := h
  -- one code for each blank byte; the character is determined by its code
  have code : ∀ k : UInt8, UInt8.ofNat c.toNat = k → c.toNat = k.toNat := by
    intro k h
    rw [← h, UInt8.toNat_ofNat', Nat.mod_eq_of_lt (by omega)]
  rcases hb with (((hb | hb) | hb) | hb) | hb <;> have hc := code _ hb <;>
    simp [isBlank, ranges, hc]

/-- Taking the ASCII blanks off the bytes of a text leaves a text with the same trimmed text. -/
theorem decode_trimBytes (s : String) :
    ∃ t, Utf8.decode (trimBytes (Utf8.bytes s)) = .ok t ∧ trim t = trim s := by
  -- the bytes that are left are those of this text
  let t := String.ofList (trimBy isBlankAscii s.toList)
  refine ⟨t, ?_, ?_⟩
  · have hbytes : trimBytes (Utf8.bytes s) = Utf8.bytes t := by
      rw [trimBytes, Utf8.bytes_eq_flatMap, Utf8.bytes_eq_flatMap, String.toList_ofList]
      exact trimBy_flatMap (fun c => String.utf8EncodeChar_ne_nil)
        (fun c b hb => isBlankByte_of_mem_utf8EncodeChar hb) s.toList
    rw [hbytes, Utf8.decode_bytes]
  · rw [trim, trim, String.toList_ofList, trimBy_trimBy (fun c hc => isBlank_of_isBlankAscii hc)]

/-- Bytes that are blanks are those of a text of blanks. -/
theorem exists_bytes_eq_of_blank {bytes : List UInt8} (h : ∀ b ∈ bytes, isBlankByte b = true) :
    ∃ s : String, Utf8.bytes s = bytes ∧ ∀ c ∈ s.toList, isBlank c = true := by
  -- each of the five bytes is a character by itself
  have hchar : ∀ b : UInt8, isBlankByte b = true →
      ∃ c : Char, String.utf8EncodeChar c = [b] ∧ isBlank c = true := by
    intro b hb
    simp only [isBlankByte, Bool.or_eq_true, beq_iff_eq] at hb
    rcases hb with (((rfl | rfl) | rfl) | rfl) | rfl
    · exact ⟨' ', by decide, by decide⟩
    · exact ⟨'\t', by decide, by decide⟩
    · exact ⟨'\n', by decide, by decide⟩
    · exact ⟨'\x0c', by decide, by decide⟩
    · exact ⟨'\r', by decide, by decide⟩
  induction bytes with
  | nil => exact ⟨"", rfl, by simp⟩
  | cons b bytes ih =>
    obtain ⟨c, hc, hblank⟩ := hchar b (h b List.mem_cons_self)
    obtain ⟨s, hs, hall⟩ := ih fun x hx => h x (List.mem_cons_of_mem b hx)
    refine ⟨String.ofList (c :: s.toList), ?_, ?_⟩
    · rw [Utf8.bytes_eq_flatMap, String.toList_ofList, List.flatMap_cons, hc,
        ← Utf8.bytes_eq_flatMap, hs]
      rfl
    · rw [String.toList_ofList]
      intro d hd
      rcases List.mem_cons.1 hd with rfl | hd
      · exact hblank
      · exact hall d hd

/-- Bytes that are read as a text without the ASCII blanks around them are a text with these blanks. -/
theorem exists_bytes_of_decode_trimBytes {cell : List UInt8} {t : String}
    (h : Utf8.decode (trimBytes cell) = .ok t) : ∃ s, cell = Utf8.bytes s ∧ trim s = trim t := by
  obtain ⟨before, after, hcell, hbefore, hafter⟩ := exists_trimBy_append isBlankByte cell
  obtain ⟨s₁, rfl, hs₁⟩ := exists_bytes_eq_of_blank hbefore
  obtain ⟨s₂, rfl, hs₂⟩ := exists_bytes_eq_of_blank hafter
  refine ⟨s₁ ++ t ++ s₂, ?_, ?_⟩
  · rw [Utf8.bytes_append, Utf8.bytes_append, Utf8.bytes_of_decode_eq_ok h]
    exact hcell
  · rw [trim, trim, String.toList_append, String.toList_append, trimBy_append hs₁ hs₂]

end ProofSize.Blank
