import Mathlib.Data.List.TakeDrop
import ProofSize.Json.Number
import ProofSize.Proofs.Json.Numbers
import ProofSize.Proofs.Json.Unambiguity

/-!
# Reading texts and natural numbers

What the grammar says of blanks, texts and plain digits is what is read: blanks are passed over up to what
is visible, a text has the characters that are spelled, whatever escapes spell them, and the digits of a
word read back as the word.

## Key results

- `Blanks.skipBlanks_eq`: blanks are passed over
- `ReadsText.readText_eq`: a text is read up to its closing mark
- `readNumber_toDigits`: the digits of a word read back
-/

namespace ProofSize.Json

variable {cs rest : List Char}

/-! ### Blanks -/

/-- Blanks in front do not matter to what is left when blanks are skipped. -/
theorem Blanks.skipBlanks_eq (h : Blanks cs rest) : skipBlanks cs = skipBlanks rest := by
  induction h with
  | none => rfl
  | blank hc _ ih => rw [skipBlanks, List.dropWhile_cons_of_pos hc, ← skipBlanks, ih]

/-- Blanks are passed over up to a character that is none. -/
theorem Blanks.skipBlanks_cons {c : Char} (h : Blanks cs (c :: rest)) (hc : isBlank c = false) :
    skipBlanks cs = c :: rest := by
  rw [h.skipBlanks_eq, skipBlanks, List.dropWhile_cons_of_neg]
  simp [hc]

/-- Blanks make a text no shorter than what stands behind them. -/
theorem Blanks.length_le (h : Blanks cs rest) : rest.length ≤ cs.length := by
  induction h with
  | none => exact Nat.le_refl _
  | blank _ _ ih => exact Nat.le_succ_of_le ih

/-! ### Texts -/

/-- No surrogate is both a leading and a trailing one. -/
private theorem isTrailing_of_isLeading {n : Nat} (h : isLeading n = true) : isTrailing n = false := by
  simp only [isLeading, isTrailing, Bool.and_eq_true, decide_eq_true_eq, Bool.and_eq_false_iff,
    decide_eq_false_iff_not] at h ⊢
  omega

/-- A text is read up to its closing mark, behind what has been read before. -/
theorem ReadsText.readText_eq {s : List Char} (h : ReadsText cs s rest) (read : List Char) :
    readText read cs = .ok (String.ofList (read.reverse ++ s), rest) := by
  -- what has been read is kept back to front
  have hread (read : List Char) (c : Char) (s : List Char) :
      (c :: read).reverse ++ s = read.reverse ++ c :: s := by
    rw [List.reverse_cons, List.append_assoc, List.singleton_append]
  induction h generalizing read with
  | done => rw [readText, List.append_nil]
  | @plain c cs _ _ hcontrol hquote hslash _ ih =>
    have hstep : readText read (c :: cs) = readText (c :: read) cs := by
      simp [readText, hslash, Nat.not_lt.2 hcontrol]
    rw [hstep, ih, hread]
  | @escape c d cs _ _ hd _ ih =>
    have hu : c ≠ 'u' := by
      rintro rfl
      exact nomatch hd
    have hstep : readText read ('\\' :: c :: cs) = readText (d :: read) cs := by
      simp [readText, hu, hd]
    rw [hstep, ih, hread]
  | unit hn hlead htrail _ ih =>
    simp only [readText, hn, hlead, htrail, Bool.false_eq_true, ↓reduceIte]
    rw [ih, hread]
  | pair hn hlead hm htrail _ ih =>
    simp only [readText, hn, hlead, hm, htrail, isTrailing_of_isLeading hlead, Bool.false_eq_true,
      ↓reduceIte]
    rw [ih, hread]

/-- A text between quotation marks takes one character at least. -/
theorem ReadsText.length_lt {s : List Char} (h : ReadsText cs s rest) : rest.length < cs.length := by
  induction h with
  | done => exact Nat.lt_succ_self _
  | plain | escape | unit | pair =>
    simp only [List.length_cons]
    omega

/-! ### Digits -/

variable {ds : List Char}

/-- A number starts with a digit. -/
theorem exists_toDigits_append (n : Nat) (rest : List Char) :
    ∃ d cs, Nat.toDigits 10 n ++ rest = d :: cs ∧ d.isDigit = true := by
  obtain ⟨d, ds, hdigits⟩ := List.exists_cons_of_ne_nil (Nat.toDigits_ne_nil (b := 10) (n := n))
  exact ⟨d, ds ++ rest, by rw [hdigits]; rfl, digits_toDigits n d (hdigits ▸ List.mem_cons_self)⟩

/-- Digits are read up to the end of the numeral. -/
private theorem spanDigits_append (hds : Digits ds) (hrest : EndsNumeral rest) :
    spanDigits (ds ++ rest) = (ds, rest) := by
  have htake : rest.takeWhile Char.isDigit = [] ∧ rest.dropWhile Char.isDigit = rest := by
    cases rest with
    | nil => exact ⟨rfl, rfl⟩
    | cons c cs =>
      have hc : ¬c.isDigit = true := by simp [(hrest c rfl).1]
      exact ⟨List.takeWhile_cons_of_neg hc, List.dropWhile_cons_of_neg hc⟩
  rw [spanDigits, List.span_eq_takeWhile_dropWhile, List.takeWhile_append_of_pos hds,
    List.dropWhile_append_of_pos hds, htake.1, htake.2, List.append_nil]

/-- More digits make a number no smaller. -/
private theorem le_ofDigitChars (acc : Nat) (ds : List Char) : acc ≤ Nat.ofDigitChars 10 ds acc := by
  rw [Nat.ofDigitChars_eq_ofDigitChars_zero]
  have hpow : 0 < 10 ^ ds.length := Nat.pow_pos (by decide)
  exact Nat.le_trans (Nat.le_mul_of_pos_left acc hpow) (Nat.le_add_right _ _)

/-- All digits are taken up while 64 bits hold the number. -/
private theorem appendDigits_eq {acc : Nat} (taken : Nat)
    (h : Nat.ofDigitChars 10 ds acc < UInt64.size) :
    appendDigits acc taken ds = (Nat.ofDigitChars 10 ds acc, taken + ds.length) := by
  induction ds generalizing acc taken with
  | nil => rfl
  | cons d ds ih =>
    rw [Nat.ofDigitChars_cons] at h ⊢
    have hfits := Nat.lt_of_le_of_lt (le_ofDigitChars _ _) h
    rw [appendDigits]
    simp only [if_pos hfits]
    rw [ih _ h, List.length_cons, Nat.add_assoc, Nat.add_comm 1]

/-- What ends a numeral is neither a fraction nor an exponent. -/
private theorem readFraction_eq (p : Parts) (hrest : EndsNumeral rest) :
    readFraction p rest = .ok (p, rest) := by
  cases rest with
  | nil => rfl
  | cons c cs =>
    obtain ⟨-, hpoint, he, hE⟩ := hrest c rfl
    simp [readFraction, readExponent, hpoint, he, hE]

/-- A word has no digit in front of its first one, and no zero if there are several. -/
private theorem readParts_toDigits (w : UInt64) (hrest : EndsNumeral rest) :
    readParts (Nat.toDigits 10 w.toNat ++ rest) = .ok (⟨w.toNat, 0, true⟩, rest) := by
  have hproper := Numeral.proper_natural w.toNat
  have hvalue : Nat.ofDigitChars 10 (Nat.toDigits 10 w.toNat) 0 = w.toNat :=
    Nat.ofDigitChars_ten_toDigits
  have htaken := appendDigits_eq 0 (hvalue.symm ▸ w.toNat_lt_size)
  rw [hvalue] at htaken
  rw [readParts, spanDigits_append (digits_toDigits w.toNat) hrest]
  dsimp only
  split
  · rename_i hnil
    exact absurd hnil hproper.ne_nil
  · rename_i hzero
    have hone := hproper.leading (congrArg List.head? hzero)
    rw [Numeral.natural, hzero] at hone
    cases hone
  · rw [htaken]
    simp [readFraction_eq _ hrest]

/-- The digits of a word read back. -/
theorem readNumber_toDigits (w : UInt64) (hrest : EndsNumeral rest) :
    readNumber (Nat.toDigits 10 w.toNat ++ rest) = .ok (.natural w, rest) := by
  have hparts := readParts_toDigits w hrest
  unfold readNumber
  split
  · rename_i hsign
    obtain ⟨d, cs, hdigits, hdigit⟩ := exists_toDigits_append w.toNat rest
    rw [hdigits] at hsign
    rw [(List.cons.inj hsign).1] at hdigit
    exact absurd hdigit (by decide)
  · rw [hparts]
    simp [Parts.number, bind, Except.bind, pure, Except.pure]

end ProofSize.Json
