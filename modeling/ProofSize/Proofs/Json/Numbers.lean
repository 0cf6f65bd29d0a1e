import Mathlib.Data.List.Basic
import ProofSize.Binary64.Text
import ProofSize.Proofs.Json.Grammar

/-!
# Numbers as numerals

A natural number is written with its digits. A finite number is written with its shortest decimal, as
a layout says: positionally, with zeros where the digits do not reach, or with an exponent. Either way
the text is a numeral by the rules of the grammar, and the number nearest to what the numeral stands
for is the number that was written.

## Key results

- `Numeral.proper_natural`, `text_natural`, `document_natural`: a natural number as a numeral
- `Numeral.proper_decimal`, `text_decimal`, `value_decimal`: a decimal as a numeral, in every layout
- `Numeral.value_finite`: the numeral of a finite number reads back as the number
-/

namespace ProofSize.Json

open Binary64 (Layout Magnitude Scientific)

/-- The number nearest to what the numeral stands for. -/
def Numeral.value (n : Numeral) : Binary64 := .ofDecimal n.negative n.digits n.exponent

/-! ### Digits -/

/-- A number is written with decimal digits. -/
theorem digits_toDigits (n : Nat) : Digits (Nat.toDigits 10 n) :=
  fun _ hc => Nat.isDigit_of_mem_toDigits (by decide) (by decide) hc

/-- Zeros are digits. -/
theorem digits_zeros (k : Nat) : Digits (List.replicate k '0') := by
  intro c hc
  rw [List.eq_of_mem_replicate hc]
  rfl

/-- Digits behind digits are digits. -/
theorem Digits.append {cs ds : List Char} (hcs : Digits cs) (hds : Digits ds) : Digits (cs ++ ds) := by
  intro c hc
  rcases List.mem_append.1 hc with hc | hc
  · exact hcs c hc
  · exact hds c hc

/-- The first ones of some digits are digits. -/
theorem Digits.take {ds : List Char} (h : Digits ds) (k : Nat) : Digits (ds.take k) :=
  fun c hc => h c (List.mem_of_mem_take hc)

/-- The last ones of some digits are digits. -/
theorem Digits.drop {ds : List Char} (h : Digits ds) (k : Nat) : Digits (ds.drop k) :=
  fun c hc => h c (List.mem_of_mem_drop hc)

/-- Zeros before the digits do not count. -/
theorem ofDigitChars_zeros_append (k : Nat) (ds : List Char) :
    Nat.ofDigitChars 10 (List.replicate k '0' ++ ds) 0 = Nat.ofDigitChars 10 ds 0 := by
  rw [Nat.ofDigitChars_append, Nat.ofDigitChars_replicate_zero, Nat.mul_zero]

/-- Each zero behind the digits counts ten times. -/
theorem ofDigitChars_append_zeros (ds : List Char) (k : Nat) :
    Nat.ofDigitChars 10 (ds ++ List.replicate k '0') 0 = Nat.ofDigitChars 10 ds 0 * Nat.pow 10 k := by
  rw [Nat.ofDigitChars_append, Nat.ofDigitChars_replicate_zero, Nat.mul_comm]
  rfl

/-- A number other than zero starts with no zero. -/
theorem head?_toDigits {n : Nat} (hn : 0 < n) : (Nat.toDigits 10 n).head? ≠ some '0' := by
  induction n using Nat.strongRecOn with
  | ind n ih =>
    rw [Nat.toDigits_eq_if (by decide)]
    split
    -- a single digit is the number itself
    · rename_i hlt
      intro h
      have hzero : Nat.ofDigitChars 10 (Nat.toDigits 10 n) 0 = Nat.ofDigitChars 10 ['0'] 0 := by
        rw [Nat.toDigits_of_lt_base hlt, Option.some.inj h]
      rw [Nat.ofDigitChars_ten_toDigits] at hzero
      exact absurd hzero (Nat.ne_of_gt hn)
    -- the first digit is that of the tenth part
    · rename_i hge
      have hdiv : 0 < n / 10 := by omega
      rw [List.head?_append_of_ne_nil _ Nat.toDigits_ne_nil]
      exact ih (n / 10) (by omega) hdiv

/-! ### Natural numbers -/

namespace Numeral

/-- A natural number is written with its digits. -/
def natural (n : Nat) : Numeral := ⟨false, Nat.toDigits 10 n, [], none⟩

/-- The digits of a natural number are a numeral, without a sign, point or exponent. -/
theorem proper_natural (n : Nat) : (natural n).Proper where
  ne_nil := Nat.toDigits_ne_nil
  whole := digits_toDigits n
  leading := by
    intro h
    rcases Nat.eq_zero_or_pos n with rfl | hn
    · rfl
    · exact absurd h (head?_toDigits hn)
  fraction := fun _ hc => nomatch hc
  power := fun _ hp => nomatch hp

/-- The numeral of a natural number is its digits. -/
@[simp] theorem text_natural (n : Nat) : (natural n).text = Nat.toDigits 10 n := by
  simp [natural, text, fractionText, powerText]

/-- The numeral of a natural number stands for the number. -/
@[simp] theorem document_natural (n : Nat) : (natural n).document = .number false n 0 := by
  simp [natural, document, digits, exponent, Nat.ofDigitChars_ten_toDigits]

end Numeral

/-! ### Decimals -/

/-- Digits that show a number other than zero, from its first significant digit on. -/
structure Significant (ds : List Char) : Prop where
  ne_nil : ds ≠ []
  digits : Digits ds
  leading : ds.head? ≠ some '0'

/-- Digits at their places, the first one at `place`. -/
def Numeral.positional (negative : Bool) (ds : List Char) (place : Int) : Numeral :=
  if place < 0 then ⟨negative, ['0'], List.replicate (-place - 1).toNat '0' ++ ds, none⟩
  else
    let whole := place.toNat + 1
    let fraction := ds.drop whole
    ⟨negative, ds.take whole ++ List.replicate (whole - ds.length) '0',
      if fraction = [] then ['0'] else fraction, none⟩

/-- Digits with a power of ten, the first one before the point. -/
def Numeral.exponential (negative : Bool) (ds : List Char) (place : Int) : Numeral :=
  ⟨negative, ds.take 1, ds.drop 1,
    some ⟨'e', some (if place < 0 then '-' else '+'), Nat.toDigits 10 place.natAbs⟩⟩

section Digits

variable {ds : List Char}

/-- The sign of a number, where it is written. -/
def signText (negative : Bool) : List Char := if negative then ['-'] else []

/-- The positional numeral is what the layout writes. -/
theorem text_positional (hne : ds ≠ []) (negative : Bool) (place : Int) :
    (Numeral.positional negative ds place).text =
      signText negative ++ Layout.positional ds place := by
  unfold Numeral.positional Layout.positional Numeral.text
  -- the point stands before all digits, or among or behind them
  split
  · have hfraction : List.replicate (-place - 1).toNat '0' ++ ds ≠ [] := by simp [hne]
    simp only [Numeral.fractionText, Numeral.powerText, if_neg hfraction, List.append_nil, signText,
      List.cons_append, List.nil_append]
  · have hfraction : (if ds.drop (place.toNat + 1) = [] then ['0']
        else ds.drop (place.toNat + 1)) ≠ [] := by
      split
      · exact List.cons_ne_nil _ _
      · assumption
    simp only [Numeral.fractionText, Numeral.powerText, if_neg hfraction, List.append_nil, signText]

/-- The numeral with an exponent is what the layout writes. -/
theorem text_exponential (hne : ds ≠ []) (negative : Bool) (place : Int) :
    (Numeral.exponential negative ds place).text =
      signText negative ++ Layout.exponential ds place := by
  obtain ⟨d, ds, rfl⟩ := List.exists_cons_of_ne_nil hne
  unfold Numeral.exponential Layout.exponential Numeral.text Numeral.fractionText Numeral.powerText
  cases ds with
  | nil => simp [Power.text, signText]
  | cons e ds => simp [Power.text, signText]

/-- Digits at their places are a numeral. -/
theorem proper_positional (hds : Significant ds) (negative : Bool) (place : Int) :
    (Numeral.positional negative ds place).Proper := by
  unfold Numeral.positional
  split
  · exact {
      ne_nil := List.cons_ne_nil _ _
      whole := digits_zeros 1
      leading := fun _ => rfl
      fraction := (digits_zeros _).append hds.digits
      power := fun _ hp => nomatch hp }
  · have htake : ds.take (place.toNat + 1) ≠ [] := by simp [hds.ne_nil]
    exact {
      ne_nil := by simp [hds.ne_nil]
      whole := (hds.digits.take _).append (digits_zeros _)
      -- the whole part starts with the first significant digit
      leading := by
        intro h
        dsimp only at h
        rw [List.head?_append_of_ne_nil _ htake, List.head?_take, if_neg (by omega)] at h
        exact absurd h hds.leading
      fraction := by
        dsimp only
        split
        · exact digits_zeros 1
        · exact hds.digits.drop _
      power := fun _ hp => nomatch hp }

/-- Digits with a power of ten are a numeral. -/
theorem proper_exponential (hds : Significant ds) (negative : Bool) (place : Int) :
    (Numeral.exponential negative ds place).Proper where
  ne_nil := by simp [Numeral.exponential, hds.ne_nil]
  whole := hds.digits.take _
  -- the first digit of significant ones is not zero
  leading := by
    intro h
    unfold Numeral.exponential at h
    rw [List.head?_take, if_neg (by decide)] at h
    exact absurd h hds.leading
  fraction := hds.digits.drop _
  power := by
    intro p hp
    obtain rfl := Option.some.inj hp
    exact {
      mark := .inl rfl
      sign := by
        intro c hc
        obtain rfl := Option.some.inj hc
        split <;> simp
      ne_nil := Nat.toDigits_ne_nil
      digits := digits_toDigits _ }

/-- The zeros that fill up the places, and the one behind the point, do not change the number. -/
theorem value_positional (negative : Bool) (ds : List Char) (place : Int) :
    (Numeral.positional negative ds place).value =
      .ofDecimal negative (Nat.ofDigitChars 10 ds 0) (place + 1 - ds.length) := by
  unfold Numeral.positional Numeral.value Numeral.digits Numeral.exponent
  split
  · dsimp only
    -- all digits stand behind the point, and behind zeros
    have hdigits : ['0'] ++ (List.replicate (-place - 1).toNat '0' ++ ds) =
        List.replicate ((-place - 1).toNat + 1) '0' ++ ds := by
      rw [List.replicate_succ]
      rfl
    rw [hdigits, ofDigitChars_zeros_append]
    congr 1
    simp only [List.length_append, List.length_replicate]
    omega
  · dsimp only
    by_cases hshort : ds.length ≤ place.toNat + 1
    · -- all digits stand before the point
      rw [List.drop_eq_nil_of_le hshort, if_pos rfl, List.take_of_length_le hshort,
        List.append_assoc, show ['0'] = List.replicate 1 '0' from rfl, List.replicate_append_replicate,
        ofDigitChars_append_zeros, Binary64.ofDecimal_mul_pow]
      congr 1
      simp only [List.length_replicate]
      omega
    -- the point stands among the digits, which are put together again
    · have hfraction : ds.drop (place.toNat + 1) ≠ [] := by
        intro h
        exact hshort (List.drop_eq_nil_iff.1 h)
      rw [if_neg hfraction, Nat.sub_eq_zero_of_le (by omega), List.replicate_zero, List.append_nil,
        List.take_append_drop]
      congr 1
      simp only [List.length_drop]
      omega

/-- The numeral with an exponent stands for the same number as the digits at their places. -/
theorem value_exponential (hne : ds ≠ []) (negative : Bool) (place : Int) :
    (Numeral.exponential negative ds place).value =
      .ofDecimal negative (Nat.ofDigitChars 10 ds 0) (place + 1 - ds.length) := by
  have hpos : 0 < ds.length := List.length_pos_iff.2 hne
  have hpower : (Power.mk 'e' (some (if place < 0 then '-' else '+'))
      (Nat.toDigits 10 place.natAbs)).value = place := by
    rw [Power.value, Nat.ofDigitChars_ten_toDigits]
    by_cases hneg : place < 0
    · rw [if_pos hneg, if_pos rfl]
      omega
    · rw [if_neg hneg, if_neg (fun h => nomatch h)]
      omega
  unfold Numeral.exponential Numeral.value Numeral.digits Numeral.exponent
  dsimp only
  rw [List.take_append_drop, hpower, List.length_drop]
  congr 1
  omega

end Digits

/-! ### The digits of a decimal -/

/-- The digits of the decimal without the zeros at their end. -/
def significant (s : Scientific) : List Char :=
  ((Nat.toDigits 10 s.digits).reverse.dropWhile (· == '0')).reverse

/-- The place of the first digit of the decimal. -/
def firstPlace (s : Scientific) : Int := s.exponent + (Nat.toDigits 10 s.digits).length - 1

/-- The digits of a decimal are the significant ones and some zeros. -/
theorem exists_zeros (s : Scientific) :
    ∃ k, Nat.toDigits 10 s.digits = significant s ++ List.replicate k '0' := by
  unfold significant
  generalize Nat.toDigits 10 s.digits = cs
  refine ⟨(cs.reverse.takeWhile (· == '0')).length, ?_⟩
  -- what is taken off at the end is zeros only
  have hzeros : cs.reverse.takeWhile (· == '0') =
      List.replicate (cs.reverse.takeWhile (· == '0')).length '0' := by
    refine List.eq_replicate_iff.2 ⟨rfl, fun c hc => ?_⟩
    exact eq_of_beq (List.all_eq_true.1 List.all_takeWhile c hc)
  have hparts := @List.takeWhile_append_dropWhile _ (· == '0') cs.reverse
  rw [hzeros] at hparts
  simpa only [List.reverse_append, List.reverse_replicate] using List.reverse_eq_iff.1 hparts.symm

/-- The zeros left out count as a power of ten. -/
theorem exists_digits_eq (s : Scientific) :
    ∃ k, s.digits = Nat.ofDigitChars 10 (significant s) 0 * Nat.pow 10 k ∧
      firstPlace s + 1 - (significant s).length = s.exponent + k := by
  obtain ⟨k, hk⟩ := exists_zeros s
  refine ⟨k, ?_, ?_⟩
  · rw [← ofDigitChars_append_zeros, ← hk, Nat.ofDigitChars_ten_toDigits]
  · have hlength : (Nat.toDigits 10 s.digits).length = (significant s).length + k := by
      simpa using congrArg List.length hk
    unfold firstPlace
    omega

/-- What is left without the zeros at the end starts with no zero either. -/
theorem significant_of_ne_nil {s : Scientific} (h : significant s ≠ []) :
    Significant (significant s) := by
  obtain ⟨k, hk⟩ := exists_zeros s
  refine ⟨h, ?_, ?_⟩
  · intro c hc
    refine digits_toDigits s.digits c ?_
    rw [hk]
    exact List.mem_append_left _ hc
  -- zero itself has no significant digits
  · have hpos : 0 < s.digits := by
      rcases Nat.eq_zero_or_pos s.digits with hzero | hpos
      · exact absurd (by unfold significant; rw [hzero]; decide) h
      · exact hpos
    have hhead := head?_toDigits hpos
    rw [hk, List.head?_append_of_ne_nil _ h] at hhead
    exact hhead

/-! ### Decimals in a layout -/

namespace Numeral

/-- A decimal as the layout writes it. -/
def decimal (layout : Layout) (negative : Bool) (s : Scientific) : Numeral :=
  if significant s = [] then ⟨negative, ['0'], ['0'], none⟩
  else if layout.lowest ≤ firstPlace s ∧ firstPlace s ≤ layout.highest then
    positional negative (significant s) (firstPlace s)
  else exponential negative (significant s) (firstPlace s)

variable (layout : Layout) (negative : Bool) (s : Scientific)

/-- The numeral of a decimal is what the layout writes. -/
theorem text_decimal : (decimal layout negative s).text = signText negative ++ layout.decimal s := by
  change _ = signText negative ++ if significant s = [] then ['0', '.', '0']
    else if layout.lowest ≤ firstPlace s ∧ firstPlace s ≤ layout.highest then
      Layout.positional (significant s) (firstPlace s)
    else Layout.exponential (significant s) (firstPlace s)
  unfold decimal
  split
  · rfl
  · rename_i hne
    split
    · exact text_positional hne negative _
    · exact text_exponential hne negative _

/-- A decimal is a numeral in every layout. -/
theorem proper_decimal : (decimal layout negative s).Proper := by
  unfold decimal
  split
  · exact {
      ne_nil := List.cons_ne_nil _ _
      whole := digits_zeros 1
      leading := fun _ => rfl
      fraction := digits_zeros 1
      power := fun _ hp => nomatch hp }
  · rename_i hne
    split
    · exact proper_positional (significant_of_ne_nil hne) negative _
    · exact proper_exponential (significant_of_ne_nil hne) negative _

/-- The numeral of a decimal stands for the decimal, in every layout. -/
theorem value_decimal :
    (decimal layout negative s).value = .ofDecimal negative s.digits s.exponent := by
  obtain ⟨k, hdigits, hplace⟩ := exists_digits_eq s
  -- the zeros that are left out are made up for by the place of the first digit
  have hvalue : (.ofDecimal negative (Nat.ofDigitChars 10 (significant s) 0)
      (firstPlace s + 1 - (significant s).length) : Binary64) =
      .ofDecimal negative s.digits s.exponent := by
    rw [hplace, hdigits, Binary64.ofDecimal_mul_pow]
  unfold decimal
  split
  -- only zero is written without significant digits
  · rename_i hnil
    have hzero : s.digits = 0 := by
      rw [hdigits, hnil]
      exact Nat.zero_mul _
    rw [hzero]
    exact Binary64.ofDecimal_zero negative _ _
  · rename_i hne
    split
    · exact (value_positional negative _ _).trans hvalue
    · exact (value_exponential hne negative _).trans hvalue

/-- A finite number as the layout writes it. -/
def finite (m : Magnitude) : Numeral := decimal layout negative m.shortest

variable (m : Magnitude)

/-- The numeral of a finite number is what the layout writes. -/
theorem text_finite : (finite layout negative m).text = (layout.finite negative m).toList := by
  rw [finite, text_decimal, Layout.finite, String.toList_ofList, signText]

/-- A finite number is a numeral in every layout. -/
theorem proper_finite : (finite layout negative m).Proper := proper_decimal layout negative _

/-- The numeral of a finite number reads back as the number. -/
theorem value_finite : (finite layout negative m).value = .finite negative m := by
  rw [finite, value_decimal]
  exact Binary64.ofRatio_eq_finite m.shortest_readsBack negative

end Numeral

end ProofSize.Json
