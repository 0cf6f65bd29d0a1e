import ProofSize.Json.Skip
import ProofSize.Proofs.Json.Reading

/-!
# Passing over JSON values

A value that nobody asks for is not read, so it only has to follow the rules of the grammar: its numbers
may be of any size, and the escapes in its texts may stand for no character. The pass ends where the value
does, however deep it nests.

`Passes cs part rest` says that a text starts with a part of a value and what is left behind it.

## Key results

- `NumberPart.exists_run`: the parts of a numeral lead to a place where it may end
- `PassesText.skip_eq`: a text is passed over up to its closing mark
- `Passes.pass_eq`: a part of a value is passed over, whatever brackets are open around it
- `Passes.skipValue_eq`: a value is passed over
- `Passes.length_lt`: a part of a value takes up characters
-/

namespace ProofSize.Json

/-! ### Values that need not be read -/

/-- What follows an opening quotation mark is a text, and `rest` is left behind the closing mark. A lone
    surrogate may be escaped in it. -/
inductive PassesText : List Char → List Char → Prop
  | done {rest : List Char} : PassesText ('"' :: rest) rest
  | plain {c : Char} {cs rest : List Char} :
      0x20 ≤ c.toNat → c ≠ '"' → c ≠ '\\' → PassesText cs rest → PassesText (c :: cs) rest
  | escape {c d : Char} {cs rest : List Char} :
      escaped? c = some d → PassesText cs rest → PassesText ('\\' :: c :: cs) rest
  | unit {a b c d : Char} {n : Nat} {cs rest : List Char} :
      hexUnit? a b c d = some n → PassesText cs rest →
      PassesText ('\\' :: 'u' :: a :: b :: c :: d :: cs) rest

/-- A part of a value. -/
inductive Part where
  | value
  /-- What follows an item in a list, up to the closing bracket. -/
  | items
  /-- A key and its value. -/
  | member
  /-- What follows a member in a table, up to the closing bracket. -/
  | members

/-- A text starts with a part of a value, and `rest` is left behind it. -/
inductive Passes : List Char → Part → List Char → Prop
  | null {rest : List Char} : Passes ('n' :: 'u' :: 'l' :: 'l' :: rest) .value rest
  | yes {rest : List Char} : Passes ('t' :: 'r' :: 'u' :: 'e' :: rest) .value rest
  | no {rest : List Char} : Passes ('f' :: 'a' :: 'l' :: 's' :: 'e' :: rest) .value rest
  | text {cs rest : List Char} : PassesText cs rest → Passes ('"' :: cs) .value rest
  | number {n : Numeral} {cs rest : List Char} :
      n.Proper → cs = n.text ++ rest → Passes cs .value rest
  | emptyList {cs rest : List Char} : Blanks cs (']' :: rest) → Passes ('[' :: cs) .value rest
  | list {cs cs₁ cs₂ rest : List Char} :
      Blanks cs cs₁ → Passes cs₁ .value cs₂ → Passes cs₂ .items rest → Passes ('[' :: cs) .value rest
  | lastItem {cs rest : List Char} : Blanks cs (']' :: rest) → Passes cs .items rest
  | nextItem {cs cs₁ cs₂ cs₃ rest : List Char} :
      Blanks cs (',' :: cs₁) → Blanks cs₁ cs₂ → Passes cs₂ .value cs₃ → Passes cs₃ .items rest →
      Passes cs .items rest
  | emptyTable {cs rest : List Char} :
      Blanks cs ('\x7d' :: rest) → Passes ('\x7b' :: cs) .value rest
  | table {cs cs₁ cs₂ rest : List Char} :
      Blanks cs cs₁ → Passes cs₁ .member cs₂ → Passes cs₂ .members rest →
      Passes ('\x7b' :: cs) .value rest
  | member {cs cs₁ cs₂ cs₃ rest : List Char} :
      PassesText cs cs₁ → Blanks cs₁ (':' :: cs₂) → Blanks cs₂ cs₃ → Passes cs₃ .value rest →
      Passes ('"' :: cs) .member rest
  | lastMember {cs rest : List Char} : Blanks cs ('\x7d' :: rest) → Passes cs .members rest
  | nextMember {cs cs₁ cs₂ cs₃ rest : List Char} :
      Blanks cs (',' :: cs₁) → Blanks cs₁ cs₂ → Passes cs₂ .member cs₃ → Passes cs₃ .members rest →
      Passes cs .members rest

/-! ### Steps of a pass -/

/-- What is left behind a value that stands in open brackets: the rest of these is passed over too. -/
def afterValue : List Bracket → List Char → Except Fault (List Char)
  | [], rest => .ok rest
  | b :: enclosing, rest => skip .separator (b :: enclosing) rest

section Steps

variable {awaited awaited' : Awaited} {enclosing enclosing' : List Bracket} {c : Char}
  {cs rest : List Char}

/-- The pass goes on behind a character that ends no value. -/
theorem skip_of_goOn (h : skipStep awaited enclosing c cs = .goOn awaited' enclosing') :
    skip awaited enclosing (c :: cs) = skip awaited' enclosing' cs := by
  rw [skip_cons, h]

/-- Behind the end of a value, the pass goes on with the brackets around it. -/
theorem skip_of_valueEnds (h : skipStep awaited enclosing c cs = valueEnds enclosing') :
    skip awaited enclosing (c :: cs) = afterValue enclosing' cs := by
  rw [skip_cons, h]
  cases enclosing' <;> rfl

/-- A character on which both passes take the same step leads to the same end. -/
theorem skip_congr (h : skipStep awaited enclosing c cs = skipStep awaited' enclosing' c cs) :
    skip awaited enclosing (c :: cs) = skip awaited' enclosing' (c :: cs) := by
  rw [skip_cons, skip_cons, h]

/-- Blanks are passed over where one of them changes nothing. -/
private theorem skip_blanks
    (hblank : ∀ c cs, isBlank c = true → skipStep awaited enclosing c cs = .goOn awaited enclosing)
    (h : Blanks cs rest) : skip awaited enclosing cs = skip awaited enclosing rest := by
  induction h with
  | none => rfl
  | blank hc _ ih => rw [skip_of_goOn (hblank _ _ hc), ih]

/-- Blanks may stand before a value, a key or a colon, and before the first of several. -/
theorem skip_token_blanks
    (hawaited : awaited ∈ [Awaited.value, .firstItem, .firstKey, .key, .colon]) (h : Blanks cs rest) :
    skip awaited enclosing cs = skip awaited enclosing rest := by
  refine skip_blanks (fun c cs hc => ?_) h
  simp only [List.mem_cons, List.not_mem_nil, or_false] at hawaited
  rcases hawaited with rfl | rfl | rfl | rfl | rfl <;> exact if_pos hc

/-- Blanks may stand before a comma or a closing bracket. -/
theorem skip_separator_blanks {b : Bracket} (h : Blanks cs rest) :
    skip .separator (b :: enclosing) cs = skip .separator (b :: enclosing) rest := by
  refine skip_blanks (fun c cs hc => ?_) h
  simp only [isBlank, Bool.or_eq_true, beq_iff_eq] at hc
  -- a separator is awaited in brackets of either kind
  rcases hc with ((rfl | rfl) | rfl) | rfl <;> cases b <;> rfl

end Steps

/-! ### Numerals -/

namespace NumberPart

/-- The part that characters lead to, if the number goes on with all of them. -/
def run? (p : NumberPart) (cs : List Char) : Option NumberPart := cs.foldlM next? p

/-- The part behind some characters is that behind the first one and then the others. -/
theorem run?_cons (p : NumberPart) (c : Char) (cs : List Char) :
    p.run? (c :: cs) = (p.next? c).bind (run? · cs) := rfl

/-- Characters are followed one part after another. -/
theorem run?_append {p q : NumberPart} {cs : List Char} (h : p.run? cs = some q) (ds : List Char) :
    p.run? (cs ++ ds) = q.run? ds := by
  rw [run?] at h
  rw [run?, List.foldlM_append, h]
  rfl

/-- Digits go on with the digits before the point. -/
private theorem next?_integer {c : Char} (hc : c.isDigit = true) : integer.next? c = some integer :=
  if_pos hc

/-- Digits go on with the digits behind the point. -/
private theorem next?_fraction {c : Char} (hc : c.isDigit = true) : fraction.next? c = some fraction :=
  if_pos hc

/-- Digits go on with the digits of an exponent. -/
private theorem next?_exponent {c : Char} (hc : c.isDigit = true) : exponent.next? c = some exponent :=
  if_pos hc

/-- Digits do not leave a part that goes on with every digit. -/
private theorem run?_digits {p : NumberPart} (hp : ∀ c, c.isDigit = true → p.next? c = some p)
    {ds : List Char} (hds : Digits ds) : p.run? ds = some p := by
  induction ds with
  | nil => rfl
  | cons d ds ih =>
    rw [run?_cons, hp d (hds d List.mem_cons_self), Option.bind_some]
    exact ih fun c hc => hds c (List.mem_cons_of_mem d hc)

/-- Digits lead to a part that goes on with every digit, if the first one does. -/
private theorem run?_digits_of_ne_nil {p q : NumberPart}
    (hp : ∀ c, c.isDigit = true → p.next? c = some q) (hq : ∀ c, c.isDigit = true → q.next? c = some q)
    {ds : List Char} (hne : ds ≠ []) (hds : Digits ds) : p.run? ds = some q := by
  obtain ⟨d, ds, rfl⟩ := List.exists_cons_of_ne_nil hne
  rw [run?_cons, hp d (hds d List.mem_cons_self), Option.bind_some]
  exact run?_digits hq fun c hc => hds c (List.mem_cons_of_mem d hc)

variable {n : Numeral}

/-- The digits before the point. -/
private theorem run?_whole (hn : n.Proper) :
    sign.run? n.whole = some zero ∨ sign.run? n.whole = some integer := by
  obtain ⟨d, ds, hwhole⟩ := List.exists_cons_of_ne_nil hn.ne_nil
  have hdigits : Digits (d :: ds) := hwhole ▸ hn.whole
  have hleading := hn.leading
  rw [hwhole] at hleading ⊢
  -- a zero at the start stands alone
  by_cases hd : d = '0'
  · subst hd
    rw [(List.cons.inj (hleading rfl)).2]
    exact .inl rfl
  · have hdigit := hdigits d List.mem_cons_self
    have hloop : integer.run? ds = some integer :=
      run?_digits (fun _ => next?_integer) fun c hc => hdigits c (List.mem_cons_of_mem d hc)
    refine .inr ?_
    rw [run?_cons, next?, if_neg hd, if_pos hdigit, Option.bind_some, hloop]

/-- The point and the digits behind it. -/
private theorem run?_fraction (hn : n.Proper) {p : NumberPart} (hp : p = zero ∨ p = integer) :
    p.run? n.fractionText = some p ∨ p.run? n.fractionText = some fraction := by
  unfold Numeral.fractionText
  split
  · exact .inl rfl
  · rename_i hne
    have hpoint : p.next? '.' = some point := by
      rcases hp with rfl | rfl <;> rfl
    refine .inr ?_
    rw [run?_cons, hpoint, Option.bind_some]
    have hfirst : ∀ c, c.isDigit = true → point.next? c = some fraction := fun c hc => if_pos hc
    exact run?_digits_of_ne_nil hfirst (fun _ => next?_fraction) hne hn.fraction

/-- The power of ten, with its sign. -/
private theorem run?_power {w : Power} (hw : w.Proper) {p : NumberPart}
    (hp : p = zero ∨ p = integer ∨ p = fraction) : p.run? w.text = some exponent := by
  have hmark : p.next? w.mark = some exponentMark := by
    rcases hp with rfl | rfl | rfl <;> rcases hw.mark with hmark | hmark <;> rw [hmark] <;> rfl
  rw [Power.text, run?_cons, hmark, Option.bind_some]
  -- the digits follow the mark, or a sign behind it
  cases hsign : w.sign with
  | none =>
    refine run?_digits_of_ne_nil (fun c hc => ?_) (fun _ => next?_exponent) hw.ne_nil hw.digits
    have hnot : ¬(c = '+' ∨ c = '-') := by
      rintro (rfl | rfl) <;> exact absurd hc (by decide)
    rw [next?, if_neg hnot, if_pos hc]
  | some s =>
    have hs : exponentMark.next? s = some exponentSign := if_pos (hw.sign s hsign)
    have hfirst : ∀ c, c.isDigit = true → exponentSign.next? c = some exponent := fun c hc => if_pos hc
    rw [Option.toList_some, List.singleton_append, run?_cons, hs, Option.bind_some]
    exact run?_digits_of_ne_nil hfirst (fun _ => next?_exponent) hw.ne_nil hw.digits

/-- A numeral leads from its first digit to a part where it may end. -/
theorem exists_run (hn : n.Proper) :
    ∃ p, sign.run? (n.whole ++ (n.fractionText ++ n.powerText)) = some p ∧ p.isComplete = true := by
  obtain ⟨p, hp, hwhole⟩ : ∃ p, (p = zero ∨ p = integer) ∧ sign.run? n.whole = some p := by
    rcases run?_whole hn with h | h
    · exact ⟨zero, .inl rfl, h⟩
    · exact ⟨integer, .inr rfl, h⟩
  -- without a fraction the number stays in the part before the point
  obtain ⟨q, hq, hfraction⟩ :
      ∃ q, (q = zero ∨ q = integer ∨ q = fraction) ∧ p.run? n.fractionText = some q := by
    rcases run?_fraction hn hp with h | h
    · exact ⟨p, hp.imp_right .inl, h⟩
    · exact ⟨fraction, .inr (.inr rfl), h⟩
  rw [run?_append hwhole, run?_append hfraction]
  unfold Numeral.powerText
  split
  · refine ⟨q, rfl, ?_⟩
    rcases hq with rfl | rfl | rfl <;> rfl
  · rename_i w hw
    exact ⟨exponent, run?_power (hn.power w hw) hq, rfl⟩

end NumberPart

section Numbers

variable {p q : NumberPart} {enclosing : List Bracket} {cs rest : List Char}

/-- Characters with which a number goes on are passed over. -/
theorem skip_run (h : p.run? cs = some q) :
    skip (.number p) enclosing (cs ++ rest) = skip (.number q) enclosing rest := by
  induction cs generalizing p with
  | nil =>
    obtain rfl := Option.some.inj h
    rfl
  | cons c cs ih =>
    obtain ⟨p', hp', hrun⟩ := Option.bind_eq_some_iff.1 h
    rw [List.cons_append, skip_of_goOn (by rw [skipStep, hp']), ih hrun]

/-- A number ends where it may end and does not go on. -/
theorem skip_ended (hp : p.isComplete = true) (hrest : EndsNumeral rest) :
    skip (.number p) enclosing rest = afterValue enclosing rest := by
  cases rest with
  | nil =>
    cases enclosing with
    | nil => exact if_pos hp
    | cons => exact if_pos hp
  -- no character that ends a numeral goes on with it
  | cons c cs =>
    obtain ⟨hdigit, hpoint, he, hE⟩ := hrest c rfl
    have hnext : p.next? c = none := by
      cases p <;> simp_all [NumberPart.isComplete, NumberPart.next?]
    have hstep : skipStep (.number p) enclosing c cs = separate enclosing c := by
      rw [skipStep, hnext]
      exact if_pos ⟨hp, fun h => nomatch h.2.symm.trans hdigit⟩
    cases enclosing with
    | nil =>
      have hended : separate [] c = .endedBefore := by
        unfold separate
        split <;> simp_all
      rw [skip_cons, hstep, hended]
      rfl
    | cons b enclosing => exact skip_congr hstep

/-- A numeral without its sign is passed over. -/
private theorem skip_unsigned {n : Numeral} (hn : n.Proper) (hrest : EndsNumeral rest) :
    skip (.number .sign) enclosing (n.whole ++ (n.fractionText ++ n.powerText) ++ rest) =
      afterValue enclosing rest := by
  obtain ⟨p, hrun, hp⟩ := NumberPart.exists_run hn
  rw [skip_run hrun, skip_ended hp hrest]

/-- A digit that starts a value starts a number. -/
private theorem skip_digit {d : Char} (hd : d.isDigit = true) :
    skip .value enclosing (d :: cs) = skip (.number .sign) enclosing (d :: cs) := by
  apply skip_congr
  by_cases hzero : d = '0'
  · subst hzero
    rfl
  · have hvisible : ¬isBlank d = true := by simp [isBlank_of_numeral (.inr hd)]
    have hstart : startValue enclosing d = .goOn (.number .integer) enclosing := by
      unfold startValue
      split <;> first | exact absurd hd (by decide) | exact absurd rfl hzero | exact if_pos hd
    have hnext : NumberPart.sign.next? d = some .integer := by
      rw [NumberPart.next?, if_neg hzero, if_pos hd]
    rw [skipStep, if_neg hvisible, hstart, skipStep, hnext]

/-- A numeral is passed over, with its sign or without. -/
theorem skip_numeral {n : Numeral} (hn : n.Proper) (hrest : EndsNumeral rest) :
    skip .value enclosing (n.text ++ rest) = afterValue enclosing rest := by
  rw [← skip_unsigned hn hrest]
  unfold Numeral.text
  -- a minus leads to the same part as the start of a number
  cases n.negative with
  | true => exact skip_of_goOn rfl
  | false =>
    obtain ⟨d, ds, hwhole⟩ := List.exists_cons_of_ne_nil hn.ne_nil
    have hd : d.isDigit = true := hn.whole d (hwhole ▸ List.mem_cons_self)
    rw [hwhole]
    exact skip_digit hd

end Numbers

/-! ### Texts -/

/-- Hexadecimal digits are no control characters, and neither marks nor backslashes. -/
private theorem plain_of_hexDigit {c : Char} {v : Nat} (h : hexDigit? c = some v) :
    0x20 ≤ c.toNat ∧ c ≠ '"' ∧ c ≠ '\\' := by
  have hcode : '0'.toNat ≤ c.toNat ∧ c.toNat ≠ '\\'.toNat := by
    -- digits, small and capital letters lie in three ranges, away from the backslash
    unfold hexDigit? at h
    split at h
    · rename_i hdigit
      obtain ⟨hlo, hhi⟩ := Char.isDigit_iff_toNat.1 hdigit
      exact ⟨hlo, Nat.ne_of_lt (Nat.lt_of_le_of_lt hhi (by decide))⟩
    · split at h
      · rename_i hletter
        have hlo : 'a'.toNat ≤ c.toNat := hletter.1
        exact ⟨Nat.le_trans (by decide) hlo, Nat.ne_of_gt (Nat.lt_of_lt_of_le (by decide) hlo)⟩
      · split at h
        · rename_i hletter
          have hlo : 'A'.toNat ≤ c.toNat := hletter.1
          have hhi : c.toNat ≤ 'F'.toNat := hletter.2
          exact ⟨Nat.le_trans (by decide) hlo, Nat.ne_of_lt (Nat.lt_of_le_of_lt hhi (by decide))⟩
        · exact nomatch h
  refine ⟨Nat.le_trans (by decide) hcode.1, ?_, fun hc => hcode.2 (congrArg Char.toNat hc)⟩
  rintro rfl
  exact absurd hcode.1 (by decide)

/-- A character that needs no escape is passed over in a text. -/
private theorem skip_plain {c : Char} {isKey : Bool} {enclosing : List Bracket} {cs : List Char}
    (hcontrol : 0x20 ≤ c.toNat) (hquote : c ≠ '"') (hslash : c ≠ '\\') :
    skip (.text isKey) enclosing (c :: cs) = skip (.text isKey) enclosing cs := by
  refine skip_of_goOn ?_
  rw [skipStep, textStep, if_neg hquote, if_neg hslash, if_neg (Nat.not_lt.2 hcontrol)]

/-- A hexadecimal digit is passed over in a text like any other character. -/
private theorem skip_hexDigit {c : Char} {v : Nat} (h : hexDigit? c = some v) {isKey : Bool}
    {enclosing : List Bracket} {cs : List Char} :
    skip (.text isKey) enclosing (c :: cs) = skip (.text isKey) enclosing cs := by
  obtain ⟨hcontrol, hquote, hslash⟩ := plain_of_hexDigit h
  exact skip_plain hcontrol hquote hslash

/-- Four hexadecimal digits behind a backslash and a `u` are passed over. -/
private theorem skip_unit {a b c d : Char} {n : Nat} (h : hexUnit? a b c d = some n) {isKey : Bool}
    {enclosing : List Bracket} {cs : List Char} :
    skip (.text isKey) enclosing ('\\' :: 'u' :: a :: b :: c :: d :: cs) =
      skip (.text isKey) enclosing cs := by
  have hstep : skipStep (.escape isKey) enclosing 'u' (a :: b :: c :: d :: cs) =
      .goOn (.text isKey) enclosing := by
    rw [skipStep, escapeStep, if_pos rfl, unitFollows, h]
    rfl
  simp only [hexUnit?, bind, Option.bind_eq_some_iff] at h
  obtain ⟨va, ha, vb, hb, vc, hc, vd, hd, -⟩ := h
  change skip (.escape isKey) enclosing _ = _
  rw [skip_of_goOn hstep, skip_hexDigit ha, skip_hexDigit hb, skip_hexDigit hc, skip_hexDigit hd]

/-- A text is passed over up to its closing mark. -/
theorem PassesText.skip_eq {cs rest : List Char} (h : PassesText cs rest) (isKey : Bool)
    (enclosing : List Bracket) : skip (.text isKey) enclosing cs =
      if isKey then skip .colon enclosing rest else afterValue enclosing rest := by
  -- behind the closing mark a colon is awaited for a key, and the end of a value otherwise
  induction h with
  | done =>
    cases isKey with
    | true => exact skip_of_goOn rfl
    | false => exact skip_of_valueEnds rfl
  | plain hcontrol hquote hslash _ ih => rw [skip_plain hcontrol hquote hslash, ih]
  | @escape c d cs rest hd _ ih =>
    have hu : c ≠ 'u' := by
      rintro rfl
      exact nomatch hd
    have hstep : skipStep (.escape isKey) enclosing c cs = .goOn (.text isKey) enclosing := by
      rw [skipStep, escapeStep, if_neg hu, hd]
      rfl
    rw [← ih]
    change skip (.escape isKey) enclosing (c :: cs) = _
    rw [skip_of_goOn hstep]
  | unit hn _ ih => rw [skip_unit hn, ih]

/-! ### Values -/

/-- What is passed over to pass over the part, with brackets open around it. -/
def Part.pass : Part → List Bracket → List Char → Except Fault (List Char)
  | value, enclosing => skip .value enclosing
  | items, enclosing => skip .separator (.list :: enclosing)
  | member, enclosing => skip .key enclosing
  | members, enclosing => skip .separator (.table :: enclosing)

section Values

variable {cs rest : List Char}

/-- What follows an item ends a numeral. -/
theorem Passes.endsNumeral_items (h : Passes cs .items rest) : EndsNumeral cs := by
  cases h with
  | lastItem hblanks | nextItem hblanks => exact hblanks.endsNumeral (.of_cons (by decide))

/-- What follows a member ends a numeral. -/
theorem Passes.endsNumeral_members (h : Passes cs .members rest) : EndsNumeral cs := by
  cases h with
  | lastMember hblanks | nextMember hblanks => exact hblanks.endsNumeral (.of_cons (by decide))

/-- A first item is passed over like any other value. -/
private theorem skip_firstItem (h : Passes cs .value rest) (enclosing : List Bracket) :
    skip .firstItem enclosing cs = skip .value enclosing cs := by
  -- no value starts with a blank or a closing bracket
  have hhead : ∃ c cs', cs = c :: cs' ∧ isBlank c = false ∧ c ≠ ']' := by
    cases h with
    | null | yes | no | text | emptyList | list | emptyTable | table =>
      exact ⟨_, _, rfl, rfl, by decide⟩
    | number hn hcs =>
      obtain ⟨c, cs', hc, hhead⟩ := Numeral.head_text hn rest
      exact ⟨c, cs', hcs.trans hc, isBlank_of_numeral hhead⟩
  obtain ⟨c, cs', rfl, hblank, hclose⟩ := hhead
  apply skip_congr
  simp only [skipStep, hblank, Bool.false_eq_true, ↓reduceIte, if_neg hclose]

/-- A first member is passed over like any other. -/
private theorem skip_firstKey (h : Passes cs .member rest) (enclosing : List Bracket) :
    skip .firstKey enclosing cs = skip .key enclosing cs := by
  cases h with
  | member => exact skip_congr rfl

/-- A part of a value is passed over up to where it ends, if no numeral is cut. -/
theorem Passes.pass_eq {part : Part} (h : Passes cs part rest) (hrest : EndsNumeral rest)
    (enclosing : List Bracket) : part.pass enclosing cs = afterValue enclosing rest := by
  -- a list or table opens a bracket, in which its items are passed over
  induction h generalizing enclosing with
  | null | yes | no => cases enclosing <;> rfl
  | text hs =>
    change skip (.text false) enclosing _ = _
    exact hs.skip_eq false enclosing
  | number hn hcs =>
    subst hcs
    exact skip_numeral hn hrest
  | emptyList hclose =>
    change skip .firstItem (.list :: enclosing) _ = _
    rw [skip_token_blanks (by decide) hclose, skip_of_valueEnds rfl]
    rfl
  | list hblanks hitem hitems ihitem ihitems =>
    change skip .firstItem (.list :: enclosing) _ = _
    rw [skip_token_blanks (by decide) hblanks, skip_firstItem hitem]
    exact (ihitem hitems.endsNumeral_items _).trans (ihitems hrest enclosing)
  | lastItem hclose =>
    rw [Part.pass, skip_separator_blanks hclose, skip_of_valueEnds rfl]
  | nextItem hcomma hblanks _ hitems ihitem ihitems =>
    rw [Part.pass, skip_separator_blanks hcomma]
    change skip .value (.list :: enclosing) _ = _
    rw [skip_token_blanks (by decide) hblanks]
    exact (ihitem hitems.endsNumeral_items _).trans (ihitems hrest enclosing)
  | emptyTable hclose =>
    change skip .firstKey (.table :: enclosing) _ = _
    rw [skip_token_blanks (by decide) hclose, skip_of_valueEnds rfl]
    rfl
  | table hblanks hmember hmembers ihmember ihmembers =>
    change skip .firstKey (.table :: enclosing) _ = _
    rw [skip_token_blanks (by decide) hblanks, skip_firstKey hmember]
    exact (ihmember hmembers.endsNumeral_members _).trans (ihmembers hrest enclosing)
  | member hkey hcolon hblanks _ ihvalue =>
    change skip (.text true) enclosing _ = _
    rw [hkey.skip_eq true, if_pos rfl, skip_token_blanks (by decide) hcolon]
    change skip .value enclosing _ = _
    rw [skip_token_blanks (by decide) hblanks]
    exact ihvalue hrest enclosing
  | lastMember hclose =>
    rw [Part.pass, skip_separator_blanks hclose, skip_of_valueEnds rfl]
  | nextMember hcomma hblanks _ hmembers ihmember ihmembers =>
    rw [Part.pass, skip_separator_blanks hcomma]
    change skip .key (.table :: enclosing) _ = _
    rw [skip_token_blanks (by decide) hblanks]
    exact (ihmember hmembers.endsNumeral_members _).trans (ihmembers hrest enclosing)

/-- The characters of a text and its closing mark are behind the pass. -/
theorem PassesText.length_lt (h : PassesText cs rest) : rest.length < cs.length := by
  induction h with
  | done => exact Nat.lt_succ_self _
  | plain | escape | unit =>
    simp only [List.length_cons]
    omega

/-- A part of a value takes up characters. -/
theorem Passes.length_lt {part : Part} (h : Passes cs part rest) : rest.length < cs.length := by
  induction h with
  | null | yes | no =>
    simp only [List.length_cons]
    omega
  | text hs => exact Nat.lt_succ_of_lt hs.length_lt
  | @number n _ rest hn hcs =>
    obtain ⟨c, cs', hhead, -⟩ := Numeral.head_text hn []
    rw [List.append_nil] at hhead
    rw [hcs, hhead, List.length_append, List.length_cons]
    omega
  -- the closing bracket is a character more
  | emptyList hclose | emptyTable hclose | lastItem hclose | lastMember hclose =>
    have hclose := hclose.length_le
    simp only [List.length_cons] at hclose ⊢
    omega
  | list hblanks _ _ ihfirst ihothers | table hblanks _ _ ihfirst ihothers =>
    have hblanks := hblanks.length_le
    rw [List.length_cons]
    omega
  | nextItem hcomma hblanks _ _ ihfirst ihothers | nextMember hcomma hblanks _ _ ihfirst ihothers =>
    have hcomma := hcomma.length_le
    have hblanks := hblanks.length_le
    rw [List.length_cons] at hcomma
    omega
  | member hkey hcolon hblanks _ ihvalue =>
    have hkey := hkey.length_lt
    have hcolon := hcolon.length_le
    have hblanks := hblanks.length_le
    rw [List.length_cons] at hcolon ⊢
    omega

/-- A value is passed over up to where it ends. -/
theorem Passes.skipValue_eq (h : Passes cs .value rest) (hrest : EndsNumeral rest) :
    skipValue cs = .ok rest :=
  h.pass_eq hrest []

end Values

end ProofSize.Json
