import ProofSize.Proofs.Json.Grammar

/-!
# A text spells one document

The rules of the grammar may be tried in any order, but they agree. Each part ends where the next one
starts: a numeral where no more of it can follow, blanks where something visible follows, and any other
part with its closing mark.

## Key results

- `Numeral.unique`: a numeral ends where no more of it can follow
- `ReadsText.unique`: a text between quotation marks is read in one way
- `Reads.unique`: a text starts with one phrase of a kind
- `Spells.unique`: a text spells one document at most
-/

namespace ProofSize.Json

/-! ### Where a numeral ends -/

/-- No numeral goes on with this text. -/
def EndsNumeral (cs : List Char) : Prop :=
  ∀ c, cs.head? = some c → c.isDigit = false ∧ c ≠ '.' ∧ c ≠ 'e' ∧ c ≠ 'E'

/-- No row of digits goes on with this text. -/
private def EndsDigits (cs : List Char) : Prop := ∀ c, cs.head? = some c → c.isDigit = false

/-- One character decides whether a numeral ends. -/
theorem EndsNumeral.of_cons {c : Char} {cs : List Char}
    (h : c.isDigit = false ∧ c ≠ '.' ∧ c ≠ 'e' ∧ c ≠ 'E') : EndsNumeral (c :: cs) := by
  intro d hd
  obtain rfl := Option.some.inj hd
  exact h

/-- A numeral ends where the text does. -/
theorem endsNumeral_nil : EndsNumeral [] := fun _ h => nomatch h

/-- What ends a numeral ends its digits. -/
private theorem EndsNumeral.endsDigits {cs : List Char} (h : EndsNumeral cs) : EndsDigits cs :=
  fun c hc => (h c hc).1

/-- The digits at the start of a text are found again. -/
private theorem takeWhile_isDigit {ds rest : List Char} (hds : Digits ds) (hrest : EndsDigits rest) :
    (ds ++ rest).takeWhile Char.isDigit = ds := by
  induction ds with
  | nil =>
    cases rest with
    | nil => rfl
    | cons c cs => simp [hrest c rfl]
  | cons d ds ih =>
    have hd := hds d List.mem_cons_self
    simp [hd, ih fun c hc => hds c (List.mem_cons_of_mem d hc)]

/-- Digits end where no more of them follow. -/
private theorem digits_unique {ds ds' rest rest' : List Char} (h : ds ++ rest = ds' ++ rest')
    (hds : Digits ds) (hds' : Digits ds') (hrest : EndsDigits rest) (hrest' : EndsDigits rest') :
    ds = ds' ∧ rest = rest' := by
  have hsame : ds = ds' := by
    rw [← takeWhile_isDigit hds hrest, h, takeWhile_isDigit hds' hrest']
  exact ⟨hsame, List.append_cancel_left (hsame ▸ h)⟩

variable {n n' : Numeral} {p p' : Power} {rest rest' : List Char}

/-- The first of some digits is a digit. -/
private theorem head?_digits {ds : List Char} (hne : ds ≠ []) (hds : Digits ds) :
    ∃ d ds', ds = d :: ds' ∧ d.isDigit = true := by
  obtain ⟨d, ds', rfl⟩ := List.exists_cons_of_ne_nil hne
  exact ⟨d, ds', rfl, hds d List.mem_cons_self⟩

/-- A power of ten ends where no more digits follow. -/
private theorem Power.unique (h : p.text ++ rest = p'.text ++ rest') (hp : p.Proper) (hp' : p'.Proper)
    (hrest : EndsDigits rest) (hrest' : EndsDigits rest') : p = p' ∧ rest = rest' := by
  obtain ⟨mark, sign, digits⟩ := p
  obtain ⟨mark', sign', digits'⟩ := p'
  simp only [Power.text, List.cons_append, List.cons.injEq, List.append_assoc] at h
  obtain ⟨rfl, h⟩ := h
  obtain ⟨d, ds, hd, hdigit⟩ := head?_digits hp.ne_nil hp.digits
  obtain ⟨d', ds', hd', hdigit'⟩ := head?_digits hp'.ne_nil hp'.digits
  dsimp only at hd hd'
  -- a sign is not a digit, so there is one in both or in neither
  have hsign : sign = sign' ∧ digits ++ rest = digits' ++ rest' := by
    have hnot : ∀ s : Char, s = '+' ∨ s = '-' → s.isDigit = false := by
      intro s hs
      rcases hs with rfl | rfl <;> rfl
    cases sign with
    | none =>
      cases sign' with
      | none => exact ⟨rfl, h⟩
      | some s' =>
        have hs' := hnot s' (hp'.sign s' rfl)
        rw [hd] at h
        obtain ⟨rfl, -⟩ := List.cons.inj h
        rw [hdigit] at hs'
        exact nomatch hs'
    | some s =>
      have hs := hnot s (hp.sign s rfl)
      cases sign' with
      | none =>
        rw [hd'] at h
        obtain ⟨rfl, -⟩ := List.cons.inj h
        rw [hdigit'] at hs
        exact nomatch hs
      | some s' =>
        obtain ⟨rfl, htail⟩ := List.cons.inj h
        exact ⟨rfl, htail⟩
  obtain ⟨rfl, htail⟩ := hsign
  obtain ⟨rfl, rfl⟩ := digits_unique htail hp.digits hp'.digits hrest hrest'
  exact ⟨rfl, rfl⟩

/-- A power of ten starts with its mark, and what follows a numeral does not. -/
private theorem powerText_unique {q q' : Option Power}
    (h : (match q with | none => [] | some p => p.text) ++ rest =
      (match q' with | none => [] | some p => p.text) ++ rest')
    (hq : ∀ p ∈ q, p.Proper) (hq' : ∀ p ∈ q', p.Proper)
    (hrest : EndsNumeral rest) (hrest' : EndsNumeral rest') : q = q' ∧ rest = rest' := by
  -- no power of ten starts where a numeral ends
  have hnot : ∀ {p : Power} {rest rest' : List Char}, p.Proper → EndsNumeral rest →
      ¬rest = p.text ++ rest' := by
    intro p rest rest' hp hrest h
    obtain ⟨-, -, he, hE⟩ := hrest p.mark (by rw [h]; rfl)
    rcases hp.mark with hmark | hmark
    · exact he hmark
    · exact hE hmark
  cases q with
  | none =>
    cases q' with
    | none => exact ⟨rfl, h⟩
    | some p' => exact (hnot (hq' p' rfl) hrest h).elim
  | some p =>
    cases q' with
    | none => exact (hnot (hq p rfl) hrest' h.symm).elim
    | some p' =>
      obtain ⟨rfl, hsame⟩ :=
        Power.unique h (hq p rfl) (hq' p' rfl) hrest.endsDigits hrest'.endsDigits
      exact ⟨rfl, hsame⟩

/-- What follows the digits of a numeral starts with no digit. -/
private theorem endsDigits_powerText (hn : n.Proper) (hrest : EndsNumeral rest) :
    EndsDigits (n.powerText ++ rest) ∧ (n.powerText ++ rest).head? ≠ some '.' := by
  unfold Numeral.powerText
  cases hp : n.power with
  | none => exact ⟨hrest.endsDigits, fun h => (hrest '.' h).2.1 rfl⟩
  | some p =>
    have hmark := (hn.power p hp).mark
    constructor
    · intro c hc
      obtain rfl : p.mark = c := Option.some.inj hc
      rcases hmark with h | h <;> rw [h] <;> rfl
    · intro h
      have hdot : p.mark = '.' := Option.some.inj h
      rw [hdot] at hmark
      exact absurd hmark (by decide)

/-- The digits before the point end there. -/
private theorem endsDigits_fractionText (hn : n.Proper) (hrest : EndsNumeral rest) :
    EndsDigits (n.fractionText ++ (n.powerText ++ rest)) := by
  unfold Numeral.fractionText
  split
  · exact (endsDigits_powerText hn hrest).1
  · intro c hc
    obtain rfl : '.' = c := Option.some.inj hc
    rfl

/-- The sign of a numeral is no digit, so there is one in both or in neither. -/
private theorem sign_unique (h : n.text ++ rest = n'.text ++ rest') (hn : n.Proper) (hn' : n'.Proper) :
    n.negative = n'.negative ∧ n.whole ++ (n.fractionText ++ (n.powerText ++ rest)) =
      n'.whole ++ (n'.fractionText ++ (n'.powerText ++ rest')) := by
  simp only [Numeral.text, List.append_assoc] at h
  obtain ⟨d, ds, hd, hdigit⟩ := head?_digits hn.ne_nil hn.whole
  obtain ⟨d', ds', hd', hdigit'⟩ := head?_digits hn'.ne_nil hn'.whole
  -- where one has a sign and the other has not, a digit would be a minus
  cases hneg : n.negative with
  | false =>
    cases hneg' : n'.negative with
    | false => exact ⟨rfl, by simpa [hneg, hneg'] using h⟩
    | true =>
      rw [hneg, hneg', hd] at h
      obtain ⟨rfl, -⟩ := List.cons.inj h
      exact absurd hdigit (by decide)
  | true =>
    cases hneg' : n'.negative with
    | true => exact ⟨rfl, by simpa [hneg, hneg'] using h⟩
    | false =>
      rw [hneg, hneg', hd'] at h
      obtain ⟨rfl, -⟩ := List.cons.inj h
      exact absurd hdigit' (by decide)

/-- What follows the digits behind a point is no point, so there is one in both or in neither. -/
private theorem fraction_unique
    (h : n.fractionText ++ (n.powerText ++ rest) = n'.fractionText ++ (n'.powerText ++ rest'))
    (hn : n.Proper) (hn' : n'.Proper) (hrest : EndsNumeral rest) (hrest' : EndsNumeral rest') :
    n.fraction = n'.fraction ∧ n.powerText ++ rest = n'.powerText ++ rest' := by
  obtain ⟨hends, hdot⟩ := endsDigits_powerText hn hrest
  obtain ⟨hends', hdot'⟩ := endsDigits_powerText hn' hrest'
  unfold Numeral.fractionText at h
  -- where one has a fraction and the other has not, a point would follow the digits
  by_cases hnil : n.fraction = []
  · by_cases hnil' : n'.fraction = []
    · rw [if_pos hnil, if_pos hnil'] at h
      exact ⟨hnil.trans hnil'.symm, h⟩
    · rw [if_pos hnil, if_neg hnil', List.nil_append] at h
      exact absurd (by rw [h]; rfl) hdot
  · by_cases hnil' : n'.fraction = []
    · rw [if_neg hnil, if_pos hnil', List.nil_append] at h
      exact absurd (by rw [← h]; rfl) hdot'
    · rw [if_neg hnil, if_neg hnil'] at h
      exact digits_unique (List.cons.inj h).2 hn.fraction hn'.fraction hends hends'

/-- A numeral ends where no more of it can follow. -/
theorem Numeral.unique (h : n.text ++ rest = n'.text ++ rest') (hn : n.Proper) (hn' : n'.Proper)
    (hrest : EndsNumeral rest) (hrest' : EndsNumeral rest') : n = n' ∧ rest = rest' := by
  obtain ⟨hneg, h⟩ := sign_unique h hn hn'
  obtain ⟨hwhole, h⟩ := digits_unique h hn.whole hn'.whole (endsDigits_fractionText hn hrest)
    (endsDigits_fractionText hn' hrest')
  obtain ⟨hfraction, h⟩ := fraction_unique h hn hn' hrest hrest'
  obtain ⟨hpower, hrest⟩ := powerText_unique h hn.power hn'.power hrest hrest'
  obtain ⟨negative, whole, fraction, power⟩ := n
  obtain ⟨negative', whole', fraction', power'⟩ := n'
  subst hneg hwhole hfraction hpower
  exact ⟨rfl, hrest⟩

/-! ### Texts and blanks -/

/-- A text between quotation marks is read in one way. -/
theorem ReadsText.unique {cs s s' rest rest' : List Char} (h : ReadsText cs s rest)
    (h' : ReadsText cs s' rest') : s = s' ∧ rest = rest' := by
  -- the first character tells the cases apart, and behind a backslash the second one does
  induction h generalizing s' with
  | done =>
    cases h' with
    | done => exact ⟨rfl, rfl⟩
    | plain _ hne _ _ => exact absurd rfl hne
  | plain _ hquote hslash _ ih =>
    cases h' with
    | done => exact absurd rfl hquote
    | plain _ _ _ h' =>
      obtain ⟨rfl, rfl⟩ := ih h'
      exact ⟨rfl, rfl⟩
    | escape | unit | pair => exact absurd rfl hslash
  | escape hd _ ih =>
    cases h' with
    | plain _ _ hslash _ => exact absurd rfl hslash
    | escape hd' h' =>
      obtain ⟨rfl, rfl⟩ := ih h'
      exact ⟨by rw [Option.some.inj (hd.symm.trans hd')], rfl⟩
    | unit | pair => exact nomatch hd
  | unit hn hlead _ _ ih =>
    cases h' with
    | plain _ _ hslash _ => exact absurd rfl hslash
    | escape hd _ => exact nomatch hd
    | unit hn' _ _ h' =>
      obtain ⟨rfl, rfl⟩ := ih h'
      exact ⟨by rw [Option.some.inj (hn.symm.trans hn')], rfl⟩
    | pair hn' hlead' _ _ _ =>
      rw [Option.some.inj (hn.symm.trans hn'), hlead'] at hlead
      exact nomatch hlead
  | pair hn hlead hm _ _ ih =>
    cases h' with
    | plain _ _ hslash _ => exact absurd rfl hslash
    | escape hd _ => exact nomatch hd
    | unit hn' hlead' _ _ =>
      rw [Option.some.inj (hn.symm.trans hn'), hlead'] at hlead
      exact nomatch hlead
    | pair hn' _ hm' _ h' =>
      obtain ⟨rfl, rfl⟩ := ih h'
      exact ⟨by rw [Option.some.inj (hn.symm.trans hn'), Option.some.inj (hm.symm.trans hm')], rfl⟩

/-- The text starts with no blank. -/
def StartsVisibly (cs : List Char) : Prop := ∀ c, cs.head? = some c → isBlank c = false

/-- The first character decides whether a text starts visibly. -/
theorem StartsVisibly.of_cons {c : Char} {cs : List Char} (h : isBlank c = false) :
    StartsVisibly (c :: cs) := by
  intro d hd
  obtain rfl := Option.some.inj hd
  exact h

/-- Blanks end where something visible follows. -/
theorem Blanks.unique {cs rest rest' : List Char} (h : Blanks cs rest) (h' : Blanks cs rest')
    (hrest : StartsVisibly rest) (hrest' : StartsVisibly rest') : rest = rest' := by
  induction h with
  | none =>
    cases h' with
    | none => rfl
    | blank hc _ => exact nomatch hc.symm.trans (hrest _ rfl)
  | blank hc h ih =>
    cases h' with
    | none => exact nomatch hc.symm.trans (hrest' _ rfl)
    | blank _ h' => exact ih h' hrest

/-- The first visible character behind blanks is one only. -/
theorem Blanks.cons_unique {c c' : Char} {cs rest rest' : List Char} (h : Blanks cs (c :: rest))
    (h' : Blanks cs (c' :: rest')) (hc : isBlank c = false) (hc' : isBlank c' = false) :
    c = c' ∧ rest = rest' :=
  List.cons.inj (h.unique h' (.of_cons hc) (.of_cons hc'))

/-- What is left behind blanks does not go on with a numeral, nor does a blank. -/
theorem Blanks.endsNumeral {cs rest : List Char} (h : Blanks cs rest)
    (hrest : EndsNumeral rest) : EndsNumeral cs := by
  cases h with
  | none => exact hrest
  | @blank c _ _ hc _ =>
    refine .of_cons ?_
    simp only [isBlank, Bool.or_eq_true, beq_iff_eq] at hc
    rcases hc with ((rfl | rfl) | rfl) | rfl <;> decide

/-! ### Documents -/

/-- The two phrases may stand at the same place of a document. -/
inductive Phrase.SameKind : Phrase → Phrase → Prop
  | value {d d' : Document} : SameKind (.value d) (.value d')
  | items {ds ds' : List Document} : SameKind (.items ds) (.items ds')
  | member {key key' : String} {d d' : Document} : SameKind (.member key d) (.member key' d')
  | members {ms ms' : List (String × Document)} : SameKind (.members ms) (.members ms')

/-- A numeral starts with the minus sign or a digit. -/
theorem Numeral.head_text (hn : n.Proper) (rest : List Char) :
    ∃ c cs, n.text ++ rest = c :: cs ∧ (c = '-' ∨ c.isDigit = true) := by
  obtain ⟨d, ds, hd, hdigit⟩ := head?_digits hn.ne_nil hn.whole
  unfold text
  cases n.negative with
  | true => exact ⟨'-', _, rfl, .inl rfl⟩
  | false =>
    rw [hd]
    exact ⟨d, _, rfl, .inr hdigit⟩

/-- No numeral starts with another character. -/
private theorem not_numeral {c : Char} {cs : List Char} (hn : n.Proper) (h : c :: cs = n.text ++ rest)
    (hc : c ≠ '-' ∧ c.isDigit = false) : False := by
  obtain ⟨d, ds, hd, hhead⟩ := Numeral.head_text hn rest
  rw [hd] at h
  obtain ⟨rfl, -⟩ := List.cons.inj h
  rcases hhead with hminus | hdigit
  · exact hc.1 hminus
  · exact nomatch hdigit.symm.trans hc.2

/-- A numeral starts neither with a blank nor with a closing bracket. -/
theorem isBlank_of_numeral {c : Char} (hc : c = '-' ∨ c.isDigit = true) :
    isBlank c = false ∧ c ≠ ']' := by
  rcases hc with rfl | hdigit
  · exact ⟨rfl, by decide⟩
  · constructor
    · simp only [isBlank, Bool.or_eq_false_iff, beq_eq_false_iff_ne]
      refine ⟨⟨⟨?_, ?_⟩, ?_⟩, ?_⟩ <;> (rintro rfl; exact absurd hdigit (by decide))
    · rintro rfl
      exact absurd hdigit (by decide)

section Heads

variable {cs rest : List Char}

/-- A value starts with no blank and with no closing bracket. -/
private theorem head_value {d : Document} (h : Reads cs (.value d) rest) :
    ∃ c cs', cs = c :: cs' ∧ isBlank c = false ∧ c ≠ ']' := by
  cases h with
  | null | yes | no | text | emptyList | list | emptyTable | table =>
    exact ⟨_, _, rfl, rfl, by decide⟩
  | number hn hcs =>
    obtain ⟨c, cs', hc, hhead⟩ := Numeral.head_text hn rest
    exact ⟨c, cs', hcs.trans hc, isBlank_of_numeral hhead⟩

/-- A value starts visibly. -/
private theorem startsVisibly_value {d : Document} (h : Reads cs (.value d) rest) :
    StartsVisibly cs := by
  obtain ⟨c, cs', rfl, hc, -⟩ := head_value h
  exact .of_cons hc

/-- A member starts visibly. -/
private theorem startsVisibly_member {key : String} {d : Document}
    (h : Reads cs (.member key d) rest) : StartsVisibly cs := by
  cases h with
  | member => exact .of_cons rfl

/-- No numeral goes on with the rest of a list. -/
private theorem endsNumeral_items {ds : List Document} (h : Reads cs (.items ds) rest) :
    EndsNumeral cs := by
  cases h with
  | lastItem hblanks | nextItem hblanks => exact hblanks.endsNumeral (.of_cons (by decide))

/-- No numeral goes on with the rest of a table. -/
private theorem endsNumeral_members {ms : List (String × Document)}
    (h : Reads cs (.members ms) rest) : EndsNumeral cs := by
  cases h with
  | lastMember hblanks | nextMember hblanks => exact hblanks.endsNumeral (.of_cons (by decide))

/-- A list that is closed at once has no item. -/
private theorem not_value_of_close {cs₁ cs₂ : List Char} {d : Document} (hclose : Blanks cs (']' :: rest))
    (hblanks : Blanks cs cs₁) (hd : Reads cs₁ (.value d) cs₂) : False := by
  obtain ⟨c, cs', rfl, hc, hne⟩ := head_value hd
  exact hne (hclose.cons_unique hblanks rfl hc).1.symm

/-- A table that is closed at once has no member. -/
private theorem not_member_of_close {cs₁ cs₂ : List Char} {key : String} {d : Document}
    (hclose : Blanks cs ('\x7d' :: rest)) (hblanks : Blanks cs cs₁)
    (hmember : Reads cs₁ (.member key d) cs₂) : False := by
  cases hmember with
  | member => exact absurd (hclose.cons_unique hblanks rfl rfl).1 (by decide)

end Heads

/-- The text starts with no other phrase of this kind, if no numeral is cut. -/
private def StartsOnlyWith (cs : List Char) (phrase : Phrase) (rest : List Char) : Prop :=
  ∀ {rest' : List Char} {phrase' : Phrase}, Reads cs phrase' rest' → phrase.SameKind phrase' →
    EndsNumeral rest → EndsNumeral rest' → phrase = phrase' ∧ rest = rest'

/-- An item and those behind it are read in one way if each of them is. -/
private theorem items_unique {cs cs₁ cs₁' : List Char} {d d' : Document} {ds ds' : List Document}
    (hd : StartsOnlyWith cs (.value d) cs₁) (hds : StartsOnlyWith cs₁ (.items ds) rest)
    (hitems : Reads cs₁ (.items ds) rest) (hrest : EndsNumeral rest)
    (hd' : Reads cs (.value d') cs₁') (hds' : Reads cs₁' (.items ds') rest')
    (hrest' : EndsNumeral rest') : d = d' ∧ ds = ds' ∧ rest = rest' := by
  obtain ⟨hsame, rfl⟩ := hd hd' .value (endsNumeral_items hitems) (endsNumeral_items hds')
  obtain ⟨hsames, rfl⟩ := hds hds' .items hrest hrest'
  exact ⟨Phrase.value.inj hsame, Phrase.items.inj hsames, rfl⟩

/-- A member and those behind it are read in one way if each of them is. -/
private theorem members_unique {cs cs₁ cs₁' : List Char} {key key' : String} {d d' : Document}
    {ms ms' : List (String × Document)}
    (hd : StartsOnlyWith cs (.member key d) cs₁) (hms : StartsOnlyWith cs₁ (.members ms) rest)
    (hmembers : Reads cs₁ (.members ms) rest) (hrest : EndsNumeral rest)
    (hd' : Reads cs (.member key' d') cs₁') (hms' : Reads cs₁' (.members ms') rest')
    (hrest' : EndsNumeral rest') : (key, d) = (key', d') ∧ ms = ms' ∧ rest = rest' := by
  obtain ⟨hsame, rfl⟩ := hd hd' .member (endsNumeral_members hmembers) (endsNumeral_members hms')
  obtain ⟨hsames, rfl⟩ := hms hms' .members hrest hrest'
  obtain ⟨rfl, rfl⟩ := Phrase.member.inj hsame
  exact ⟨rfl, Phrase.members.inj hsames, rfl⟩

/-- A text starts with one phrase of a kind, if no numeral is cut. -/
theorem Reads.unique {cs : List Char} {phrase phrase' : Phrase} (h : Reads cs phrase rest)
    (h' : Reads cs phrase' rest') (hkind : phrase.SameKind phrase') (hrest : EndsNumeral rest)
    (hrest' : EndsNumeral rest') : phrase = phrase' ∧ rest = rest' := by
  -- the first character tells the values apart, and what follows blanks tells whether a list goes on
  induction h generalizing phrase' rest' with
  | null =>
    cases hkind
    cases h' with
    | null => exact ⟨rfl, rfl⟩
    | number hn hcs => exact (not_numeral hn hcs (by decide)).elim
  | yes =>
    cases hkind
    cases h' with
    | yes => exact ⟨rfl, rfl⟩
    | number hn hcs => exact (not_numeral hn hcs (by decide)).elim
  | no =>
    cases hkind
    cases h' with
    | no => exact ⟨rfl, rfl⟩
    | number hn hcs => exact (not_numeral hn hcs (by decide)).elim
  | text hs =>
    cases hkind
    cases h' with
    | text hs' =>
      obtain ⟨rfl, rfl⟩ := hs.unique hs'
      exact ⟨rfl, rfl⟩
    | number hn hcs => exact (not_numeral hn hcs (by decide)).elim
  | number hn hcs =>
    cases hkind
    cases h' with
    | number hn' hcs' =>
      obtain ⟨rfl, rfl⟩ := Numeral.unique (hcs.symm.trans hcs') hn hn' hrest hrest'
      exact ⟨rfl, rfl⟩
    | null | yes | no | text | emptyList | list | emptyTable | table =>
      exact (not_numeral hn hcs (by decide)).elim
  | emptyList hclose =>
    cases hkind
    cases h' with
    | emptyList hclose' => exact ⟨rfl, (hclose.cons_unique hclose' rfl rfl).2⟩
    | list hblanks' hd' _ => exact (not_value_of_close hclose hblanks' hd').elim
    | number hn hcs => exact (not_numeral hn hcs (by decide)).elim
  | list hblanks hd hds ihd ihds =>
    cases hkind
    cases h' with
    | emptyList hclose' => exact (not_value_of_close hclose' hblanks hd).elim
    | list hblanks' hd' hds' =>
      obtain rfl := hblanks.unique hblanks' (startsVisibly_value hd) (startsVisibly_value hd')
      obtain ⟨rfl, rfl, rfl⟩ := items_unique @ihd @ihds hds hrest hd' hds' hrest'
      exact ⟨rfl, rfl⟩
    | number hn hcs => exact (not_numeral hn hcs (by decide)).elim
  | lastItem hclose =>
    cases hkind
    cases h' with
    | lastItem hclose' => exact ⟨rfl, (hclose.cons_unique hclose' rfl rfl).2⟩
    | nextItem hcomma' _ _ _ => exact nomatch hclose.cons_unique hcomma' rfl rfl
  | nextItem hcomma hblanks hd hds ihd ihds =>
    cases hkind
    cases h' with
    | lastItem hclose' => exact nomatch hcomma.cons_unique hclose' rfl rfl
    | nextItem hcomma' hblanks' hd' hds' =>
      obtain ⟨-, rfl⟩ := hcomma.cons_unique hcomma' rfl rfl
      obtain rfl := hblanks.unique hblanks' (startsVisibly_value hd) (startsVisibly_value hd')
      obtain ⟨rfl, rfl, rfl⟩ := items_unique @ihd @ihds hds hrest hd' hds' hrest'
      exact ⟨rfl, rfl⟩
  | emptyTable hclose =>
    cases hkind
    cases h' with
    | emptyTable hclose' => exact ⟨rfl, (hclose.cons_unique hclose' rfl rfl).2⟩
    | table hblanks' hmember' _ => exact (not_member_of_close hclose hblanks' hmember').elim
    | number hn hcs => exact (not_numeral hn hcs (by decide)).elim
  | table hblanks hmember hmembers ihmember ihmembers =>
    cases hkind
    cases h' with
    | emptyTable hclose' => exact (not_member_of_close hclose' hblanks hmember).elim
    | table hblanks' hmember' hmembers' =>
      obtain rfl := hblanks.unique hblanks' (startsVisibly_member hmember)
        (startsVisibly_member hmember')
      obtain ⟨hsame, rfl, rfl⟩ :=
        members_unique @ihmember @ihmembers hmembers hrest hmember' hmembers' hrest'
      exact ⟨by rw [hsame], rfl⟩
    | number hn hcs => exact (not_numeral hn hcs (by decide)).elim
  | member hkey hcolon hblanks hd ihd =>
    cases hkind
    cases h' with
    | member hkey' hcolon' hblanks' hd' =>
      obtain ⟨rfl, rfl⟩ := hkey.unique hkey'
      obtain ⟨-, rfl⟩ := hcolon.cons_unique hcolon' rfl rfl
      obtain rfl := hblanks.unique hblanks' (startsVisibly_value hd) (startsVisibly_value hd')
      obtain ⟨hsame, rfl⟩ := ihd hd' .value hrest hrest'
      cases hsame
      exact ⟨rfl, rfl⟩
  | lastMember hclose =>
    cases hkind
    cases h' with
    | lastMember hclose' => exact ⟨rfl, (hclose.cons_unique hclose' rfl rfl).2⟩
    | nextMember hcomma' _ _ _ => exact nomatch hclose.cons_unique hcomma' rfl rfl
  | nextMember hcomma hblanks hmember hmembers ihmember ihmembers =>
    cases hkind
    cases h' with
    | lastMember hclose' => exact nomatch hcomma.cons_unique hclose' rfl rfl
    | nextMember hcomma' hblanks' hmember' hmembers' =>
      obtain ⟨-, rfl⟩ := hcomma.cons_unique hcomma' rfl rfl
      obtain rfl := hblanks.unique hblanks' (startsVisibly_member hmember)
        (startsVisibly_member hmember')
      obtain ⟨hsame, rfl, rfl⟩ :=
        members_unique @ihmember @ihmembers hmembers hrest hmember' hmembers' hrest'
      exact ⟨by rw [hsame], rfl⟩

/-- A text spells one document at most. -/
theorem Spells.unique {text : String} {d d' : Document} (h : Spells text d) (h' : Spells text d') :
    d = d' := by
  obtain ⟨cs, rest, hbefore, hd, hbehind⟩ := h
  obtain ⟨cs', rest', hbefore', hd', hbehind'⟩ := h'
  obtain rfl := hbefore.unique hbefore' (startsVisibly_value hd) (startsVisibly_value hd')
  -- behind the document there are blanks only, which cut no numeral
  obtain ⟨hsame, -⟩ := hd.unique hd' .value (hbehind.endsNumeral endsNumeral_nil)
    (hbehind'.endsNumeral endsNumeral_nil)
  exact Phrase.value.inj hsame

end ProofSize.Json
