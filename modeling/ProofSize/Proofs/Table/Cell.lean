import ProofSize.Proofs.Columns
import ProofSize.Table.Reader

/-!
# What a cell says

A cell says a number if its text is an optional plus sign and one or more digits, and the number is
not too large for the field. A field that may be left out is not recorded where its cell is empty or
the file has no column for it.

## Key results

- `Decimal.parseWord?_eq_some_iff`: the texts that are read as a word
- `judge_eq_ok_iff`, `judge_eq_error_iff`: a record is judged field by field, by what it says of the
  field
- `optional_eq_judge`, `required_eq_judge`, `adsModified_eq_judge`: reading a field is judging it
-/

namespace ProofSize

namespace Decimal

/-- The text is an optional plus sign and one or more ASCII digits, and they denote the number. -/
def Denotes (text : String) (n : Nat) : Prop :=
  ∃ sign digits : List Char, text.toList = sign ++ digits ∧ (sign = [] ∨ sign = ['+']) ∧
    digits ≠ [] ∧ (∀ d ∈ digits, d.isDigit = true) ∧ n = Nat.ofDigitChars 10 digits 0

/-- Digits are read as the number that they denote, and nothing else is read. -/
private theorem parse?_eq_some_iff {cs : List Char} {n : Nat} :
    parse? cs = some n ↔
      cs ≠ [] ∧ (∀ d ∈ cs, d.isDigit = true) ∧ n = Nat.ofDigitChars 10 cs 0 := by
  rw [parse?, ← List.all_eq_true]
  constructor
  · intro h
    obtain ⟨⟨hne, hall⟩, hn⟩ := Option.ite_none_right_eq_some.1 h
    exact ⟨hne, hall, (Option.some.inj hn).symm⟩
  · intro h
    obtain ⟨hne, hall, rfl⟩ := h
    rw [if_pos ⟨hne, hall⟩]

/-- A text is read as the word that it denotes. -/
theorem parseWord?_eq_some_iff {text : String} {w : UInt64} :
    parseWord? text = some w ↔ Denotes text w.toNat := by
  have hword : ∀ cs : List Char, (parse? cs).bind Word.ofNat? = some w ↔ parse? cs = some w.toNat := by
    intro cs
    rw [Option.bind_eq_some_iff]
    constructor
    · intro ⟨n, hn, hw⟩
      rw [hn, Word.ofNat?_eq_some_iff.1 hw]
    · intro h
      exact ⟨w.toNat, h, Word.ofNat?_toNat w⟩
  unfold parseWord?
  split
  · rename_i cs htext
    rw [hword, parse?_eq_some_iff]
    constructor
    · intro ⟨hne, hall, hn⟩
      exact ⟨['+'], cs, htext, .inr rfl, hne, hall, hn⟩
    · intro ⟨sign, digits, happ, hsign, hne, hall, hn⟩
      rcases hsign with rfl | rfl
      · -- the plus sign is no digit
        have hmem : '+' ∈ digits := by
          rw [htext, List.nil_append] at happ
          exact happ ▸ List.mem_cons_self
        exact absurd (hall '+' hmem) (by decide)
      · rw [htext] at happ
        obtain rfl := List.cons.inj happ |>.2
        exact ⟨hne, hall, hn⟩
  · rename_i hplus
    rw [hword, parse?_eq_some_iff]
    constructor
    · intro ⟨hne, hall, hn⟩
      exact ⟨[], text.toList, rfl, .inl rfl, hne, hall, hn⟩
    · intro ⟨sign, digits, happ, hsign, hne, hall, hn⟩
      rcases hsign with rfl | rfl
      · rw [happ]
        exact ⟨hne, hall, hn⟩
      · exact absurd happ (hplus digits)

/-- A text denotes one number at most. -/
theorem Denotes.unique {text : String} {m n : Nat} (hm : Denotes text m) (hn : Denotes text n) :
    m = n := by
  obtain ⟨sm, dm, happm, hsm, hnem, hdm, rfl⟩ := hm
  obtain ⟨sn, dn, happn, hsn, hnen, hdn, rfl⟩ := hn
  rw [happm] at happn
  -- digits do not start with a plus sign, so both readings have the same sign
  have hplus : ∀ ds : List Char, (∀ d ∈ ds, d.isDigit = true) → ∀ es, ds ≠ '+' :: es := by
    intro ds hds es h
    subst h
    exact absurd (hds '+' List.mem_cons_self) (by decide)
  rcases hsm with rfl | rfl <;> rcases hsn with rfl | rfl
  · rw [List.nil_append, List.nil_append] at happn
    rw [happn]
  · exact absurd happn (hplus dm hdm dn)
  · exact absurd happn.symm (hplus dn hdn dm)
  · have hdigits : dm = dn := (List.cons.inj happn).2
    rw [hdigits]

/-- The empty text denotes no number. -/
theorem not_denotes_empty {n : Nat} : ¬Denotes "" n := by
  intro h
  obtain ⟨sign, digits, happ, -, hne, -, -⟩ := h
  exact hne (List.append_eq_nil_iff.1 happ.symm).2

end Decimal

open Decimal

/-- Numbers that are too large for the field start here. -/
def Field.limit : Field → Nat
  | .adsModified => UInt32.size
  | _ => UInt64.size

/-- No field holds more than 64 bits. -/
theorem Field.limit_le (f : Field) : f.limit ≤ UInt64.size := by
  cases f <;> decide

/-- A required field may not be left out. -/
theorem Field.isNullable_eq_false {f : Field} (h : f.isRequired = true) : f.isNullable = false := by
  cases f with
  | adsModified | adsCount => exact nomatch h
  | _ => rfl

namespace Table

/-- What a record says of a field: a number, or that it was not recorded. -/
inductive Says (c : Columns) (cells : List String) (f : Field) : Option Nat → Prop
  | noColumn : c.Lacks f → Says c cells f none
  | empty {i : Nat} : c.IsColumn f i → cells[i]? = some "" → f.isNullable = true →
      Says c cells f none
  | number {i n : Nat} {text : String} : c.IsColumn f i → cells[i]? = some text →
      Denotes text n → n < f.limit → Says c cells f (some n)

/-- The record says something of the field. -/
def Acceptable (c : Columns) (cells : List String) (f : Field) : Prop := ∃ v, Says c cells f v

/-- How an error quotes a cell: a number that is too large by its digits, anything else as it is. -/
def Quotes (text value : String) : Prop :=
  (∃ n, n < UInt64.size ∧ Denotes text n ∧ value = toString n) ∨
    (∀ n, n < UInt64.size → ¬Denotes text n) ∧ value = text

/-- The error for the field's cell in the record of a number. -/
def IsFault (c : Columns) (number : Nat) (cells : List String) (f : Field) (e : ReportError) : Prop :=
  ∃ i column text value, c.IsColumn f i ∧ c.header[i]? = some column ∧ cells[i]? = some text ∧
    Quotes text value ∧ e = .invalidValue number column value

section

variable {c : Columns} {cells : List String} {f : Field}

/-- What a record says of a field with a column, it says by the cell in this column. -/
private theorem Says.of_isColumn {v : Option Nat} {i : Nat} {text : String}
    (h : Says c cells f v) (hi : c.IsColumn f i) (htext : cells[i]? = some text) :
    v = none ∧ text = "" ∧ f.isNullable = true ∨ ∃ n, v = some n ∧ Denotes text n ∧ n < f.limit := by
  cases h with
  | noColumn hlacks => exact absurd hi (hlacks i)
  | empty hj hcell hnull =>
    rw [hi.unique hj] at htext
    exact .inl ⟨rfl, Option.some.inj (htext.symm.trans hcell), hnull⟩
  | @number j n text' hj hcell hd hlt =>
    rw [hi.unique hj] at htext
    obtain rfl := Option.some.inj (htext.symm.trans hcell)
    exact .inr ⟨n, rfl, hd, hlt⟩

/-- A record says one thing of a field at most. -/
theorem Says.unique {v w : Option Nat} (hv : Says c cells f v) (hw : Says c cells f w) : v = w := by
  cases hv with
  | noColumn hlacks =>
    cases hw with
    | noColumn => rfl
    | empty hj => rfl
    | number hj => exact absurd hj (hlacks _)
  | empty hi hcell =>
    rcases hw.of_isColumn hi hcell with ⟨rfl, -, -⟩ | ⟨n, -, hd, -⟩
    · rfl
    · exact absurd hd not_denotes_empty
  | number hi htext hd =>
    rcases hw.of_isColumn hi htext with ⟨-, rfl, -⟩ | ⟨n, rfl, hd', -⟩
    · exact absurd hd not_denotes_empty
    · rw [hd.unique hd']

/-- A cell is quoted in one way only. -/
theorem Quotes.unique {text v w : String} (hv : Quotes text v) (hw : Quotes text w) : v = w := by
  rcases hv with ⟨m, hm, hdm, rfl⟩ | ⟨hno, rfl⟩ <;> rcases hw with ⟨n, hn, hdn, rfl⟩ | ⟨hno', rfl⟩
  · rw [hdm.unique hdn]
  · exact absurd hdm (hno' m hm)
  · exact absurd hdn (hno n hn)
  · rfl

/-- There is one error for a cell. -/
theorem IsFault.unique {number : Nat} {e e' : ReportError} (h : IsFault c number cells f e)
    (h' : IsFault c number cells f e') : e = e' := by
  obtain ⟨i, column, text, value, hi, hcolumn, htext, hquotes, rfl⟩ := h
  obtain ⟨j, column', text', value', hj, hcolumn', htext', hquotes', rfl⟩ := h'
  obtain rfl := hi.unique hj
  obtain rfl := Option.some.inj (hcolumn.symm.trans hcolumn')
  obtain rfl := Option.some.inj (htext.symm.trans htext')
  rw [hquotes.unique hquotes']

end

/-! ### Judging a record field by field -/

/-- What a record says of a field, or the error for its cell. -/
def judge (c : Columns) (r : Csv.Record) (f : Field) : Except ReportError (Option UInt64) := do
  match ← optional c r f with
  | none => .ok none
  | some n =>
    if n.toNat < f.limit then .ok (some n)
    else .error (invalid c r ((c.position? f).getD 0) (toString n.toNat))

section

variable {c : Columns} {r : Csv.Record} {f : Field}

/-- A field without a column was not recorded. -/
private theorem optional_of_lacks (ht : c.Trimmed) (h : c.Lacks f) : optional c r f = .ok none := by
  rw [optional, (Columns.position?_eq_none_iff ht).2 h]

/-- A field with a column is read from the cell in it. -/
private theorem optional_of_isColumn (ht : c.Trimmed) {i : Nat} {text : String}
    (hi : c.IsColumn f i) (htext : r.cells[i]? = some text) :
    optional c r f =
      if text = "" ∧ f.isNullable = true then .ok none
      else match parseWord? text with
        | some n => .ok (some n)
        | none => .error (invalid c r i text) := by
  have hvalue : r.cells[i]?.getD "" = text := by rw [htext, Option.getD_some]
  rw [optional, (Columns.position?_eq_some_iff ht).2 hi]
  show (if r.cells[i]?.getD "" = "" ∧ f.isNullable = true then Except.ok none
    else match parseWord? (r.cells[i]?.getD "") with
      | some n => .ok (some n)
      | none => .error (invalid c r i (r.cells[i]?.getD ""))) = _
  rw [hvalue]

/-- The record either says something of the field and is judged so, or it does not and the judgement
    is the error for its cell. -/
private theorem judge_cases (ht : c.Trimmed) (hw : r.cells.length = c.header.length) (f : Field) :
    (∃ v, judge c r f = .ok v ∧ Says c r.cells f (v.map UInt64.toNat)) ∨
      ∃ e, judge c r f = .error e ∧ ¬Acceptable c r.cells f ∧ IsFault c r.number r.cells f e := by
  by_cases hlacks : c.Lacks f
  · refine .inl ⟨none, ?_, .noColumn hlacks⟩
    rw [judge, optional_of_lacks ht hlacks]
    rfl
  obtain ⟨i, hi⟩ : ∃ i, c.IsColumn f i := by
    by_contra hno
    exact hlacks fun i hi => hno ⟨i, hi⟩
  obtain ⟨column, hcolumn⟩ := hi.exists_name
  obtain ⟨text, htext⟩ : ∃ text, r.cells[i]? = some text :=
    ⟨_, List.getElem?_eq_getElem (by rw [hw]; exact hi.lt)⟩
  have hpos := (Columns.position?_eq_some_iff ht).2 hi
  have hfault : ∀ value, invalid c r i value = .invalidValue r.number column value := by
    intro value
    rw [invalid, hcolumn, Option.getD_some]
  rw [judge, optional_of_isColumn ht hi htext]
  split
  · -- the cell is empty and may be so
    rename_i hempty
    exact .inl ⟨none, rfl, .empty hi (hempty.1 ▸ htext) hempty.2⟩
  · rename_i hempty
    cases hparse : parseWord? text with
    | none =>
      -- no word, so no number within any limit
      have hno : ∀ n, n < UInt64.size → ¬Denotes text n := by
        intro n hn hd
        rw [← UInt64.toNat_ofNat_of_lt' hn, ← parseWord?_eq_some_iff, hparse] at hd
        exact nomatch hd
      refine .inr ⟨_, rfl, ?_, i, column, text, text, hi, hcolumn, htext, .inr ⟨hno, rfl⟩, ?_⟩
      · intro ⟨v, hv⟩
        rcases hv.of_isColumn hi htext with ⟨-, hnone⟩ | ⟨n, -, hd, hlt⟩
        · exact hempty hnone
        · exact hno n (Nat.lt_of_lt_of_le hlt f.limit_le) hd
      · exact hfault text
    | some w =>
      -- a word, which the limit of the field may still exclude
      have hd := parseWord?_eq_some_iff.1 hparse
      by_cases hlt : w.toNat < f.limit
      · refine .inl ⟨some w, ?_, .number hi htext hd hlt⟩
        simp [bind, Except.bind, hlt]
      · refine .inr ⟨.invalidValue r.number column (toString w.toNat), ?_, ?_, i, column, text, _, hi,
          hcolumn, htext, .inl ⟨_, UInt64.toNat_lt_size w, hd, rfl⟩, rfl⟩
        · simp [bind, Except.bind, hlt, hpos, hfault]
        · intro ⟨v, hv⟩
          rcases hv.of_isColumn hi htext with ⟨-, hnone⟩ | ⟨n, -, hdn, hltn⟩
          · exact hempty hnone
          · rw [hd.unique hdn] at hlt
            exact hlt hltn

/-- A record is judged by what it says. -/
theorem judge_eq_ok_iff (ht : c.Trimmed) (hw : r.cells.length = c.header.length)
    {v : Option UInt64} : judge c r f = .ok v ↔ Says c r.cells f (v.map UInt64.toNat) := by
  have hinj : Function.Injective (Option.map UInt64.toNat) :=
    Option.map_injective fun a b h => UInt64.toNat_inj.1 h
  rcases judge_cases ht hw f with ⟨w, hjudge, htold⟩ | ⟨e, hjudge, hno, -⟩
  · rw [hjudge, Except.ok.injEq]
    exact ⟨fun h => h ▸ htold, fun h => hinj (htold.unique h)⟩
  · rw [hjudge]
    exact ⟨fun h => (nomatch h), fun h => absurd ⟨_, h⟩ hno⟩

/-- A record that says nothing acceptable is judged by its fault. -/
theorem judge_eq_error_iff (ht : c.Trimmed) (hw : r.cells.length = c.header.length)
    {e : ReportError} :
    judge c r f = .error e ↔ ¬Acceptable c r.cells f ∧ IsFault c r.number r.cells f e := by
  rcases judge_cases ht hw f with ⟨w, hjudge, htold⟩ | ⟨e', hjudge, hno, hfault⟩
  · rw [hjudge]
    exact ⟨fun h => (nomatch h), fun h => absurd ⟨_, htold⟩ h.1⟩
  · rw [hjudge, Except.error.injEq]
    exact ⟨fun h => h ▸ ⟨hno, hfault⟩, fun h => hfault.unique h.2⟩

/-- A record is judged to be good for a field if it says something acceptable of it. -/
theorem exists_judge_eq_ok_iff (ht : c.Trimmed) (hw : r.cells.length = c.header.length) :
    (∃ v, judge c r f = .ok v) ↔ Acceptable c r.cells f := by
  rcases judge_cases ht hw f with ⟨v, hjudge, htold⟩ | ⟨e, hjudge, hno, -⟩
  · exact ⟨fun _ => ⟨_, htold⟩, fun _ => ⟨v, hjudge⟩⟩
  · rw [hjudge]
    exact ⟨fun ⟨v, h⟩ => (nomatch h), fun h => absurd h hno⟩

/-! ### Reading a field is judging it -/

/-- All fields but one have the limit of the words. -/
theorem optional_eq_judge (hf : f ≠ .adsModified) : optional c r f = judge c r f := by
  have hlimit : f.limit = UInt64.size := by
    cases f with
    | adsModified => exact absurd rfl hf
    | _ => rfl
  rw [judge]
  cases optional c r f with
  | error e => rfl
  | ok v =>
    cases v with
    | none => rfl
    | some n => simp [bind, Except.bind, hlimit, UInt64.toNat_lt_size]

/-- The number of touched data structures has 32 bits once it is within its limit. -/
theorem adsModified_eq_judge :
    adsModified c r = (judge c r .adsModified).map (Option.map UInt64.toUInt32) := by
  rw [adsModified, judge]
  cases optional c r .adsModified with
  | error e => rfl
  | ok v =>
    cases v with
    | none => rfl
    | some n =>
      by_cases hlt : n.toNat < UInt32.size <;>
        simp [bind, Except.bind, Except.map, Field.limit, hlt]

/-- A required field that has a column is never left out. -/
theorem required_eq_judge (ht : c.Trimmed) (hw : r.cells.length = c.header.length)
    (hreq : f.isRequired = true) (hcol : ∃ i, c.IsColumn f i) :
    required c r f = (judge c r f).map (·.getD 0) := by
  -- no required field is the one whose limit differs
  have hf : f ≠ .adsModified := fun h => absurd hreq (by rw [h]; decide)
  have hnull := Field.isNullable_eq_false hreq
  rw [required, optional_eq_judge hf]
  cases hjudge : judge c r f with
  | error e => rfl
  | ok v =>
    cases v with
    | some n => rfl
    | none =>
      cases (judge_eq_ok_iff ht hw).1 hjudge with
      | noColumn hlacks =>
        obtain ⟨i, hi⟩ := hcol
        exact absurd hi (hlacks i)
      | empty _ _ h => simp [hnull] at h

end

end Table

end ProofSize
