import ProofSize.Proofs.Csv.Spelling
import ProofSize.Proofs.Table.Cell
import ProofSize.Proofs.Text.Trim

/-!
# What is loaded from a data file

`Loads` says what a file with given texts in its cells is read as: an error for columns that are
missing, an error for the first cell that says nothing acceptable, or else one row for each record.
The reader does just that.

## Key results

- `row_eq_ok_iff`, `row_eq_error_iff`: the row that a record says, and which of its cells is at fault
- `loads_ofRecords`: what is read from the records of a file
- `Loads.unique`: a file is read in one way only
- `readRows_eq_iff_loads`: reading a file gives what `Loads` says, and nothing else
-/

namespace ProofSize.Csv

/-- The cells of the records are the bytes of these texts, first those of the header. A file without
    records has an empty header. -/
def HasTexts (raws : List RawRecord) (header : List String) (records : List (List String)) : Prop :=
  raws.map (·.cells) = (header :: records).map (·.map Utf8.bytes) ∨
    raws = [] ∧ header = [] ∧ records = []

/-- A header with any names and records with any cells make up some file. -/
theorem exists_hasTexts {names : List String} {records : List (List String)}
    (hnames : names ≠ []) (hrecords : ∀ cells ∈ records, cells ≠ []) :
    ∃ content : ByteArray, HasTexts (scan content.data.toList) names records := by
  have hne : ∀ cells ∈ (names :: records).map (·.map Utf8.bytes), cells ≠ [] := by
    intro cells hcells
    obtain ⟨texts, htexts, rfl⟩ := List.mem_map.1 hcells
    rw [ne_eq, List.map_eq_nil_iff]
    rcases List.mem_cons.1 htexts with rfl | htexts
    · exact hnames
    · exact hrecords texts htexts
  obtain ⟨text, htext, hquote⟩ := exists_spells hne
  -- a file that starts with a quotation mark does not start with a byte order mark
  have hmark : ¬byteOrderMark <+: text := by
    intro ⟨rest, hrest⟩
    have hhead : text.head? = some 0xef := by rw [← hrest]; rfl
    exact absurd (hquote 0xef hhead) (by decide)
  refine ⟨⟨text.toArray⟩, .inl ?_⟩
  exact scan_spells htext hmark

end ProofSize.Csv

namespace ProofSize.Table

/-- The row has what the record says of each field. A counter without a column has the value of the
    other one. -/
structure IsRow (c : Columns) (cells : List String) (row : Row) : Prop where
  counters : ∃ since total, Says c cells .updatesSinceRefresh since ∧
    Says c cells .totalUpdates total ∧ since.or total = some row.updatesSinceRefresh.toNat ∧
    total.or since = some row.totalUpdates.toNat
  adsModified : Says c cells .adsModified (row.adsModified.map UInt32.toNat)
  signatureCount : Says c cells .signatureCount (some row.signatureCount.toNat)
  signatureBytes : Says c cells .signatureBytes (some row.signatureBytes.toNat)
  updateBytes : Says c cells .updateBytes (some row.updateBytes.toNat)
  updateProofBytes : Says c cells .updateProofBytes (some row.updateProofBytes.toNat)
  freshnessBytes : Says c cells .freshnessBytes (some row.freshnessBytes.toNat)
  uncachedFreshnessBytes :
    Says c cells .uncachedFreshnessBytes (some row.uncachedFreshnessBytes.toNat)
  totalBytes : Says c cells .totalBytes (some row.totalBytes.toNat)
  adsCount : Says c cells .adsCount (row.adsCount.map UInt64.toNat)

/-- What a file is read as. Its columns and the trimmed texts of its records decide. -/
inductive Loads (c : Columns) (records : List (List String)) : Except ReportError (List Row) → Prop
  | missing {k : Nat} {f : Field} :
      IsFirst (fun f => f.isRequired = true ∧ c.Lacks f) Field.all k f →
      Loads c records (.error (.missingColumn f (c.aliases.of f)))
  | noCounter :
      (∀ f : Field, f.isRequired = true → ∃ i, c.IsColumn f i) →
      c.Lacks .updatesSinceRefresh → c.Lacks .totalUpdates →
      Loads c records (.error (.missingColumn .updatesSinceRefresh
        (c.aliases.of .updatesSinceRefresh ++ c.aliases.of .totalUpdates)))
  | invalid {k j : Nat} {cells : List String} {f : Field} {e : ReportError} :
      c.Complete →
      IsFirst (fun cells => ∃ f, ¬Acceptable c cells f) records k cells →
      IsFirst (fun f => ¬Acceptable c cells f) Field.all j f →
      IsFault c (k + 1) cells f e →
      Loads c records (.error e)
  | rows {rows : List Row} :
      c.Complete → List.Forall₂ (IsRow c) records rows → Loads c records (.ok rows)

/-! ### One record -/

section

variable {c : Columns} {r : Csv.Record} {e : ReportError}

/-- A record that says something of a field says a word of it. -/
private theorem Says.exists_word {cells : List String} {f : Field} {v : Option Nat}
    (h : Says c cells f v) : ∃ w : Option UInt64, w.map UInt64.toNat = v := by
  cases h with
  | noColumn | empty => exact ⟨none, rfl⟩
  | number _ _ _ hlt =>
    obtain ⟨w, hw⟩ := Word.exists_toNat_eq (Nat.lt_of_lt_of_le hlt (Field.limit_le f))
    exact ⟨some w, congrArg some hw⟩

/-- Where a record says that a field was not recorded, the field may be left out. -/
private theorem Says.none {cells : List String} {f : Field} (h : Says c cells f none)
    (hf : f.isNullable = false) : c.Lacks f := by
  cases h with
  | noColumn hlacks => exact hlacks
  | empty _ _ hnull => simp [hf] at hnull

/-- Of the two counters one is recorded in every record, because one has a column. -/
private theorem not_both_none {cells : List String} (hc : c.Complete)
    (hs : Says c cells .updatesSinceRefresh none) (htot : Says c cells .totalUpdates none) :
    False := by
  rcases hc.counter with ⟨i, hi⟩ | ⟨i, hi⟩
  · exact hs.none rfl i hi
  · exact htot.none rfl i hi

/-- The counters are read each in place of the other if that is missing. -/
private theorem counters_eq_judge (ht : c.Trimmed) (hw : r.cells.length = c.header.length)
    (hc : c.Complete) :
    counters c r = do
      let since ← judge c r .updatesSinceRefresh
      let total ← judge c r .totalUpdates
      return ((since.or total).getD 0, (total.or since).getD 0) := by
  rw [counters, optional_eq_judge (by decide), optional_eq_judge (by decide)]
  cases hs : judge c r .updatesSinceRefresh with
  | error e => rfl
  | ok since =>
    cases htot : judge c r .totalUpdates with
    | error e => rfl
    | ok total =>
      cases since with
      | some s => cases total <;> rfl
      | none =>
        cases total with
        | some t => rfl
        | none =>
          -- the error for two missing counters is never reached
          exact (not_both_none hc ((judge_eq_ok_iff ht hw).1 hs)
            ((judge_eq_ok_iff ht hw).1 htot)).elim

/-- The counters are read if the record says both, each of its own column or of the other one. -/
private theorem counters_eq_ok_iff (ht : c.Trimmed) (hw : r.cells.length = c.header.length)
    (hc : c.Complete) {s t : UInt64} :
    counters c r = .ok (s, t) ↔ ∃ since total, Says c r.cells .updatesSinceRefresh since ∧
      Says c r.cells .totalUpdates total ∧ since.or total = some s.toNat ∧
      total.or since = some t.toNat := by
  rw [counters_eq_judge ht hw hc, bind_eq_ok_iff]
  constructor
  · intro ⟨since, hs, h⟩
    obtain ⟨total, htot, h⟩ := bind_eq_ok_iff.1 h
    have hs := (judge_eq_ok_iff ht hw).1 hs
    have htot := (judge_eq_ok_iff ht hw).1 htot
    obtain ⟨hsv, htv⟩ := Prod.mk.inj (Except.ok.inj h)
    refine ⟨_, _, hs, htot, ?_⟩
    -- whichever counter is recorded has its own value, and the other one that of it
    cases since with
    | some s' =>
      cases total with
      | some t' => subst hsv htv; exact ⟨rfl, rfl⟩
      | none => subst hsv htv; exact ⟨rfl, rfl⟩
    | none =>
      cases total with
      | some t' => subst hsv htv; exact ⟨rfl, rfl⟩
      | none => exact (not_both_none hc hs htot).elim
  · intro ⟨since', total', hs, htot, hsv, htv⟩
    -- what is said are words, and these are what is judged
    obtain ⟨since, rfl⟩ := hs.exists_word
    obtain ⟨total, rfl⟩ := htot.exists_word
    rw [← Option.map_or] at hsv htv
    obtain ⟨s', hs', hsv⟩ := Option.map_eq_some_iff.1 hsv
    obtain ⟨t', ht', htv⟩ := Option.map_eq_some_iff.1 htv
    obtain rfl := UInt64.toNat_inj.1 hsv
    obtain rfl := UInt64.toNat_inj.1 htv
    refine ⟨since, (judge_eq_ok_iff ht hw).2 hs, bind_eq_ok_iff.2 ⟨total, ?_, ?_⟩⟩
    · exact (judge_eq_ok_iff ht hw).2 htot
    · rw [hs', ht']
      rfl

/-- A required field is read as the number that the record says of it. -/
private theorem required_eq_ok_iff (ht : c.Trimmed) (hw : r.cells.length = c.header.length)
    (hc : c.Complete) {f : Field} (hf : f.isRequired = true) {n : UInt64} :
    required c r f = .ok n ↔ Says c r.cells f (some n.toNat) := by
  obtain ⟨i, hi⟩ := hc.required f hf
  have hnull := Field.isNullable_eq_false hf
  rw [required_eq_judge ht hw hf ⟨i, hi⟩, map_eq_ok_iff]
  constructor
  · intro h
    obtain ⟨v, hv, rfl⟩ := h
    have htold := (judge_eq_ok_iff ht hw).1 hv
    cases v with
    | some n => exact htold
    | none => exact absurd hi (htold.none hnull i)
  · intro h
    exact ⟨some n, (judge_eq_ok_iff ht hw).2 h, rfl⟩

/-- The server size is read as the record says it, and may be left out. -/
private theorem adsCount_eq_ok_iff (ht : c.Trimmed) (hw : r.cells.length = c.header.length)
    {v : Option UInt64} :
    optional c r .adsCount = .ok v ↔ Says c r.cells .adsCount (v.map UInt64.toNat) := by
  rw [optional_eq_judge (by decide), judge_eq_ok_iff ht hw]

/-- The number of touched data structures is read as the record says it, within 32 bits. -/
private theorem adsModified_eq_ok_iff (ht : c.Trimmed) (hw : r.cells.length = c.header.length)
    {v : Option UInt32} :
    adsModified c r = .ok v ↔ Says c r.cells .adsModified (v.map UInt32.toNat) := by
  rw [adsModified_eq_judge, map_eq_ok_iff]
  constructor
  · intro h
    obtain ⟨w, hw', rfl⟩ := h
    have htold := (judge_eq_ok_iff ht hw).1 hw'
    cases w with
    | none => exact htold
    | some n =>
      -- a number that is said is within the limit, so 32 bits hold it
      have hlt : n.toNat < UInt32.size := by cases htold with | number _ _ _ hlt => exact hlt
      have hn : n.toUInt32.toNat = n.toNat := by
        rw [UInt64.toNat_toUInt32, Nat.mod_eq_of_lt hlt]
      rw [Option.map_some, Option.map_some, hn]
      exact htold
  · intro h
    refine ⟨v.map UInt32.toUInt64, (judge_eq_ok_iff ht hw).2 ?_, ?_⟩
    · cases v with
      | none => exact h
      | some n => simpa using h
    · cases v with
      | none => rfl
      | some n => simp

/-- A record is read as the row that it says. -/
theorem row_eq_ok_iff (ht : c.Trimmed) (hw : r.cells.length = c.header.length) (hc : c.Complete)
    {x : Row} : row c r = .ok x ↔ IsRow c r.cells x := by
  have hreq {f : Field} (hf : f.isRequired = true) {n : UInt64} :=
    required_eq_ok_iff (n := n) ht hw hc hf
  simp only [row, bind_eq_ok_iff, Prod.exists, counters_eq_ok_iff ht hw hc,
    adsModified_eq_ok_iff ht hw, hreq (f := .signatureCount) rfl,
    hreq (f := .signatureBytes) rfl, hreq (f := .updateBytes) rfl,
    hreq (f := .updateProofBytes) rfl, hreq (f := .freshnessBytes) rfl,
    hreq (f := .uncachedFreshnessBytes) rfl, hreq (f := .totalBytes) rfl,
    adsCount_eq_ok_iff ht hw]
  -- every field is read on its own, so nothing remains but to put the facts together
  constructor
  · intro ⟨s, t, hst, a, ha, sc, hsc, sb, hsb, ub, hub, up, hup, fb, hfb, uf, huf, tb, htb, n, hn, h⟩
    obtain rfl := Except.ok.inj h
    exact ⟨hst, ha, hsc, hsb, hub, hup, hfb, huf, htb, hn⟩
  · intro ⟨hst, ha, hsc, hsb, hub, hup, hfb, huf, htb, hn⟩
    exact ⟨_, _, hst, _, ha, _, hsc, _, hsb, _, hub, _, hup, _, hfb, _, huf, _, htb, _, hn, rfl⟩

/-! ### The cell at fault -/

/-- The record says nothing acceptable of the field, and this is the error for it. -/
private def Rejects (c : Columns) (r : Csv.Record) (e : ReportError) (f : Field) : Prop :=
  ¬Acceptable c r.cells f ∧ IsFault c r.number r.cells f e

/-- The counters are at fault if one of them is, the first one before the second. -/
private theorem counters_eq_error_iff (ht : c.Trimmed) (hw : r.cells.length = c.header.length)
    (hc : c.Complete) :
    counters c r = .error e ↔ Rejects c r e .updatesSinceRefresh ∨
      Acceptable c r.cells .updatesSinceRefresh ∧ Rejects c r e .totalUpdates := by
  rw [counters_eq_judge ht hw hc, bind_eq_error_iff, judge_eq_error_iff ht hw]
  refine or_congr Iff.rfl ?_
  rw [← exists_judge_eq_ok_iff ht hw, exists_and_right.symm]
  refine exists_congr fun since => and_congr Iff.rfl ?_
  rw [bind_eq_error_iff, judge_eq_error_iff ht hw]
  constructor
  · intro h
    rcases h with h | ⟨total, -, h⟩
    · exact h
    · exact nomatch h
  · exact .inl

/-- The counters are read if the record says something acceptable of both. -/
private theorem exists_counters_eq_ok_iff (ht : c.Trimmed)
    (hw : r.cells.length = c.header.length) (hc : c.Complete) :
    (∃ st, counters c r = .ok st) ↔
      Acceptable c r.cells .updatesSinceRefresh ∧ Acceptable c r.cells .totalUpdates := by
  rw [← exists_judge_eq_ok_iff ht hw, ← exists_judge_eq_ok_iff ht hw,
    counters_eq_judge ht hw hc]
  constructor
  · intro ⟨st, h⟩
    obtain ⟨since, hs, h⟩ := bind_eq_ok_iff.1 h
    obtain ⟨total, htot, -⟩ := bind_eq_ok_iff.1 h
    exact ⟨⟨since, hs⟩, ⟨total, htot⟩⟩
  · intro ⟨⟨since, hs⟩, ⟨total, htot⟩⟩
    exact ⟨_, bind_eq_ok_iff.2 ⟨since, hs, bind_eq_ok_iff.2 ⟨total, htot, rfl⟩⟩⟩

/-- Of these fields the first one of which the record says nothing acceptable has this error. -/
private def FirstRejects (c : Columns) (r : Csv.Record) (e : ReportError) (fs : List Field) : Prop :=
  ∃ j f, IsFirst (fun f => ¬Acceptable c r.cells f) fs j f ∧ IsFault c r.number r.cells f e

/-- The first of the fields is rejected, or it is acceptable and the rest decide. -/
private theorem firstRejects_cons_iff {f : Field} {fs : List Field} :
    FirstRejects c r e (f :: fs) ↔ Rejects c r e f ∨ Acceptable c r.cells f ∧ FirstRejects c r e fs := by
  rw [FirstRejects, exists_isFirst_cons_iff, not_not]
  exact Iff.rfl

/-- Reading a field and then others fails for the first of them that is rejected. -/
private theorem bind_eq_error_iff_firstRejects {α β : Type} {m : Except ReportError α}
    {g : α → Except ReportError β} {f : Field} {fs : List Field}
    (herror : m = .error e ↔ Rejects c r e f) (hok : (∃ a, m = .ok a) ↔ Acceptable c r.cells f)
    (hrest : ∀ a, g a = .error e ↔ FirstRejects c r e fs) :
    m >>= g = .error e ↔ FirstRejects c r e (f :: fs) := by
  rw [bind_eq_error_iff, firstRejects_cons_iff, herror, ← hok, ← exists_and_right]
  exact or_congr Iff.rfl (exists_congr fun a => and_congr Iff.rfl (hrest a))

/-- Reading a required field and then others fails for the first of them that is rejected. -/
private theorem required_bind_eq_error_iff (ht : c.Trimmed)
    (hw : r.cells.length = c.header.length) (hc : c.Complete) {β : Type}
    {g : UInt64 → Except ReportError β} {f : Field} {fs : List Field} (hf : f.isRequired = true)
    (hrest : ∀ n, g n = .error e ↔ FirstRejects c r e fs) :
    required c r f >>= g = .error e ↔ FirstRejects c r e (f :: fs) := by
  have hjudge := required_eq_judge ht hw hf (hc.required f hf)
  refine bind_eq_error_iff_firstRejects ?_ ?_ hrest
  · rw [hjudge, map_eq_error_iff, judge_eq_error_iff ht hw]
    exact Iff.rfl
  · rw [← exists_judge_eq_ok_iff ht hw, hjudge]
    constructor
    · intro ⟨n, hn⟩
      obtain ⟨v, hv, -⟩ := map_eq_ok_iff.1 hn
      exact ⟨v, hv⟩
    · intro ⟨v, hv⟩
      exact ⟨_, map_eq_ok_iff.2 ⟨v, hv, rfl⟩⟩

/-- A record is refused for the first field of which it says nothing acceptable. -/
theorem row_eq_error_iff (ht : c.Trimmed) (hw : r.cells.length = c.header.length)
    (hc : c.Complete) :
    row c r = .error e ↔
      ∃ j f, IsFirst (fun f => ¬Acceptable c r.cells f) Field.all j f ∧
        IsFault c r.number r.cells f e := by
  -- the fields are read in the order in which they are listed, the counters together
  show _ ↔ FirstRejects c r e (.updatesSinceRefresh :: .totalUpdates :: _)
  rw [row, bind_eq_error_iff, counters_eq_error_iff ht hw hc, firstRejects_cons_iff,
    firstRejects_cons_iff, and_or_left, ← or_assoc, ← and_assoc,
    ← exists_counters_eq_ok_iff ht hw hc, ← exists_and_right]
  refine or_congr Iff.rfl (exists_congr fun st => and_congr Iff.rfl ?_)
  -- behind the counters each field is read once, and then those that follow it
  refine bind_eq_error_iff_firstRejects ?_ ?_ fun a => ?_
  · rw [adsModified_eq_judge, map_eq_error_iff, judge_eq_error_iff ht hw]
    exact Iff.rfl
  · rw [← exists_judge_eq_ok_iff ht hw, adsModified_eq_judge]
    simp only [map_eq_ok_iff]
    exact ⟨fun ⟨_, v, hv, _⟩ => ⟨v, hv⟩, fun ⟨v, hv⟩ => ⟨_, v, hv, rfl⟩⟩
  refine required_bind_eq_error_iff ht hw hc rfl fun _ => ?_
  refine required_bind_eq_error_iff ht hw hc rfl fun _ => ?_
  refine required_bind_eq_error_iff ht hw hc rfl fun _ => ?_
  refine required_bind_eq_error_iff ht hw hc rfl fun _ => ?_
  refine required_bind_eq_error_iff ht hw hc rfl fun _ => ?_
  refine required_bind_eq_error_iff ht hw hc rfl fun _ => ?_
  refine required_bind_eq_error_iff ht hw hc rfl fun _ => ?_
  refine bind_eq_error_iff_firstRejects ?_ ?_ fun n => ?_
  · rw [optional_eq_judge (by decide), judge_eq_error_iff ht hw]
    exact Iff.rfl
  · rw [optional_eq_judge (by decide), exists_judge_eq_ok_iff ht hw]
  · exact ⟨fun h => (nomatch h), fun ⟨j, f, hf, _⟩ => absurd hf not_isFirst_nil⟩

/-- A record that says a row says something acceptable of every field. -/
theorem IsRow.acceptable {cells : List String} {x : Row} (h : IsRow c cells x) (f : Field) :
    Acceptable c cells f := by
  obtain ⟨since, total, hs, htot, -, -⟩ := h.counters
  cases f with
  | updatesSinceRefresh => exact ⟨_, hs⟩
  | totalUpdates => exact ⟨_, htot⟩
  | adsModified => exact ⟨_, h.adsModified⟩
  | signatureCount => exact ⟨_, h.signatureCount⟩
  | signatureBytes => exact ⟨_, h.signatureBytes⟩
  | updateBytes => exact ⟨_, h.updateBytes⟩
  | updateProofBytes => exact ⟨_, h.updateProofBytes⟩
  | freshnessBytes => exact ⟨_, h.freshnessBytes⟩
  | uncachedFreshnessBytes => exact ⟨_, h.uncachedFreshnessBytes⟩
  | totalBytes => exact ⟨_, h.totalBytes⟩
  | adsCount => exact ⟨_, h.adsCount⟩

/-- A record is refused if it says nothing acceptable of some field. -/
theorem exists_row_eq_error_iff (ht : c.Trimmed) (hw : r.cells.length = c.header.length)
    (hc : c.Complete) : (∃ e, row c r = .error e) ↔ ∃ f, ¬Acceptable c r.cells f := by
  constructor
  · intro ⟨e, he⟩
    obtain ⟨j, f, hf, -⟩ := (row_eq_error_iff ht hw hc).1 he
    exact ⟨f, hf.holds⟩
  · intro ⟨f, hf⟩
    cases hrow : row c r with
    | error e => exact ⟨e, rfl⟩
    | ok x => exact absurd (((row_eq_ok_iff ht hw hc).1 hrow).acceptable f) hf

end

/-! ### Only one result -/

section

variable {c : Columns}

/-- A record says one row at most. -/
theorem IsRow.unique {cells : List String} {x y : Row} (hx : IsRow c cells x)
    (hy : IsRow c cells y) : x = y := by
  -- the counters are said together, every other field by itself
  obtain ⟨since, total, hs, htot, hxs, hxt⟩ := hx.counters
  obtain ⟨since', total', hs', htot', hys, hyt⟩ := hy.counters
  obtain rfl := hs.unique hs'
  obtain rfl := htot.unique htot'
  have hword {m n : UInt64} (h : some m.toNat = some n.toNat) : m = n :=
    UInt64.toNat_inj.1 (Option.some.inj h)
  have hads : x.adsModified = y.adsModified :=
    Option.map_injective (fun _ _ => UInt32.toNat_inj.1) (hx.adsModified.unique hy.adsModified)
  have hcount : x.adsCount = y.adsCount :=
    Option.map_injective (fun _ _ => UInt64.toNat_inj.1) (hx.adsCount.unique hy.adsCount)
  have hsince := hword (hxs.symm.trans hys)
  have htotal := hword (hxt.symm.trans hyt)
  have hsc := hword (hx.signatureCount.unique hy.signatureCount)
  have hsb := hword (hx.signatureBytes.unique hy.signatureBytes)
  have hub := hword (hx.updateBytes.unique hy.updateBytes)
  have hup := hword (hx.updateProofBytes.unique hy.updateProofBytes)
  have hfb := hword (hx.freshnessBytes.unique hy.freshnessBytes)
  have huf := hword (hx.uncachedFreshnessBytes.unique hy.uncachedFreshnessBytes)
  have htb := hword (hx.totalBytes.unique hy.totalBytes)
  cases x
  cases y
  simp only at hads hcount hsince htotal hsc hsb hub hup hfb huf htb
  rw [hads, hcount, hsince, htotal, hsc, hsb, hub, hup, hfb, huf, htb]

/-- Records say one list of rows at most. -/
private theorem rows_unique {records : List (List String)} {xs ys : List Row}
    (hx : List.Forall₂ (IsRow c) records xs) (hy : List.Forall₂ (IsRow c) records ys) :
    xs = ys := by
  induction hx generalizing ys with
  | nil =>
    cases hy with
    | nil => rfl
  | cons hxrow _ ih =>
    cases hy with
    | cons hyrow hyrest => rw [hxrow.unique hyrow, ih hyrest]

/-- Of records that all say a row none is the first one at fault. -/
private theorem not_isFirst_of_rows {records : List (List String)} {rows : List Row}
    (h : List.Forall₂ (IsRow c) records rows) (k : Nat) (cells : List String) :
    ¬IsFirst (fun cells => ∃ f, ¬Acceptable c cells f) records k cells := by
  intro hk
  obtain ⟨f, hf⟩ := hk.holds
  induction h generalizing k with
  | nil => exact not_isFirst_nil hk
  | cons hrow _ ih =>
    -- either the first record is at fault, or one of those behind it
    rcases isFirst_cons_iff.1 hk with ⟨-, rfl, -⟩ | ⟨-, j, -, hj⟩
    · exact hf (hrow.acceptable f)
    · exact ih j hj

/-- A file is read in one way only. -/
theorem Loads.unique {records : List (List String)} {x y : Except ReportError (List Row)}
    (hx : Loads c records x) (hy : Loads c records y) : x = y := by
  have hlacks {k : Nat} {f : Field}
      (hk : IsFirst (fun f => f.isRequired = true ∧ c.Lacks f) Field.all k f)
      (hreq : ∀ f : Field, f.isRequired = true → ∃ i, c.IsColumn f i) : False := by
    obtain ⟨i, hi⟩ := hreq f hk.holds.1
    exact hk.holds.2 i hi
  have hcounter (hc : c.Complete) (hs : c.Lacks .updatesSinceRefresh)
      (ht : c.Lacks .totalUpdates) : False := by
    rcases hc.counter with ⟨i, hi⟩ | ⟨i, hi⟩
    · exact hs i hi
    · exact ht i hi
  cases hx with
  | missing hk =>
    cases hy with
    | missing hk' =>
      obtain ⟨-, rfl⟩ := hk.unique hk'
      rfl
    | noCounter hreq => exact (hlacks hk hreq).elim
    | invalid hc => exact (hlacks hk hc.required).elim
    | rows hc => exact (hlacks hk hc.required).elim
  | noCounter hreq hs ht =>
    cases hy with
    | missing hk => exact (hlacks hk hreq).elim
    | noCounter => rfl
    | invalid hc => exact (hcounter hc hs ht).elim
    | rows hc => exact (hcounter hc hs ht).elim
  | invalid hc hk hj hfault =>
    cases hy with
    | missing hk' => exact (hlacks hk' hc.required).elim
    | noCounter _ hs ht => exact (hcounter hc hs ht).elim
    | invalid _ hk' hj' hfault' =>
      -- the same record and the same field come first, and its cell has one error
      obtain ⟨rfl, rfl⟩ := hk.unique hk'
      obtain ⟨-, rfl⟩ := hj.unique hj'
      rw [hfault.unique hfault']
    | rows _ hrows => exact absurd hk (not_isFirst_of_rows hrows _ _)
  | rows hc hrows =>
    cases hy with
    | missing hk => exact (hlacks hk hc.required).elim
    | noCounter _ hs ht => exact (hcounter hc hs ht).elim
    | invalid _ hk => exact absurd hk (not_isFirst_of_rows hrows _ _)
    | rows _ hrows' => rw [rows_unique hrows hrows']

end

/-! ### The texts of a file -/

/-- A record whose cells are texts is read as these texts without the blanks around them. -/
private theorem decode_eq_ok {r : Csv.RawRecord} {texts : List String}
    (h : List.Forall₂ (fun cell text => ∃ t, Utf8.decode cell = .ok t ∧ Blank.trim t = text)
      r.cells texts) :
    r.decode r.cells.length = .ok ⟨r.position.record, texts⟩ := by
  rw [Csv.RawRecord.decode, if_pos rfl]
  refine bind_eq_ok_iff.2 ⟨texts, mapM_eq_ok_iff.2 ?_, rfl⟩
  refine (forall₂_zipIdx_iff.2 h).imp ?_
  intro z text ⟨t, ht, htext⟩
  rw [Csv.RawRecord.cellText, ht]
  exact congrArg Except.ok htext

/-- The header of a file with these texts has their names, without the blanks around them. -/
private theorem header_eq_ok {raws : List Csv.RawRecord} {names : List String}
    {records : List (List String)} (h : Csv.HasTexts raws names records) :
    header raws = .ok (names.map Blank.trim) := by
  rcases h with h | ⟨rfl, rfl, -⟩
  · cases raws with
    | nil => exact nomatch h
    | cons r rs =>
      have hcells : r.cells = names.map Utf8.bytes := (List.cons.inj h).1
      have hdecode : r.decode r.cells.length = .ok ⟨r.position.record, names.map Blank.trim⟩ := by
        apply decode_eq_ok
        rw [hcells, List.forall₂_map_left_iff, List.forall₂_map_right_iff, List.forall₂_same]
        intro name _
        exact ⟨name, Utf8.decode_bytes name, rfl⟩
      rw [header, hdecode]
  · rfl

/-- A record of texts, as long as the header, is read from its texts without the blanks around them. -/
private theorem rawRow_eq_row {c : Columns} {r : Csv.RawRecord} {cells : List String}
    (hcells : r.cells = cells.map Utf8.bytes) (hw : cells.length = c.header.length) :
    rawRow c r = row c ⟨r.position.record, cells.map Blank.trim⟩ := by
  have hlen : r.trimmed.cells.length = c.header.length := by
    rw [Csv.RawRecord.trimmed, List.length_map, hcells, List.length_map, hw]
  have hdecode : r.trimmed.decode c.header.length =
      .ok ⟨r.position.record, cells.map Blank.trim⟩ := by
    rw [← hlen]
    apply decode_eq_ok
    show List.Forall₂ _ (r.cells.map Blank.trimBytes) _
    rw [hcells, List.map_map, List.forall₂_map_left_iff, List.forall₂_map_right_iff,
      List.forall₂_same]
    intro cell _
    exact Blank.decode_trimBytes cell
  rw [rawRow, hdecode]

/-- Data records are read one by one, with their numbers. -/
private theorem mapM_rawRow {c : Columns} {raws : List Csv.RawRecord}
    {records : List (List String)} {n : Nat}
    (hcells : raws.map (·.cells) = records.map (·.map Utf8.bytes))
    (hnum : ∀ (k : Nat) (r : Csv.RawRecord), raws[k]? = some r → r.position.record = n + k)
    (hw : ∀ cells ∈ records, cells.length = c.header.length) :
    raws.mapM (rawRow c) =
      ((records.map (·.map Blank.trim)).zipIdx n).mapM fun z => row c ⟨z.2, z.1⟩ := by
  induction raws generalizing records n with
  | nil =>
    obtain rfl : records = [] := List.map_eq_nil_iff.1 hcells.symm
    rfl
  | cons r raws ih =>
    cases records with
    | nil => exact nomatch hcells
    | cons cells records =>
      obtain ⟨hhead, htail⟩ := List.cons.inj hcells
      -- the records behind the first one are numbered from the next number on
      have hrest := ih (n := n + 1) htail (fun k x hx => by
        have := hnum (k + 1) x (by simpa using hx)
        omega) (fun x hx => hw x (List.mem_cons_of_mem cells hx))
      have hr : r.position.record = n := hnum 0 r rfl
      rw [List.mapM_cons, hrest, rawRow_eq_row hhead (hw cells List.mem_cons_self), hr,
        List.map_cons, List.zipIdx_cons, List.mapM_cons]

/-! ### The whole file -/

/-- Once the columns are there, the numbered records are read as `Loads` says. -/
private theorem loads_mapM_row {c : Columns} (ht : c.Trimmed) (hc : c.Complete)
    {records : List (List String)} (hw : ∀ cells ∈ records, cells.length = c.header.length) :
    Loads c records ((records.zipIdx 1).mapM fun z => row c ⟨z.2, z.1⟩) := by
  have hwidth : ∀ z ∈ records.zipIdx 1, z.1.length = c.header.length :=
    fun z hz => hw z.1 (List.fst_mem_of_mem_zipIdx hz)
  cases hrest : (records.zipIdx 1).mapM fun z => row c ⟨z.2, z.1⟩ with
  | ok rows =>
    -- every record has been read as the row that it says
    have hread := (List.forall₂_and_left _ _).2 ⟨hwidth, mapM_eq_ok_iff.1 hrest⟩
    have hrows := hread.imp fun z x ⟨hz, hx⟩ => (row_eq_ok_iff ht hz hc).1 hx
    exact .rows hc (forall₂_zipIdx_iff.1 hrows)
  | error e =>
    -- the first record that is refused is the first one with a fault
    obtain ⟨k, ⟨cells, n⟩, hk, he⟩ := mapM_eq_error_iff.1 hrest
    have hcells := hwidth _ (List.mem_of_getElem? hk.getElem?)
    have hbad : ∀ z ∈ records.zipIdx 1,
        ((∃ e, row c ⟨z.2, z.1⟩ = .error e) ↔ ∃ f, ¬Acceptable c z.1 f) := fun z hz =>
      exists_row_eq_error_iff (r := ⟨z.2, z.1⟩) ht (hwidth z hz) hc
    obtain ⟨hfirst, rfl⟩ := (isFirst_zipIdx_iff (p := fun cells => ∃ f, ¬Acceptable c cells f)).1
      (hk.congr hbad)
    -- and within it the first field at fault decides
    obtain ⟨j, f, hf, hfault⟩ := (row_eq_error_iff ht hcells hc).1 he
    rw [Nat.add_comm] at hfault
    exact .invalid hc hfirst hf hfault

/-- The records of a file are read as `Loads` says, if they are numbered from 0 and are texts, and
    each has as many cells as the header. -/
theorem loads_ofRecords {raws : List Csv.RawRecord} {names : List String}
    {records : List (List String)} (h : Csv.HasTexts raws names records)
    (hnum : ∀ (k : Nat) (r : Csv.RawRecord), raws[k]? = some r → r.position.record = k)
    (hw : ∀ cells ∈ records, cells.length = names.length) (a : Aliases) :
    Loads ⟨a, names.map Blank.trim⟩ (records.map (·.map Blank.trim))
      ((ofRecords a raws).map (·.2)) := by
  let c : Columns := ⟨a, names.map Blank.trim⟩
  have ht : c.Trimmed := Columns.trimmed_map_trim a names
  have hlen : c.header.length = names.length := List.length_map _
  -- without their numbers the records are just their texts
  have hrows : raws.tail.mapM (rawRow c) =
      ((records.map (·.map Blank.trim)).zipIdx 1).mapM fun z => row c ⟨z.2, z.1⟩ := by
    rcases h with h | ⟨rfl, -, rfl⟩
    · cases raws with
      | nil => exact nomatch h
      | cons r rs =>
        refine mapM_rawRow (List.cons.inj h).2 (fun k x hx => ?_) (fun x hx => ?_)
        · have := hnum (k + 1) x (by simpa using hx)
          omega
        · rw [hlen]
          exact hw x hx
    · rfl
  have hread : ofRecords a raws = c.check >>= fun _ =>
      raws.tail.mapM (rawRow c) >>= fun rows => .ok (c, rows) := by
    rw [ofRecords, header_eq_ok h]
    rfl
  have htrimmed : ∀ cells ∈ records.map (·.map Blank.trim), cells.length = c.header.length := by
    intro cells hcells
    obtain ⟨x, hx, rfl⟩ := List.mem_map.1 hcells
    rw [List.length_map, hlen]
    exact hw x hx
  rw [hread, hrows]
  cases hcheck : c.check with
  | error e =>
    -- no record is looked at before all columns have been found
    rcases (Columns.check_eq_error_iff ht).1 hcheck with ⟨k, f, hk, rfl⟩ | ⟨hreq, hs, htot, rfl⟩
    · exact .missing hk
    · exact .noCounter hreq hs htot
  | ok u =>
    have hloads := loads_mapM_row ht ((Columns.check_eq_ok_iff ht).1 hcheck) htrimmed
    cases hrest : ((records.map (·.map Blank.trim)).zipIdx 1).mapM fun z => row c ⟨z.2, z.1⟩ with
    | ok rows => rwa [hrest] at hloads
    | error e => rwa [hrest] at hloads

/-- What is read from a header and from records of its width is what `Loads` says, and nothing
    else. It does not matter which bytes spell them, and for every header there are such bytes. The
    message for a missing column lists the names that would have been accepted. -/
theorem readRows_eq_iff_loads (a : Aliases) (names : List String) (records : List (List String))
    (hw : ∀ cells ∈ records, cells.length = names.length) :
    (∀ raws : List Csv.RawRecord, Csv.HasTexts raws names records →
      (∀ (k : Nat) (r : Csv.RawRecord), raws[k]? = some r → r.position.record = k) →
      ∀ result, (ofRecords a raws).map (·.2) = result ↔
        Loads ⟨a, names.map Blank.trim⟩ (records.map (·.map Blank.trim)) result) ∧
    (∀ content : ByteArray, Csv.HasTexts (Csv.scan content.data.toList) names records →
      ∀ result, readRows a content = result ↔
        Loads ⟨a, names.map Blank.trim⟩ (records.map (·.map Blank.trim)) result) ∧
    (names ≠ [] →
      ∃ content : ByteArray, Csv.HasTexts (Csv.scan content.data.toList) names records) ∧
    ∀ (f : Field) (accepted : List String), (ReportError.missingColumn f accepted).message =
      "no column for " ++ f.name ++ " (accepted headers: " ++ ", ".intercalate accepted ++ ")" := by
  have hraws : ∀ raws : List Csv.RawRecord, Csv.HasTexts raws names records →
      (∀ (k : Nat) (r : Csv.RawRecord), raws[k]? = some r → r.position.record = k) →
      ∀ result, (ofRecords a raws).map (·.2) = result ↔
        Loads ⟨a, names.map Blank.trim⟩ (records.map (·.map Blank.trim)) result := by
    intro raws htexts hnum result
    have hloads := loads_ofRecords htexts hnum hw a
    constructor
    · intro h
      rwa [h] at hloads
    · intro h
      exact hloads.unique h
  refine ⟨hraws, ?_, ?_, ?_⟩
  · intro content htexts result
    exact hraws _ htexts (fun k r hr => Csv.getElem?_scan_record hr) result
  · intro hnames
    -- records are as wide as the header, so none of them is without cells
    refine Csv.exists_hasTexts hnames fun cells hcells hnil => hnames ?_
    have hlen := hw cells hcells
    rw [hnil] at hlen
    exact List.length_eq_zero_iff.1 hlen.symm
  · intro f accepted
    rfl

/-- The first of two equal header names decides, a missing counter has the value of the other one,
    and a plus sign and blanks do not count. -/
theorem loads_firstOfEqualNames :
    Loads ⟨.standard, ["nUpdates", "nUpdates", "nSignatures", "signaturesSize", "updateSize",
        "updateProofSize", "freshnessProofSize", "freshnessProofNoOptimizationSize",
        "proofSizeTotal", "nADSes"]⟩
      [["+7", "8", "1", "2", "3", "4", "5", "6", "9", ""]]
      (.ok [⟨7, 7, none, 1, 2, 3, 4, 5, 6, 9, none⟩]) := by
  have hiff := readRows_eq_iff_loads .standard ["nUpdates", " nUpdates", "nSignatures",
    "signaturesSize", "updateSize", "updateProofSize", "freshnessProofSize",
    "freshnessProofNoOptimizationSize", "proofSizeTotal", "nADSes"]
    [["+7 ", "8", "1", "2", "3", "4", "5", "6", "9", " "]] (by decide)
  let content : ByteArray := ("nUpdates, nUpdates,nSignatures,signaturesSize,updateSize," ++
    "updateProofSize,freshnessProofSize,freshnessProofNoOptimizationSize,proofSizeTotal,nADSes\n" ++
    "+7 ,8,1,2,3,4,5,6,9,\" \"").toUTF8
  -- the bytes of the file are those of the texts
  have htexts : (Csv.scan content.data.toList).map (·.cells) =
      ([["nUpdates", " nUpdates", "nSignatures", "signaturesSize", "updateSize",
        "updateProofSize", "freshnessProofSize", "freshnessProofNoOptimizationSize",
        "proofSizeTotal", "nADSes"], ["+7 ", "8", "1", "2", "3", "4", "5", "6", "9", " "]] :
          List (List String)).map (·.map Utf8.bytes) := by
    decide +kernel
  exact (hiff.2.1 content (.inl htexts) _).1 (by decide +kernel)

end ProofSize.Table
