import ProofSize.Csv.Reader

/-!
# The steps of the scanner

Whatever the scanner reads, a byte moves it to another place, joins the open cell, ends the cell or
ends the record. Which of these happens depends on the place and on the byte only.

## Key results

- `effect_step`: what a byte can do
- `step_comma`, `step_lineBreak`, `step_bare`, `step_quoted`, ...: what it does at each place
- `getElem?_scan_record`: the records of a file are numbered from 0 in their order
- `scan_append`: behind the end of a record more input adds records and changes none
-/

namespace ProofSize.Csv.Scan

/-! ### What a byte can do -/

/-- What a byte that has been counted can do to the scanner. -/
inductive Effect (s : Scan) : Scan → Prop
  | moves (place : Place) : Effect s { s with place }
  | pushes (place : Place) (b : UInt8) : Effect s (s.push place b)
  | endsCell : Effect s s.endCell
  | endsRecord : Effect s s.endRecord

/-- A byte outside quotation marks joins the cell, ends it or ends the record. -/
private theorem effect_bareByte (s : Scan) (b : UInt8) : Effect s (s.bareByte b) := by
  unfold bareByte
  split
  · exact .endsCell
  · split
    · exact .endsRecord
    · exact .pushes .bare b

/-- At the start of a cell, a byte may also open quotation marks. -/
private theorem effect_firstByte (s : Scan) (b : UInt8) : Effect s (s.firstByte b) := by
  unfold firstByte
  split
  · exact .moves .quoted
  · exact effect_bareByte s b

/-- A byte is counted and then does one of the four things. -/
theorem effect_step (s : Scan) (b : UInt8) : Effect (s.advance b) (s.step b) := by
  unfold step
  dsimp only
  cases (s.advance b).place with
  | betweenRecords =>
    dsimp only
    split
    · -- an empty line leaves the scanner where it is
      exact .moves (s.advance b).place
    · exact effect_firstByte _ b
  | cellStart => exact effect_firstByte _ b
  | bare => exact effect_bareByte _ b
  | quoted =>
    dsimp only
    split
    · -- whether this mark closes the cell, the next byte decides
      exact .moves .quoteInQuoted
    · exact .pushes .quoted b
  | quoteInQuoted =>
    dsimp only
    split
    · exact .pushes .quoted b
    · exact effect_bareByte _ b

/-! ### What a byte does at a place -/

section

variable {s : Scan} {b : UInt8}

/-- Counting a byte does not move the scanner. -/
@[simp] theorem place_advance (s : Scan) (b : UInt8) : (s.advance b).place = s.place := rfl

/-- A comma ends the cell, unless it is quoted. -/
theorem step_comma (h : s.place ≠ .quoted) : s.step comma = (s.advance comma).endCell := by
  unfold step
  dsimp only
  rw [place_advance]
  cases hplace : s.place with
  | quoted => exact absurd hplace h
  | betweenRecords | cellStart | bare | quoteInQuoted => rfl

/-- A line break ends an open record, unless it is quoted. -/
theorem step_lineBreak (hb : isLineBreak b = true) (h : s.place ≠ .quoted)
    (hopen : s.place ≠ .betweenRecords) : s.step b = (s.advance b).endRecord := by
  have hq : b ≠ quote := fun h => absurd hb (by rw [h]; decide)
  have hc : b ≠ comma := fun h => absurd hb (by rw [h]; decide)
  -- a line break is neither a quotation mark nor a comma, so only one branch is left at each place
  unfold step
  dsimp only
  rw [place_advance]
  cases hplace : s.place with
  | quoted => exact absurd hplace h
  | betweenRecords => exact absurd hplace hopen
  | cellStart | bare | quoteInQuoted => simp [firstByte, bareByte, hq, hc, hb]

/-- Between records a line break is passed over. -/
theorem step_lineBreak_of_between (hb : isLineBreak b = true) (h : s.place = .betweenRecords) :
    s.step b = s.advance b := by
  simp [step, h, hb]

/-- In a bare cell, any other byte joins the cell. -/
theorem step_bare (hc : b ≠ comma) (hb : isLineBreak b = false) (h : s.place = .bare) :
    s.step b = (s.advance b).push .bare b := by
  simp [step, h, bareByte, hc, hb]

/-- At the start of a cell it opens one, unless it is a quotation mark. -/
theorem step_first (hc : b ≠ comma) (hb : isLineBreak b = false) (hq : b ≠ quote)
    (h : s.place = .betweenRecords ∨ s.place = .cellStart) :
    s.step b = (s.advance b).push .bare b := by
  rcases h with h | h <;> simp [step, h, firstByte, bareByte, hc, hb, hq]

/-- At the start of a cell a quotation mark opens a quoted one. -/
theorem step_quote_first (h : s.place = .betweenRecords ∨ s.place = .cellStart) :
    s.step quote = { s.advance quote with place := .quoted } := by
  have hb : isLineBreak quote = false := by decide
  rcases h with h | h <;> simp [step, h, firstByte, hb]

/-- In a quoted cell a quotation mark may be the closing one. -/
theorem step_quote_quoted (h : s.place = .quoted) :
    s.step quote = { s.advance quote with place := .quoteInQuoted } := by
  simp [step, h]

/-- A second quotation mark stands for one in the cell. -/
theorem step_quote_quoteInQuoted (h : s.place = .quoteInQuoted) :
    s.step quote = (s.advance quote).push .quoted quote := by
  simp [step, h]

/-- In a quoted cell, any byte but a quotation mark joins the cell. -/
theorem step_quoted (hq : b ≠ quote) (h : s.place = .quoted) :
    s.step b = (s.advance b).push .quoted b := by
  simp [step, h, hq]

end

/-! ### Numbers of records -/

/-- The finished records are numbered from 0, and the next one has the next number. -/
structure Numbered (s : Scan) : Prop where
  next : s.position.record = s.records.length
  record : ∀ (k : Nat) (r : RawRecord), s.records.reverse[k]? = some r → r.position.record = k

/-- The record that ends gets the next number. -/
private theorem Numbered.endRecord {s : Scan} (h : s.Numbered) : s.endRecord.Numbered where
  next := by
    show s.position.record + 1 = (_ :: s.records).length
    rw [h.next, List.length_cons]
  record k r hr := by
    rw [Scan.endRecord, List.reverse_cons] at hr
    by_cases hk : k < s.records.reverse.length
    · -- a record that had been finished before
      rw [List.getElem?_append_left hk] at hr
      exact h.record k r hr
    · -- the new record, which is the last one
      rw [List.getElem?_append_right (Nat.le_of_not_lt hk)] at hr
      obtain ⟨hzero, hlast⟩ := Option.ite_none_right_eq_some.1 (List.getElem?_singleton ▸ hr)
      obtain rfl := Option.some.inj hlast
      rw [List.length_reverse] at hzero hk
      show s.position.record = k
      rw [h.next]
      omega

/-- Whatever a byte does, the records stay numbered. -/
private theorem Effect.numbered {s t : Scan} (he : Effect s t) (h : s.Numbered) : t.Numbered := by
  cases he with
  | moves place => exact ⟨h.next, h.record⟩
  | pushes place b => exact ⟨h.next, h.record⟩
  | endsCell => exact ⟨h.next, h.record⟩
  | endsRecord => exact h.endRecord

/-- No byte disturbs the numbers. -/
private theorem Numbered.step {s : Scan} (h : s.Numbered) (b : UInt8) : (s.step b).Numbered :=
  (effect_step s b).numbered ⟨h.next, h.record⟩

/-- No input disturbs the numbers. -/
private theorem Numbered.run {s : Scan} (h : s.Numbered) (bytes : List UInt8) :
    (s.run bytes).Numbered := by
  induction bytes generalizing s with
  | nil => exact h
  | cons b bytes ih => exact ih (h.step b)

/-- A record that is open at the end is numbered, too. -/
private theorem Numbered.finish {s : Scan} (h : s.Numbered) {k : Nat} {r : RawRecord}
    (hr : s.finish[k]? = some r) : r.position.record = k := by
  unfold Scan.finish at hr
  split at hr
  · exact h.record k r hr
  · exact h.endRecord.record k r hr

/-- At the start, no record has been finished. -/
private theorem numbered_start (bytes : Nat) : (start bytes).Numbered where
  next := rfl
  record k r hr := by simp [start] at hr

/-! ### What more input can do -/

/-- A record that is finished stays as it is. -/
private theorem Effect.records_suffix {s t : Scan} (he : Effect s t) : s.records <:+ t.records := by
  cases he with
  | moves place => exact List.suffix_refl _
  | pushes place b => exact List.suffix_refl _
  | endsCell => exact List.suffix_refl _
  | endsRecord => exact List.suffix_cons _ _

/-- More input adds records to those that are finished. -/
private theorem records_suffix_run (s : Scan) (bytes : List UInt8) :
    s.records <:+ (s.run bytes).records := by
  induction bytes generalizing s with
  | nil => exact List.suffix_refl _
  | cons b bytes ih =>
    -- the records are kept last first, so new ones stand at the front
    have hstep : s.records <:+ (s.step b).records := (effect_step s b).records_suffix
    rw [run_cons]
    exact hstep.trans (ih (s.step b))

/-- At the end of the input, one more record may be added. -/
private theorem records_prefix_finish (s : Scan) : s.records.reverse <+: s.finish := by
  unfold finish
  split
  · exact List.prefix_refl _
  · rw [List.reverse_prefix]
    exact List.suffix_cons _ _

/-- A line break is data within quotation marks. Elsewhere there is no open record behind it. -/
private theorem place_step_lineBreak {s : Scan} {b : UInt8} (hb : isLineBreak b = true) :
    (s.step b).place = .quoted ∨ (s.step b).place = .betweenRecords := by
  by_cases hquoted : s.place = .quoted
  · have hq : b ≠ quote := fun h => absurd hb (by rw [h]; decide)
    rw [step_quoted hq hquoted]
    exact .inl rfl
  · by_cases hbetween : s.place = .betweenRecords
    · rw [step_lineBreak_of_between hb hbetween]
      exact .inr hbetween
    · rw [step_lineBreak hb hquoted hbetween]
      exact .inr rfl

/-- The scanner behind an input. A byte order mark at its very start has been left out. -/
def behind (input : List UInt8) : Scan :=
  match input with
  | 0xef :: 0xbb :: 0xbf :: rest => (start 3).run rest
  | _ => (start 0).run input

/-- The last byte is a line break. -/
def EndsLine (input : List UInt8) : Prop := ∃ b, input.getLast? = some b ∧ isLineBreak b = true

/-- There is no line break in a byte order mark. -/
private theorem isLineBreak_of_mem_mark :
    ∀ b ∈ ([0xef, 0xbb, 0xbf] : List UInt8), isLineBreak b = false := by
  intro b hb
  simp only [List.mem_cons, List.not_mem_nil, or_false] at hb
  rcases hb with rfl | rfl | rfl <;> rfl

/-- Whether an input starts with a byte order mark has been decided before its first line break. -/
private theorem behind_append {p : List UInt8} (hline : EndsLine p) (q : List UInt8) :
    behind (p ++ q) = (behind p).run q := by
  obtain ⟨b, hlast, hb⟩ := hline
  by_cases hmark : ∃ rest, p = 0xef :: 0xbb :: 0xbf :: rest
  · obtain ⟨rest, rfl⟩ := hmark
    exact run_append (start 3) rest q
  · have hstart : behind p = (start 0).run p := by
      unfold behind
      split
      · rename_i rest
        exact absurd ⟨rest, rfl⟩ hmark
      · rfl
    have hnone : ∀ rest, p ++ q ≠ 0xef :: 0xbb :: 0xbf :: rest := by
      intro rest h
      have hp : p <+: [0xef, 0xbb, 0xbf] ++ rest := ⟨q, h⟩
      rcases List.prefix_or_prefix_of_prefix hp (List.prefix_append _ rest) with hpart | hwhole
      · -- the line break would be a byte of the mark
        have hmem : b ∈ [0xef, 0xbb, 0xbf] := hpart.subset (List.mem_of_getLast? hlast)
        rw [isLineBreak_of_mem_mark b hmem] at hb
        exact nomatch hb
      · obtain ⟨tail, htail⟩ := hwhole
        exact hmark ⟨tail, htail.symm⟩
    rw [hstart, ← run_append, behind]
    exact hnone

/-- Behind a line break the scanner is between records or within quotation marks. -/
private theorem place_behind {p : List UInt8} (hline : EndsLine p) :
    (behind p).place = .quoted ∨ (behind p).place = .betweenRecords := by
  obtain ⟨b, hlast, hb⟩ := hline
  -- only the last byte matters
  have hrun (s : Scan) (bytes : List UInt8) (h : bytes.getLast? = some b) :
      (s.run bytes).place = .quoted ∨ (s.run bytes).place = .betweenRecords := by
    obtain ⟨init, rfl⟩ := List.getLast?_eq_some_iff.1 h
    rw [run_append]
    exact place_step_lineBreak hb
  unfold behind
  split
  · rename_i rest
    -- the last byte of the mark is no line break, so there are bytes behind it
    cases rest with
    | nil =>
      rw [isLineBreak_of_mem_mark b (List.mem_of_getLast? hlast)] at hb
      exact nomatch hb
    | cons x rest =>
      exact hrun (start 3) (x :: rest) (by simpa using hlast)
  · exact hrun (start 0) p hlast

end Scan

/-- A file is scanned up to its end, and an open record is closed there. -/
theorem scan_eq_finish (input : List UInt8) : scan input = (Scan.behind input).finish := by
  unfold scan
  split
  · rfl
  · rename_i hmark
    rw [Scan.behind]
    exact hmark

/-- The input ends with a line break outside quotation marks. -/
structure EndsRecord (input : List UInt8) : Prop where
  line : Scan.EndsLine input
  unquoted : (Scan.behind input).place ≠ .quoted

/-- Behind the end of a record more input adds records and changes none. -/
theorem scan_append {p : List UInt8} (h : EndsRecord p) (q : List UInt8) :
    ∃ more, scan (p ++ q) = scan p ++ more := by
  have hplace : (Scan.behind p).place = .betweenRecords :=
    (Scan.place_behind h.line).resolve_left h.unquoted
  -- no record is open, so the records are those finished so far
  have hscan : scan p = (Scan.behind p).records.reverse := by
    rw [scan_eq_finish, Scan.finish, hplace]
  have hrun : (Scan.behind p).records <:+ ((Scan.behind p).run q).records :=
    Scan.records_suffix_run _ q
  have hprefix : scan p <+: scan (p ++ q) := by
    rw [hscan, scan_eq_finish, Scan.behind_append h.line]
    exact (List.reverse_prefix.2 hrun).trans (Scan.records_prefix_finish _)
  obtain ⟨more, hmore⟩ := hprefix
  exact ⟨more, hmore.symm⟩

/-- The records of a file are numbered from 0 in their order. -/
theorem getElem?_scan_record {input : List UInt8} {k : Nat} {r : RawRecord}
    (hr : (scan input)[k]? = some r) : r.position.record = k := by
  unfold scan at hr
  split at hr
  · exact ((Scan.numbered_start 3).run _).finish hr
  · exact ((Scan.numbered_start 0).run _).finish hr

end ProofSize.Csv
