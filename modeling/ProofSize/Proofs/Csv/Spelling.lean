import ProofSize.Proofs.Csv.Scan

/-!
# Spellings of records

The same records can be spelled in many ways. A cell can stand in quotation marks, and must if it
holds a comma or a line break or starts with a quotation mark; a line ends with one or two bytes,
lines can be empty, and the last one needs no line break. The scanner finds the cells whatever the
spelling is.

## Key results

- `run_spellsCell`, `run_spellsCells`: what the scanner has read behind a cell and behind a line
- `finish_spells`: the records of a spelled text
- `scan_spells`, `scan_byteOrderMark_spells`: the records of a file
-/

namespace ProofSize.Csv

open Scan

/-- A cell with every quotation mark doubled. -/
def doubled (cell : List UInt8) : List UInt8 :=
  cell.flatMap fun b => if b = quote then [quote, quote] else [b]

/-- The texts that spell a cell. -/
inductive SpellsCell (cell : List UInt8) : List UInt8 → Prop
  | bare (hq : cell.head? ≠ some quote) (hc : comma ∉ cell)
      (hb : ∀ b ∈ cell, isLineBreak b = false) : SpellsCell cell cell
  | quoted : SpellsCell cell (quote :: (doubled cell ++ [quote]))

/-- The texts that spell the cells of a record, with commas between them. -/
inductive SpellsCells : List (List UInt8) → List UInt8 → Prop
  | last {cell text : List UInt8} : SpellsCell cell text → SpellsCells [cell] text
  | more {cell text : List UInt8} {cells : List (List UInt8)} {rest : List UInt8} :
      SpellsCell cell text → SpellsCells cells rest →
        SpellsCells (cell :: cells) (text ++ comma :: rest)

/-- The texts that spell records. Line breaks between records stand for nothing, so a record can
    also end with two bytes; an empty line is no record. -/
inductive Spells : List (List (List UInt8)) → List UInt8 → Prop
  | nothing : Spells [] []
  | lineBreak {b : UInt8} {records : List (List (List UInt8))} {text : List UInt8} :
      isLineBreak b = true → Spells records text → Spells records (b :: text)
  | record {b : UInt8} {cells : List (List UInt8)} {line : List UInt8}
      {records : List (List (List UInt8))} {text : List UInt8} :
      SpellsCells cells line → line ≠ [] → isLineBreak b = true → Spells records text →
        Spells (cells :: records) (line ++ b :: text)
  | lastRecord {cells : List (List UInt8)} {line : List UInt8} :
      SpellsCells cells line → line ≠ [] → Spells [cells] line

/-- Cells have a spelling in quotation marks, which starts with one. -/
private theorem exists_spellsCells {cells : List (List UInt8)} (hne : cells ≠ []) :
    ∃ line, SpellsCells cells (quote :: line) := by
  induction cells with
  | nil => exact absurd rfl hne
  | cons cell cells ih =>
    -- a comma follows the cell unless it is the last one
    by_cases hcells : cells = []
    · subst hcells
      exact ⟨_, .last .quoted⟩
    · obtain ⟨line, hline⟩ := ih hcells
      exact ⟨_, .more .quoted hline⟩

/-- Records have a spelling, if each of them has a cell. It can start with a quotation mark. -/
theorem exists_spells {records : List (List (List UInt8))} (hne : ∀ cells ∈ records, cells ≠ []) :
    ∃ text, Spells records text ∧ ∀ b ∈ text.head?, b = quote := by
  induction records with
  | nil => exact ⟨[], .nothing, by simp⟩
  | cons cells records ih =>
    obtain ⟨line, hline⟩ := exists_spellsCells (hne cells List.mem_cons_self)
    obtain ⟨text, htext, -⟩ := ih fun x hx => hne x (List.mem_cons_of_mem cells hx)
    exact ⟨_, .record hline (List.cons_ne_nil _ _) (b := lineFeed) rfl htext, by simp⟩

/-! ### Reading a cell -/

/-- From `s` to `t` the scanner has read bytes of the open cell and nothing else. -/
private structure Reads (s t : Scan) (bytes : List UInt8) : Prop where
  cell : t.cell = bytes.reverse ++ s.cell
  cells : t.cells = s.cells
  records : t.records = s.records

/-- What is read one after the other is read. -/
private theorem Reads.trans {s t u : Scan} {xs ys : List UInt8} (h₁ : Reads s t xs)
    (h₂ : Reads t u ys) : Reads s u (xs ++ ys) where
  cell := by rw [h₂.cell, h₁.cell, List.reverse_append, List.append_assoc]
  cells := h₂.cells.trans h₁.cells
  records := h₂.records.trans h₁.records

/-- A byte that belongs to a cell is read into it. -/
private theorem reads_push (s : Scan) (place : Place) (b : UInt8) :
    Reads s ((s.advance b).push place b) [b] :=
  ⟨rfl, rfl, rfl⟩

/-- A bare cell is read up to the next comma or line break. -/
private theorem run_bare {s : Scan} {bytes : List UInt8} (h : s.place = .bare)
    (hc : comma ∉ bytes) (hb : ∀ b ∈ bytes, isLineBreak b = false) :
    (s.run bytes).place = .bare ∧ Reads s (s.run bytes) bytes := by
  induction bytes generalizing s with
  | nil => exact ⟨h, rfl, rfl, rfl⟩
  | cons b bytes ih =>
    have hne : b ≠ comma := fun e => hc (by simp [e])
    have hstep := step_bare hne (hb b List.mem_cons_self) h
    have hpush := reads_push s .bare b
    rw [← hstep] at hpush
    obtain ⟨hplace, hrun⟩ := ih (s := s.step b) (by rw [hstep]; rfl)
      (fun hmem => hc (List.mem_cons_of_mem b hmem))
      (fun x hx => hb x (List.mem_cons_of_mem b hx))
    rw [run_cons]
    exact ⟨hplace, hpush.trans hrun⟩

/-- The doubled marks of a quoted cell are read as single ones. -/
private theorem run_doubled {s : Scan} (h : s.place = .quoted) (cell : List UInt8) :
    (s.run (doubled cell)).place = .quoted ∧ Reads s (s.run (doubled cell)) cell := by
  induction cell generalizing s with
  | nil => exact ⟨h, rfl, rfl, rfl⟩
  | cons b cell ih =>
    -- a mark is spelled by two bytes, any other byte by itself
    have hcons : doubled (b :: cell) = (if b = quote then [quote, quote] else [b]) ++ doubled cell :=
      List.flatMap_cons
    rw [hcons, run_append]
    by_cases hq : b = quote
    · subst hq
      rw [if_pos rfl, run_cons, run_cons, run_nil]
      have hfirst := step_quote_quoted h
      have hsecond := step_quote_quoteInQuoted (s := s.step quote) (by rw [hfirst])
      obtain ⟨hplace, hrun⟩ := ih (s := (s.step quote).step quote) (by rw [hsecond]; rfl)
      -- of the two marks only the second one joins the cell
      have hmark : Reads s ((s.step quote).step quote) [quote] := by
        rw [hsecond, hfirst]
        exact ⟨rfl, rfl, rfl⟩
      exact ⟨hplace, hmark.trans hrun⟩
    · rw [if_neg hq, run_cons, run_nil]
      have hstep := step_quoted hq h
      have hpush := reads_push s .quoted b
      rw [← hstep] at hpush
      obtain ⟨hplace, hrun⟩ := ih (s := s.step b) (by rw [hstep]; rfl)
      exact ⟨hplace, hpush.trans hrun⟩

/-- Behind a spelled cell the scanner has read the cell, and stands where a comma or a line break
    ends it. Only the empty text leaves it where it was. -/
private theorem run_spellsCell {s : Scan} {cell text : List UInt8} (h : SpellsCell cell text)
    (hs : s.place = .betweenRecords ∨ s.place = .cellStart) :
    Reads s (s.run text) cell ∧ (s.run text).place ≠ .quoted ∧
      ((s.run text).place = .betweenRecords → text = [] ∧ s.place = .betweenRecords) := by
  cases h with
  | bare hq hc hb =>
    cases cell with
    | nil =>
      -- the empty cell has no bytes, so the scanner has not moved
      refine ⟨⟨rfl, rfl, rfl⟩, ?_, fun hplace => ⟨rfl, hplace⟩⟩
      rcases hs with hs | hs <;> rw [run_nil, hs] <;> decide
    | cons b bytes =>
      -- the first byte opens the cell, and the others join it
      have hne : b ≠ comma := fun e => hc (by simp [e])
      have hbq : b ≠ quote := fun e => hq (by simp [e])
      have hstep := step_first hne (hb b List.mem_cons_self) hbq hs
      have hpush := reads_push s .bare b
      rw [← hstep] at hpush
      have hbare : (s.step b).place = .bare := by rw [hstep]; rfl
      obtain ⟨hplace, hrun⟩ := run_bare hbare (fun hmem => hc (List.mem_cons_of_mem b hmem))
        (fun x hx => hb x (List.mem_cons_of_mem b hx))
      rw [run_cons, hplace]
      exact ⟨hpush.trans hrun, by decide, fun he => nomatch he⟩
  | quoted =>
    have hopen := step_quote_first hs
    obtain ⟨hplace, hrun⟩ := run_doubled (s := s.step quote) (by rw [hopen]) cell
    have hclose := step_quote_quoted hplace
    rw [run_cons, run_append, run_cons, run_nil]
    have hbehind : (((s.step quote).run (doubled cell)).step quote).place = .quoteInQuoted := by
      rw [hclose]
    refine ⟨?_, by rw [hbehind]; decide, fun he => by rw [hbehind] at he; exact nomatch he⟩
    -- neither of the two marks belongs to the cell
    constructor
    · rw [hclose]
      exact hrun.cell.trans (by rw [hopen]; rfl)
    · rw [hclose]
      exact hrun.cells.trans (by rw [hopen]; rfl)
    · rw [hclose]
      exact hrun.records.trans (by rw [hopen]; rfl)

/-! ### Reading a line -/

/-- Behind a spelled line the scanner has an open record with the cells of the line. It is between
    records only if it was so before an empty line. -/
private theorem run_spellsCells {s : Scan} {cells : List (List UInt8)} {line : List UInt8}
    (h : SpellsCells cells line) (hs : s.place = .betweenRecords ∨ s.place = .cellStart)
    (hcell : s.cell = []) :
    (s.run line).openCells = s.cells.reverse ++ cells ∧ (s.run line).records = s.records ∧
      (s.run line).place ≠ .quoted ∧
      ((s.run line).place = .betweenRecords → line = [] ∧ s.place = .betweenRecords) := by
  induction h generalizing s with
  | last hspells =>
    obtain ⟨hread, hquoted, hbetween⟩ := run_spellsCell hspells hs
    refine ⟨?_, hread.records, hquoted, hbetween⟩
    simp [openCells, hread.cell, hread.cells, hcell]
  | @more cell text cells rest hspells _ ih =>
    obtain ⟨hread, hquoted, -⟩ := run_spellsCell hspells hs
    -- the comma ends the cell, and the rest of the line starts with the next one
    have hcomma := step_comma hquoted
    let t := (s.run text).step comma
    have hplace : t.place = .cellStart := by rw [show t = _ from hcomma]; rfl
    have htcell : t.cell = [] := by rw [show t = _ from hcomma]; rfl
    have htcells : t.cells = cell :: s.cells := by
      rw [show t = _ from hcomma]
      show (s.run text).cell.reverse :: (s.run text).cells = _
      rw [hread.cell, hread.cells, hcell, List.append_nil, List.reverse_reverse]
    have htrecords : t.records = s.records := by
      rw [show t = _ from hcomma]
      exact hread.records
    obtain ⟨hopen, hrecords, hrest, hbetween⟩ := ih (.inr hplace) htcell
    rw [run_append, run_cons]
    refine ⟨?_, hrecords.trans htrecords, hrest, ?_⟩
    · rw [hopen, htcells, List.reverse_cons, List.append_assoc]
      rfl
    · intro he
      have := (hbetween he).2
      rw [hplace] at this
      exact nomatch this

/-! ### Reading a file -/

/-- The cells of the records that the scanner has finished, in their order. -/
private def found (s : Scan) : List (List (List UInt8)) := s.records.reverse.map (·.cells)

/-- A line break behind a spelled line finishes a record with the cells of the line. -/
private theorem run_line {s : Scan} {cells : List (List UInt8)} {line : List UInt8} {b : UInt8}
    (h : SpellsCells cells line) (hne : line ≠ []) (hb : isLineBreak b = true)
    (hs : s.place = .betweenRecords) (hcell : s.cell = []) (hcells : s.cells = []) :
    ∃ t, s.run (line ++ [b]) = t ∧ t.place = .betweenRecords ∧ t.cell = [] ∧ t.cells = [] ∧
      found t = found s ++ [cells] := by
  obtain ⟨hopen, hrecords, hquoted, hbetween⟩ := run_spellsCells h (.inl hs) hcell
  have hstep := step_lineBreak hb hquoted (fun he => hne (hbetween he).1)
  refine ⟨_, by rw [run_append, run_cons, run_nil, hstep], rfl, rfl, rfl, ?_⟩
  show ((⟨_, (s.run line).openCells⟩ :: (s.run line).records).reverse.map (·.cells)) = _
  rw [hopen, hrecords, hcells, List.reverse_cons, List.map_append]
  rfl

/-- The records of a spelled text are added to those found before it. -/
private theorem finish_spells {records : List (List (List UInt8))} {text : List UInt8}
    (h : Spells records text) {s : Scan} (hs : s.place = .betweenRecords) (hcell : s.cell = [])
    (hcells : s.cells = []) :
    (s.run text).finish.map (·.cells) = found s ++ records := by
  induction h generalizing s with
  | nothing =>
    rw [run_nil, List.append_nil, Scan.finish, hs]
    rfl
  | lineBreak hb _ ih =>
    rw [run_cons, step_lineBreak_of_between hb hs]
    exact ih hs hcell hcells
  | record hline hne hb _ ih =>
    -- behind the line break the scanner stands as before, with one more record
    obtain ⟨t, ht, htplace, htcell, htcells, hfound⟩ := run_line hline hne hb hs hcell hcells
    rw [List.append_cons, run_append, ht, ih htplace htcell htcells, hfound, List.append_assoc]
    rfl
  | @lastRecord cells line hline hne =>
    obtain ⟨hopen, hrecords, -, hbetween⟩ := run_spellsCells hline (.inl hs) hcell
    -- the input ends within the record, because the line is not empty
    have hfinish : (s.run line).finish = (s.run line).endRecord.records.reverse := by
      unfold Scan.finish
      split
      · rename_i he
        exact absurd (hbetween he).1 hne
      · rfl
    rw [hfinish]
    show ((⟨_, (s.run line).openCells⟩ :: (s.run line).records).reverse.map (·.cells)) = _
    rw [hopen, hrecords, hcells, List.reverse_cons, List.map_append]
    rfl

/-- The bytes of a byte order mark. -/
def byteOrderMark : List UInt8 := [0xef, 0xbb, 0xbf]

/-- The scanner finds the cells of the records that a file spells, if the file does not start with
    a byte order mark. -/
theorem scan_spells {records : List (List (List UInt8))} {text : List UInt8}
    (h : Spells records text) (hmark : ¬byteOrderMark <+: text) :
    (scan text).map (·.cells) = records := by
  unfold scan
  split
  · exact absurd (List.prefix_append byteOrderMark _) hmark
  · rw [finish_spells h rfl rfl rfl]
    rfl

/-- A byte order mark before the records is left out. -/
theorem scan_byteOrderMark_spells {records : List (List (List UInt8))} {text : List UInt8}
    (h : Spells records text) : (scan (byteOrderMark ++ text)).map (·.cells) = records := by
  show ((Scan.start 3).run text).finish.map (·.cells) = records
  rw [finish_spells h rfl rfl rfl]
  rfl

end ProofSize.Csv
