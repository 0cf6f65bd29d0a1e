import ProofSize.Proofs.Csv.Padding
import ProofSize.Proofs.Table.Loading
import ProofSize.Table.Writer

/-!
# A written table reads back

Every cell of a written table consists of letters or digits or is empty, so it needs no quotation
marks and has no blanks around it. The scanner finds the cells as they were written, the columns of
the standard aliases are those of the written header, and every number reads back.

## Key results

- `spells_text`: the bytes of a written table spell its header and the cells of its rows
- `isRow_writtenCells`: the cells of a row say that row
- `readRows_standard_write`: a written table reads back as the same rows
- `readRows_write`: different rows are written differently
-/

namespace ProofSize.Table

/-! ### Plain texts -/

/-- The text has only characters from `0` to `z`. There are no blanks, separators and quotation marks
    among them. -/
def Plain (s : String) : Prop := ∀ c ∈ s.toList, 48 ≤ c.toNat ∧ c.toNat ≤ 122

/-- Nothing is taken off a plain text. -/
private theorem Plain.trim {s : String} (h : Plain s) : Blank.trim s = s := by
  have hblank : ∀ c ∈ s.toList, Blank.isBlank c = false := by
    intro c hc
    have hrange := h c hc
    simp only [Blank.isBlank, Blank.ranges, List.any_cons, List.any_nil, Bool.or_false,
      Bool.or_eq_false_iff, Bool.and_eq_false_iff, decide_eq_false_iff_not]
    omega
  -- with no blank at either end nothing is taken off
  rw [Blank.trim, Blank.trimBy_eq_self, String.ofList_toList]
  · intro c hc
    exact hblank c (List.mem_of_head? hc)
  · intro c hc
    exact hblank c (List.mem_of_getLast? hc)

/-- Nothing is taken off plain cells. -/
private theorem map_trim_of_plain {cells : List String} (h : ∀ x ∈ cells, Plain x) :
    cells.map Blank.trim = cells := by
  induction cells with
  | nil => rfl
  | cons cell cells ih =>
    rw [List.map_cons, (h cell List.mem_cons_self).trim,
      ih fun x hx => h x (List.mem_cons_of_mem cell hx)]

/-- A plain text is spelled without quotation marks. -/
private theorem Plain.spellsCell {s : String} (h : Plain s) :
    Csv.SpellsCell (Utf8.bytes s) (Utf8.bytes s) := by
  -- quotation marks, commas and line breaks all come before the digits
  have hne {c d : Char} (hc : c ∈ s.toList) (hd : d.toNat < 48) : c ≠ d := by
    intro he
    have := h c hc
    rw [he] at this
    omega
  apply Csv.spellsCell_bytes
  · intro c hc
    exact ⟨hne hc (by decide), hne hc (by decide), hne hc (by decide)⟩
  · intro hhead
    exact hne (List.mem_of_head? hhead) (by decide) rfl

/-- The digits of a number are plain. -/
private theorem plain_toString (n : Nat) : Plain (toString n) := by
  intro c hc
  have hdigits : (toString n).toList = Nat.toDigits 10 n := Nat.toList_repr
  rw [hdigits] at hc
  have hdigit : c.isDigit = true := Nat.isDigit_of_mem_toDigits (by decide) (by decide) hc
  obtain ⟨hlo, hhi⟩ := Char.isDigit_iff_toNat.1 hdigit
  exact ⟨hlo, Nat.le_trans hhi (by decide)⟩

/-- An empty cell is plain. -/
private theorem plain_empty : Plain "" := by
  intro c hc
  exact absurd hc (by simp)

/-- The names of a written header are plain. -/
private theorem plain_of_mem_writtenHeader : ∀ name ∈ writtenHeader, Plain name := by
  have hall : (writtenHeader.all fun name => name.toList.all fun c =>
      decide (48 ≤ c.toNat ∧ c.toNat ≤ 122)) = true := by decide +kernel
  intro name hname c hc
  exact of_decide_eq_true (List.all_eq_true.1 (List.all_eq_true.1 hall name hname) c hc)

/-- The cells of a written row are plain. -/
private theorem plain_of_mem_writtenCells (r : Row) : ∀ cell ∈ writtenCells r, Plain cell := by
  have hmodified : Plain ((r.adsModified.map fun n => toString n.toNat).getD "") := by
    cases r.adsModified with
    | none => exact plain_empty
    | some n => exact plain_toString _
  have hcount : Plain ((r.adsCount.map wordCell).getD "") := by
    cases r.adsCount with
    | none => exact plain_empty
    | some n => exact plain_toString _
  -- all other cells are the digits of a word
  simp only [writtenCells, List.forall_mem_cons, hmodified, hcount, wordCell, plain_toString,
    true_and]
  intro cell hcell
  exact absurd hcell List.not_mem_nil

/-- A written header has eleven names. -/
private theorem length_writtenHeader : writtenHeader.length = 11 := rfl

/-- A written row has eleven cells. -/
private theorem length_writtenCells (r : Row) : (writtenCells r).length = 11 := rfl

/-! ### The bytes of a table -/

/-- A comma is the byte that separates cells. -/
private theorem bytes_comma : Utf8.bytes "," = [Csv.Scan.comma] := by decide

/-- A line break is the byte that ends records. -/
private theorem bytes_lineBreak : Utf8.bytes "\n" = [Csv.Scan.lineFeed] := by decide

/-- Plain cells with commas between them spell the cells of a record. -/
private theorem spellsCells_intercalate {cell : String} {cells : List String}
    (h : ∀ x ∈ cell :: cells, Plain x) :
    Csv.SpellsCells ((cell :: cells).map Utf8.bytes)
      (Utf8.bytes (",".intercalate (cell :: cells))) := by
  induction cells generalizing cell with
  | nil =>
    rw [String.intercalate_singleton]
    exact .last (h cell List.mem_cons_self).spellsCell
  | cons next cells ih =>
    rw [String.intercalate_cons_cons, Utf8.bytes_append, Utf8.bytes_append, bytes_comma,
      List.append_assoc]
    exact .more (h cell List.mem_cons_self).spellsCell
      (ih fun x hx => h x (List.mem_cons_of_mem cell hx))

/-- A line of two or more cells is not empty, because there is a comma in it. -/
private theorem bytes_intercalate_ne_nil (cell next : String) (cells : List String) :
    Utf8.bytes (",".intercalate (cell :: next :: cells)) ≠ [] := by
  rw [String.intercalate_cons_cons, Utf8.bytes_append, Utf8.bytes_append, bytes_comma]
  simp

/-- Lines of plain cells spell their records. -/
private theorem spells_join {lines : List (List String)}
    (hplain : ∀ cells ∈ lines, ∀ x ∈ cells, Plain x) (hlen : ∀ cells ∈ lines, 2 ≤ cells.length) :
    Csv.Spells (lines.map (·.map Utf8.bytes)) (Utf8.bytes (String.join (lines.map line))) := by
  induction lines with
  | nil => exact .nothing
  | cons cells lines ih =>
    have hrest := ih (fun x hx => hplain x (List.mem_cons_of_mem cells hx))
      (fun x hx => hlen x (List.mem_cons_of_mem cells hx))
    rw [List.map_cons, List.map_cons, String.join_cons, line, Utf8.bytes_append, Utf8.bytes_append,
      bytes_lineBreak, List.append_assoc]
    have hcells := hplain cells List.mem_cons_self
    -- a line with one empty cell would be lost, but there are always two cells
    match cells, hlen cells List.mem_cons_self, hcells with
    | cell :: next :: rest, _, hcells =>
      exact .record (spellsCells_intercalate hcells) (bytes_intercalate_ne_nil cell next rest) rfl
        hrest

/-- A written table spells its header and the cells of its rows. -/
theorem spells_text (rows : List Row) :
    Csv.Spells ((writtenHeader :: rows.map writtenCells).map (·.map Utf8.bytes))
      (Utf8.bytes (text rows)) := by
  have htext : text rows = String.join ((writtenHeader :: rows.map writtenCells).map line) := by
    rw [text, List.map_cons, List.map_map, Function.comp_def]
  rw [htext]
  -- header and rows have plain cells, and two at least
  apply spells_join
  · intro cells hcells
    rcases List.mem_cons.1 hcells with rfl | hcells
    · exact plain_of_mem_writtenHeader
    · obtain ⟨r, -, rfl⟩ := List.mem_map.1 hcells
      exact plain_of_mem_writtenCells r
  · intro cells hcells
    rcases List.mem_cons.1 hcells with rfl | hcells
    · decide
    · obtain ⟨r, -, rfl⟩ := List.mem_map.1 hcells
      rw [length_writtenCells]
      decide

/-- A written table starts with a letter, not with a byte order mark. -/
private theorem not_byteOrderMark_text (rows : List Row) :
    ¬Csv.byteOrderMark <+: Utf8.bytes (text rows) := by
  intro ⟨rest, hrest⟩
  -- the first name in the header starts with `n`
  have hfirst : (Utf8.bytes (line writtenHeader)).head? = some 0x6e := by decide +kernel
  rw [text, String.join_cons, Utf8.bytes_append] at hrest
  have hhead : (Utf8.bytes (line writtenHeader) ++ Utf8.bytes (String.join
      (rows.map fun r => line (writtenCells r)))).head? = some 0xef := by
    rw [← hrest]
    simp [Csv.byteOrderMark]
  rw [List.head?_append, hfirst, Option.some_or] at hhead
  exact absurd (Option.some.inj hhead) (by decide)

/-- The scanner finds the header and the cells as they were written. -/
private theorem hasTexts_write (rows : List Row) :
    Csv.HasTexts (Csv.scan (write rows).data.toList) writtenHeader (rows.map writtenCells) :=
  .inl (Csv.scan_spells (spells_text rows) (not_byteOrderMark_text rows))

/-! ### What the cells say -/

/-- The columns of a written table under the standard aliases. -/
private def writtenColumns : Columns := ⟨.standard, writtenHeader⟩

/-- Where the writer puts a field. -/
private def writtenPosition : Field → Nat
  | .updatesSinceRefresh => 0
  | .totalUpdates => 1
  | .adsModified => 2
  | .adsCount => 3
  | .totalBytes => 4
  | .updateBytes => 5
  | .signatureCount => 6
  | .signatureBytes => 7
  | .updateProofBytes => 8
  | .freshnessBytes => 9
  | .uncachedFreshnessBytes => 10

/-- The names of the written header have no blanks around them. -/
private theorem trimmed_writtenColumns : writtenColumns.Trimmed :=
  fun name hname => (plain_of_mem_writtenHeader name hname).trim

/-- The reader looks every field up where the writer puts it. -/
private theorem isColumn_written (f : Field) : writtenColumns.IsColumn f (writtenPosition f) := by
  rw [← Columns.position?_eq_some_iff trimmed_writtenColumns]
  -- eleven fields, each looked up in the fixed header
  cases f <;> decide +kernel

/-- A written table lacks no column. -/
private theorem complete_writtenColumns : writtenColumns.Complete where
  required f _ := ⟨_, isColumn_written f⟩
  counter := .inl ⟨_, isColumn_written _⟩

/-- The digits of a number in the right column say the number of the field. -/
private theorem says_toString {cells : List String} {f : Field} {n : Nat}
    (hcell : cells[writtenPosition f]? = some (toString n)) (hn : n < f.limit) :
    Says writtenColumns cells f (some n) := by
  have hlt : n < UInt64.size := Nat.lt_of_lt_of_le hn (Field.limit_le f)
  -- the digits of a word are read as the word, so they denote it
  have hdenotes := Decimal.parseWord?_eq_some_iff.1 (Decimal.parseWord?_toString (UInt64.ofNat n))
  rw [UInt64.toNat_ofNat_of_lt' hlt] at hdenotes
  exact .number (isColumn_written f) hcell hdenotes hn

/-- The cells of a row say that row. -/
theorem isRow_writtenCells (r : Row) : IsRow ⟨.standard, writtenHeader⟩ (writtenCells r) r where
  counters :=
    ⟨_, _, says_toString rfl (UInt64.toNat_lt_size _), says_toString rfl (UInt64.toNat_lt_size _),
      rfl, rfl⟩
  adsModified := by
    -- an empty cell stands for a number that has not been recorded
    cases h : r.adsModified with
    | none =>
      exact .empty (isColumn_written .adsModified) (by simp [writtenCells, writtenPosition, h]) rfl
    | some n =>
      exact says_toString (by simp [writtenCells, writtenPosition, h]) (UInt32.toNat_lt_size n)
  signatureCount := says_toString rfl (UInt64.toNat_lt_size _)
  signatureBytes := says_toString rfl (UInt64.toNat_lt_size _)
  updateBytes := says_toString rfl (UInt64.toNat_lt_size _)
  updateProofBytes := says_toString rfl (UInt64.toNat_lt_size _)
  freshnessBytes := says_toString rfl (UInt64.toNat_lt_size _)
  uncachedFreshnessBytes := says_toString rfl (UInt64.toNat_lt_size _)
  totalBytes := says_toString rfl (UInt64.toNat_lt_size _)
  adsCount := by
    cases h : r.adsCount with
    | none =>
      exact .empty (isColumn_written .adsCount) (by simp [writtenCells, writtenPosition, h]) rfl
    | some n =>
      exact says_toString (by simp [writtenCells, writtenPosition, h, wordCell])
        (UInt64.toNat_lt_size n)

/-! ### The round trip -/

/-- By the rules of loading, the written cells are the rows. -/
private theorem loads_written (rows : List Row) :
    Loads writtenColumns (rows.map writtenCells) (.ok rows) := by
  refine .rows complete_writtenColumns ?_
  rw [List.forall₂_map_left_iff, List.forall₂_same]
  intro r _
  exact isRow_writtenCells r

/-- Under the standard aliases a written table reads back. -/
theorem readRows_standard_write (rows : List Row) : readRows .standard (write rows) = .ok rows := by
  have hwidth : ∀ cells ∈ rows.map writtenCells, cells.length = writtenHeader.length := by
    intro cells hcells
    obtain ⟨r, -, rfl⟩ := List.mem_map.1 hcells
    rw [length_writtenCells, length_writtenHeader]
  have hloads := loads_ofRecords (hasTexts_write rows)
    (fun k r hr => Csv.getElem?_scan_record hr) hwidth .standard
  -- no text of the table is changed when blanks are taken off
  have hheader : writtenHeader.map Blank.trim = writtenHeader :=
    map_trim_of_plain plain_of_mem_writtenHeader
  have hcells : (rows.map writtenCells).map (·.map Blank.trim) = rows.map writtenCells := by
    rw [List.map_map]
    exact List.map_congr_left fun r _ => map_trim_of_plain (plain_of_mem_writtenCells r)
  rw [hheader, hcells] at hloads
  exact hloads.unique (loads_written rows)

/-- A written table reads back as the same rows, so different rows are written differently. -/
theorem readRows_write :
    (∀ rows : List Row, readRows .standard (write rows) = .ok rows) ∧
      Function.Injective write := by
  have hback := readRows_standard_write
  refine ⟨hback, ?_⟩
  -- what reads back as two lists of rows is both of them
  intro xs ys h
  have hxs := hback xs
  rw [h, hback ys] at hxs
  exact (Except.ok.inj hxs).symm

end ProofSize.Table
