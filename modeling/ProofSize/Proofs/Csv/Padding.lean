import ProofSize.Proofs.Csv.Spelling
import ProofSize.Proofs.Text.Trim

/-!
# Writing a text into a cell

A text is written into a cell between quotation marks or bare, with blanks around it. The blanks do not
count when the cell is read. Only a cell whose text starts with a byte order mark can make a file look as
if it started with the mark.

## Key results

- `Padded.trim_eq`: blanks around a text do not count
- `Writes.exists_padded`: the ways to write a text spell the text with blanks around it
- `head?_trim_of_marked`: what a file has as its first name if it looks marked
-/

namespace ProofSize.Csv

open Scan

section

variable {cell text : String}

/-! ### Blanks around a text -/

/-- The text is that of the cell with blanks around it. -/
def Padded (cell text : String) : Prop :=
  ∃ before after : String, text = before ++ cell ++ after ∧
    (∀ c ∈ before.toList, Blank.isBlank c = true) ∧ ∀ c ∈ after.toList, Blank.isBlank c = true

/-- A cell may go without blanks around it. -/
theorem padded_self (cell : String) : Padded cell cell :=
  ⟨"", "", by simp, by simp, by simp⟩

/-- Blanks around a text do not count. -/
theorem Padded.trim_eq (h : Padded cell text) : Blank.trim text = Blank.trim cell := by
  obtain ⟨before, after, rfl, hbefore, hafter⟩ := h
  rw [Blank.trim, String.toList_append, String.toList_append, Blank.trimBy_append hbefore hafter,
    Blank.trim]

/-! ### Two ways to write a cell -/

/-- The bytes with which a cell is written: between quotation marks with any blanks around it, or bare
    with spaces and tabs around it. A bare cell has no comma and no line break and does not start with
    a quotation mark. -/
inductive Writes (cell : String) : List UInt8 → Prop
  | quoted {before after : String} :
      (∀ c ∈ before.toList, Blank.isBlank c = true) → (∀ c ∈ after.toList, Blank.isBlank c = true) →
      Writes cell (quote :: (doubled (Utf8.bytes (before ++ cell ++ after)) ++ [quote]))
  | bare {before after : String} :
      (∀ c ∈ before.toList, c = ' ' ∨ c = '\t') → (∀ c ∈ after.toList, c = ' ' ∨ c = '\t') →
      (∀ c ∈ cell.toList, c ≠ ',' ∧ c ≠ '\n' ∧ c ≠ '\r') → cell.toList.head? ≠ some '"' →
      Writes cell (Utf8.bytes (before ++ cell ++ after))

/-- A text without commas and line breaks that does not start with a quotation mark can stand bare. -/
theorem spellsCell_bytes (hsep : ∀ c ∈ text.toList, c ≠ ',' ∧ c ≠ '\n' ∧ c ≠ '\r')
    (hquote : text.toList.head? ≠ some '"') : SpellsCell (Utf8.bytes text) (Utf8.bytes text) := by
  refine .bare ?_ ?_ ?_
  -- the cell starts with no quotation mark, and has no separator in it
  · intro hhead
    obtain ⟨rest, hrest⟩ := List.head?_eq_some_iff.1 hhead
    apply hquote
    apply Utf8.head?_of_starts
    exact ⟨rest, hrest.symm⟩
  · intro hmem
    exact (hsep ',' (Utf8.mem_of_mem_bytes (by decide) hmem)).1 rfl
  · intro b hb
    rw [isLineBreak, Bool.or_eq_false_iff, beq_eq_false_iff_ne, beq_eq_false_iff_ne]
    constructor
    · intro h
      subst h
      exact (hsep '\n' (Utf8.mem_of_mem_bytes (by decide) hb)).2.1 rfl
    · intro h
      subst h
      exact (hsep '\r' (Utf8.mem_of_mem_bytes (by decide) hb)).2.2 rfl

/-- Both ways spell the cell with blanks around it. -/
theorem Writes.exists_padded {bytes : List UInt8} (h : Writes cell bytes) :
    ∃ text, Padded cell text ∧ SpellsCell (Utf8.bytes text) bytes := by
  cases h with
  | quoted hbefore hafter => exact ⟨_, ⟨_, _, rfl, hbefore, hafter⟩, .quoted⟩
  | @bare before after hbefore hafter hsep hquote =>
    have hblank {c : Char} (hc : c = ' ' ∨ c = '\t') : Blank.isBlank c = true := by
      rcases hc with rfl | rfl <;> decide
    have hpad {c : Char} (hc : c = ' ' ∨ c = '\t') : c ≠ ',' ∧ c ≠ '\n' ∧ c ≠ '\r' ∧ c ≠ '"' := by
      rcases hc with rfl | rfl <;> decide
    refine ⟨before ++ cell ++ after, ⟨before, after, rfl, fun c hc => hblank (hbefore c hc),
      fun c hc => hblank (hafter c hc)⟩, spellsCell_bytes ?_ ?_⟩
    · intro c hc
      rw [String.toList_append, String.toList_append, List.mem_append, List.mem_append] at hc
      rcases hc with (hc | hc) | hc
      · exact hpad (hbefore c hc) |>.imp_right fun h => ⟨h.1, h.2.1⟩
      · exact hsep c hc
      · exact hpad (hafter c hc) |>.imp_right fun h => ⟨h.1, h.2.1⟩
    · -- the first character is one of the blanks or that of the cell
      intro hhead
      rw [String.toList_append, String.toList_append, List.head?_append, List.head?_append,
        Option.or_eq_some_iff, Option.or_eq_some_iff] at hhead
      rcases hhead with (h | ⟨-, h⟩) | ⟨-, h⟩
      · exact (hpad (hbefore _ (List.mem_of_head? h))).2.2.2 rfl
      · exact hquote h
      · exact (hpad (hafter _ (List.mem_of_head? h))).2.2.2 rfl

end

/-! ### Files that look marked -/

section

variable {cell text rest : List UInt8} {cells : List (List UInt8)}

/-- A mark that does not reach into the rest stands in the text. -/
private theorem marks_of_append {marks : List UInt8} (h : marks <+: text ++ rest)
    (hrest : ∀ b ∈ rest.head?, b ∉ marks) : marks <+: text := by
  rcases List.prefix_or_prefix_of_prefix h (List.prefix_append text rest) with hmarks | ⟨more, rfl⟩
  · exact hmarks
  · -- what is left of the marks would start with a byte that is none of them
    cases more with
    | nil => simp
    | cons b more =>
      obtain ⟨bs, rfl⟩ : ∃ bs, rest = b :: bs := by
        obtain ⟨behind, hbehind⟩ := (List.prefix_append_right_inj text).1 h
        exact ⟨more ++ behind, hbehind.symm⟩
      exact absurd (by simp) (hrest b rfl)

/-- A cell whose spelling starts with a byte order mark starts with it itself. -/
private theorem SpellsCell.marked (h : SpellsCell cell text) (hmark : byteOrderMark <+: text ++ rest)
    (hrest : ∀ b ∈ rest.head?, b ∉ byteOrderMark) : byteOrderMark <+: cell := by
  have htext := marks_of_append hmark hrest
  cases h with
  | bare => exact htext
  | quoted => exact absurd (List.cons_prefix_cons.1 htext).1 (by decide)

/-- If the spelling of cells starts with a byte order mark, their first cell does. -/
private theorem SpellsCells.marked (h : SpellsCells cells text)
    (hmark : byteOrderMark <+: text ++ rest) (hrest : ∀ b ∈ rest.head?, b ∉ byteOrderMark) :
    ∃ cell, cells.head? = some cell ∧ byteOrderMark <+: cell := by
  cases h with
  | last hcell => exact ⟨_, rfl, hcell.marked hmark hrest⟩
  | more hcell _ =>
    rw [List.append_assoc] at hmark
    have hcomma : comma ∉ byteOrderMark := by decide
    exact ⟨_, rfl, hcell.marked hmark (by simpa using hcomma)⟩

/-- If a file looks marked, then so does its first cell. -/
private theorem Spells.marked {records : List (List (List UInt8))}
    (h : Spells (cells :: records) text) (hmark : byteOrderMark <+: text) :
    ∃ cell, cells.head? = some cell ∧ byteOrderMark <+: cell := by
  have hbreak {b : UInt8} (hb : isLineBreak b = true) : b ∉ byteOrderMark := by
    simp only [isLineBreak, Bool.or_eq_true, beq_iff_eq] at hb
    rcases hb with rfl | rfl <;> decide
  cases h with
  | lineBreak hb _ =>
    have hfirst := (List.cons_prefix_cons.1 hmark).1
    exact absurd (hfirst ▸ List.mem_cons_self) (hbreak hb)
  | record hline _ hb _ => exact hline.marked hmark (by simpa using hbreak hb)
  | lastRecord hline _ =>
    rw [← List.append_nil text] at hmark
    exact hline.marked hmark (by simp)

end

/-- A file that looks marked has a first name that starts with a byte order mark, also when the blanks
    around it are left out. -/
theorem head?_trim_of_marked {names : List String} {records : List (List String)}
    {text : List UInt8} (h : Spells ((names :: records).map (·.map Utf8.bytes)) text)
    (hmark : byteOrderMark <+: text) :
    ∃ name, names.head? = some name ∧ (Blank.trim name).toList.head? = some '\uFEFF' := by
  obtain ⟨cell, hcell, hmarked⟩ := Spells.marked h hmark
  rw [List.head?_map] at hcell
  obtain ⟨name, hname, rfl⟩ := Option.map_eq_some_iff.1 hcell
  exact ⟨name, hname, Blank.head?_trim (by decide) (Utf8.head?_of_starts hmarked)⟩

end ProofSize.Csv
