import Mathlib.Data.List.ReduceOption
import ProofSize.Config.Decode
import ProofSize.Proofs.Json.Passing
import ProofSize.Proofs.Json.Reading

/-!
# Spellings of configurations

A JSON text spells a configuration by the rules of the grammar: it is a table with its keys in any order,
blanks between the parts, any escapes in the texts, and words in plain digits. A key that is left out has
the standard value, and a key that is not known has any value at all.

A spelling says of a text that it starts with a value of a kind, and what is left behind it.

## Key results

- `SpellsItems.endsNumeral`: what follows an item ends a numeral
- `shrinks_between`, `shrinks_member`, `shrinks_entry`: what is spelled takes up characters
-/

namespace ProofSize

namespace Config

open Json (Blanks ReadsText Passes EndsNumeral isBlank)

/-- How values of a kind are spelled. -/
abbrev Spelling (α : Type) := List Char → α → List Char → Prop

/-! ### Brackets -/

/-- What follows an item between brackets, up to the closing one. -/
inductive SpellsItems {α : Type} (close : Char) (item : Spelling α) :
    List Char → List α → List Char → Prop
  | last {cs rest : List Char} : Blanks cs (close :: rest) → SpellsItems close item cs [] rest
  | next {cs cs₁ cs₂ cs₃ rest : List Char} {a : α} {as : List α} :
      Blanks cs (',' :: cs₁) → Blanks cs₁ cs₂ → item cs₂ a cs₃ → SpellsItems close item cs₃ as rest →
      SpellsItems close item cs (a :: as) rest

/-- Items between brackets, with a comma between two of them. -/
inductive SpellsBetween {α : Type} (opening close : Char) (item : Spelling α) :
    List Char → List α → List Char → Prop
  | empty {cs rest : List Char} :
      Blanks cs (close :: rest) → SpellsBetween opening close item (opening :: cs) [] rest
  | items {cs cs₁ cs₂ rest : List Char} {a : α} {as : List α} :
      Blanks cs cs₁ → item cs₁ a cs₂ → SpellsItems close item cs₂ as rest →
      SpellsBetween opening close item (opening :: cs) (a :: as) rest

/-- A key with any escapes, and its value. -/
inductive SpellsMember {α : Type} (value : String → Spelling α) : List Char → α → List Char → Prop
  | member {cs cs₁ cs₂ cs₃ key rest : List Char} {a : α} :
      ReadsText cs key cs₁ → Blanks cs₁ (':' :: cs₂) → Blanks cs₂ cs₃ →
      value (String.ofList key) cs₃ a rest → SpellsMember value ('"' :: cs) a rest

/-- Items between brackets. -/
abbrev SpellsList {α : Type} (item : Spelling α) : Spelling (List α) := SpellsBetween '[' ']' item

/-- Members between braces. -/
abbrev SpellsTable {α : Type} (value : String → Spelling α) : Spelling (List α) :=
  SpellsBetween '\x7b' '\x7d' (SpellsMember value)

/-! ### Values of a configuration -/

/-- A word in plain digits. -/
def SpellsWord : Spelling UInt64 := fun cs w rest => cs = Nat.toDigits 10 w.toNat ++ rest

/-- A text between quotation marks, with any escapes. -/
def SpellsText : Spelling String := fun cs s rest => ∃ cs', cs = '"' :: cs' ∧ ReadsText cs' s.toList rest

/-- The header names of a field, under the name of the field. -/
def SpellsColumn (key : String) : Spelling (Field × List String) := fun cs column rest =>
  key = column.1.name ∧ SpellsList SpellsText cs column.2 rest

/-- Every field with header names is listed once, with these. -/
structure ListsColumns (columns : List (Field × List String)) (names : ColumnNames) : Prop where
  nodup : (columns.map Prod.fst).Nodup
  mem_iff : ∀ f headers, (f, headers) ∈ columns ↔ names f = some headers

/-- A table of header names, with the fields in any order. -/
def SpellsColumns : Spelling ColumnNames := fun cs names rest =>
  ∃ columns, ListsColumns columns names ∧ SpellsTable SpellsColumn cs columns rest

namespace Key

/-- The value that the configuration has for the key is spelled. -/
def SpellsValue (c : Config) : Key → List Char → List Char → Prop
  | signatureSize, cs, rest => SpellsWord cs c.signatureSize rest
  | targetSignatures, cs, rest => SpellsWord cs c.targetSignatures rest
  | signatureCounts, cs, rest => SpellsList SpellsWord cs c.signatureCounts rest
  | columns, cs, rest => SpellsColumns cs c.columns rest

/-- Both configurations have the same value for the key. -/
def Agree (c d : Config) : Key → Prop
  | signatureSize => c.signatureSize = d.signatureSize
  | targetSignatures => c.targetSignatures = d.targetSignatures
  | signatureCounts => c.signatureCounts = d.signatureCounts
  | columns => c.columns = d.columns

end Key

/-- A known key with the value that the configuration has for it, or another key with any value. -/
def SpellsEntry (c : Config) (key : String) : Spelling (Option Key)
  | cs, some k, rest => key = k.name ∧ k.SpellsValue c cs rest
  | cs, none, rest => (∀ k : Key, key ≠ k.name) ∧ Passes cs .value rest

/-- The whole text spells the configuration, with blanks around it perhaps. No known key is given twice,
    and those that are left out have the standard value. -/
def Spells (text : String) (c : Config) : Prop :=
  ∃ (cs rest : List Char) (keys : List (Option Key)),
    Blanks text.toList cs ∧ SpellsTable (SpellsEntry c) cs keys rest ∧ Blanks rest [] ∧
    keys.reduceOption.Nodup ∧ ∀ k, some k ∉ keys → k.Agree c standard

/-! ### Where a spelling ends -/

section

variable {α : Type} {close opening : Char} {item : Spelling α} {cs rest : List Char} {as : List α}

/-- What stands between brackets starts with the opening one. -/
theorem SpellsBetween.exists_cons (h : SpellsBetween opening close item cs as rest) :
    ∃ cs', cs = opening :: cs' := by
  cases h with
  | empty | items => exact ⟨_, rfl⟩

/-- What follows an item ends a numeral. -/
theorem SpellsItems.endsNumeral (h : SpellsItems close item cs as rest) (hclose : EndsNumeral [close]) :
    EndsNumeral cs := by
  -- a blank, a comma or the bracket comes next, none of which goes on a numeral
  cases h with
  | last hblanks => exact hblanks.endsNumeral (.of_cons (hclose close rfl))
  | next hblanks => exact hblanks.endsNumeral (.of_cons (by decide))

/-- An item behind a comma takes up the comma and its own characters. -/
theorem length_lt_of_next {cs₁ cs₂ cs₃ : List Char} (hcomma : Blanks cs (',' :: cs₁))
    (hblanks : Blanks cs₁ cs₂) (hitem : cs₃.length < cs₂.length) : cs₃.length + 1 < cs.length := by
  have hcomma := hcomma.length_le
  have hblanks := hblanks.length_le
  rw [List.length_cons] at hcomma
  omega

/-- What is spelled takes up characters. -/
def Spelling.Shrinks (spelling : Spelling α) : Prop :=
  ∀ ⦃cs : List Char⦄ ⦃a : α⦄ ⦃rest : List Char⦄, spelling cs a rest → rest.length < cs.length

/-- The items and the closing bracket take up characters. -/
theorem SpellsItems.length_lt (h : SpellsItems close item cs as rest) (hitem : item.Shrinks) :
    rest.length < cs.length := by
  induction h with
  | last hclose => exact hclose.length_le
  | next hcomma hblanks ha _ ih =>
    have hnext := length_lt_of_next hcomma hblanks (hitem ha)
    omega

/-- Brackets take up characters, whatever stands between them. -/
theorem shrinks_between (hitem : item.Shrinks) :
    Spelling.Shrinks (SpellsBetween opening close item) := by
  intro cs as rest h
  cases h with
  | empty hclose =>
    have hclose := hclose.length_le
    rw [List.length_cons] at hclose ⊢
    omega
  | items hblanks ha has =>
    have hblanks := hblanks.length_le
    have ha := hitem ha
    have has := has.length_lt hitem
    rw [List.length_cons]
    omega

/-- A member takes up its key and its colon at least. -/
theorem shrinks_member {value : String → Spelling α} (hvalue : ∀ key, (value key).Shrinks) :
    Spelling.Shrinks (SpellsMember value) := by
  intro cs a rest h
  cases h with
  | member hkey hcolon hblanks ha =>
    -- key, colon and value follow each other, so their lengths add up
    have hkey := hkey.length_lt
    have hcolon := hcolon.length_le
    have hblanks := hblanks.length_le
    have ha := hvalue _ ha
    rw [List.length_cons] at hcolon ⊢
    omega

end

/-- A word has one digit at least. -/
theorem shrinks_word : SpellsWord.Shrinks := by
  intro cs w rest h
  have hpos := List.length_pos_iff.2 (Nat.toDigits_ne_nil (b := 10) (n := w.toNat))
  rw [h, List.length_append]
  omega

/-- A text has two quotation marks. -/
theorem shrinks_text : SpellsText.Shrinks := by
  intro cs s rest h
  obtain ⟨cs', rfl, hs⟩ := h
  exact Nat.lt_succ_of_lt hs.length_lt

/-- The header names of a field stand between brackets. -/
theorem shrinks_column (key : String) : (SpellsColumn key).Shrinks :=
  fun _ _ _ h => shrinks_between shrinks_text h.2

/-- An entry takes up characters, whether its key is known or not. -/
theorem shrinks_entry (c : Config) (key : String) : (SpellsEntry c key).Shrinks := by
  intro cs known rest h
  match known with
  -- the grammar of JSON says how long a value under another key is
  | none => exact h.2.length_lt
  | some .signatureSize | some .targetSignatures => exact shrinks_word h.2
  | some .signatureCounts => exact shrinks_between shrinks_word h.2
  | some .columns =>
    obtain ⟨columns, -, hcolumns⟩ := h.2
    exact shrinks_between (shrinks_member shrinks_column) hcolumns

end Config

end ProofSize
