import ProofSize.Json.Value
import ProofSize.Proofs.Json.Numbers

/-!
# What a printed document says

The printed text of a document is read by the grammar as the document: each character of a text as the
character it was, however it is escaped, each number as its numeral, and the items of a list and the
members of a table one behind the other, with a line break before each of them.

## Key results

- `readsText_escapes`: an escaped text reads as the text
- `reads_value`: a printed document reads as the document, whatever follows it
- `spells_render`: the printed text spells the document
-/

namespace ProofSize.Json

open Binary64 (Layout)

/-! ### What a document says -/

mutual

/-- What the document says when it is printed in a layout. -/
def Value.document (layout : Layout) : Value → Document
  | .null => .null
  | .text s => .text s
  | .natural n => .number false n 0
  | .number negative m => (Numeral.finite layout negative m).document
  | .list items => .list (documents layout items)
  | .table members => .table (memberDocuments layout members)

/-- The documents of the items of a list. -/
def documents (layout : Layout) : List Value → List Document
  | [] => []
  | v :: vs => v.document layout :: documents layout vs

/-- The documents of the members of a table, under their keys. -/
def memberDocuments (layout : Layout) : List (String × Value) → List (String × Document)
  | [] => []
  | (key, v) :: members => (key, v.document layout) :: memberDocuments layout members

end

/-- The documents of items are made one by one. -/
theorem documents_eq_map (layout : Layout) (vs : List Value) :
    documents layout vs = vs.map (Value.document layout) := by
  induction vs with
  | nil => rfl
  | cons v vs ih => rw [documents, ih, List.map_cons]

/-- The documents of members are made one by one, under the same keys. -/
theorem memberDocuments_eq_map (layout : Layout) (members : List (String × Value)) :
    memberDocuments layout members = members.map fun m => (m.1, m.2.document layout) := by
  induction members with
  | nil => rfl
  | cons m members ih => rw [memberDocuments, ih, List.map_cons]

/-! ### Texts -/

/-- The last two digits of the code of a control character name the character. -/
private theorem hexUnit?_control : ∀ n < 0x20,
    hexUnit? '0' '0' (Nat.digitChar (n / 16)) (Nat.digitChar (n % 16)) = some n := by
  decide

/-- An escaped character reads as the character. -/
theorem ReadsText.escaped (c : Char) {cs s rest : List Char} (h : ReadsText cs s rest) :
    ReadsText (Json.escape c ++ cs) (c :: s) rest := by
  unfold Json.escape
  by_cases hquote : c = '"'
  · subst hquote
    exact .escape rfl h
  rw [if_neg hquote]
  by_cases hslash : c = '\\'
  · subst hslash
    exact .escape rfl h
  rw [if_neg hslash]
  by_cases hletter : c = '\x08' ∨ c = '\x0c' ∨ c = '\n' ∨ c = '\r' ∨ c = '\t'
  · rcases hletter with rfl | rfl | rfl | rfl | rfl <;> exact .escape rfl h
  obtain ⟨h₁, h₂, h₃, h₄, h₅⟩ : c ≠ '\x08' ∧ c ≠ '\x0c' ∧ c ≠ '\n' ∧ c ≠ '\r' ∧ c ≠ '\t' := by
    simpa only [not_or] using hletter
  rw [if_neg h₁, if_neg h₂, if_neg h₃, if_neg h₄, if_neg h₅]
  by_cases hcontrol : c.toNat < 0x20
  · rw [if_pos hcontrol]
    -- a control character is no half of a pair
    have hleading : isLeading c.toNat = false := by
      simp only [isLeading, Bool.and_eq_false_iff, decide_eq_false_iff_not]
      omega
    have htrailing : isTrailing c.toNat = false := by
      simp only [isTrailing, Bool.and_eq_false_iff, decide_eq_false_iff_not]
      omega
    have hread := ReadsText.unit (hexUnit?_control c.toNat hcontrol) hleading htrailing h
    rw [Char.ofNat_toNat] at hread
    exact hread
  · rw [if_neg hcontrol]
    exact .plain (Nat.le_of_not_lt hcontrol) hquote hslash h

/-- An escaped text reads as the text. -/
theorem readsText_escapes (s rest : List Char) :
    ReadsText (s.flatMap escape ++ '"' :: rest) s rest := by
  induction s with
  | nil => exact .done
  | cons c s ih =>
    rw [List.flatMap_cons, List.append_assoc]
    exact ih.escaped c

/-- A quoted text is read back. -/
theorem readsText_quote (s : String) (rest : List Char) :
    ∃ cs, quote s ++ rest = '"' :: cs ∧ ReadsText cs s.toList rest := by
  refine ⟨s.toList.flatMap escape ++ '"' :: rest, ?_, readsText_escapes _ _⟩
  simp [quote]

/-! ### Lines -/

/-- A line break with its indentation is blank. -/
theorem blanks_newLine (level : Nat) (cs : List Char) : Blanks (newLine level ++ cs) cs := by
  refine .blank rfl ?_
  induction 2 * level with
  | zero => exact .none
  | succ k ih => exact .blank rfl ih

/-- A line for each item, all behind a comma. -/
def nextLines (level : Nat) (items : List (List Char)) : List Char :=
  items.flatMap fun item => ',' :: (newLine level ++ item)

/-- Items with commas between them stand on lines of their own. -/
private theorem intercalate_lines (level : Nat) (item : List Char) (items : List (List Char)) :
    [','].intercalate ((item :: items).map fun item => newLine level ++ item) =
      newLine level ++ item ++ nextLines level items := by
  induction items generalizing item with
  | nil => simp [nextLines]
  | cons next items ih =>
    rw [List.map_cons, List.map_cons, List.intercalate_cons_cons, ← List.map_cons, ih]
    simp [nextLines]

/-- Between brackets the first item stands behind the opening one and the others behind a comma. -/
theorem enclose_cons (left right : Char) (level : Nat) (item : List Char) (items : List (List Char))
    (rest : List Char) : enclose left right level (item :: items) ++ rest =
      left :: (newLine (level + 1) ++ (item ++ (nextLines (level + 1) items ++
        (newLine level ++ right :: rest)))) := by
  rw [enclose, if_neg (List.cons_ne_nil _ _)]
  dsimp only
  rw [intercalate_lines]
  simp only [List.cons_append, List.append_assoc, List.nil_append]

/-! ### Documents -/

variable (layout : Layout)

/-- A key and a value that is read behind the colon. -/
private theorem reads_member (key : String) {cs rest : List Char} {d : Document}
    (h : Reads (cs ++ rest) (.value d) rest) :
    Reads (quote key ++ ':' :: ' ' :: cs ++ rest) (.member key d) rest := by
  obtain ⟨cs', hcs, hread⟩ := readsText_quote key (':' :: ' ' :: (cs ++ rest))
  rw [List.append_assoc, List.cons_append, List.cons_append, hcs, ← @String.ofList_toList key]
  exact .member hread .none (.blank rfl .none) h

/-- The printed value reads as its document, whatever follows it. -/
def ReadsBack (level : Nat) (v : Value) : Prop :=
  ∀ rest, Reads (v.render layout level ++ rest) (.value (v.document layout)) rest

variable {layout}

/-- The items behind the first one of a list, each of which reads back. -/
theorem reads_items {level : Nat} {vs : List Value} (h : ∀ v ∈ vs, ReadsBack layout (level + 1) v)
    (rest : List Char) :
    Reads (nextLines (level + 1) (renderItems layout (level + 1) vs) ++ (newLine level ++ ']' :: rest))
      (.items (documents layout vs)) rest := by
  induction vs with
  | nil => exact .lastItem (blanks_newLine _ _)
  | cons v vs ih =>
    rw [renderItems, documents, nextLines, List.flatMap_cons, List.append_assoc, List.cons_append,
      List.append_assoc]
    exact .nextItem .none (blanks_newLine _ _) (h v List.mem_cons_self _)
      (ih fun w hw => h w (List.mem_cons_of_mem v hw))

/-- The members behind the first one of a table, the value of each of which reads back. -/
theorem reads_members {level : Nat} {members : List (String × Value)}
    (h : ∀ member ∈ members, ReadsBack layout (level + 1) member.2) (rest : List Char) :
    Reads (nextLines (level + 1) (renderMembers layout (level + 1) members) ++
        (newLine level ++ '\x7d' :: rest))
      (.members (memberDocuments layout members)) rest := by
  induction members with
  | nil => exact .lastMember (blanks_newLine _ _)
  | cons member members ih =>
    obtain ⟨key, v⟩ := member
    rw [renderMembers, memberDocuments, nextLines, List.flatMap_cons, List.append_assoc,
      List.cons_append, List.append_assoc]
    exact .nextMember .none (blanks_newLine _ _) (reads_member key (h (key, v) List.mem_cons_self _))
      (ih fun member hmember => h member (List.mem_cons_of_mem _ hmember))

/-- A printed document reads as the document, at every level. -/
theorem reads_value (level : Nat) (v : Value) : ReadsBack layout level v := by
  intro rest
  -- one case for each kind of value; items and members are smaller than what holds them
  match v with
  | .null => exact .null
  | .text s =>
    obtain ⟨cs, hcs, hread⟩ := readsText_quote s rest
    rw [Value.render, hcs, Value.document, ← @String.ofList_toList s]
    exact .text hread
  | .natural n =>
    rw [Value.render, Value.document, ← Numeral.document_natural]
    refine .number (Numeral.proper_natural n) ?_
    rw [Numeral.text_natural]
  | .number negative m =>
    rw [Value.render, Value.document]
    refine .number (Numeral.proper_finite layout negative m) ?_
    rw [Numeral.text_finite]
  | .list [] =>
    rw [Value.render, Value.document, documents, renderItems]
    exact .emptyList .none
  | .list (v :: vs) =>
    have hvs : ∀ w ∈ vs, ReadsBack layout (level + 1) w := fun w hw =>
      have := List.sizeOf_lt_of_mem hw
      reads_value (level + 1) w
    rw [Value.render, Value.document, documents, renderItems, enclose_cons]
    exact .list (blanks_newLine _ _) (reads_value (level + 1) v _) (reads_items hvs rest)
  | .table [] =>
    rw [Value.render, Value.document, memberDocuments, renderMembers]
    exact .emptyTable .none
  | .table ((key, v) :: members) =>
    have hmembers : ∀ member ∈ members, ReadsBack layout (level + 1) member.2 := fun (_, w) hw =>
      have := List.sizeOf_lt_of_mem hw
      reads_value (level + 1) w
    rw [Value.render, Value.document, memberDocuments, renderMembers, enclose_cons]
    exact .table (blanks_newLine _ _) (reads_member key (reads_value (level + 1) v _))
      (reads_members hmembers rest)
-- each item and each member is smaller than the list or table that holds it
termination_by sizeOf v
decreasing_by
  all_goals
    simp only [Value.list.sizeOf_spec, Value.table.sizeOf_spec, List.cons.sizeOf_spec,
      Prod.mk.sizeOf_spec] at *
    omega

/-- The printed text spells the document. -/
theorem spells_render (layout : Layout) (v : Value) :
    Spells (String.ofList (v.render layout 0)) (v.document layout) := by
  refine ⟨v.render layout 0, [], ?_, ?_, .none⟩
  · rw [String.toList_ofList]
    exact .none
  · have h := @reads_value layout 0 v []
    rwa [List.append_nil] at h

end ProofSize.Json
