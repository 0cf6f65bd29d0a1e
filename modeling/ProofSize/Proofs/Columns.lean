import ProofSize.Proofs.FirstError
import ProofSize.Proofs.Text.Trim
import ProofSize.Columns

/-!
# The column of a field

The aliases of a field are tried in their order, and the first one that occurs in the header decides;
of several columns with that name it is the first. A file is refused if a required field, or both
update counters, have no column.

## Key results

- `Aliases.resolve?_eq_some_iff`: which header a field is found at
- `Aliases.resolve?_trimmed_eq_some_iff`: the same where blanks around aliases do not count either
- `Columns.position?_eq_some_iff`, `Columns.position?_eq_none_iff`: where a field is looked up
- `Columns.check_eq_ok_iff`, `Columns.check_eq_error_iff`: which files are refused
-/

namespace ProofSize

namespace Aliases

variable {a : Aliases} {f : Field} {header : List String} {i : Nat}

/-- The search tries one name after the other and finds the first header that is the name, or what is
    made of it. -/
private theorem findSome?_eq_some_iff {names : List String} {g : String → String} :
    (names.findSome? fun name => header.findIdx? fun h => Blank.trim h == g name) = some i ↔
      ∃ k name, IsFirst (fun name => ∃ h ∈ header, Blank.trim h = g name) names k name ∧
        ∃ h, IsFirst (fun h => Blank.trim h = g name) header i h := by
  have hoccurs (name : String) : (header.findIdx? fun h => Blank.trim h == g name).isSome = true ↔
      ∃ h ∈ header, Blank.trim h = g name := by
    simp [List.findIdx?_isSome]
  have hplace (name : String) : (header.findIdx? fun h => Blank.trim h == g name) = some i ↔
      ∃ h, IsFirst (fun h => Blank.trim h = g name) header i h := by
    simp [findIdx?_eq_some_iff_isFirst]
  rw [findSome?_eq_some_iff_isFirst]
  simp only [hoccurs, hplace]

/-- A field is found at the first header that is the alias without the blanks around it. The alias is the
    first one for which there is such a header. -/
theorem resolve?_eq_some_iff :
    a.resolve? f header = some i ↔
      ∃ k name, IsFirst (fun name => ∃ h ∈ header, Blank.trim h = name) (a.of f) k name ∧
        ∃ h, IsFirst (fun h => Blank.trim h = name) header i h :=
  findSome?_eq_some_iff

/-- The aliases without the blanks around them. -/
def trimmed (a : Aliases) : Aliases where
  of f := (a.of f).map Blank.trim

/-- Some header is the name, with the blanks around both left out. -/
def Carries (header : List String) (name : String) : Prop :=
  ∃ h ∈ header, Blank.trim h = Blank.trim name

/-- Without the blanks around the aliases, a field is found by the first alias that a header carries. -/
theorem resolve?_trimmed_eq_some_iff :
    a.trimmed.resolve? f header = some i ↔
      ∃ k name, IsFirst (Carries header) (a.of f) k name ∧
        ∃ h, IsFirst (fun h => Blank.trim h = Blank.trim name) header i h := by
  rw [resolve?, trimmed, List.findSome?_map]
  exact findSome?_eq_some_iff

/-- Blanks around header names do not count, so it does not matter whether they are still there. -/
theorem resolve?_map_trim (a : Aliases) (f : Field) (header : List String) :
    a.resolve? f (header.map Blank.trim) = a.resolve? f header := by
  simp [resolve?, List.findIdx?_map, Function.comp_def]

end Aliases

namespace Columns

variable {c : Columns} {f : Field} {i j : Nat}

/-- The header names have no blanks around them. -/
def Trimmed (c : Columns) : Prop := ∀ name ∈ c.header, Blank.trim name = name

/-- Names without the blanks around them have none. -/
theorem trimmed_map_trim (a : Aliases) (names : List String) :
    (⟨a, names.map Blank.trim⟩ : Columns).Trimmed := by
  intro name hname
  obtain ⟨s, -, rfl⟩ := List.mem_map.1 hname
  exact Blank.trim_trim s

/-- The column of a field: that of the first alias which occurs in the header, and of equal header
    names the first. -/
def IsColumn (c : Columns) (f : Field) (i : Nat) : Prop :=
  ∃ name, (∃ k, IsFirst (· ∈ c.header) (c.aliases.of f) k name) ∧ IsFirst (· = name) c.header i name

/-- The field has no column. -/
def Lacks (c : Columns) (f : Field) : Prop := ∀ i, ¬c.IsColumn f i

/-- Every required field has a column, and one of the update counters has. -/
structure Complete (c : Columns) : Prop where
  required : ∀ f : Field, f.isRequired = true → ∃ i, c.IsColumn f i
  counter : (∃ i, c.IsColumn .updatesSinceRefresh i) ∨ ∃ i, c.IsColumn .totalUpdates i

/-- A field has one column at most. -/
theorem IsColumn.unique (hi : c.IsColumn f i) (hj : c.IsColumn f j) : i = j := by
  obtain ⟨name, ⟨k, hk⟩, hi⟩ := hi
  obtain ⟨name', ⟨k', hk'⟩, hj⟩ := hj
  obtain ⟨-, rfl⟩ := hk.unique hk'
  exact (hi.unique hj).1

/-- A column has a name in the header. -/
theorem IsColumn.exists_name (hi : c.IsColumn f i) : ∃ name, c.header[i]? = some name := by
  obtain ⟨name, -, hi⟩ := hi
  exact ⟨name, hi.getElem?⟩

/-- A column is one of the header. -/
theorem IsColumn.lt (hi : c.IsColumn f i) : i < c.header.length := by
  obtain ⟨name, h⟩ := hi.exists_name
  exact (List.getElem?_eq_some_iff.1 h).1

/-- A field is looked up in its column. -/
theorem position?_eq_some_iff (ht : c.Trimmed) : c.position? f = some i ↔ c.IsColumn f i := by
  -- names in the header are compared as they are, because they are trimmed already
  have hname (name : String) : ∀ h ∈ c.header, (Blank.trim h = name ↔ h = name) := by
    intro h hh
    rw [ht h hh]
  -- an alias occurs in the header if it is one of the names
  have hoccurs (name : String) : (∃ h ∈ c.header, Blank.trim h = name) ↔ name ∈ c.header := by
    constructor
    · intro ⟨h, hh, heq⟩
      exact (hname name h hh).1 heq ▸ hh
    · intro hmem
      exact ⟨name, hmem, ht name hmem⟩
  rw [position?, Aliases.resolve?_eq_some_iff]
  constructor
  · intro ⟨k, name, hk, h, hi⟩
    have hi := hi.congr (hname name)
    obtain rfl := hi.holds
    exact ⟨h, ⟨k, hk.congr fun name _ => hoccurs name⟩, hi⟩
  · intro ⟨name, ⟨k, hk⟩, hi⟩
    exact ⟨k, name, hk.congr fun name _ => (hoccurs name).symm, name,
      hi.congr fun h hh => (hname name h hh).symm⟩

/-- A field is not found if it has no column. -/
theorem position?_eq_none_iff (ht : c.Trimmed) : c.position? f = none ↔ c.Lacks f := by
  rw [Option.eq_none_iff_forall_ne_some]
  exact forall_congr' fun i => not_congr (position?_eq_some_iff ht)

/-- Whether a field has a column can be read off the header. -/
theorem has_eq_true_iff (ht : c.Trimmed) : c.has f = true ↔ ∃ i, c.IsColumn f i := by
  rw [has, Option.isSome_iff_exists]
  exact exists_congr fun i => position?_eq_some_iff ht

/-- The header lacks a field if this has no column. -/
theorem has_eq_false_iff (ht : c.Trimmed) : c.has f = false ↔ c.Lacks f := by
  rw [has, Option.isSome_eq_false_iff, Option.isNone_iff_eq_none, position?_eq_none_iff ht]

/-- The check looks for the first required field that has no column. -/
private theorem find?_eq_some_iff (ht : c.Trimmed) :
    Field.all.find? (fun f => f.isRequired && !c.has f) = some f ↔
      ∃ k, IsFirst (fun f => f.isRequired = true ∧ c.Lacks f) Field.all k f := by
  rw [find?_eq_some_iff_isFirst]
  have hlacks : ∀ g : Field, (g.isRequired && !c.has g) = true ↔ g.isRequired = true ∧ c.Lacks g := by
    intro g
    rw [Bool.and_eq_true, Bool.not_eq_true', has_eq_false_iff ht]
  constructor
  · intro ⟨k, hk⟩
    exact ⟨k, hk.congr fun g _ => hlacks g⟩
  · intro ⟨k, hk⟩
    exact ⟨k, hk.congr fun g _ => (hlacks g).symm⟩

/-- The check finds nothing if every required field has a column. -/
private theorem find?_eq_none_iff (ht : c.Trimmed) :
    Field.all.find? (fun f => f.isRequired && !c.has f) = none ↔
      ∀ f : Field, f.isRequired = true → ∃ i, c.IsColumn f i := by
  rw [List.find?_eq_none]
  constructor
  · intro h f hf
    have := h f (Field.mem_all f)
    rw [← has_eq_true_iff ht]
    simpa [hf] using this
  · intro h f _
    cases hf : f.isRequired with
    | false => simp
    | true => simpa using (has_eq_true_iff ht).2 (h f hf)

/-- A file is accepted if it has the columns that it must have. -/
theorem check_eq_ok_iff (ht : c.Trimmed) : c.check = .ok () ↔ c.Complete := by
  unfold check
  constructor
  -- the check has passed both its branches
  · intro h
    split at h
    · exact nomatch h
    · rename_i hfind
      split at h
      · rename_i hcounter
        rw [Bool.or_eq_true, has_eq_true_iff ht, has_eq_true_iff ht] at hcounter
        exact ⟨(find?_eq_none_iff ht).1 hfind, hcounter⟩
      · exact nomatch h
  · intro ⟨hrequired, hcounter⟩
    rw [(find?_eq_none_iff ht).2 hrequired]
    rw [← has_eq_true_iff ht, ← has_eq_true_iff ht, ← Bool.or_eq_true] at hcounter
    simp only [hcounter, ↓reduceIte]

/-- A file is refused for the first required field without a column. If there is none, it is
    refused for the update counters. -/
theorem check_eq_error_iff (ht : c.Trimmed) {e : ReportError} :
    c.check = .error e ↔
      (∃ k f, IsFirst (fun f => f.isRequired = true ∧ c.Lacks f) Field.all k f ∧
        e = .missingColumn f (c.aliases.of f)) ∨
      (∀ f : Field, f.isRequired = true → ∃ i, c.IsColumn f i) ∧
        c.Lacks .updatesSinceRefresh ∧ c.Lacks .totalUpdates ∧
        e = .missingColumn .updatesSinceRefresh
          (c.aliases.of .updatesSinceRefresh ++ c.aliases.of .totalUpdates) := by
  have hnocounter : (c.has .updatesSinceRefresh || c.has .totalUpdates) = false ↔
      c.Lacks .updatesSinceRefresh ∧ c.Lacks .totalUpdates := by
    rw [Bool.or_eq_false_iff, has_eq_false_iff ht, has_eq_false_iff ht]
  unfold check
  constructor
  · intro h
    split at h
    · -- a required field without a column has been found
      rename_i f hfind
      obtain ⟨k, hk⟩ := (find?_eq_some_iff ht).1 hfind
      refine .inl ⟨k, f, hk, ?_⟩
      rw [← Except.error.inj h]
      simp [missing]
    · -- every required field has a column, so it is the counters
      rename_i hfind
      split at h
      · exact nomatch h
      · rename_i hcounter
        obtain ⟨hsince, htotal⟩ := hnocounter.1 (Bool.eq_false_iff.2 hcounter)
        refine .inr ⟨(find?_eq_none_iff ht).1 hfind, hsince, htotal, ?_⟩
        rw [← Except.error.inj h]
        simp [missing]
  · intro h
    rcases h with ⟨k, f, hk, rfl⟩ | ⟨hrequired, hsince, htotal, rfl⟩
    · rw [(find?_eq_some_iff ht).2 ⟨k, hk⟩]
      simp [missing]
    · rw [(find?_eq_none_iff ht).2 hrequired]
      simp [hnocounter.2 ⟨hsince, htotal⟩, missing]

end Columns

end ProofSize
