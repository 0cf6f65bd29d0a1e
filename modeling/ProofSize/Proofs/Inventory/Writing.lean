import Mathlib.Data.List.Forall2
import ProofSize.Inventory
import ProofSize.Proofs.Json.Printing

/-!
# Writing an inventory

An inventory is written as JSON entry by entry. A path that is no text has no place in it, and the
output breaks off where the path was to stand.

## Key results

- `documents_eq_error_iff`: the first entry whose path is no text ends the documents
- `begun_prefix`: what has been written until then goes on with the path, whatever that is
- `json_eq_error`: an inventory that cannot be written breaks off before a path
-/

namespace ProofSize.Inventory

open Json

variable {entries : List Entry} {e : Entry} {found : List Value} {text : String}

/-- The entries are written as documents, which have texts for their paths. -/
abbrev Written (entries : List Entry) (found : List Value) : Prop :=
  List.Forall₂ (fun e d => ∃ path, e.path.text? = some path ∧ d = e.json path) entries found

/-- The first entry whose path is no text ends the documents. -/
theorem documents_eq_error_iff : documents entries = .error found ↔
    ∃ before e after, entries = before ++ e :: after ∧ Written before found ∧ e.path.text? = none := by
  induction entries generalizing found with
  | nil =>
    refine iff_of_false nofun ?_
    rintro ⟨before, e, after, h, -⟩
    exact nomatch (List.append_eq_nil_iff.1 h.symm).2
  | cons e entries ih =>
    unfold documents
    split
    · rename_i hnone
      -- the first entry has no path of text, so nothing is written before it
      constructor
      · intro h
        obtain rfl := Except.error.inj h
        exact ⟨[], e, entries, rfl, .nil, hnone⟩
      · rintro ⟨_ | ⟨e', before⟩, e'', after, hentries, hwritten, -⟩
        · obtain rfl := List.forall₂_nil_left_iff.1 hwritten
          rfl
        · obtain ⟨rfl, -⟩ := List.cons.inj hentries
          obtain ⟨_, _, ⟨path, hpath, -⟩, -, -⟩ := List.forall₂_cons_left_iff.1 hwritten
          exact nomatch hnone.symm.trans hpath
    · rename_i path hpath
      -- the first entry can be written, so the one that cannot comes behind it
      have hcons : (∃ before e' after, e :: entries = before ++ e' :: after ∧ Written before found ∧
            e'.path.text? = none) ↔
          ∃ found', documents entries = .error found' ∧ found = e.json path :: found' := by
        constructor
        · rintro ⟨_ | ⟨e', before⟩, e'', after, hentries, hwritten, hnone⟩
          · obtain ⟨rfl, -⟩ := List.cons.inj hentries
            exact nomatch hpath.symm.trans hnone
          · obtain ⟨rfl, rfl⟩ := List.cons.inj hentries
            obtain ⟨_, found', ⟨path', hpath', rfl⟩, hrest, rfl⟩ :=
              List.forall₂_cons_left_iff.1 hwritten
            obtain rfl := Option.some.inj (hpath.symm.trans hpath')
            exact ⟨found', ih.2 ⟨before, e'', after, rfl, hrest, hnone⟩, rfl⟩
        · rintro ⟨found', hfound, rfl⟩
          obtain ⟨before, e', after, rfl, hwritten, hnone⟩ := ih.1 hfound
          exact ⟨e :: before, e', after, rfl, .cons ⟨path, hpath, rfl⟩ hwritten, hnone⟩
      rw [hcons]
      cases documents entries with
      | ok found' => simp
      | error found' => simp [eq_comm]

/-- What is between items goes on behind the last one with the one that it starts. -/
private theorem intercalate_prefix (items : List (List Char)) {item rest whole : List Char}
    (h : item ++ rest <+: whole) (more : List (List Char)) :
    [','].intercalate (items ++ [item]) ++ rest <+: [','].intercalate (items ++ whole :: more) := by
  induction items with
  | nil =>
    rw [List.nil_append, List.nil_append, List.intercalate_singleton]
    cases more with
    | nil => rwa [List.intercalate_singleton]
    | cons next more =>
      rw [List.intercalate_cons_cons, List.append_assoc]
      exact h.trans (List.prefix_append _ _)
  | cons first items ih =>
    obtain ⟨tail, htail⟩ := ih
    refine ⟨tail, ?_⟩
    rw [List.cons_append, List.cons_append, List.intercalate_cons_of_ne_nil (by simp),
      List.intercalate_cons_of_ne_nil (by simp), ← htail]
    simp only [List.append_assoc]

/-- Items are written one after the other. -/
theorem renderItems_append (layout : Binary64.Layout) (level : Nat) (vs ws : List Value) :
    renderItems layout level (vs ++ ws) = renderItems layout level vs ++ renderItems layout level ws := by
  induction vs with
  | nil => rfl
  | cons v vs ih => rw [List.cons_append, renderItems, renderItems, ih, List.cons_append]

/-- What has been written before a path goes on with the path, whatever that is and whatever follows. -/
theorem begun_prefix (found : List Value) (e : Entry) (path : String) (more : List Value) :
    begun found ++ quote path <+:
      (Value.list (found ++ e.json path :: more)).render numberLayout 0 := by
  let next := '\x7b' :: (newLine 2 ++ quote "path" ++ [':', ' '])
  -- the document starts with its path
  have hnext : newLine 1 ++ next ++ quote path <+: newLine 1 ++ (e.json path).render numberLayout 1 := by
    rw [Entry.json, Value.render, renderMembers, ← List.append_nil (enclose _ _ _ _), enclose_cons,
      Value.render, List.append_assoc, List.prefix_append_right_inj]
    simp [next]
  obtain ⟨rest, hrest⟩ := intercalate_prefix
    ((renderItems numberLayout 1 found).map fun item => newLine 1 ++ item) hnext
    ((renderItems numberLayout 1 more).map fun item => newLine 1 ++ item)
  refine ⟨rest ++ (newLine 0 ++ [']']), ?_⟩
  rw [Value.render, renderItems_append, renderItems, enclose, if_neg (by simp), begun]
  simp only [Nat.zero_add, List.map_append, List.map_cons, List.map_nil]
  rw [← hrest]
  simp only [next, List.append_assoc, List.cons_append]

/-- An inventory that cannot be written breaks off before a path that is no text. -/
theorem json_eq_error (h : json entries = .error text) :
    ∃ before e after found, entries = before ++ e :: after ∧ Written before found ∧
      e.path.text? = none ∧ ∀ path more, text.toList ++ quote path <+:
        (Value.list (found ++ e.json path :: more)).render numberLayout 0 := by
  unfold json at h
  split at h
  · exact nomatch h
  · rename_i found hfound
    obtain rfl := Except.error.inj h
    obtain ⟨before, e, after, hentries, hwritten, hnone⟩ := documents_eq_error_iff.1 hfound
    refine ⟨before, e, after, found, hentries, hwritten, hnone, fun path more => ?_⟩
    rw [String.toList_ofList]
    exact begun_prefix found e path more

end ProofSize.Inventory
