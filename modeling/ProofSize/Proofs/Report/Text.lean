import ProofSize.Digest
import ProofSize.Proofs.FirstError
import ProofSize.Report.Text

/-!
# Reports for the console

The line of a data file shows the first bytes of its digest. Digests are hexadecimal, so the cut never
goes through a character, and every report on data files can be shown.

## Key results

- `takeBytes?_eq_take`: one-byte characters can be cut anywhere
- `Report.exists_text_iff`: when a report has a text
- `exists_text`: a report whose sources have digests of contents has a text
-/

namespace ProofSize

namespace Digest

/-- A hexadecimal digit is one byte. -/
private theorem utf8Size_digitChar : ∀ n < 16, (Nat.digitChar n).utf8Size = 1 := by decide

/-- A digest consists of characters of one byte. -/
theorem utf8Size_of_mem_ofContent {content : ByteArray} {c : Char}
    (h : c ∈ (ofContent content).toList) : c.utf8Size = 1 := by
  rw [ofContent, hex, String.toList_ofList] at h
  obtain ⟨b, -, hc⟩ := List.mem_flatMap.1 h
  have hb : b.toNat < 256 := b.toNat_lt
  rcases List.mem_pair.1 hc with rfl | rfl
  · exact utf8Size_digitChar _ (by omega)
  · exact utf8Size_digitChar _ (by omega)

end Digest

/-- Characters of one byte are as many as their bytes. -/
theorem takeBytes?_eq_take {cs : List Char} (h : ∀ c ∈ cs, c.utf8Size = 1) (n : Nat) :
    takeBytes? n cs = some (cs.take n) := by
  induction cs generalizing n with
  | nil => cases n <;> rfl
  | cons c cs ih =>
    cases n with
    | zero => rfl
    | succ n =>
      have htail := ih (fun d hd => h d (List.mem_cons_of_mem c hd)) n
      have hc := h c List.mem_cons_self
      rw [takeBytes?, hc, if_pos (Nat.le_add_left 1 n), Nat.add_sub_cancel, htail]
      rfl

/-- Every data file can be cited, with the first digits of its digest. -/
theorem Source.line?_of_content {s : Source} {content : ByteArray}
    (h : s.sha256 = Digest.ofContent content) :
    s.line? = some s!"# {s.path} ({s.rows} rows, sha256 {String.ofList (s.sha256.toList.take 12)})" := by
  have hbytes : ∀ c ∈ s.sha256.toList, c.utf8Size = 1 :=
    fun c hc => Digest.utf8Size_of_mem_ofContent (h ▸ hc)
  rw [line?, takeBytes?_eq_take hbytes]
  rfl

section

variable {α β : Type} {f : α → Option β} {xs : List α}

/-- A computation over a list gives something if it does so for every element. -/
theorem exists_mapM_eq_some_iff :
    (∃ ys, xs.mapM f = some ys) ↔ ∀ x ∈ xs, ∃ y, f x = some y := by
  simp only [mapM_eq_some_iff]
  induction xs with
  | nil => simp
  | cons x xs ih =>
    rw [List.forall_mem_cons, ← ih]
    constructor
    · intro ⟨ys, hys⟩
      obtain ⟨y, ys, hy, hys, -⟩ := List.forall₂_cons_left_iff.1 hys
      exact ⟨⟨y, hy⟩, ys, hys⟩
    · intro ⟨⟨y, hy⟩, ys, hys⟩
      exact ⟨y :: ys, .cons hy hys⟩

end

/-- There is a text if every data file can be cited. -/
theorem Report.exists_text_iff {r : Report} :
    (∃ text, r.text? = some text) ↔ ∀ s ∈ r.run.sources, ∃ line, s.line? = some line := by
  rw [← exists_mapM_eq_some_iff, text?, lines?]
  cases r.run.sources.mapM Source.line? <;> simp

/-- Every report on data files can be shown. -/
theorem Report.exists_text {r : Report}
    (h : ∀ s ∈ r.run.sources, ∃ content, s.sha256 = Digest.ofContent content) :
    ∃ text, r.text? = some text := by
  refine exists_text_iff.2 fun s hs => ?_
  obtain ⟨content, hcontent⟩ := h s hs
  exact ⟨_, Source.line?_of_content hcontent⟩

end ProofSize
