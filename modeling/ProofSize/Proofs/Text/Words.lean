import ProofSize.Text.Align
import ProofSize.Text.Blank
import ProofSize.Text.Decimal

/-!
# Lines and words of a text

A text is cut into lines at its line feeds, and a line into words at its blanks. Lines without line feeds
that are written one below the other are found again, and so are words without blanks, however they are
aligned.

## Key results

- `linesOf_join_append`, `linesOf_join`: written lines are found again
- `wordsOf_blank`: a blank ends the words before it
- `wordsOf_eq_singleton`, `wordsOf_alignRight`: a word stands alone, also behind blanks
- `lastNumber?_text`: a number at the end of a line reads back
-/

namespace ProofSize

/-- The lines of a text: what stands between its line feeds. -/
def linesOf (text : String) : List String := (text.toList.splitOn '\n').map String.ofList

/-- The words of a line: what stands between its blanks. -/
def wordsOf (line : String) : List String :=
  ((line.toList.splitOnP Blank.isBlank).filter (· ≠ [])).map String.ofList

/-- The number that is the last word of a line. -/
def lastNumber? (line : String) : Option UInt64 := (wordsOf line).getLast?.bind Decimal.parseWord?

/-- There is no line feed in the text. -/
def OneLine (s : String) : Prop := '\n' ∉ s.toList

/-- There are no blanks among the characters. -/
def Visible (cs : List Char) : Prop := ∀ c ∈ cs, Blank.isBlank c = false

instance (cs : List Char) : Decidable (Visible cs) :=
  List.decidableBAll (fun c => Blank.isBlank c = false) cs

/-- The text is not empty, and there are no blanks in it. -/
structure IsWord (s : String) : Prop where
  ne_empty : s ≠ ""
  visible : Visible s.toList

instance (s : String) : Decidable (OneLine s) := inferInstanceAs (Decidable ('\n' ∉ s.toList))

/-- Two texts put together go over no end of a line if neither does. -/
theorem oneLine_append {s t : String} : OneLine (s ++ t) ↔ OneLine s ∧ OneLine t := by
  unfold OneLine
  rw [String.toList_append, List.mem_append, not_or]

/-- A line feed is a blank. -/
theorem IsWord.oneLine {s : String} (h : IsWord s) : OneLine s :=
  fun hmem => nomatch (h.visible '\n' hmem).symm.trans (by decide : Blank.isBlank '\n' = true)

/-! ### Lines -/

/-- A line feed ends the lines before it. -/
theorem linesOf_feed (s t : String) : linesOf (s ++ "\n" ++ t) = linesOf s ++ linesOf t := by
  have hcut : (s ++ "\n" ++ t).toList = s.toList ++ '\n' :: t.toList := by simp
  unfold linesOf List.splitOn
  rw [hcut, List.splitOnP_append_cons (p := (· == '\n')) _ _ rfl, List.map_append]

/-- A text that goes over no end of a line is one line. -/
theorem linesOf_eq_singleton {s : String} (h : OneLine s) : linesOf s = [s] := by
  have hpass : ∀ c ∈ s.toList, (c == '\n') = false := by
    intro c hc
    exact beq_false_of_ne fun heq => h (heq ▸ hc)
  rw [linesOf, List.splitOn, List.splitOnP_eq_singleton hpass, List.map_singleton, String.ofList_toList]

/-- Texts that are written one below the other keep their lines. -/
theorem linesOf_join_append (texts : List String) (rest : String) :
    linesOf (String.join (texts.map (· ++ "\n")) ++ rest) =
      texts.flatMap linesOf ++ linesOf rest := by
  induction texts with
  | nil => simp [String.join]
  | cons text texts ih =>
    have hcut : String.join ((text :: texts).map (· ++ "\n")) ++ rest =
        text ++ "\n" ++ (String.join (texts.map (· ++ "\n")) ++ rest) := by
      simp [String.append_assoc]
    rw [hcut, linesOf_feed, ih, List.flatMap_cons, List.append_assoc]

/-- Lines that are split into lines stay as they are. -/
theorem flatMap_linesOf {lines : List String} (h : ∀ line ∈ lines, OneLine line) :
    lines.flatMap linesOf = lines := by
  induction lines with
  | nil => rfl
  | cons line lines ih =>
    rw [List.flatMap_cons, linesOf_eq_singleton (h line List.mem_cons_self),
      ih fun l hl => h l (List.mem_cons_of_mem line hl), List.singleton_append]

/-- Written lines are found again, with nothing behind the last line feed. -/
theorem linesOf_join {lines : List String} (h : ∀ line ∈ lines, OneLine line) :
    linesOf (String.join (lines.map (· ++ "\n"))) = lines ++ [""] := by
  have hlines := linesOf_join_append lines ""
  rwa [String.append_empty, flatMap_linesOf h] at hlines

/-! ### Words -/

/-- Two visible texts put together are visible. -/
theorem Visible.append {cs ds : List Char} (hcs : Visible cs) (hds : Visible ds) :
    Visible (cs ++ ds) := by
  intro c hc
  rcases List.mem_append.1 hc with hc | hc
  · exact hcs c hc
  · exact hds c hc

/-- Digits are visible. -/
theorem visible_of_digits {cs : List Char} (h : ∀ c ∈ cs, c.isDigit = true) : Visible cs := by
  intro c hc
  obtain ⟨hlo, hhi⟩ := Char.isDigit_iff_toNat.1 (h c hc)
  have hzero : '0'.toNat = 48 := rfl
  have hnine : '9'.toNat = 57 := rfl
  -- no range of blanks reaches into the digits
  simp only [Blank.isBlank, Blank.ranges, List.any_cons, List.any_nil, Bool.or_false,
    Bool.or_eq_false_iff, Bool.and_eq_false_iff, decide_eq_false_iff_not]
  omega

/-- Visible characters are a word, if there are any. -/
theorem isWord_ofList {cs : List Char} (hne : cs ≠ []) (h : Visible cs) :
    IsWord (String.ofList cs) := by
  refine ⟨fun hempty => hne ?_, ?_⟩
  · rw [← String.toList_ofList (l := cs), hempty, String.toList_empty]
  · rw [String.toList_ofList]
    exact h

/-- A number is a word. -/
theorem isWord_toString (n : Nat) : IsWord (toString n) :=
  isWord_ofList Nat.toDigits_ne_nil
    (visible_of_digits fun _ hc => Nat.isDigit_of_mem_toDigits (by decide) (by decide) hc)

/-- A blank ends the words before it. -/
theorem wordsOf_blank {c : Char} (hc : Blank.isBlank c = true) (s t : String) :
    wordsOf (s ++ String.singleton c ++ t) = wordsOf s ++ wordsOf t := by
  unfold wordsOf
  rw [String.toList_append, String.toList_append, String.toList_singleton, List.append_assoc,
    List.singleton_append, List.splitOnP_append_cons _ _ hc, List.filter_append, List.map_append]

/-- An empty text has no words. -/
@[simp] theorem wordsOf_empty : wordsOf "" = [] := rfl

/-- A word is its only word. -/
theorem wordsOf_eq_singleton {s : String} (h : IsWord s) : wordsOf s = [s] := by
  have hne : s.toList ≠ [] := by
    intro hnil
    exact h.ne_empty (String.toList_eq_nil_iff.1 hnil)
  rw [wordsOf, List.splitOnP_eq_singleton h.visible]
  simp [hne]

/-- Blanks in front of a text are none of its words. -/
theorem wordsOf_alignRight (width : Nat) (s : String) : wordsOf (alignRight width s) = wordsOf s := by
  unfold alignRight
  induction width - s.length with
  | zero => simp
  | succ k ih =>
    have hcut : String.ofList (List.replicate (k + 1) ' ') ++ s =
        "" ++ String.singleton ' ' ++ (String.ofList (List.replicate k ' ') ++ s) := by
      rw [List.replicate_succ, ← List.singleton_append, String.ofList_append, String.append_assoc]
      rfl
    rw [hcut, wordsOf_blank (by decide), ih, wordsOf_empty, List.nil_append]

/-- Blanks in front of a text do not end a line. -/
theorem oneLine_alignRight {width : Nat} {s : String} (h : OneLine s) :
    OneLine (alignRight width s) := by
  refine oneLine_append.2 ⟨?_, h⟩
  intro hmem
  rw [String.toList_ofList] at hmem
  exact absurd (List.eq_of_mem_replicate hmem) (by decide)

/-- A number at the end of a line reads back. -/
theorem lastNumber?_text (label : String) (w : UInt64) :
    lastNumber? (label ++ " " ++ toString w.toNat) = some w := by
  have hblank : (" " : String) = String.singleton ' ' := rfl
  rw [lastNumber?, hblank, wordsOf_blank (by decide), wordsOf_eq_singleton (isWord_toString w.toNat),
    List.getLast?_concat, Option.bind_some, Decimal.parseWord?_toString]

end ProofSize
