import ProofSize.Proofs.Binary64.Whole
import ProofSize.Proofs.Json.Numbers
import ProofSize.Proofs.Report.Text
import ProofSize.Proofs.Text.Words

/-!
# What a report for the console shows

A report has a text unless a digest is cut within a character. Where nothing in it breaks a line, the
lines of the text are those of its data files, of its series and of its breakdowns, and what they show
can be read from them: the bytes of a digest, the two coordinates of a point, the numbers of a breakdown.

## Key results

- `Source.exists_line_iff`, `Source.line?_eq_some_iff`: which data files can be cited, and how
- `isWord_coordinate`, `cutTo_toWord`, `Point.wordsOf_line`: the two columns of a point
- `Series.shownIn_lines`, `ScenarioBreakdown.shownIn_lines`: what the lines of each section show
- `Report.shownIn_linesOf_text`: the lines of a report are found again in its text
- `Report.text_shows`: when a report has a text, and what its lines show
-/

namespace ProofSize

open Json (Digits)

/-! ### Cutting a digest -/

/-- A text that starts with a character has the bytes of the character and those of the rest. -/
private theorem utf8ByteSize_cons (c : Char) (cs : List Char) :
    (String.ofList (c :: cs)).utf8ByteSize = c.utf8Size + (String.ofList cs).utf8ByteSize := by
  rw [String.ofList_cons, String.utf8ByteSize_append, String.utf8ByteSize_singleton]

/-- What a text is cut to are its first bytes, or all of them where it is shorter. -/
private theorem of_takeBytes?_eq_some {n : Nat} {cs taken : List Char}
    (h : takeBytes? n cs = some taken) :
    ∃ rest, cs = taken ++ rest ∧
      (String.ofList taken).utf8ByteSize = min n (String.ofList cs).utf8ByteSize := by
  induction cs generalizing n taken with
  | nil =>
    obtain rfl : [] = taken := by
      cases n <;> exact Option.some.inj h
    exact ⟨[], rfl, by simp⟩
  | cons c cs ih =>
    cases n with
    | zero =>
      obtain rfl := Option.some.inj h
      exact ⟨c :: cs, rfl, by simp⟩
    | succ n =>
      rw [takeBytes?] at h
      -- either the character still fits, or nothing is taken at all
      split at h
      · obtain ⟨taken, htaken, rfl⟩ := Option.map_eq_some_iff.1 h
        obtain ⟨rest, rfl, hsize⟩ := ih htaken
        refine ⟨rest, rfl, ?_⟩
        rw [utf8ByteSize_cons, utf8ByteSize_cons]
        omega
      · cases h

/-- A text is cut behind its first bytes, if a character ends there. -/
private theorem takeBytes?_append {n : Nat} {taken rest : List Char}
    (h : (String.ofList taken).utf8ByteSize = min n (String.ofList (taken ++ rest)).utf8ByteSize) :
    takeBytes? n (taken ++ rest) = some taken := by
  induction taken generalizing n with
  | nil =>
    cases rest with
    | nil => cases n <;> rfl
    | cons c rest =>
      -- every character has a byte, so nothing is left to be taken
      have hpos := c.utf8Size_pos
      rw [List.nil_append, utf8ByteSize_cons, String.ofList_nil, String.utf8ByteSize_empty] at h
      obtain rfl : n = 0 := by omega
      rfl
  | cons c taken ih =>
    have hpos := c.utf8Size_pos
    rw [List.cons_append, utf8ByteSize_cons, utf8ByteSize_cons] at h
    cases n with
    | zero => omega
    | succ n =>
      rw [List.cons_append, takeBytes?, if_pos (by omega), ih (by omega)]
      rfl

/-- A text is cut to its first bytes, or kept whole where it is shorter. -/
theorem takeBytes?_eq_some_iff {n : Nat} {cs taken : List Char} :
    takeBytes? n cs = some taken ↔ ∃ rest, cs = taken ++ rest ∧
      (String.ofList taken).utf8ByteSize = min n (String.ofList cs).utf8ByteSize := by
  constructor
  · exact of_takeBytes?_eq_some
  · rintro ⟨rest, rfl, h⟩
    exact takeBytes?_append h

namespace Source

/-- The digest can be cut behind 12 bytes: it has no more of them, or a character ends there. -/
def CanBeCut (s : Source) : Prop :=
  s.sha256.utf8ByteSize ≤ 12 ∨ (⟨12⟩ : String.Pos.Raw).IsValid s.sha256

/-- The line cites the file by its path, the number of its rows and the first 12 bytes of its digest. -/
def CitedIn (s : Source) (line : String) : Prop :=
  ∃ shown hidden : String, s.sha256 = shown ++ hidden ∧
    shown.utf8ByteSize = min 12 s.sha256.utf8ByteSize ∧
    line = s!"# {s.path} ({s.rows} rows, sha256 {shown})"

variable {s : Source}

/-- The line of a data file cites it, and no other line does. -/
theorem line?_eq_some_iff {line : String} : s.line? = some line ↔ s.CitedIn line := by
  rw [line?, Option.map_eq_some_iff, CitedIn]
  constructor
  · rintro ⟨taken, htaken, hline⟩
    obtain ⟨rest, happend, hsize⟩ := takeBytes?_eq_some_iff.1 htaken
    refine ⟨String.ofList taken, String.ofList rest, ?_, ?_, hline.symm⟩
    · rw [← String.ofList_append, ← happend, String.ofList_toList]
    · rw [hsize, String.ofList_toList]
      rfl
  · rintro ⟨shown, hidden, happend, hsize, hline⟩
    refine ⟨shown.toList, takeBytes?_eq_some_iff.2 ⟨hidden.toList, ?_, ?_⟩, ?_⟩
    · rw [happend, String.toList_append]
    · rw [String.ofList_toList, String.ofList_toList, hsize]
      rfl
    · rw [String.ofList_toList, hline]

/-- A data file can be cited if its digest can be cut. -/
theorem exists_line_iff : (∃ line, s.line? = some line) ↔ s.CanBeCut := by
  simp only [line?_eq_some_iff]
  constructor
  · intro ⟨line, shown, hidden, happend, hsize, _⟩
    by_cases hshort : s.sha256.utf8ByteSize ≤ 12
    · exact .inl hshort
    · refine .inr (String.Pos.Raw.isValid_iff_exists_append.2 ⟨shown, hidden, happend, ?_⟩)
      apply String.Pos.Raw.ext
      show 12 = shown.utf8ByteSize
      omega
  · intro hcut
    rcases hcut with hshort | hvalid
    · exact ⟨_, s.sha256, "", String.append_empty.symm, (Nat.min_eq_right hshort).symm, rfl⟩
    · obtain ⟨shown, hidden, happend, hpos⟩ := String.Pos.Raw.isValid_iff_exists_append.1 hvalid
      have hsize : 12 = shown.utf8ByteSize := congrArg String.Pos.Raw.byteIdx hpos
      refine ⟨_, shown, hidden, happend, ?_, rfl⟩
      rw [happend, String.utf8ByteSize_append]
      omega

end Source

/-! ### The columns of a point -/

section

variable {m : Binary64.Magnitude}

/-- The sign of a number is visible. -/
private theorem visible_sign (negative : Bool) : Visible (if negative then ['-'] else []) := by
  cases negative <;> decide

/-- A number with decimal places is made of digits and a point. -/
private theorem visible_fixed (m : Binary64.Magnitude) (places : Nat) : Visible (m.fixed places) := by
  have hdigits : Digits (List.replicate (places + 1 -
        (Nat.toDigits 10 (roundDiv (m.units * Nat.pow 10 places) Binary64.one)).length) '0' ++
      Nat.toDigits 10 (roundDiv (m.units * Nat.pow 10 places) Binary64.one)) :=
    (Json.digits_zeros _).append (Json.digits_toDigits _)
  have hpoint : Visible ['.'] := by decide
  exact (visible_of_digits (hdigits.take _)).append (hpoint.append (visible_of_digits (hdigits.drop _)))

/-- A number shown with four places is one word, also where it is not finite. -/
private theorem isWord_fixed (x : Binary64) : IsWord (x.fixed 4) := by
  cases x with
  | nan => exact ⟨by decide, by decide⟩
  | infinite negative => cases negative <;> exact ⟨by decide, by decide⟩
  | finite negative m =>
    refine isWord_ofList ?_ ((visible_sign negative).append (visible_fixed m 4))
    simp [Binary64.Magnitude.fixed]

/-- A coordinate is one word, whatever number it is. -/
theorem isWord_coordinate (x : Binary64) : IsWord x.coordinate := by
  unfold Binary64.coordinate
  split
  · rename_i negative m
    split
    -- a whole number goes without places: its digits, behind a minus or not
    · have hword := isWord_toString m.whole
      split
      · refine ⟨by simp, ?_⟩
        rw [String.toList_append]
        exact Visible.append (by decide) hword.visible
      · rw [String.empty_append]
        exact hword
    · exact isWord_fixed _
  · exact isWord_fixed x

end

/-- `n` is the number cut to a whole number and kept within 64-bit words. What lies below zero and what
    is no number is moved to zero, and what is too large to the greatest word. -/
inductive Binary64.CutTo : Binary64 → Nat → Prop
  | nan : CutTo .nan 0
  | below {m : Magnitude} : CutTo (.finite true m) 0
  | farBelow : CutTo (.infinite true) 0
  | within {m : Magnitude} {n : Nat} : n * one ≤ m.units → m.units < (n + 1) * one →
      n < UInt64.size → CutTo (.finite false m) n
  | above {m : Magnitude} : UInt64.size * one ≤ m.units → CutTo (.finite false m) (UInt64.size - 1)
  | farAbove : CutTo (.infinite false) (UInt64.size - 1)

/-- The second column shows the number cut to a word. -/
theorem Binary64.cutTo_toWord (x : Binary64) : x.CutTo x.toWord.toNat := by
  cases x with
  | nan => exact .nan
  | infinite negative =>
    cases negative with
    | true => exact .farBelow
    | false => exact .farAbove
  | finite negative m =>
    cases negative with
    | true => exact .below
    | false =>
      rw [toNat_toWord_finite]
      by_cases hlt : m.whole < UInt64.size
      · rw [Nat.min_eq_left (by omega)]
        have hbound : m.units < one * (m.units / one + 1) := Nat.lt_mul_div_succ _ one_pos
        rw [Nat.mul_comm] at hbound
        exact .within (Nat.div_mul_le_self _ _) hbound hlt
      · rw [Nat.min_eq_right (by omega)]
        refine .above ((Nat.le_div_iff_mul_le one_pos).1 (Nat.le_of_not_lt hlt))

/-- A point is shown with two words, its place and its height. -/
theorem Point.wordsOf_line (p : Point) :
    wordsOf p.line = [p.x.coordinate, toString p.y.toWord.toNat] := by
  -- the two blanks between the columns have nothing between them
  have hblanks : ("  " : String) = String.singleton ' ' ++ "" ++ String.singleton ' ' := by decide
  have hcut : p.line = alignRight 12 p.x.coordinate ++ String.singleton ' ' ++
      ("" ++ String.singleton ' ' ++ alignRight 10 (toString p.y.toWord.toNat)) := by
    rw [line, hblanks]
    simp only [String.append_assoc]
  rw [hcut, wordsOf_blank (by decide), wordsOf_blank (by decide), wordsOf_alignRight,
    wordsOf_alignRight, wordsOf_eq_singleton (isWord_coordinate p.x),
    wordsOf_eq_singleton (isWord_toString _), wordsOf_empty]
  rfl

/-- The line shows the point with two words: its place, and its height cut to a word. -/
def Point.ShownIn (p : Point) (line : String) : Prop :=
  ∃ n : Nat, wordsOf line = [p.x.coordinate, toString n] ∧ p.y.CutTo n

/-- A point is shown by its line. -/
theorem Point.shownIn_line (p : Point) : p.ShownIn p.line :=
  ⟨p.y.toWord.toNat, p.wordsOf_line, p.y.cutTo_toWord⟩

/-! ### The lines of a report -/

/-- The lines show the series: a heading, and a line for each point. -/
def Series.ShownIn (s : Series) (lines : List String) : Prop :=
  ∃ points, lines = s!"== {s.label} [{s.axis.label} vs proof bytes]" :: points ∧
    List.Forall₂ Point.ShownIn s.points points

/-- A series is shown by its lines. -/
theorem Series.shownIn_lines (s : Series) : s.ShownIn s.lines := by
  refine ⟨s.points.map Point.line, rfl, ?_⟩
  rw [List.forall₂_map_right_iff, List.forall₂_same]
  exact fun p _ => p.shownIn_line

/-- The breakdown whose numbers end five lines, in the order of its fields. -/
def Breakdown.ofLines? (lines : List String) : Option Breakdown :=
  (lines.mapM lastNumber?).bind fun
    | [total, count, signatures, update, updateProof] =>
      some ⟨total, count, signatures, update, updateProof⟩
    | _ => none

/-- The lines show the breakdown: a heading, and five lines that read back as its numbers. -/
def ScenarioBreakdown.ShownIn (b : ScenarioBreakdown) (lines : List String) : Prop :=
  ∃ numbers, lines = s!"-------- verification object for {b.scenario} receipt ----------" :: numbers ∧
    numbers.length = 5 ∧ Breakdown.ofLines? numbers = some b.breakdown

/-- A breakdown is shown by its lines. -/
theorem ScenarioBreakdown.shownIn_lines (b : ScenarioBreakdown) : b.ShownIn b.lines := by
  refine ⟨_, rfl, rfl, ?_⟩
  have htotal := lastNumber?_text "total:" b.breakdown.totalBytes
  have hcount := lastNumber?_text "# sigs:" b.breakdown.signatureCount
  have hsignatures := lastNumber?_text "size sigs:" b.breakdown.signatureBytes
  have hupdate := lastNumber?_text "size update:" b.breakdown.updateBytes
  have hproof := lastNumber?_text "size update proof:" b.breakdown.updateProofBytes
  have hread := mapM_eq_some_iff.2
    (.cons htotal (.cons hcount (.cons hsignatures (.cons hupdate (.cons hproof .nil)))))
  exact congrArg (Option.bind · _) hread

namespace Report

/-- No path, digest, label or name of a scenario goes over the end of a line. -/
structure Unbroken (r : Report) : Prop where
  path : ∀ s ∈ r.run.sources, OneLine s.path
  digest : ∀ s ∈ r.run.sources, OneLine s.sha256
  label : ∀ s ∈ r.series, OneLine s.label
  scenario : ∀ b ∈ r.breakdowns, OneLine b.scenario

/-- The lines show the report: its data files, its series and its breakdowns, each in order, and nothing
    behind the last line feed. -/
def ShownIn (r : Report) (lines : List String) : Prop :=
  ∃ (sources : List String) (series breakdowns : List (List String)),
    lines = sources ++ series.flatten ++ breakdowns.flatten ++ [""] ∧
    List.Forall₂ Source.CitedIn r.run.sources sources ∧
    List.Forall₂ Series.ShownIn r.series series ∧
    List.Forall₂ ScenarioBreakdown.ShownIn r.breakdowns breakdowns

section

variable {r : Report}

/-- A line of the data files cites one of them. -/
private theorem exists_source {sources : List Source} {lines : List String}
    (h : List.Forall₂ Source.CitedIn sources lines) {line : String} (hline : line ∈ lines) :
    ∃ s ∈ sources, s.CitedIn line := by
  induction h with
  | nil => exact nomatch hline
  | cons hcited _ ih =>
    rcases List.mem_cons.1 hline with rfl | hline
    · exact ⟨_, List.mem_cons_self, hcited⟩
    · obtain ⟨s, hs, hcited⟩ := ih hline
      exact ⟨s, List.mem_cons_of_mem _ hs, hcited⟩

/-- A line that cites a data file of an unbroken report goes over no end of a line. -/
private theorem oneLine_source (h : r.Unbroken) {s : Source} (hs : s ∈ r.run.sources) {line : String}
    (hcited : s.CitedIn line) : OneLine line := by
  obtain ⟨shown, hidden, happend, -, rfl⟩ := hcited
  have hshown : OneLine shown := (oneLine_append.1 (happend ▸ h.digest s hs)).1
  have hrows : OneLine (toString s.rows) := (isWord_toString s.rows).oneLine
  simp only [oneLine_append]
  exact ⟨⟨⟨⟨⟨⟨by decide, h.path s hs⟩, by decide⟩, hrows⟩, by decide⟩, hshown⟩, by decide⟩

/-- The line of a point goes over no end of a line, whatever its coordinates are. -/
private theorem oneLine_point (p : Point) : OneLine p.line := by
  have hx : OneLine p.x.coordinate := (isWord_coordinate p.x).oneLine
  have hy : OneLine (toString p.y.toWord.toNat) := (isWord_toString _).oneLine
  exact oneLine_append.2 ⟨oneLine_append.2 ⟨oneLine_alignRight hx, by decide⟩, oneLine_alignRight hy⟩

/-- The lines of a series go over no end of a line, if its label does not. -/
theorem oneLine_series {s : Series} (hlabel : OneLine s.label) : ∀ line ∈ s.lines, OneLine line := by
  rw [Series.lines, List.forall_mem_cons, List.forall_mem_map]
  refine ⟨?_, fun p _ => oneLine_point p⟩
  have haxis : OneLine s.axis.label := by cases s.axis <;> decide
  simp only [oneLine_append]
  exact ⟨⟨⟨⟨by decide, hlabel⟩, by decide⟩, haxis⟩, by decide⟩

/-- The lines of a breakdown of an unbroken report go over no end of a line. -/
private theorem oneLine_breakdown (h : r.Unbroken) {b : ScenarioBreakdown} (hb : b ∈ r.breakdowns) :
    ∀ line ∈ b.lines, OneLine line := by
  have hnumber (label : String) (hlabel : OneLine label) (w : UInt64) :
      OneLine (label ++ toString w.toNat) :=
    oneLine_append.2 ⟨hlabel, (isWord_toString w.toNat).oneLine⟩
  simp only [ScenarioBreakdown.lines, List.forall_mem_cons]
  refine ⟨?_, hnumber _ (by decide) _, hnumber _ (by decide) _, hnumber _ (by decide) _,
    hnumber _ (by decide) _, hnumber _ (by decide) _, List.forall_mem_nil _⟩
  simp only [oneLine_append]
  exact ⟨⟨by decide, h.scenario b hb⟩, by decide⟩

/-- The lines of a report are found again in its text. -/
theorem shownIn_linesOf_text (h : r.Unbroken) {text : String} (htext : r.text? = some text) :
    r.ShownIn (linesOf text) := by
  obtain ⟨lines, hlines, rfl⟩ := Option.map_eq_some_iff.1 htext
  obtain ⟨sources, hsources, hrest⟩ := Option.bind_eq_some_iff.1 hlines
  obtain rfl := Option.some.inj hrest
  have hcited : List.Forall₂ Source.CitedIn r.run.sources sources :=
    (mapM_eq_some_iff.1 hsources).imp fun _ _ => Source.line?_eq_some_iff.1
  refine ⟨sources, r.series.map Series.lines, r.breakdowns.map ScenarioBreakdown.lines, ?_, hcited,
    ?_, ?_⟩
  -- the text splits into its lines again, as none of the three kinds of lines is broken
  · rw [linesOf_join, List.flatMap_def, List.flatMap_def]
    intro line hline
    rw [List.mem_append, List.mem_append] at hline
    rcases hline with (hsource | hseries) | hbreakdown
    · obtain ⟨s, hs, hline⟩ := exists_source hcited hsource
      exact oneLine_source h hs hline
    · obtain ⟨s, hs, hline⟩ := List.mem_flatMap.1 hseries
      exact oneLine_series (h.label s hs) line hline
    · obtain ⟨b, hb, hline⟩ := List.mem_flatMap.1 hbreakdown
      exact oneLine_breakdown h hb line hline
  · rw [List.forall₂_map_right_iff, List.forall₂_same]
    exact fun s _ => s.shownIn_lines
  · rw [List.forall₂_map_right_iff, List.forall₂_same]
    exact fun b _ => b.shownIn_lines

end

/-- A report has a text unless a digest is cut within a character, which no digest of a content is. From
    the lines of the text its data files, its points and the numbers of its breakdowns can be read. -/
theorem text_shows (r : Report) :
    ((∃ text, r.text? = some text) ↔ ∀ s ∈ r.run.sources, s.CanBeCut) ∧
    (∀ (s : Source) (content : ByteArray), s.sha256 = Digest.ofContent content → s.CanBeCut ∧
      ∃ shown hidden : String, s.sha256 = shown ++ hidden ∧ shown.length = 12 ∧
        s.line? = some s!"# {s.path} ({s.rows} rows, sha256 {shown})") ∧
    ∀ text, r.text? = some text → r.Unbroken → r.ShownIn (linesOf text) := by
  refine ⟨?_, fun s content hdigest => ⟨?_, ?_⟩, fun text htext h => shownIn_linesOf_text h htext⟩
  · rw [exists_text_iff]
    exact forall₂_congr fun s _ => Source.exists_line_iff
  · exact Source.exists_line_iff.1 ⟨_, Source.line?_of_content hdigest⟩
  · have hlength : s.sha256.length = 64 := by
      rw [hdigest, Digest.ofContent, Digest.length_hex, Digest.length_sha256]
    refine ⟨String.ofList (s.sha256.toList.take 12), String.ofList (s.sha256.toList.drop 12), ?_, ?_,
      Source.line?_of_content hdigest⟩
    · rw [← String.ofList_append, List.take_append_drop, String.ofList_toList]
    · rw [String.length_ofList, List.length_take, String.length_toList, hlength]
      rfl

/-- A report with numbers of every kind as coordinates, and a digest whose cut leaves out a blank. -/
def ofEveryKind : Report where
  run := ⟨1, "0.1.0", "scale", [⟨"a b.csv", "ééé--éé ééé", 2⟩], 256, 18446744073709551615, "\n"⟩
  series := [⟨"1 ADSes", .percentUpdated, ⟨.red, .circle, .dashed⟩,
    [⟨.nan, .nan⟩, ⟨.infinite true, .infinite false⟩, ⟨.ofDecimal true 125 (-2), .ofDecimal true 9 0⟩,
      ⟨.ofDecimal false 1 15, .ofDecimal false 39 (-1)⟩]⟩]
  breakdowns := [⟨"no transfers", ⟨18446744073709551615, 0, 1, 2, 3⟩⟩]

/-- Twelve bytes of the digest are seven characters, so it is cut before the blank. -/
theorem text_shows_ofEveryKind :
    (∀ s ∈ ofEveryKind.run.sources, s.CanBeCut) ∧
    ofEveryKind.ShownIn (["# a b.csv (2 rows, sha256 ééé--éé)",
      "== 1 ADSes [% of ADSes updated vs proof bytes]",
      "         NaN           0",
      "        -inf  18446744073709551615",
      "     -1.2500           0",
      "1000000000000000.0000           3",
      "-------- verification object for no transfers receipt ----------",
      "total: 18446744073709551615", "# sigs: 0", "size sigs: 1", "size update: 2",
      "size update proof: 3"] ++ [""]) := by
  obtain ⟨hexists, -, hshown⟩ := text_shows ofEveryKind
  rw [← linesOf_join (by decide +kernel)]
  suffices htext : ofEveryKind.text? = some _ from
    ⟨hexists.1 ⟨_, htext⟩, hshown _ htext (by constructor <;> decide)⟩
  exact Option.map_eq_some_iff.2 ⟨_, by decide +kernel, rfl⟩

end Report

end ProofSize
