import ProofSize.Proofs.Config.Spelling
import ProofSize.Proofs.Json.Printing

/-!
# Decoding configurations

Every text that spells a configuration is decoded to it: keys may stand in any order and be left out where
the value is the standard one, and what stands under other keys is passed over. The header names that the
configuration lists replace the standard ones, field by field.

## Key results

- `follows_readWord`, `follows_readString`, `follows_readList`, `follows_readColumns`: a reader finds the
  value that is spelled
- `readMembers_eq`: a table is read member by member
- `exists_draft`: known keys take over what is spelled, in any order
- `overrides_eq`: the listed header names are in force, in whatever order they are put in place
- `decode_of_spells`: a spelled configuration is decoded, and its header names are in force
-/

namespace ProofSize

namespace Config

open Json (Blanks ReadsText EndsNumeral readsText_escapes isBlank skipBlanks readText skipValue)

/-! ### Values -/

/-- A reader finds the value that is spelled behind blanks, if no numeral is cut. -/
def Follows {α : Type} (read : List Char → Except Fault (α × List Char)) (spelling : Spelling α) : Prop :=
  ∀ ⦃cs cs₁ rest : List Char⦄ ⦃a : α⦄, Blanks cs cs₁ → spelling cs₁ a rest → EndsNumeral rest →
    read cs = .ok (a, rest)

/-- What is spelled starts neither with a blank nor with the end of a list. -/
def Spelling.StartsItem {α : Type} (spelling : Spelling α) : Prop :=
  ∀ ⦃cs : List Char⦄ ⦃a : α⦄ ⦃rest : List Char⦄, spelling cs a rest →
    ∃ c cs', cs = c :: cs' ∧ isBlank c = false ∧ c ≠ ']'

/-- A word starts with a digit. -/
theorem startsItem_word : SpellsWord.StartsItem := by
  intro cs w rest h
  obtain ⟨d, cs', hcons, hdigit⟩ := Json.exists_toDigits_append w.toNat rest
  exact ⟨d, cs', h.trans hcons, Json.isBlank_of_numeral (.inr hdigit)⟩

/-- A text starts with its quotation mark. -/
theorem startsItem_text : SpellsText.StartsItem := by
  intro cs s rest h
  obtain ⟨cs', rfl, -⟩ := h
  exact ⟨'"', cs', rfl, rfl, by decide⟩

/-- `readWord` finds the word that is spelled. -/
theorem follows_readWord : Follows readWord SpellsWord := by
  intro cs cs₁ rest w hblanks hword hrest
  obtain ⟨d, cs', hcons, hdigit⟩ := Json.exists_toDigits_append w.toNat rest
  obtain rfl := hword.trans hcons
  -- a numeral starts with a digit, so the blanks are skipped up to it
  have hvisible := (Json.isBlank_of_numeral (.inr hdigit)).1
  have hnumber := Json.readNumber_toDigits w hrest
  rw [hcons] at hnumber
  rw [readWord, hblanks.skipBlanks_cons hvisible]
  dsimp only
  rw [if_pos (.inr hdigit), hnumber]
  rfl

/-- `readString` finds the text that is spelled. -/
theorem follows_readString : Follows readString SpellsText := by
  intro cs cs₁ rest s hblanks htext _
  obtain ⟨cs', rfl, hs⟩ := htext
  rw [readString, hblanks.skipBlanks_cons (by decide)]
  change lift (readText [] cs') = _
  rw [hs.readText_eq []]
  simp [lift, Except.mapError]

/-! ### Lists -/

section

variable {α : Type} {read : List Char → Except Fault (α × List Char)} {item : Spelling α}
  {cs rest : List Char} {as : List α}

/-- A list may end before any item, the first one included. -/
private theorem nextItem_close (isFirst : Bool) (h : Blanks cs (']' :: rest)) :
    nextItem isFirst cs = .ok (.inr rest) := by
  rw [nextItem, h.skipBlanks_cons (by decide)]
  rfl

/-- The first item stands behind no comma. -/
private theorem nextItem_first {c : Char} (h : Blanks cs (c :: rest)) (hc : isBlank c = false)
    (hclose : c ≠ ']') : nextItem true cs = .ok (.inl (c :: rest)) := by
  rw [nextItem, h.skipBlanks_cons hc]
  simp

/-- Every further item stands behind a comma. -/
private theorem nextItem_comma {c : Char} {cs₁ : List Char} (hcomma : Blanks cs (',' :: cs₁))
    (h : Blanks cs₁ (c :: rest)) (hc : isBlank c = false) (hclose : c ≠ ']') :
    nextItem false cs = .ok (.inl (c :: rest)) := by
  have hnext := h.skipBlanks_cons hc
  rw [nextItem, hcomma.skipBlanks_cons (by decide)]
  simp only [Char.reduceEq, imp_self, Bool.false_eq_true, ↓reduceIte, hnext]
  split <;> simp_all

/-- One item is read, and those behind it are left. -/
private theorem readItems_succ {fuel : Nat} {items : List α} {a : α} {cs₁ : List Char}
    (hnext : nextItem items.isEmpty cs = .ok (.inl cs₁)) (ha : read cs₁ = .ok (a, rest)) :
    readItems read (fuel + 1) items cs = readItems read fuel (a :: items) rest := by
  rw [readItems, hnext]
  simp only [bind, Except.bind, ha]

/-- Items are read one after another, behind those that have been read before. -/
private theorem readItems_eq (hread : Follows read item) (hstart : item.StartsItem)
    (hshrinks : item.Shrinks) (h : SpellsItems ']' item cs as rest) {fuel : Nat} {items : List α}
    (hfuel : cs.length ≤ fuel) (hne : items ≠ []) :
    readItems read (fuel + 1) items cs = .ok (items.reverse ++ as, rest) := by
  have hbehind : items.isEmpty = false := by simpa using hne
  -- the fuel covers the characters that are left, of which every item takes one at least
  induction h generalizing fuel items with
  | last hclose =>
    rw [readItems, hbehind, nextItem_close false hclose, List.append_nil]
    rfl
  | @next cs cs₁ cs₂ cs₃ rest a as hcomma hblanks ha has ih =>
    -- the comma or bracket behind the item ends its numeral, if it is one
    have hitem := hread .none ha (has.endsNumeral (.of_cons (by decide)))
    have hleft := length_lt_of_next hcomma hblanks (hshrinks ha)
    obtain ⟨fuel, rfl⟩ := Nat.exists_eq_add_one_of_ne_zero (n := fuel) (by omega)
    obtain ⟨c, cs', rfl, hc, hclose⟩ := hstart ha
    have hnext := nextItem_comma hcomma hblanks hc hclose
    rw [readItems_succ (hbehind.symm ▸ hnext) hitem,
      ih (by omega) (List.cons_ne_nil a items) rfl, List.reverse_cons, List.append_assoc,
      List.singleton_append]

/-- `readList` finds the list that is spelled, if its reader finds the items. -/
theorem follows_readList (hread : Follows read item) (hstart : item.StartsItem)
    (hshrinks : item.Shrinks) : Follows (readList read) (SpellsList item) := by
  intro cs cs₁ rest as hblanks h _
  obtain ⟨cs', rfl⟩ := h.exists_cons
  rw [readList, hblanks.skipBlanks_cons (by decide)]
  change readItems read (cs'.length + 1) [] cs' = _
  cases h with
  | empty hclose =>
    rw [readItems, List.isEmpty_nil, nextItem_close true hclose]
    rfl
  | @items _ cs₁ cs₂ _ a as hfirst ha has =>
    -- the first item has no comma before it, so it is read apart from the others
    have hitem := hread .none ha (has.endsNumeral (.of_cons (by decide)))
    have hleft : cs₂.length < cs'.length := Nat.lt_of_lt_of_le (hshrinks ha) hfirst.length_le
    obtain ⟨fuel, hfuel⟩ := Nat.exists_eq_add_one_of_ne_zero (n := cs'.length) (by omega)
    obtain ⟨c, cs₁, rfl, hc, hclose⟩ := hstart ha
    have hnext : nextItem ([] : List α).isEmpty cs' = .ok (.inl (c :: cs₁)) :=
      nextItem_first hfirst hc hclose
    rw [readItems_succ hnext hitem, hfuel,
      readItems_eq hread hstart hshrinks has (by omega) (List.cons_ne_nil a [])]
    rfl

end

/-! ### Tables -/

/-- `readColon` finds the colon behind blanks. -/
private theorem readColon_eq {cs rest : List Char} (h : Blanks cs (':' :: rest)) :
    readColon cs = .ok rest := by
  rw [readColon, h.skipBlanks_cons (by decide)]
  rfl

/-- A reader of members changes its state, as far as it can, by what is spelled under the key. -/
def FollowsMember {σ α : Type} (member : σ → String → List Char → Except Fault (σ × List Char))
    (value : String → Spelling α) (step : σ → α → Option σ) : Prop :=
  ∀ ⦃key : String⦄ ⦃cs cs₁ cs₂ rest : List Char⦄ ⦃a : α⦄ ⦃state state' : σ⦄,
    Blanks cs (':' :: cs₁) → Blanks cs₁ cs₂ → value key cs₂ a rest → EndsNumeral rest →
    step state a = some state' → member state key cs = .ok (state', rest)

section

variable {σ α : Type} {member : σ → String → List Char → Except Fault (σ × List Char)}
  {value : String → Spelling α} {step : σ → α → Option σ} {cs rest : List Char} {as : List α}
  {state state' : σ}

/-- A table may end before any member, the first one included. -/
private theorem nextKey_close (isFirst : Bool) (h : Blanks cs ('\x7d' :: rest)) :
    nextKey isFirst cs = .ok (.inr rest) := by
  rw [nextKey, h.skipBlanks_cons (by decide)]
  rfl

/-- The first key stands behind no comma. -/
private theorem nextKey_first (h : Blanks cs ('"' :: rest)) : nextKey true cs = .ok (.inl rest) := by
  rw [nextKey, h.skipBlanks_cons (by decide)]
  rfl

/-- Every further key stands behind a comma. -/
private theorem nextKey_comma {cs₁ : List Char} (hcomma : Blanks cs (',' :: cs₁))
    (h : Blanks cs₁ ('"' :: rest)) : nextKey false cs = .ok (.inl rest) := by
  rw [nextKey, hcomma.skipBlanks_cons (by decide)]
  have hquote := h.skipBlanks_cons (by decide)
  simp [hquote]

/-- One member is read, and those behind it are left. -/
private theorem readMembers_succ {fuel : Nat} {isFirst : Bool} {key cs₁ cs₂ : List Char} {state₁ : σ}
    (hnext : nextKey isFirst cs = .ok (.inl cs₁)) (hkey : ReadsText cs₁ key cs₂)
    (hmember : member state (String.ofList key) cs₂ = .ok (state₁, rest)) :
    readMembers member (fuel + 1) isFirst state cs = readMembers member fuel false state₁ rest := by
  rw [readMembers, hnext]
  simp only [bind, Except.bind, hkey.readText_eq [], List.reverse_nil, List.nil_append, lift,
    Except.mapError, hmember]

/-- Members are read one after another, each from the state that the one before it leaves. -/
private theorem readMembers_eq_of_items (hmember : FollowsMember member value step)
    (hshrinks : Spelling.Shrinks (SpellsMember value))
    (h : SpellsItems '\x7d' (SpellsMember value) cs as rest) {fuel : Nat} (hfuel : cs.length ≤ fuel)
    (hsteps : as.foldlM step state = some state') :
    readMembers member (fuel + 1) false state cs = .ok (state', rest) := by
  -- as for items, with the state carried from member to member
  induction h generalizing fuel state with
  | last hclose =>
    obtain rfl := Option.some.inj hsteps
    rw [readMembers, nextKey_close false hclose]
    rfl
  | @next cs cs₁ cs₂ cs₃ rest a as hcomma hblanks ha has ih =>
    obtain ⟨state₁, hstep, hsteps⟩ := Option.bind_eq_some_iff.1 hsteps
    have hleft := length_lt_of_next hcomma hblanks (hshrinks ha)
    obtain ⟨fuel, rfl⟩ := Nat.exists_eq_add_one_of_ne_zero (n := fuel) (by omega)
    have hends := has.endsNumeral (.of_cons (by decide))
    cases ha with
    | member hkey hcolon hvalue ha =>
      rw [readMembers_succ (nextKey_comma hcomma hblanks) hkey (hmember hcolon hvalue ha hends hstep)]
      exact ih (by omega) hsteps

/-- A table is read member by member. -/
theorem readMembers_eq (hmember : FollowsMember member value step)
    (hvalue : ∀ key, (value key).Shrinks)
    (h : SpellsTable value ('\x7b' :: cs) as rest) (hsteps : as.foldlM step state = some state') :
    readMembers member (cs.length + 1) true state cs = .ok (state', rest) := by
  have hshrinks : Spelling.Shrinks (SpellsMember value) := shrinks_member hvalue
  cases h with
  | empty hclose =>
    obtain rfl := Option.some.inj hsteps
    rw [readMembers, nextKey_close true hclose]
    rfl
  | @items _ cs₁ cs₂ _ a as hblanks ha has =>
    obtain ⟨state₁, hstep, hsteps⟩ := Option.bind_eq_some_iff.1 hsteps
    -- the first member takes a character, so the fuel is enough for the rest
    have hleft : cs₂.length < cs.length := Nat.lt_of_lt_of_le (hshrinks ha) hblanks.length_le
    obtain ⟨fuel, hfuel⟩ := Nat.exists_eq_add_one_of_ne_zero (n := cs.length) (by omega)
    have hends := has.endsNumeral (.of_cons (by decide))
    cases ha with
    | member hkey hcolon hvalue ha =>
      rw [readMembers_succ (nextKey_first hblanks) hkey (hmember hcolon hvalue ha hends hstep), hfuel]
      exact readMembers_eq_of_items hmember hshrinks has (by omega) hsteps

end

/-! ### Header names -/

/-- The names with those of one field replaced. -/
def setColumn (names : ColumnNames) (column : Field × List String) : ColumnNames :=
  fun f => if f = column.1 then some column.2 else names f

section

variable {columns : List (Field × List String)} {names : ColumnNames} {f : Field}

/-- Names of a field that is not listed stay as they are. -/
private theorem foldl_setColumn_of_not_mem (h : f ∉ columns.map Prod.fst) :
    columns.foldl setColumn names f = names f := by
  induction columns generalizing names with
  | nil => rfl
  | cons column columns ih =>
    rw [List.map_cons, List.mem_cons, not_or] at h
    rw [List.foldl_cons, ih h.2, setColumn, if_neg h.1]

/-- Names of a field that is listed once replace those that it had. -/
private theorem foldl_setColumn_of_mem {headers : List String} (hnodup : (columns.map Prod.fst).Nodup)
    (h : (f, headers) ∈ columns) : columns.foldl setColumn names f = some headers := by
  induction columns generalizing names with
  | nil => exact nomatch h
  | cons column columns ih =>
    rw [List.map_cons, List.nodup_cons] at hnodup
    rw [List.foldl_cons]
    rcases List.mem_cons.1 h with rfl | h
    · rw [foldl_setColumn_of_not_mem hnodup.1, setColumn, if_pos rfl]
    · exact ih hnodup.2 h

/-- Listed one after another, the columns are the header names. -/
theorem ListsColumns.foldl_setColumn (h : ListsColumns columns names) :
    columns.foldl setColumn (fun _ => none) = names := by
  funext f
  -- each field is listed once or not at all
  cases hf : names f with
  | some headers => exact foldl_setColumn_of_mem h.nodup ((h.mem_iff f headers).2 hf)
  | none =>
    refine foldl_setColumn_of_not_mem fun hmem => ?_
    obtain ⟨⟨f, headers⟩, hcolumn, rfl⟩ := List.mem_map.1 hmem
    rw [(h.mem_iff f headers).1 hcolumn] at hf
    exact nomatch hf

/-- `readColumn` puts the header names of one field in place. -/
theorem followsMember_readColumn :
    FollowsMember readColumn SpellsColumn fun names column => some (setColumn names column) := by
  intro key cs cs₁ cs₂ rest column names names' hcolon hblanks h hrest hstep
  obtain ⟨rfl, hheaders⟩ := h
  obtain rfl := Option.some.inj hstep
  have hread := follows_readList follows_readString startsItem_text shrinks_text hblanks hheaders hrest
  rw [readColumn, Field.ofName?_name]
  simp only [readColon_eq hcolon, hread, bind, Except.bind, pure, Except.pure]
  rfl

/-- `readColumns` finds the header names that are spelled. -/
theorem follows_readColumns : Follows readColumns SpellsColumns := by
  intro cs cs₁ rest names hblanks h _
  obtain ⟨columns, hlists, htable⟩ := h
  have hsteps : columns.foldlM (fun names column => some (setColumn names column)) (fun _ => none) =
      some names := by
    rw [← hlists.foldl_setColumn]
    exact List.foldlM_pure
  obtain ⟨cs', rfl⟩ := htable.exists_cons
  rw [readColumns, hblanks.skipBlanks_cons (by decide)]
  exact readMembers_eq followsMember_readColumn shrinks_column htable hsteps

end

/-! ### Keys -/

namespace Key

variable {c d : Config} {k : Key}

/-- The second configuration with the value that the first one has for the key. -/
def copy (c d : Config) : Key → Config
  | signatureSize => { d with signatureSize := c.signatureSize }
  | targetSignatures => { d with targetSignatures := c.targetSignatures }
  | signatureCounts => { d with signatureCounts := c.signatureCounts }
  | columns => { d with columns := c.columns }

/-- What has been copied agrees. -/
theorem agree_copy (k : Key) (c d : Config) : k.Agree c (k.copy c d) := by
  cases k <;> rfl

/-- Values that are the same already are not changed. -/
theorem Agree.copy (h : k.Agree c d) (k' : Key) : k.Agree c (k'.copy c d) := by
  cases k' <;> cases k <;> first | exact h | rfl

/-- Configurations that agree under every key are the same. -/
theorem eq_of_agree (h : ∀ k : Key, k.Agree c d) : c = d := by
  have hsize : c.signatureSize = d.signatureSize := h signatureSize
  have htarget : c.targetSignatures = d.targetSignatures := h targetSignatures
  have hcounts : c.signatureCounts = d.signatureCounts := h signatureCounts
  have hcolumns : c.columns = d.columns := h columns
  cases c
  cases d
  simp_all

/-- The value that is spelled for a key is taken over. -/
theorem read_eq {cs cs₁ rest : List Char} (d : Config) (hblanks : Blanks cs cs₁)
    (h : k.SpellsValue c cs₁ rest) (hrest : EndsNumeral rest) :
    k.read d cs = .ok (k.copy c d, rest) := by
  cases k with
  | signatureSize | targetSignatures =>
    rw [read, follows_readWord hblanks h hrest]
    rfl
  | signatureCounts =>
    rw [read, follows_readList follows_readWord startsItem_word shrinks_word hblanks h hrest]
    rfl
  | columns =>
    rw [read, follows_readColumns hblanks h hrest]
    rfl

/-- A key is found by its name. -/
theorem ofName?_name (k : Key) : ofName? k.name = some k := by
  cases k <;> decide

/-- No other name is that of a key. -/
theorem ofName?_eq_none {key : String} (h : ∀ k : Key, key ≠ k.name) : ofName? key = none := by
  refine List.find?_eq_none.2 fun k _ hk => h k ?_
  exact (beq_iff_eq.1 hk).symm

end Key

/-- What an entry changes: a known key that has not been given yet takes over its value. -/
def Draft.step (c : Config) (d : Draft) : Option Key → Option Draft
  | none => some d
  | some k => if k ∈ d.given then none else some ⟨k.copy c d.config, k :: d.given⟩

/-- `readMember` takes one entry as `Draft.step` does: the value of a known key is taken over, and what
    stands under another key is passed over. -/
theorem followsMember_readMember (c : Config) :
    FollowsMember readMember (SpellsEntry c) (Draft.step c) := by
  intro key cs cs₁ cs₂ rest known d d' hcolon hblanks h hrest hstep
  cases known with
  | none =>
    obtain ⟨hother, hvalue⟩ := h
    obtain rfl := Option.some.inj hstep
    -- the value under another key is skipped, whatever it is
    have hpass : skipValue cs₁ = .ok rest := by
      rw [skipValue, Json.skip_token_blanks (by decide) hblanks]
      exact hvalue.skipValue_eq hrest
    rw [readMember, Key.ofName?_eq_none hother]
    simp only [readColon_eq hcolon, hpass, lift, Except.mapError, bind, Except.bind, pure, Except.pure]
  | some k =>
    obtain ⟨rfl, hvalue⟩ := h
    rw [Draft.step, Option.ite_none_left_eq_some] at hstep
    obtain ⟨hnew, hstep⟩ := hstep
    obtain rfl := Option.some.inj hstep
    rw [readMember, Key.ofName?_name]
    simp only [if_neg hnew, readColon_eq hcolon, k.read_eq d.config hblanks hvalue hrest, bind,
      Except.bind, pure, Except.pure]

/-- Known keys that are all new are taken over in any order, and the other values are kept. -/
theorem exists_draft (c : Config) {keys : List (Option Key)} {d : Draft}
    (hnodup : keys.reduceOption.Nodup) (hnew : ∀ k, some k ∈ keys → k ∉ d.given) :
    ∃ d', keys.foldlM (Draft.step c) d = some d' ∧
      ∀ k : Key, (k.Agree c d.config ∨ some k ∈ keys) → k.Agree c d'.config := by
  induction keys generalizing d with
  | nil => exact ⟨d, rfl, fun k hk => hk.resolve_right List.not_mem_nil⟩
  | cons known keys ih =>
    cases known with
    | none =>
      rw [List.reduceOption_cons_of_none] at hnodup
      obtain ⟨d', hsteps, hagree⟩ := ih hnodup fun k hk => hnew k (List.mem_cons_of_mem _ hk)
      refine ⟨d', hsteps, fun k hk => hagree k ?_⟩
      exact hk.imp_right fun hmem => List.mem_of_ne_of_mem (Option.some_ne_none k) hmem
    | some k =>
      -- the key is new now, and is not given again by the keys that follow
      rw [List.reduceOption_cons_of_some, List.nodup_cons] at hnodup
      have hstep : Draft.step c d (some k) = some ⟨k.copy c d.config, k :: d.given⟩ :=
        if_neg (hnew k List.mem_cons_self)
      obtain ⟨d', hsteps, hagree⟩ := ih (d := ⟨k.copy c d.config, k :: d.given⟩) hnodup.2 (by
        intro k' hk' hgiven
        rcases List.mem_cons.1 hgiven with rfl | hgiven
        · exact hnodup.1 (List.reduceOption_mem_iff.2 hk')
        · exact hnew k' (List.mem_cons_of_mem _ hk') hgiven)
      refine ⟨d', ?_, fun k' hk' => hagree k' ?_⟩
      · rw [List.foldlM_cons, hstep]
        exact hsteps
      · rcases hk' with hk' | hmem
        · exact .inl (hk'.copy k)
        · rcases List.mem_cons.1 hmem with heq | hmem
          · obtain rfl := Option.some.inj heq
            exact .inl (k'.agree_copy c d.config)
          · exact .inr hmem

/-! ### Header names in force -/

/-- The fields with header names, in the order of the fields. -/
def columnList (c : Config) : List (Field × List String) :=
  Field.all.filterMap fun f => (c.columns f).map (f, ·)

/-- `columnList` lists every field with header names once. -/
theorem listsColumns_columnList (c : Config) : ListsColumns c.columnList c.columns where
  nodup := by
    have hkeys (fields : List Field) : (fields.filterMap fun f => (c.columns f).map (f, ·)).map Prod.fst =
        fields.filter fun f => (c.columns f).isSome := by
      induction fields with
      | nil => rfl
      | cons f fields ih =>
        rw [List.filterMap_cons, List.filter_cons, ← ih]
        cases c.columns f <;> rfl
    rw [columnList, hkeys]
    exact List.Pairwise.filter _ (by decide)
  mem_iff f headers := by
    simp [columnList, Field.mem_all]

/-- The standard header names with those of the columns put in their place, one field after another. -/
def overrides (columns : List (Field × List String)) : Aliases :=
  columns.foldl (fun a column => a.override column.1 column.2) .standard

/-- Put in place one after another, the listed header names are in force. -/
theorem overrides_eq {c : Config} {columns : List (Field × List String)}
    (h : ListsColumns columns c.columns) : overrides columns = c.aliases := by
  -- field by field, both folds replace the same names, whatever they start from
  have hfold (a : Aliases) (names : ColumnNames)
      (hstart : ∀ f, a.of f = (names f).getD (Aliases.standard.of f)) (f : Field) :
      (columns.foldl (fun a column => a.override column.1 column.2) a).of f =
        ((columns.foldl setColumn names) f).getD (Aliases.standard.of f) := by
    clear h
    induction columns generalizing a names with
    | nil => exact hstart f
    | cons column columns ih =>
      refine ih _ _ fun g => ?_
      by_cases hg : g = column.1
      · simp [Aliases.override, setColumn, hg]
      · simp [Aliases.override, setColumn, hg, hstart]
  have hof : (overrides columns).of = c.aliases.of := by
    funext f
    rw [overrides, hfold .standard (fun _ => none) (fun _ => rfl), h.foldl_setColumn]
    rfl
  exact congrArg Aliases.mk hof

/-! ### Configurations -/

/-- A text that spells a configuration is decoded to it. The header names that it lists replace the
    standard ones of their fields, and those of the other fields stay. -/
theorem decode_of_spells {text : String} {c : Config} (h : Spells text c) :
    decode text = .ok c ∧ c.aliases = overrides c.columnList ∧
      (∀ f headers, c.columns f = some headers → (overrides c.columnList).of f = headers) ∧
      ∀ f, c.columns f = none → (overrides c.columnList).of f = Aliases.standard.of f := by
  obtain ⟨cs, rest, keys, hbefore, htable, hbehind, hnodup, hstandard⟩ := h
  -- the draft starts from the standard configuration, with no key given
  obtain ⟨d, hsteps, hagree⟩ := exists_draft c (d := ⟨standard, []⟩) hnodup
    fun _ _ hgiven => nomatch hgiven
  have hconfig : d.config = c := by
    refine (Key.eq_of_agree fun k => hagree k ?_).symm
    -- what is not given is standard in the configuration too
    by_cases hk : some k ∈ keys
    · exact .inr hk
    · exact .inl (hstandard k hk)
  obtain ⟨cs', rfl⟩ := htable.exists_cons
  have hmembers := readMembers_eq (followsMember_readMember c) (shrinks_entry c) htable hsteps
  have haliases := overrides_eq (listsColumns_columnList c)
  refine ⟨?_, haliases.symm, fun f headers hf => ?_, fun f hf => ?_⟩
  · have hread : readConfig text.toList = .ok (c, rest) := by
      rw [readConfig, hbefore.skipBlanks_cons (by decide)]
      simp only [hmembers, bind, Except.bind, pure, Except.pure, hconfig]
    have hend : skipBlanks rest = [] := hbehind.skipBlanks_eq
    rw [decode, hread]
    exact if_pos hend
  · rw [haliases]
    simp [aliases, hf]
  · rw [haliases]
    simp [aliases, hf]

/-- A configuration with header names for one field. -/
def oneColumn : Config := standard.withColumn .adsCount ["😀"]

/-- A member that is passed over: its value holds half a surrogate pair. -/
def noteText : String := "\"x\": [\"\\ud83d\"]"

/-- The columns, with an escaped key and a surrogate pair. -/
def columnsText : String := "\"\\u0063olumns\":\x7b\"ads_count\":[\"\\ud83d\\ude00\"]\x7d"

/-- The text spells the configuration. -/
theorem spells_oneColumn : Spells ("\x7b" ++ noteText ++ ", " ++ columnsText ++ "\x7d") oneColumn := by
  -- the note is under no known key, so its value only has to be well formed
  have hnote (cs : List Char) : SpellsMember (SpellsEntry oneColumn) (noteText.toList ++ cs) none cs := by
    have hother : ∀ k : Key, "x" ≠ k.name := by
      intro k
      cases k <;> decide
    simp only [noteText, String.reduceToList, List.cons_append, List.nil_append]
    exact .member (.plain (by decide) (by decide) (by decide) .done) .none (.blank rfl .none)
      (And.intro hother (.list .none (.text (.unit rfl .done)) (.lastItem .none)))
  have hlists : ListsColumns [(.adsCount, ["😀"])] oneColumn.columns := by
    refine ⟨by decide, fun f headers => ?_⟩
    by_cases hf : f = .adsCount <;> simp [oneColumn, withColumn, standard, hf, eq_comm]
  -- an escape stands for the first letter of the key
  have hkey (cs : List Char) : ReadsText ('\\' :: 'u' :: '0' :: '0' :: '6' :: '3' ::
      'o' :: 'l' :: 'u' :: 'm' :: 'n' :: 's' :: '"' :: cs) "columns".toList cs :=
    .unit (show Json.hexUnit? '0' '0' '6' '3' = some 0x63 from rfl) rfl rfl
      (readsText_escapes "olumns".toList cs)
  have hfield (cs : List Char) : ReadsText ('a' :: 'd' :: 's' :: '_' :: 'c' :: 'o' :: 'u' :: 'n' ::
      't' :: '"' :: cs) "ads_count".toList cs :=
    readsText_escapes "ads_count".toList cs
  have hpair : "😀".toList = [Json.pairChar 0xd83d 0xde00] := by decide
  -- the surrogate pair is one character
  have hheader (cs : List Char) : SpellsText ('"' :: '\\' :: 'u' :: 'd' :: '8' :: '3' :: 'd' ::
      '\\' :: 'u' :: 'd' :: 'e' :: '0' :: '0' :: '"' :: cs) "😀" cs :=
    ⟨_, rfl, hpair ▸ .pair (by decide) (by decide) (by decide) (by decide) .done⟩
  have hcolumns (cs : List Char) :
      SpellsMember (SpellsEntry oneColumn) (columnsText.toList ++ cs) (some .columns) cs := by
    simp only [columnsText, String.reduceToList, List.cons_append, List.nil_append]
    refine .member (hkey _) .none .none ?_
    refine And.intro String.ofList_toList ⟨_, hlists, ?_⟩
    refine .items .none (.member (hfield _) .none .none ?_) (.last .none)
    exact And.intro String.ofList_toList (.items .none (hheader _) (.last .none))
  refine ⟨_, _, [none, some .columns], .none, ?_, .none, by decide, ?_⟩
  · simp only [String.toList_append, List.append_assoc, String.reduceToList, List.cons_append,
      List.nil_append]
    exact .items .none (hnote _) (.next .none (.blank rfl .none) (hcolumns _) (.last .none))
  · intro k hk
    cases k with
    | signatureSize | targetSignatures | signatureCounts => rfl
    | columns => exact absurd (by decide) hk

/-- The escapes are resolved, and the member with half a pair does no harm. -/
theorem decode_of_spells_oneColumn :
    decode ("\x7b" ++ noteText ++ ", " ++ columnsText ++ "\x7d") = .ok oneColumn ∧
      (overrides oneColumn.columnList).of .adsCount = ["😀"] := by
  obtain ⟨hdecode, -, hheaders, -⟩ := decode_of_spells spells_oneColumn
  exact ⟨hdecode, hheaders .adsCount ["😀"] rfl⟩

end Config

end ProofSize
