import ProofSize.Proofs.Command.Language

/-!
# Sorting arguments

Arguments are sorted from the first to the last, and each is looked at by itself. What is found is what
the language of command lines has put there.

## Key results

- `assigns_of_option?`: what a single argument says
- `follows_of_sort`, `sort_of_follows`: arguments behind the name of a command are sorted as they are
  spelled
- `precedes_of_sort`, `sort_of_precedes`: and so are options before it
-/

namespace ProofSize.Command

/-! ### Single arguments -/

/-- An argument looks like an option if it is a hyphen with something behind it. -/
theorem looksLikeOption_iff {arg : ByteString} : looksLikeOption arg = true ↔
    IsDashed arg := by
  unfold looksLikeOption IsDashed
  split
  · rename_i b c bs h
    simp [h]
  · rename_i hshort
    refine iff_of_false Bool.false_ne_true ?_
    rintro ⟨b, bs, h⟩
    exact hshort _ _ _ h

/-- An option has the name of a letter, or a longer one without an equals sign. None of them asks for
    help, and none ends the options. -/
structure IsOptionName (name : ByteString) : Prop where
  dashed : ∃ c bs, name.bytes = hyphen :: c :: bs ∧
    (if c = hyphen then equalsSign ∉ bs else c ≠ equalsSign ∧ bs = [])
  ne_help : name ≠ "-h" ∧ name ≠ "--help"
  ne_end : name ≠ "--"

/-- Options of commands have names of options. -/
theorem IsOption.isOptionName {verb : Verb} {name : ByteString} (h : IsOption verb name) :
    IsOptionName name := by
  cases h <;> exact ⟨⟨_, _, rfl, by decide⟩, by decide, by decide⟩

/-- The equals sign is one byte. -/
private theorem bytes_equals : (("=" : ByteString)).bytes = [equalsSign] := rfl

section

variable {arg name value : ByteString}

/-- An argument is no option if it does not look like one. -/
theorem option?_eq_none_iff : option? arg = none ↔ ¬IsDashed arg := by
  unfold option? IsDashed
  split
  · rename_i b c bs h
    rw [h]
    split
    · rename_i hb
      simp [hb]
    · rename_i hb
      obtain rfl : b = hyphen := Decidable.not_not.1 hb
      refine iff_of_false ?_ (fun hnone => hnone ⟨c, bs, rfl⟩)
      dsimp only
      split
      · split <;> exact nofun
      · split <;> exact nofun
  · rename_i hshort
    exact iff_of_true rfl fun ⟨b, bs, h⟩ => hshort _ _ _ h

/-- A name without an equals sign goes on to its end. -/
private theorem all_ne_equalsSign {bs : List UInt8} (h : equalsSign ∉ bs) :
    ∀ b ∈ bs, decide (b ≠ equalsSign) = true := fun _ hb =>
  decide_eq_true fun heq => h (heq ▸ hb)

/-- An option whose value is the next argument. -/
theorem option?_name (h : IsOptionName name) : option? name = some ⟨name, none⟩ := by
  obtain ⟨c, bs, hbytes, hc⟩ := h.dashed
  rw [option?, hbytes]
  -- a long name ends where the argument does, as it has no equals sign
  by_cases hlong : c = hyphen
  · subst hlong
    have hbs := all_ne_equalsSign hc
    simp only [ne_eq, not_true_eq_false, if_false, if_true, List.takeWhile_eq_self_iff.2 hbs,
      List.dropWhile_eq_nil_iff.2 hbs, ← hbytes]
  · rw [if_neg hlong] at hc
    obtain ⟨-, rfl⟩ := hc
    simp only [ne_eq, not_true_eq_false, if_false, hlong]

/-- An option whose value follows an equals sign. -/
theorem option?_equals (h : IsOptionName name) (value : ByteString) :
    option? (name ++ "=" ++ value) = some ⟨name, some value⟩ := by
  obtain ⟨c, bs, hbytes, hc⟩ := h.dashed
  have hall : (name ++ "=" ++ value).bytes = hyphen :: c :: (bs ++ equalsSign :: value.bytes) := by
    rw [ByteString.bytes_append, ByteString.bytes_append, bytes_equals, hbytes, List.append_assoc]
    rfl
  rw [option?, hall]
  -- a long name ends at the equals sign, a short one behind its letter
  by_cases hlong : c = hyphen
  · subst hlong
    have hbs := all_ne_equalsSign hc
    simp only [ne_eq, not_true_eq_false, if_false, if_true, List.takeWhile_append_of_pos hbs,
      List.dropWhile_append_of_pos hbs]
    simp [← hbytes]
  · rw [if_neg hlong] at hc
    obtain ⟨-, rfl⟩ := hc
    simp [hlong, ← hbytes]

/-- An option of one letter whose value follows at once. -/
theorem option?_joined (h : IsOptionName name) (hsize : name.size = 2) (hne : value ≠ "")
    (hhead : value.bytes.head? ≠ some equalsSign) :
    option? (name ++ value) = some ⟨name, some value⟩ := by
  obtain ⟨c, bs, hbytes, hc⟩ := h.dashed
  have hbs : bs = [] := by
    rw [ByteString.size, hbytes] at hsize
    exact List.length_eq_zero_iff.1 (by simpa using hsize)
  subst hbs
  have hletter : c ≠ hyphen := by
    rintro rfl
    exact h.ne_end (ByteString.ext hbytes)
  rcases value with ⟨_ | ⟨d, ds⟩⟩
  · exact absurd rfl hne
  · have hd : d ≠ equalsSign := fun heq => hhead (congrArg some heq)
    obtain rfl : name = ⟨[hyphen, c]⟩ := ByteString.ext hbytes
    rw [option?, ByteString.bytes_append]
    simp [hletter, hd]

/-- A long option ends at its first equals sign, behind which its value stands. -/
private theorem assigns_of_long {o : Given} {bs : List UInt8} (hbytes : arg.bytes = hyphen :: hyphen :: bs)
    (h : option? arg = some o) :
    (o.value = none ∧ arg = o.name) ∨ ∃ value, o.value = some value ∧ Assigns o.name value [arg] := by
  rw [option?, hbytes] at h
  simp only [ne_eq, not_true_eq_false, if_false, if_true] at h
  have hsplit := List.takeWhile_append_dropWhile (p := fun b => decide (¬b = equalsSign)) (l := bs)
  split at h
  · rename_i e value hrest
    obtain rfl := Option.some.inj h
    -- what ends the name is the equals sign
    have he := List.head?_dropWhile_not (fun b => decide (¬b = equalsSign)) bs
    rw [hrest] at he hsplit
    obtain rfl : e = equalsSign := by simpa using he
    refine .inr ⟨_, rfl, ?_⟩
    have harg : arg = ⟨hyphen :: hyphen :: bs.takeWhile (fun b => decide (¬b = equalsSign))⟩ ++ "=" ++
        ⟨value⟩ := ByteString.ext (by
      rw [ByteString.bytes_append, ByteString.bytes_append, bytes_equals, List.append_assoc, hbytes]
      exact congrArg (hyphen :: hyphen :: ·) hsplit.symm)
    rw [harg]
    exact .equals
  · rename_i hrest
    obtain rfl := Option.some.inj h
    rw [hrest, List.append_nil] at hsplit
    exact .inl ⟨rfl, ByteString.ext (by rw [hbytes, hsplit])⟩

/-- A short option ends behind its letter, where its value stands, with an equals sign or without. -/
private theorem assigns_of_short {o : Given} {c : UInt8} {bs : List UInt8}
    (hbytes : arg.bytes = hyphen :: c :: bs) (hc : c ≠ hyphen) (h : option? arg = some o) :
    (o.value = none ∧ arg = o.name) ∨ ∃ value, o.value = some value ∧ Assigns o.name value [arg] := by
  rw [option?, hbytes] at h
  simp only [ne_eq, not_true_eq_false, if_false, hc] at h
  cases bs with
  | nil =>
    obtain rfl := Option.some.inj h
    exact .inl ⟨rfl, rfl⟩
  | cons d value =>
    obtain rfl := Option.some.inj h
    refine .inr ⟨_, rfl, ?_⟩
    by_cases hd : d = equalsSign
    · have harg : arg = ⟨[hyphen, c]⟩ ++ "=" ++ ⟨value⟩ := ByteString.ext (by rw [hbytes, hd]; rfl)
      rw [harg, if_pos hd]
      exact .equals
    · have harg : arg = ⟨[hyphen, c]⟩ ++ ⟨d :: value⟩ := ByteString.ext hbytes
      rw [harg, if_neg hd]
      exact .joined rfl (fun hempty => nomatch ByteString.eq_empty_iff.1 hempty)
        fun hhead => hd (Option.some.inj hhead)

/-- An argument that is an option is its name, or gives it a value. -/
theorem assigns_of_option? {o : Given} (h : option? arg = some o) :
    (o.value = none ∧ arg = o.name) ∨ ∃ value, o.value = some value ∧ Assigns o.name value [arg] := by
  have hdashed : IsDashed arg := by
    by_contra hnot
    rw [option?_eq_none_iff.2 hnot] at h
    cases h
  obtain ⟨c, bs, hbytes⟩ := hdashed
  by_cases hc : c = hyphen
  · subst hc
    exact assigns_of_long hbytes h
  · exact assigns_of_short hbytes hc h

end

/-! ### Sorting -/

/-- The options that have been sorted, the first one first. -/
def Sorted.options (s : Sorted) : List (ByteString × ByteString) :=
  s.settings.reverse.map fun o => (o.name, o.value)

/-- Options and other arguments have been sorted since. -/
structure Gathers (s s' : Sorted) (options : List (ByteString × ByteString))
    (others : List ByteString) : Prop where
  options : s'.options = s.options ++ options
  others : s'.others.reverse = s.others.reverse ++ others

/-- Nothing has been sorted yet. -/
theorem gathers_nil (s : Sorted) : Gathers s s [] [] :=
  ⟨(List.append_nil _).symm, (List.append_nil _).symm⟩

/-- An option that has been sorted comes before those sorted later. -/
theorem Gathers.setting {s s' : Sorted} {options : List (ByteString × ByteString)}
    {others : List ByteString} {o : Setting}
    (h : Gathers { s with settings := o :: s.settings } s' options others) :
    Gathers s s' ((o.name, o.value) :: options) others :=
  ⟨by rw [h.options]; simp [Sorted.options], h.others⟩

/-- Another argument that has been sorted comes before those sorted later. -/
theorem Gathers.other {s s' : Sorted} {options : List (ByteString × ByteString)}
    {others : List ByteString} {arg : ByteString}
    (h : Gathers { s with others := arg :: s.others } s' options others) :
    Gathers s s' options (arg :: others) :=
  ⟨h.options, by simp [h.others]⟩

section

variable {known args first last others : List ByteString} {verb : Verb} {before : Bool}
  {arg name value : ByteString} {s s' : Sorted} {stop : Stop}
  {options : List (ByteString × ByteString)}

/-- An argument that is the name of an option is given the value that follows it. -/
private theorem assigns_apart {o : Given} (h : option? arg = some o) (hnone : o.value = none)
    (hvalue : ¬looksLikeOption value = true) : Assigns o.name value [arg, value] := by
  rcases assigns_of_option? h with ⟨-, rfl⟩ | ⟨v, hv, -⟩
  · exact .apart fun hdashed => hvalue (looksLikeOption_iff.2 hdashed)
  · exact nomatch hnone.symm.trans hv

/-- An argument that holds a value gives it to its option. -/
private theorem assigns_attached {o : Given} (h : option? arg = some o) (hvalue : o.value = some value) :
    Assigns o.name value [arg] := by
  rcases assigns_of_option? h with ⟨hnone, -⟩ | ⟨v, hv, hassigns⟩
  · exact nomatch hnone.symm.trans hvalue
  · obtain rfl := Option.some.inj (hv.symm.trans hvalue)
    exact hassigns

/-- Arguments behind the name of a command that have been sorted are its options and others. -/
theorem follows_of_sort (h : sort verb.optionNames false args s = some (s', stop))
    (hstop : stop ≠ .help) :
    stop = .done ∧ ∃ options others, Gathers s s' options others ∧ Follows verb options others args := by
  -- of the cases those are left in which sorting goes on or is done
  fun_induction sort verb.optionNames false args s
  case case1 s =>
    obtain ⟨rfl, rfl⟩ := Prod.mk.inj (Option.some.inj h)
    exact ⟨rfl, [], [], gathers_nil s, .nil⟩
  case case2 arg args s hend =>
    obtain ⟨rfl, rfl⟩ := Prod.mk.inj (Option.some.inj h)
    obtain rfl := hend.2
    exact ⟨rfl, [], args, ⟨(List.append_nil _).symm, by simp⟩, .rest⟩
  case case4 arg args s hend hoption hbefore ih =>
    obtain ⟨rfl, options, others, hgathers, hfollows⟩ := ih h
    exact ⟨rfl, options, arg :: others, hgathers.other, .other (option?_eq_none_iff.1 hoption) hfollows⟩
  case case6 arg s hend o hoption hhelp hknown value args hvalue ih =>
    obtain ⟨rfl, options, others, hgathers, hfollows⟩ := ih h
    exact ⟨rfl, _, others, hgathers.setting,
      .option (mem_optionNames_iff.1 hknown) (assigns_attached hoption hvalue) hfollows⟩
  case case8 arg s hend o hoption hhelp hknown value args hnone hvalue ih =>
    obtain ⟨rfl, options, others, hgathers, hfollows⟩ := ih h
    exact ⟨rfl, _, others, hgathers.setting,
      .option (mem_optionNames_iff.1 hknown) (assigns_apart hoption hnone hvalue) hfollows⟩
  case case5 =>
    obtain ⟨-, rfl⟩ := Prod.mk.inj (Option.some.inj h)
    exact absurd rfl hstop
  all_goals contradiction

/-- Arguments that end with the name of a command are options of every command before it. -/
theorem precedes_of_sort (h : sort commonNames true args s = some (s', .command name last)) :
    ¬IsDashed name ∧ ∃ options first, Gathers s s' options [] ∧ Precedes options first ∧
      args = first ++ name :: last := by
  -- sorting stops at the first argument that is no option
  fun_induction sort commonNames true args s
  case case3 arg args s hend hoption hbefore =>
    obtain ⟨rfl, hstop⟩ := Prod.mk.inj (Option.some.inj h)
    obtain ⟨rfl, rfl⟩ := Stop.command.inj hstop
    exact ⟨option?_eq_none_iff.1 hoption, [], [], gathers_nil s, .nil, rfl⟩
  case case6 arg s hend o hoption hhelp hknown value args hvalue ih =>
    obtain ⟨hname, options, first, hgathers, hprecedes, rfl⟩ := ih h
    exact ⟨hname, _, _, hgathers.setting,
      .option (mem_commonNames_iff.1 hknown) (assigns_attached hoption hvalue) hprecedes, rfl⟩
  case case8 arg s hend o hoption hhelp hknown value args hnone hvalue ih =>
    obtain ⟨hname, options, first, hgathers, hprecedes, rfl⟩ := ih h
    exact ⟨hname, _, _, hgathers.setting,
      .option (mem_commonNames_iff.1 hknown) (assigns_apart hoption hnone hvalue) hprecedes, rfl⟩
  all_goals first | contradiction | exact nomatch (Prod.mk.inj (Option.some.inj h)).2

/-- Arguments that give a value to an option are sorted as such. -/
theorem sort_assigns {words : List ByteString} (hname : IsOptionName name) (hknown : name ∈ known)
    (h : Assigns name value words) (before : Bool) (args : List ByteString) (s : Sorted) :
    ∃ attached, sort known before (words ++ args) s =
      sort known before args { s with settings := ⟨name, value, attached⟩ :: s.settings } := by
  have hhelp (v : Option ByteString) : (⟨name, v⟩ : Given).asksHelp = false := by
    simp [Given.asksHelp, hname.ne_help]
  -- a value within the argument is taken at once, however it is attached
  have hattached {arg : ByteString} (hoption : option? arg = some ⟨name, some value⟩) :
      sort known before ([arg] ++ args) s =
        sort known before args { s with settings := ⟨name, value, true⟩ :: s.settings } := by
    have hend : ¬(before = false ∧ arg = "--") := by
      rintro ⟨-, rfl⟩
      exact nomatch hoption
    rw [List.singleton_append, sort, if_neg hend, hoption]
    simp only [hhelp, hknown, if_true, Bool.false_eq_true, if_false]
  cases h with
  | apart hvalue =>
    have hend : ¬(before = false ∧ name = "--") := fun h => hname.ne_end h.2
    have hvalue : looksLikeOption value = false :=
      Bool.eq_false_iff.2 fun h => hvalue (looksLikeOption_iff.1 h)
    refine ⟨false, ?_⟩
    show sort known before (name :: value :: args) s = _
    rw [sort, if_neg hend, option?_name hname]
    simp only [hhelp, hknown, hvalue, if_true, Bool.false_eq_true, if_false]
  | equals => exact ⟨true, hattached (option?_equals hname value)⟩
  | joined hsize hne hhead => exact ⟨true, hattached (option?_joined hname hsize hne hhead)⟩

/-- The options and the others behind the name of a command are sorted. -/
theorem sort_of_follows (h : Follows verb options others args) (s : Sorted) :
    ∃ s', sort verb.optionNames false args s = some (s', .done) ∧ Gathers s s' options others := by
  -- one case for each way in which arguments go on
  induction h generalizing s with
  | nil => exact ⟨s, rfl, gathers_nil s⟩
  | option hoption hassigns _ ih =>
    obtain ⟨attached, hsort⟩ :=
      sort_assigns hoption.isOptionName (mem_optionNames_iff.2 hoption) hassigns false _ s
    obtain ⟨s', hs', hgathers⟩ := ih _
    exact ⟨s', hsort.trans hs', hgathers.setting⟩
  | @other arg others args options hdashed _ ih =>
    obtain ⟨s', hs', hgathers⟩ := ih { s with others := arg :: s.others }
    have hend : ¬(false = false ∧ arg = "--") := by
      rintro ⟨-, rfl⟩
      exact hdashed ⟨hyphen, [], rfl⟩
    refine ⟨s', ?_, hgathers.other⟩
    rw [sort, if_neg hend, option?_eq_none_iff.2 hdashed]
    exact hs'
  | @rest args =>
    refine ⟨{ s with others := args.reverse ++ s.others }, ?_, (List.append_nil _).symm, by simp⟩
    rw [sort, if_pos ⟨rfl, rfl⟩]

/-- Options before the name of a command are sorted. -/
theorem sort_of_precedes (h : Precedes options first) (hname : ¬IsDashed name) (last : List ByteString)
    (s : Sorted) : ∃ s', sort commonNames true (first ++ name :: last) s =
      some (s', .command name last) ∧ Gathers s s' options [] := by
  induction h generalizing s with
  | nil =>
    refine ⟨s, ?_, gathers_nil s⟩
    rw [List.nil_append, sort, if_neg fun h => nomatch h.1]
    simp only [option?_eq_none_iff.2 hname, if_true]
  | option hoption hassigns _ ih =>
    obtain ⟨attached, hsort⟩ := sort_assigns (hoption .inventory).isOptionName
      (mem_commonNames_iff.2 hoption) hassigns true _ s
    obtain ⟨s', hs', hgathers⟩ := ih _
    exact ⟨s', by rw [List.append_assoc, hsort, hs'], hgathers.setting⟩

end

end ProofSize.Command
