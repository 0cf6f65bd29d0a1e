import Mathlib.Data.List.Forall2
import ProofSize.Error

/-!
# The first element with a property, and the first error

A column is found by the first alias that occurs, a table is refused for its first bad record, a view
fails for the first row that contradicts itself. All of these are the first element of a list with
some property, and a computation over a list that stops at its first error finds exactly that.

## Key results

- `isFirst_cons_iff`: the first element of a list is its head, or it is the first one of the tail
- `isFirst_zipIdx_iff`: the first element of a numbered list has its place for its number
- `IsFirst.unique`, `exists_isFirst_iff`: there is one such element, if there is any
- `mapM_eq_ok_iff`, `exists_mapM_eq_ok_iff`, `map_of_mapM_eq_ok`: a computation over a list succeeds
  element by element
- `mapM_eq_error_iff`, `mapM_eq_error_iff_of_forall`: it fails with the error of the first element that
  fails
-/

namespace ProofSize

/-- The element of the list at place `i` has the property, and none before it has. -/
structure IsFirst {α : Type} (p : α → Prop) (xs : List α) (i : Nat) (x : α) : Prop where
  getElem? : xs[i]? = some x
  holds : p x
  before : ∀ y ∈ xs.take i, ¬p y

section

variable {α β ε : Type} {p q : α → Prop} {xs : List α} {x y : α} {i j : Nat}

/-- An empty list has no first element. -/
theorem not_isFirst_nil : ¬IsFirst p [] i x := by
  intro h
  have := h.getElem?
  simp at this

/-- The head of a list is its first element with the property if it has it. If it has not, the first
    one of the tail is. -/
theorem isFirst_cons_iff :
    IsFirst p (y :: xs) i x ↔
      i = 0 ∧ x = y ∧ p y ∨ ¬p y ∧ ∃ j, i = j + 1 ∧ IsFirst p xs j x := by
  constructor
  · intro ⟨hget, hx, hbefore⟩
    -- at the first place stands the head, at every other one an element of the tail
    cases i with
    | zero =>
      obtain rfl : y = x := by simpa using hget
      exact .inl ⟨rfl, rfl, hx⟩
    | succ j =>
      rw [List.take_succ_cons] at hbefore
      refine .inr ⟨hbefore y List.mem_cons_self, j, rfl, by simpa using hget, hx, ?_⟩
      intro z hz
      exact hbefore z (List.mem_cons_of_mem y hz)
  · intro h
    rcases h with ⟨rfl, rfl, hx⟩ | ⟨hy, j, rfl, hget, hx, hbefore⟩
    · exact ⟨rfl, hx, by simp⟩
    · refine ⟨by simpa using hget, hx, ?_⟩
      intro z hz
      rw [List.take_succ_cons] at hz
      rcases List.mem_cons.1 hz with rfl | hz
      · exact hy
      · exact hbefore z hz

/-- A first element of a list with more to be said of it is the head or the first one of the tail. -/
theorem exists_isFirst_cons_iff {r : α → Prop} :
    (∃ i x, IsFirst p (y :: xs) i x ∧ r x) ↔
      p y ∧ r y ∨ ¬p y ∧ ∃ i x, IsFirst p xs i x ∧ r x := by
  constructor
  · intro ⟨i, x, hx, hr⟩
    rcases isFirst_cons_iff.1 hx with ⟨-, rfl, hp⟩ | ⟨hy, j, -, htail⟩
    · exact .inl ⟨hp, hr⟩
    · exact .inr ⟨hy, j, x, htail, hr⟩
  · intro h
    rcases h with ⟨hp, hr⟩ | ⟨hy, i, x, hx, hr⟩
    · exact ⟨0, y, isFirst_cons_iff.2 (.inl ⟨rfl, rfl, hp⟩), hr⟩
    · exact ⟨i + 1, x, isFirst_cons_iff.2 (.inr ⟨hy, i, rfl, hx⟩), hr⟩

/-- The place of a first element is the number next to it in the numbered list. -/
theorem isFirst_zipIdx_iff {n k : Nat} :
    IsFirst (fun z => p z.1) (xs.zipIdx n) i (x, k) ↔ IsFirst p xs i x ∧ k = n + i := by
  induction xs generalizing n i with
  | nil => simp [not_isFirst_nil]
  | cons y ys ih =>
    rw [List.zipIdx_cons, isFirst_cons_iff, isFirst_cons_iff]
    constructor
    · intro h
      rcases h with ⟨rfl, hxk, hy⟩ | ⟨hy, j, rfl, htail⟩
      · obtain ⟨rfl, rfl⟩ := Prod.mk.inj hxk
        exact ⟨.inl ⟨rfl, rfl, hy⟩, rfl⟩
      · obtain ⟨hx, rfl⟩ := ih.1 htail
        exact ⟨.inr ⟨hy, j, rfl, hx⟩, by omega⟩
    · intro ⟨h, hk⟩
      -- the numbers of the tail start one higher
      subst hk
      rcases h with ⟨rfl, rfl, hy⟩ | ⟨hy, j, rfl, hx⟩
      · exact .inl ⟨rfl, rfl, hy⟩
      · exact .inr ⟨hy, j, rfl, ih.2 ⟨hx, by omega⟩⟩

/-- There is one first element. -/
theorem IsFirst.unique (h₁ : IsFirst p xs i x) (h₂ : IsFirst p xs j y) : i = j ∧ x = y := by
  -- the earlier of two places would stand before the later one and have the property
  have key : ∀ {i j : Nat} {x y : α}, IsFirst p xs i x → IsFirst p xs j y → ¬i < j := by
    intro i j x y hi hj hlt
    apply hj.before x _ hi.holds
    exact List.mem_of_getElem? (i := i) (by rw [List.getElem?_take_of_lt hlt, hi.getElem?])
  have hij : i = j := by
    have := key h₁ h₂
    have := key h₂ h₁
    omega
  subst hij
  exact ⟨rfl, Option.some.inj (h₁.getElem?.symm.trans h₂.getElem?)⟩

/-- There is a first element with the property if any element has it. -/
theorem exists_isFirst_iff : (∃ i x, IsFirst p xs i x) ↔ ∃ x ∈ xs, p x := by
  constructor
  · intro ⟨i, x, h⟩
    exact ⟨x, List.mem_of_getElem? h.getElem?, h.holds⟩
  · intro ⟨x, hx, hp⟩
    induction xs with
    | nil => simp at hx
    | cons y ys ih =>
      -- the head is the first one, or the element is found in the tail
      by_cases hy : p y
      · exact ⟨0, y, isFirst_cons_iff.2 (.inl ⟨rfl, rfl, hy⟩)⟩
      · have hmem : x ∈ ys := by
          rcases List.mem_cons.1 hx with rfl | h
          · exact absurd hp hy
          · exact h
        obtain ⟨i, z, hz⟩ := ih hmem
        exact ⟨i + 1, z, isFirst_cons_iff.2 (.inr ⟨hy, i, rfl, hz⟩)⟩

/-- A property that follows from another one holds of an element at the same place or before it. -/
theorem IsFirst.exists_le (h : IsFirst p xs i x) (hpq : ∀ y, p y → q y) :
    ∃ j y, IsFirst q xs j y ∧ j ≤ i := by
  obtain ⟨j, y, hy⟩ := exists_isFirst_iff.2
    ⟨x, List.mem_of_getElem? h.getElem?, hpq x h.holds⟩
  refine ⟨j, y, hy, Nat.not_lt.1 fun hlt => ?_⟩
  -- the element of the first property would stand before that of the second one
  have hmem : x ∈ xs.take j :=
    List.mem_of_getElem? (i := i) (by rw [List.getElem?_take_of_lt hlt, h.getElem?])
  exact hy.before x hmem (hpq x h.holds)

/-- Properties that agree on the elements of a list have the same first element there. -/
theorem IsFirst.congr (h : IsFirst p xs i x) (hpq : ∀ y ∈ xs, (p y ↔ q y)) : IsFirst q xs i x where
  getElem? := h.getElem?
  holds := (hpq x (List.mem_of_getElem? h.getElem?)).1 h.holds
  before y hy hq := h.before y hy ((hpq y (List.mem_of_mem_take hy)).2 hq)

/-- Lists that correspond element by element have their first elements at one place. -/
theorem IsFirst.exists_of_forall₂ {R : α → β → Prop} {q : β → Prop} {ys : List β}
    (h : IsFirst p xs i x) (hR : List.Forall₂ R xs ys) (hpq : ∀ a b, R a b → (p a ↔ q b)) :
    ∃ y, R x y ∧ IsFirst q ys i y := by
  induction hR generalizing i with
  | nil => exact (not_isFirst_nil h).elim
  | @cons a b as bs hab _ ih =>
    rcases isFirst_cons_iff.1 h with ⟨rfl, rfl, hp⟩ | ⟨hp, j, rfl, hj⟩
    · exact ⟨b, hab, isFirst_cons_iff.2 (.inl ⟨rfl, rfl, (hpq x b hab).1 hp⟩)⟩
    · obtain ⟨y, hy, hfirst⟩ := ih hj
      exact ⟨y, hy, isFirst_cons_iff.2 (.inr ⟨fun hq => hp ((hpq a b hab).2 hq), j, rfl, hfirst⟩)⟩

/-- `find?` gives the first element with the property. -/
theorem find?_eq_some_iff_isFirst {f : α → Bool} :
    xs.find? f = some x ↔ ∃ i, IsFirst (fun y => f y = true) xs i x := by
  -- this form has the shape that is known for a list with a head
  suffices h : xs.find? f = some x ↔ ∃ i y, IsFirst (fun y => f y = true) xs i y ∧ y = x by
    simpa using h
  induction xs with
  | nil => simp [not_isFirst_nil]
  | cons y ys ih =>
    rw [exists_isFirst_cons_iff, List.find?_cons]
    cases hy : f y with
    | true => simp
    | false => simp [ih]

/-- `findIdx?` gives the place of the first element with the property. -/
theorem findIdx?_eq_some_iff_isFirst {f : α → Bool} :
    xs.findIdx? f = some i ↔ ∃ x, IsFirst (fun y => f y = true) xs i x := by
  induction xs generalizing i with
  | nil => simp [not_isFirst_nil]
  | cons y ys ih =>
    rw [List.findIdx?_cons]
    -- the search ends at the head, or goes on behind it
    cases hy : f y with
    | true =>
      constructor
      · intro h
        obtain rfl := Option.some.inj h
        exact ⟨y, isFirst_cons_iff.2 (.inl ⟨rfl, rfl, hy⟩)⟩
      · intro ⟨x, hx⟩
        rcases isFirst_cons_iff.1 hx with ⟨rfl, -⟩ | ⟨hn, -⟩
        · rfl
        · exact absurd hy hn
    | false =>
      simp only [Bool.false_eq_true, ↓reduceIte, Option.map_eq_some_iff, ih]
      constructor
      · intro h
        obtain ⟨j, ⟨x, hx⟩, rfl⟩ := h
        exact ⟨x, isFirst_cons_iff.2 (.inr ⟨by simp [hy], j, rfl, hx⟩)⟩
      · intro ⟨x, hx⟩
        rcases isFirst_cons_iff.1 hx with ⟨-, rfl, h⟩ | ⟨-, j, rfl, htail⟩
        · simp [hy] at h
        · exact ⟨j, ⟨x, htail⟩, rfl⟩

/-- `findSome?` gives the value of the first element that has one. -/
theorem findSome?_eq_some_iff_isFirst {f : α → Option β} {b : β} :
    xs.findSome? f = some b ↔ ∃ i x, IsFirst (fun y => (f y).isSome = true) xs i x ∧ f x = some b := by
  induction xs with
  | nil => simp [not_isFirst_nil]
  | cons y ys ih =>
    rw [exists_isFirst_cons_iff, List.findSome?_cons]
    cases hy : f y with
    | some c => simp
    | none => simp [ih]

end

/-! ### Computations that stop at the first error -/

section

variable {α β ε : Type} {f : α → Except ε β} {m : Except ε α} {g : α → Except ε β} {e : ε} {b : β}

/-- What is no error is a value. -/
theorem exists_ok_of_isOk (h : m.isOk = true) : ∃ a, m = .ok a := by
  cases m with
  | ok a => exact ⟨a, rfl⟩
  | error e => exact nomatch h

/-- Two steps succeed if both do. -/
theorem bind_eq_ok_iff : m >>= g = .ok b ↔ ∃ a, m = .ok a ∧ g a = .ok b := by
  cases m <;> simp [bind, Except.bind]

/-- Two steps fail with the first error. -/
theorem bind_eq_error_iff :
    m >>= g = .error e ↔ m = .error e ∨ ∃ a, m = .ok a ∧ g a = .error e := by
  cases m <;> simp [bind, Except.bind]

/-- A value is passed on. -/
theorem map_eq_ok_iff {h : α → β} : m.map h = .ok b ↔ ∃ a, m = .ok a ∧ h a = b := by
  cases m <;> simp [Except.map]

/-- An error stays as it is when values are passed on. -/
theorem map_eq_error_iff {h : α → β} : m.map h = .error e ↔ m = .error e := by
  cases m <;> simp [Except.map]

/-- A value stays as it is when errors are told in other words. -/
theorem mapError_eq_ok_iff {ε' : Type} {h : ε → ε'} {a : α} : m.mapError h = .ok a ↔ m = .ok a := by
  cases m <;> simp [Except.mapError]

/-- A value that is required is given if it is there. -/
theorem require_eq_ok_iff {e : ReportError} {o : Option α} {a : α} :
    e.require o = .ok a ↔ o = some a := by
  cases o <;> simp

/-- A value that is required and is not there gives the one error. -/
theorem require_eq_error_iff {e e' : ReportError} {o : Option α} :
    e.require o = .error e' ↔ o = none ∧ e' = e := by
  cases o <;> simp [eq_comm]

/-- Lists correspond if they are equally long and correspond at every place. -/
theorem forall₂_iff_getElem? {R : α → β → Prop} {xs : List α} {ys : List β} :
    List.Forall₂ R xs ys ↔ ys.length = xs.length ∧
      ∀ (i : Nat) (x : α), xs[i]? = some x → ∃ y, ys[i]? = some y ∧ R x y := by
  rw [List.forall₂_iff_get]
  constructor
  · intro ⟨hlen, hget⟩
    refine ⟨hlen.symm, fun i x hx => ?_⟩
    obtain ⟨hi, rfl⟩ := List.getElem?_eq_some_iff.1 hx
    have hi' : i < ys.length := by omega
    exact ⟨ys[i], List.getElem?_eq_getElem hi', hget i hi hi'⟩
  · intro ⟨hlen, hget⟩
    refine ⟨hlen.symm, fun i hi hi' => ?_⟩
    obtain ⟨y, hy, hR⟩ := hget i xs[i] (List.getElem?_eq_getElem hi)
    rw [List.getElem?_eq_getElem hi'] at hy
    obtain rfl := Option.some.inj hy
    exact hR

/-- A computation over a list succeeds if it does so for every element, with the results in the
    order of the elements. -/
theorem mapM_eq_ok_iff {xs : List α} {ys : List β} :
    xs.mapM f = .ok ys ↔ List.Forall₂ (fun x y => f x = .ok y) xs ys := by
  induction xs generalizing ys with
  | nil => simp [pure, Except.pure, eq_comm]
  | cons x xs ih =>
    rw [List.mapM_cons, bind_eq_ok_iff, List.forall₂_cons_left_iff]
    constructor
    · intro ⟨y, hy, h⟩
      obtain ⟨rest, hrest, h⟩ := bind_eq_ok_iff.1 h
      obtain rfl := Except.ok.inj h
      exact ⟨y, rest, hy, ih.1 hrest, rfl⟩
    · intro h
      obtain ⟨y, rest, hy, hrest, rfl⟩ := h
      exact ⟨y, hy, bind_eq_ok_iff.2 ⟨rest, ih.2 hrest, rfl⟩⟩

/-- A computation over a list that may give nothing gives something if it does so for every element,
    with the results in the order of the elements. -/
theorem mapM_eq_some_iff {f : α → Option β} {xs : List α} {ys : List β} :
    xs.mapM f = some ys ↔ List.Forall₂ (fun x y => f x = some y) xs ys := by
  induction xs generalizing ys with
  | nil => simp [eq_comm]
  | cons x xs ih =>
    rw [List.mapM_cons, List.forall₂_cons_left_iff]
    simp only [← ih, bind, pure, Option.bind_eq_some_iff, Option.some.injEq]
    constructor
    · intro ⟨y, hy, rest, hrest, h⟩
      exact ⟨y, rest, hy, hrest, h.symm⟩
    · intro ⟨y, rest, hy, hrest, h⟩
      exact ⟨y, hy, rest, hrest, h.symm⟩

/-- What a computation over a list gives is known where it is known of each element. -/
theorem map_of_mapM_eq_ok {γ : Type} {h : β → γ} {g : α → γ} {xs : List α} {ys : List β}
    (hys : xs.mapM f = .ok ys) (hg : ∀ x ∈ xs, ∀ y, f x = .ok y → h y = g x) :
    ys.map h = xs.map g := by
  have hall := mapM_eq_ok_iff.1 hys
  clear hys
  induction hall with
  | nil => rfl
  | @cons x y xs ys hxy _ ih =>
    have hrest := ih fun z hz => hg z (List.mem_cons_of_mem x hz)
    rw [List.map_cons, List.map_cons, hg x List.mem_cons_self y hxy, hrest]

/-- Every value that a computation over a list gives is given for some element. -/
theorem forall_of_mapM_eq_ok {p : β → Prop} {xs : List α} {ys : List β} (hys : xs.mapM f = .ok ys)
    (h : ∀ x y, f x = .ok y → p y) : ∀ y ∈ ys, p y := by
  have hall := mapM_eq_ok_iff.1 hys
  clear hys
  induction hall with
  | nil =>
    intro y hy
    exact nomatch hy
  | @cons x y xs ys hxy _ ih =>
    intro z hz
    rcases List.mem_cons.1 hz with rfl | hz
    · exact h x z hxy
    · exact ih z hz

/-- Numbers next to the elements of a list do not matter to what holds element by element. -/
theorem forall₂_zipIdx_iff {p : α → β → Prop} {xs : List α} {ys : List β} {n : Nat} :
    List.Forall₂ (fun z y => p z.1 y) (xs.zipIdx n) ys ↔ List.Forall₂ p xs ys := by
  induction xs generalizing ys n with
  | nil => simp
  | cons x xs ih =>
    rw [List.zipIdx_cons, List.forall₂_cons_left_iff, List.forall₂_cons_left_iff]
    simp only [ih]

/-- A computation over a list fails with the error of the first element that fails. -/
theorem mapM_eq_error_iff {xs : List α} :
    xs.mapM f = .error e ↔
      ∃ i x, IsFirst (fun y => ∃ e, f y = .error e) xs i x ∧ f x = .error e := by
  induction xs with
  | nil => simp [not_isFirst_nil, pure, Except.pure]
  | cons x xs ih =>
    rw [List.mapM_cons, bind_eq_error_iff]
    constructor
    · intro h
      rcases h with h | ⟨y, hy, h⟩
      · exact ⟨0, x, isFirst_cons_iff.2 (.inl ⟨rfl, rfl, e, h⟩), h⟩
      · -- what follows the tail only puts the results together
        have htail : xs.mapM f = .error e := by
          rcases bind_eq_error_iff.1 h with h | ⟨ys, -, h⟩
          · exact h
          · exact nomatch h
        obtain ⟨i, z, hz, hfz⟩ := ih.1 htail
        exact ⟨i + 1, z, isFirst_cons_iff.2 (.inr ⟨by simp [hy], i, rfl, hz⟩), hfz⟩
    · intro ⟨i, z, hz, hfz⟩
      rcases isFirst_cons_iff.1 hz with ⟨-, rfl, -⟩ | ⟨hx, j, -, hz⟩
      · exact .inl hfz
      -- the head does not fail, so the error is that of the tail
      · obtain ⟨y, hy⟩ : ∃ y, f x = .ok y := by
          cases hfx : f x with
          | ok y => exact ⟨y, rfl⟩
          | error e => exact absurd ⟨e, hfx⟩ hx
        exact .inr ⟨y, hy, bind_eq_error_iff.2 (.inl (ih.2 ⟨j, z, hz, hfz⟩))⟩

/-- A computation over a list succeeds if no element fails. -/
theorem exists_mapM_eq_ok_iff {xs : List α} :
    (∃ ys, xs.mapM f = .ok ys) ↔ ∀ x ∈ xs, ∃ y, f x = .ok y := by
  constructor
  · intro ⟨ys, hys⟩ x hx
    obtain ⟨i, hi⟩ := List.getElem?_of_mem hx
    obtain ⟨y, -, hy⟩ := (forall₂_iff_getElem?.1 (mapM_eq_ok_iff.1 hys)).2 i x hi
    exact ⟨y, hy⟩
  · intro h
    cases hys : xs.mapM f with
    | ok ys => exact ⟨ys, rfl⟩
    | error e =>
      -- the element at fault would have a value too
      obtain ⟨i, x, hfirst, he⟩ := mapM_eq_error_iff.1 hys
      obtain ⟨y, hy⟩ := h x (List.mem_of_getElem? hfirst.getElem?)
      exact nomatch hy.symm.trans he

/-- Where it is known which elements fail, and with what, the first of them decides. -/
theorem mapM_eq_error_iff_of_forall {p : α → Prop} {q : α → ε → Prop} {xs : List α}
    (h : ∀ x ∈ xs, ∀ e, f x = .error e ↔ p x ∧ q x e) (hq : ∀ x ∈ xs, p x → ∃ e, q x e) :
    xs.mapM f = .error e ↔ ∃ i x, IsFirst p xs i x ∧ q x e := by
  -- by `h` the elements that fail are those with `p`, and first ones of equal properties are the same
  have hfails : ∀ x ∈ xs, ((∃ e, f x = .error e) ↔ p x) := by
    intro x hx
    constructor
    · intro ⟨e, he⟩
      exact ((h x hx e).1 he).1
    · intro hp
      obtain ⟨e, he⟩ := hq x hx hp
      exact ⟨e, (h x hx e).2 ⟨hp, he⟩⟩
  rw [mapM_eq_error_iff]
  constructor
  · intro ⟨i, x, hi, he⟩
    have hx : x ∈ xs := List.mem_of_getElem? hi.getElem?
    exact ⟨i, x, hi.congr hfails, ((h x hx e).1 he).2⟩
  · intro ⟨i, x, hi, he⟩
    have hx : x ∈ xs := List.mem_of_getElem? hi.getElem?
    exact ⟨i, x, hi.congr fun y hy => (hfails y hy).symm, (h x hx e).2 ⟨hi.holds, he⟩⟩

/-- Values may be passed on one by one or all together. -/
theorem mapM_map {γ : Type} (f : α → Except ε β) (g : β → γ) (xs : List α) :
    xs.mapM (fun x => (f x).map g) = (xs.mapM f).map (List.map g) := by
  induction xs with
  | nil => rfl
  | cons x xs ih =>
    rw [List.mapM_cons, List.mapM_cons, ih]
    cases f x with
    | error e => rfl
    | ok y =>
      cases xs.mapM f with
      | error e => rfl
      | ok ys => rfl

end

end ProofSize
