import ProofSize.Proofs.FirstError
import ProofSize.Synthetic

/-!
# Making a row from draws

Rows are made by computations that draw from a source and fail when a quantity has no word. Three
things can be told of such a computation step by step: what holds of its outcome and of the source
behind it, what it can fail for, and that a source which carries more along does not change the
outcome.

## Key results

- `Ensures.bind`, `ensures_fit`, `ensures_draw`, `ensures_draws`: what holds behind each step
- `FailsFor.bind`, `failsFor_fit`, `failsFor_draw`: what each step can fail for
- `Follows.bind`, `follows_lift`, `follows_draw`, `follows_draws`: the same steps with two sources
-/

namespace ProofSize.Synthetic

open ProofSize.Random

variable {σ τ α β : Type}

/-- A computation that draws from a source and can fail. -/
abbrev Making (σ α : Type) := ExceptT ReportError (StateM σ) α

/-- The outcome of a computation, and what is left of the source behind it. -/
def Making.outcome (m : Making σ α) (s : σ) : Except ReportError α × σ := (m.run.run s).run

/-- The second step starts from what the first one has left of the source, unless that failed. -/
private theorem outcome_bind (m : Making σ α) (f : α → Making σ β) (s : σ) :
    Making.outcome (m >>= f) s =
      match m.outcome s with
      | (.ok a, t) => (f a).outcome t
      | (.error e, t) => (.error e, t) := by
  unfold Making.outcome
  rw [ExceptT.run_bind, StateT.run_bind, Id.run_bind]
  -- the first step has left either a value or an error, and the source behind it
  cases (m.run.run s).run with
  | mk x t =>
    cases x with
    | ok a => rfl
    | error e => rfl

/-- A computation that draws nothing leaves the source as it is. -/
private theorem outcome_lift (x : Except ReportError α) (s : σ) :
    Making.outcome (liftM x : Making σ α) s = (x, s) := rfl

/-- A draw gives what the source gives, and leaves what the source leaves. -/
private theorem outcome_draw (x : StateM σ α) (s : σ) :
    Making.outcome (liftM x : Making σ α) s = (.ok (x.run s).run.1, (x.run s).run.2) := rfl

/-- The first of several draws joins those drawn before, and the source behind it serves the others. -/
private theorem run_draws_succ (draw : Source σ) (lo hi : UInt64) (n : Nat) (drawn : List UInt64)
    (s : σ) :
    (draws draw lo hi (n + 1) drawn).run s =
      (draws draw lo hi n (((draw lo hi).run s).run.1 :: drawn)).run ((draw lo hi).run s).run.2 :=
  rfl

/-! ### What a computation ensures -/

/-- The computation keeps `I` of the source, also when it fails, and what it gives has `Q`. -/
def Ensures (I : σ → Prop) (m : Making σ α) (Q : α → Prop) : Prop :=
  ∀ s, I s → I (m.outcome s).2 ∧ ∀ a, (m.outcome s).1 = .ok a → Q a

/-- Draws from a range keep `I` of the source and lie in the range, if there is a word in it. -/
def Keeps (I : σ → Prop) (draw : Source σ) : Prop :=
  ∀ (lo hi : UInt64) (s : σ), lo.toNat ≤ hi.toNat → I s → I ((draw lo hi).run s).run.2 ∧
    lo.toNat ≤ ((draw lo hi).run s).run.1.toNat ∧ ((draw lo hi).run s).run.1.toNat ≤ hi.toNat

section

variable {I : σ → Prop} {draw : Source σ}

/-- A value that is given right away has what is known of it. -/
theorem ensures_pure {Q : α → Prop} {a : α} (h : Q a) : Ensures I (pure a : Making σ α) Q := by
  intro s hs
  refine ⟨hs, fun b hb => ?_⟩
  obtain rfl := Except.ok.inj hb
  exact h

/-- What the first step ensures can be used for the second one. -/
theorem Ensures.bind {m : Making σ α} {f : α → Making σ β} {Q : α → Prop} {R : β → Prop}
    (hm : Ensures I m Q) (hf : ∀ a, Q a → Ensures I (f a) R) : Ensures I (m >>= f) R := by
  intro s hs
  obtain ⟨hI, hQ⟩ := hm s hs
  rw [outcome_bind]
  cases hout : m.outcome s with
  | mk x t =>
    rw [hout] at hI hQ
    -- an error skips the second step, so the source stays as the first one left it
    cases x with
    | ok a => exact hf a (hQ a rfl) t hI
    | error e => exact ⟨hI, fun b hb => (nomatch hb)⟩

/-- A quantity that is made a word keeps its value. -/
theorem ensures_fit (what : Quantity) (n : Nat) :
    Ensures I (liftM (fit what n) : Making σ UInt64) fun w => w.toNat = n := by
  intro s hs
  rw [outcome_lift]
  refine ⟨hs, fun w hw => ?_⟩
  unfold fit at hw
  cases hn : Word.ofNat? n with
  | none =>
    rw [hn] at hw
    exact nomatch hw
  | some v =>
    rw [hn] at hw
    obtain rfl := Except.ok.inj hw
    exact Word.ofNat?_eq_some_iff.1 hn

/-- A draw from a range that is not empty lies in the range. -/
theorem ensures_draw (hdraw : Keeps I draw) {lo hi : UInt64} (h : lo.toNat ≤ hi.toNat) :
    Ensures I (liftM (draw lo hi) : Making σ UInt64)
      fun w => lo.toNat ≤ w.toNat ∧ w.toNat ≤ hi.toNat := by
  intro s hs
  obtain ⟨hI, hrange⟩ := hdraw lo hi s h hs
  rw [outcome_draw]
  refine ⟨hI, fun w hw => ?_⟩
  obtain rfl := Except.ok.inj hw
  exact hrange

/-- The sum of draws from a range that is not empty lies between as many times its bounds. -/
theorem ensures_draws (hdraw : Keeps I draw) {lo hi : UInt64} (h : lo.toNat ≤ hi.toNat) (n : Nat) :
    Ensures I (liftM (draws draw lo hi n []) : Making σ (List UInt64))
      fun ws => n * lo.toNat ≤ Word.total ws ∧ Word.total ws ≤ n * hi.toNat := by
  -- with the words that have been drawn before
  have hdrawn : ∀ (drawn : List UInt64) (s : σ), I s →
      I ((draws draw lo hi n drawn).run s).run.2 ∧
        Word.total drawn + n * lo.toNat ≤ Word.total ((draws draw lo hi n drawn).run s).run.1 ∧
        Word.total ((draws draw lo hi n drawn).run s).run.1 ≤ Word.total drawn + n * hi.toNat := by
    induction n with
    | zero =>
      intro drawn s hs
      refine ⟨hs, ?_, ?_⟩
      · show Word.total drawn + 0 * lo.toNat ≤ Word.total drawn
        omega
      · show Word.total drawn ≤ Word.total drawn + 0 * hi.toNat
        omega
    | succ n ih =>
      -- the draw joins those before it, and the others follow from the source behind it
      intro drawn s hs
      obtain ⟨hI, hlo, hhi⟩ := hdraw lo hi s h hs
      obtain ⟨hI, hrest⟩ := ih (((draw lo hi).run s).run.1 :: drawn) ((draw lo hi).run s).run.2 hI
      rw [Word.total_cons] at hrest
      rw [run_draws_succ, Nat.succ_mul, Nat.succ_mul]
      exact ⟨hI, by omega, by omega⟩
  intro s hs
  obtain ⟨hI, hsum⟩ := hdrawn [] s hs
  rw [outcome_draw]
  refine ⟨hI, fun ws hws => ?_⟩
  obtain rfl := Except.ok.inj hws
  rw [Word.total_nil, Nat.zero_add, Nat.zero_add] at hsum
  exact hsum

end

/-! ### What a computation fails for -/

/-- Where `I` holds of the source the computation fails with errors that have `E` only. -/
def FailsFor (I : σ → Prop) (m : Making σ α) (E : ReportError → Prop) : Prop :=
  ∀ s, I s → ∀ e, (m.outcome s).1 = .error e → E e

section

variable {I : σ → Prop} {E : ReportError → Prop}

/-- Giving a value right away does not fail. -/
theorem failsFor_pure (a : α) : FailsFor I (pure a : Making σ α) E :=
  fun _ _ _ he => nomatch he

/-- The second step fails where the first one has ensured something. -/
theorem FailsFor.bind {m : Making σ α} {f : α → Making σ β} {Q : α → Prop}
    (hm : FailsFor I m E) (hensures : Ensures I m Q) (hf : ∀ a, Q a → FailsFor I (f a) E) :
    FailsFor I (m >>= f) E := by
  intro s hs e he
  obtain ⟨hI, hQ⟩ := hensures s hs
  rw [outcome_bind] at he
  cases hout : m.outcome s with
  | mk x t =>
    rw [hout] at hI hQ he
    cases x with
    | ok a => exact hf a (hQ a rfl) t hI e he
    | error e' =>
      obtain rfl := Except.error.inj he
      exact hm s hs e' (by rw [hout])

/-- A quantity fails to be a word if it is too large for one. -/
theorem failsFor_fit {what : Quantity} {n : Nat} (h : UInt64.size ≤ n → E (.overflow what)) :
    FailsFor I (liftM (fit what n) : Making σ UInt64) E := by
  intro s _ e he
  rw [outcome_lift] at he
  obtain ⟨hnone, rfl⟩ := require_eq_error_iff.1 he
  exact h (Word.ofNat?_eq_none_iff.1 hnone)

/-- Draws do not fail. -/
theorem failsFor_draw (x : StateM σ α) : FailsFor I (liftM x : Making σ α) E :=
  fun _ _ _ he => nomatch he

end

/-! ### Two sources -/

/-- With what `part` takes of a source, one computation does as the other with the whole. -/
def Follows (part : τ → σ) (m' : Making τ α) (m : Making σ α) : Prop :=
  ∀ t, ((m'.outcome t).1, part (m'.outcome t).2) = m.outcome (part t)

/-- A source draws as the other one draws from a part of it. -/
def Extends (part : τ → σ) (draw' : Source τ) (draw : Source σ) : Prop :=
  ∀ (lo hi : UInt64) (t : τ),
    (((draw' lo hi).run t).run.1, part ((draw' lo hi).run t).run.2) =
      ((draw lo hi).run (part t)).run

section

variable {part : τ → σ} {draw' : Source τ} {draw : Source σ}

/-- Steps that follow steps make a computation that follows. -/
theorem Follows.bind {m' : Making τ α} {m : Making σ α} {f' : α → Making τ β}
    {f : α → Making σ β} (hm : Follows part m' m) (hf : ∀ a, Follows part (f' a) (f a)) :
    Follows part (m' >>= f') (m >>= f) := by
  intro t
  have hfirst := hm t
  -- both computations are now at the same outcome of the first step
  rw [outcome_bind, outcome_bind, ← hfirst]
  cases m'.outcome t with
  | mk x t =>
    cases x with
    | ok a => exact hf a t
    | error e => rfl

/-- Computations that draw nothing do alike with both sources. -/
theorem follows_lift (x : Except ReportError α) :
    Follows part (liftM x : Making τ α) (liftM x : Making σ α) :=
  fun _ => rfl

/-- A value that is given right away is the same with both sources. -/
theorem follows_pure (a : α) : Follows part (pure a : Making τ α) (pure a : Making σ α) :=
  fun _ => rfl

/-- A draw follows the same draw from the part. -/
theorem follows_draw (hdraw : Extends part draw' draw) (lo hi : UInt64) :
    Follows part (liftM (draw' lo hi) : Making τ UInt64) (liftM (draw lo hi) : Making σ UInt64) := by
  intro t
  rw [outcome_draw, outcome_draw, ← hdraw lo hi t]

/-- Draws one after the other follow the same draws from the part. -/
theorem follows_draws (hdraw : Extends part draw' draw) (lo hi : UInt64) (n : Nat)
    (drawn : List UInt64) :
    Follows part (liftM (draws draw' lo hi n drawn) : Making τ (List UInt64))
      (liftM (draws draw lo hi n drawn) : Making σ (List UInt64)) := by
  intro t
  induction n generalizing drawn t with
  | zero => rfl
  | succ n ih =>
    have hfirst := hdraw lo hi t
    have hrest := ih (((draw' lo hi).run t).run.1 :: drawn) ((draw' lo hi).run t).run.2
    rw [outcome_draw, outcome_draw] at hrest ⊢
    rw [run_draws_succ, run_draws_succ, ← hfirst]
    exact hrest

end

end ProofSize.Synthetic
