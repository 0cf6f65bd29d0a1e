import ProofSize.Proofs.Files.Changing
import ProofSize.Proofs.Files.Running

/-!
# Making directories

Making the directories above a file changes nothing but that some of them are added, also where it
fails half-way.

## Key results

- `AddsDirectories`: directories have been added to a tree
- `run_makeDirectories`: making directories adds some of them
-/

namespace ProofSize.Files

namespace Tree

variable {t t' t'' : Tree} {paths paths' : List ByteString} {path : ByteString}

/-- The trees are the same but for directories that have been added. To each of them one of the paths
    leads now. -/
structure AddsDirectories (paths : List ByteString) (t t' : Tree) : Prop where
  current : t'.current = t.current
  limit : t'.limit = t.limit
  lookup : ∀ q : Place, t'.lookup q = t.lookup q ∨
    t.lookup q = none ∧ ∃ path ∈ paths, t'.get .follow path = .ok (q, .directory)

/-- Nothing has been added to a tree that is as it was. -/
theorem AddsDirectories.refl (paths : List ByteString) (t : Tree) : AddsDirectories paths t t :=
  ⟨rfl, rfl, fun _ => .inl rfl⟩

/-- A tree with more directories has all that there was. -/
theorem AddsDirectories.extends (h : AddsDirectories paths t t') : t.Extends t' where
  current := h.current
  lookup q n hq := by
    rcases h.lookup q with hsame | ⟨hnone, -⟩
    · exact hsame.trans hq
    · exact nomatch hnone.symm.trans hq

/-- Directories that are added one after the other are added. -/
theorem AddsDirectories.trans (h : AddsDirectories paths t t') (h' : AddsDirectories paths t' t'') :
    AddsDirectories paths t t'' where
  current := h'.current.trans h.current
  limit := h'.limit.trans h.limit
  lookup q := by
    rcases h'.lookup q with hsame' | ⟨hnone', hpath'⟩
    · rcases h.lookup q with hsame | ⟨hnone, path, hmem, hget⟩
      · exact .inl (hsame'.trans hsame)
      · exact .inr ⟨hnone, path, hmem, h'.extends.get hget⟩
    · rcases h.lookup q with hsame | ⟨hnone, -⟩
      · exact .inr ⟨hsame.symm.trans hnone', hpath'⟩
      · exact .inr ⟨hnone, hpath'⟩

/-- Paths of which none leads to what was added do no harm. -/
theorem AddsDirectories.mono (h : AddsDirectories paths t t') (hsub : paths ⊆ paths') :
    AddsDirectories paths' t t' where
  current := h.current
  limit := h.limit
  lookup q := (h.lookup q).imp_right fun ⟨hnone, path, hmem, hget⟩ =>
    ⟨hnone, path, hsub hmem, hget⟩

/-- A directory that is made has been added at its path. -/
theorem AddsDirectories.of_makeDirectory (h : t.makeDirectory path = .ok t') (hmem : path ∈ paths) :
    AddsDirectories paths t t' := by
  obtain ⟨p, hnone, rfl, hget⟩ := get_of_makeDirectory h
  refine ⟨rfl, rfl, fun q => ?_⟩
  by_cases hq : q = p
  · subst hq
    exact .inr ⟨hnone, path, hmem, hget⟩
  · exact .inl (lookup_put_ne t hq _)

end Tree

namespace TreeM

/-- To look whether a directory is there already changes nothing. -/
private theorem run_unlessDirectory (path : ByteString) (fault : Fault) (t : Tree) :
    ∃ x, (do if ← Access.isDirectory path then return .ok () else return .error fault :
      TreeM (Except Fault Unit)).run t = (x, t) := by
  have hlook : ∃ b, (Access.isDirectory path : TreeM _).run t = (b, t) := by
    rw [Access.isDirectory, run_bind (run_kind t path true)]
    split
    · exact ⟨true, rfl⟩
    · exact ⟨false, rfl⟩
  obtain ⟨b, hb⟩ := hlook
  rw [run_bind hb]
  cases b with
  | true => exact ⟨.ok (), rfl⟩
  | false => exact ⟨.error fault, rfl⟩

/-- The directories that are made are added one by one, the last one first. -/
theorem run_makeDirectories (paths : List ByteString) (t : Tree) :
    ∃ x t', (Access.makeDirectories paths : TreeM _).run t = (x, t') ∧
      t.AddsDirectories paths t' := by
  induction paths generalizing t with
  | nil => exact ⟨.ok (), t, rfl, .refl [] t⟩
  | cons path above ih =>
    cases hmake : t.makeDirectory path with
    | ok u =>
      rw [Access.makeDirectories, run_bind (run_makeDirectory_ok hmake)]
      exact ⟨.ok (), u, rfl, .of_makeDirectory hmake List.mem_cons_self⟩
    | error fault =>
      rw [Access.makeDirectories, run_bind (run_makeDirectory_error hmake)]
      split
      · exact ⟨.ok (), t, rfl, .refl _ t⟩
      · -- the directory above is missing too
        obtain ⟨x, u, hrun, hadds⟩ := ih t
        have hadds := hadds.mono (List.subset_cons_self path above)
        rw [run_bind hrun]
        cases x with
        | error f => exact ⟨.error f, u, rfl, hadds⟩
        | ok =>
          -- the directory above is there now, so the first one is tried again
          cases hagain : u.makeDirectory path with
          | ok v =>
            dsimp only
            rw [run_bind (run_makeDirectory_ok hagain)]
            exact ⟨.ok (), v, rfl, hadds.trans (.of_makeDirectory hagain List.mem_cons_self)⟩
          | error f =>
            dsimp only
            rw [run_bind (run_makeDirectory_error hagain)]
            obtain ⟨x, hx⟩ := run_unlessDirectory path f u
            exact ⟨x, u, hx, hadds⟩
      · obtain ⟨x, hx⟩ := run_unlessDirectory path _ t
        exact ⟨x, t, hx, .refl _ t⟩

end TreeM

end ProofSize.Files
