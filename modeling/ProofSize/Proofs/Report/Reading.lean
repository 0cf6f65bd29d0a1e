import ProofSize.Proofs.Json.Printing
import ProofSize.Proofs.Json.Unambiguity
import ProofSize.Report.Json

/-!
# Reading a report back

A JSON document is read as a report field by field: texts as they are, numbers of the fields exactly,
coordinates as the nearest number of the binary64 format, and the words for axes, colours, markers and
lines as what they name. A report with finite coordinates reads back from its JSON text as itself. A
coordinate that is not finite is written as null, and no other is.

## Key results

- `Report.ofDocument?_document`: a finite report reads back from its document
- `document_eq_null_iff`: which coordinates are null
- `Report.spells_json_iff`: the text of a report spells its document, and no other
- `Report.json_readsBack`: the text of a report, what it spells and what it is read as
-/

namespace ProofSize

open Json (Document Spells Value)

/-! ### Parts of a document -/

namespace Json.Document

/-- The value of a member, the first one of several with one key. -/
def member? (key : String) : Document → Option Document
  | .table members => members.lookup key
  | _ => none

/-- The items of a list, each read in the same way. -/
def items? {α : Type} (read : Document → Option α) : Document → Option (List α)
  | .list ds => ds.mapM read
  | _ => none

/-- The item at a place of a list. -/
def item? (i : Nat) : Document → Option Document
  | .list ds => ds[i]?
  | _ => none

/-- A text, as it is. -/
def text? : Document → Option String
  | .text s => some s
  | _ => none

/-- A natural number, taken exactly. A number with a fraction or a power of ten is none. -/
def natural? : Document → Option Nat
  | .number false digits exponent => if exponent = 0 then some digits else none
  | _ => none

/-- A natural number that 64 bits hold. -/
def word? (d : Document) : Option UInt64 := d.natural?.bind Word.ofNat?

/-- A number, rounded to the nearest one of the binary64 format. -/
def binary64? : Document → Option Binary64
  | .number negative digits exponent => some (.ofDecimal negative digits exponent)
  | _ => none

/-- One of several things, by its name. -/
def named? {α : Type} (all : List α) (name : α → String) (d : Document) : Option α :=
  d.text?.bind fun s => all.find? fun a => name a == s

end Json.Document

open Json.Document

/-! ### Reports -/

def Source.ofDocument? (d : Document) : Option Source := do
  return {
    path := ← (← d.member? "path").text?
    sha256 := ← (← d.member? "sha256").text?
    rows := ← (← d.member? "rows").natural? }

def Run.ofDocument? (d : Document) : Option Run := do
  return {
    schemaVersion := ← (← d.member? "schema_version").natural?
    toolVersion := ← (← d.member? "tool_version").text?
    view := ← (← d.member? "view").text?
    sources := ← (← d.member? "sources").items? Source.ofDocument?
    signatureSize := ← (← d.member? "signature_size").word?
    targetSignatures := ← (← d.member? "target_signatures").word?
    timestamp := ← (← d.member? "timestamp_utc").text? }

def Style.ofDocument? (d : Document) : Option Style := do
  return {
    color := ← (← d.member? "color").named? Color.all Color.name
    marker := ← (← d.member? "marker").named? Marker.all Marker.name
    line := ← (← d.member? "line").named? Line.all Line.name }

def Point.ofDocument? (d : Document) : Option Point := do
  return { x := ← (← d.member? "x").binary64?, y := ← (← d.member? "y").binary64? }

def Series.ofDocument? (d : Document) : Option Series := do
  return {
    label := ← (← d.member? "label").text?
    axis := ← (← d.member? "x_axis").named? Axis.all Axis.name
    style := ← Style.ofDocument? (← d.member? "style")
    points := ← (← d.member? "points").items? Point.ofDocument? }

def Breakdown.ofDocument? (d : Document) : Option Breakdown := do
  return {
    totalBytes := ← (← d.member? "total").word?
    signatureCount := ← (← d.member? "n_sigs").word?
    signatureBytes := ← (← d.member? "size_sigs").word?
    updateBytes := ← (← d.member? "size_update").word?
    updateProofBytes := ← (← d.member? "size_update_proof").word? }

def ScenarioBreakdown.ofDocument? (d : Document) : Option ScenarioBreakdown := do
  return {
    scenario := ← (← d.member? "scenario").text?
    breakdown := ← Breakdown.ofDocument? (← d.member? "breakdown") }

/-- The report that a document holds, if each of its parts can be read. -/
def Report.ofDocument? (d : Document) : Option Report := do
  return {
    run := ← Run.ofDocument? (← d.member? "run")
    series := ← (← d.member? "series").items? Series.ofDocument?
    breakdowns := ← (← d.member? "breakdowns").items? ScenarioBreakdown.ofDocument? }

/-- The coordinate of a point of a report's series. -/
def Report.coordinate? (series point : Nat) (axis : String) (d : Document) : Option Document := do
  let points ← (← (← (← d.member? "series").item? series).member? "points").item? point
  points.member? axis

/-! ### Reading what was printed -/

/-- The number is neither infinite nor no number at all. -/
def Binary64.IsFinite (x : Binary64) : Prop := ∃ negative m, x = .finite negative m

/-- The coordinates are numbers of mathematics. -/
structure Point.Finite (p : Point) : Prop where
  x : p.x.IsFinite
  y : p.y.IsFinite

/-- All coordinates of the report are finite. -/
def Report.Finite (r : Report) : Prop := ∀ s ∈ r.series, ∀ p ∈ s.points, p.Finite

section Parts

variable (layout : Binary64.Layout)

/-- A printed text is read as it is. -/
@[simp] theorem text?_document (s : String) : ((Value.text s).document layout).text? = some s := rfl

/-- A printed natural number is read exactly. -/
@[simp] theorem natural?_document (n : Nat) :
    ((Value.natural n).document layout).natural? = some n := rfl

/-- A printed word is read exactly. -/
@[simp] theorem word?_document (w : UInt64) :
    ((Value.natural w.toNat).document layout).word? = some w := by
  rw [word?, natural?_document, Option.bind_some, Word.ofNat?_toNat]

/-- What is printed by its name is found by it. -/
theorem named?_document {α : Type} {all : List α} {name : α → String} {a : α}
    (h : all.find? (fun b => name b == name a) = some a) :
    ((Value.text (name a)).document layout).named? all name = some a := by
  rw [named?, text?_document, Option.bind_some, h]

/-- The member of a printed table is its value, printed. -/
theorem member?_document (members : List (String × Value)) (key : String) :
    ((Value.table members).document layout).member? key =
      (members.lookup key).map (Value.document layout) := by
  rw [Value.document, Json.memberDocuments_eq_map, member?]
  induction members with
  | nil => rfl
  | cons m members ih =>
    rw [List.map_cons, List.lookup_cons, List.lookup_cons, ih]
    -- the key is looked up among the same keys on both sides
    cases key == m.1 <;> rfl

/-- The item of a printed list is its value, printed. -/
theorem item?_document (vs : List Value) (i : Nat) :
    ((Value.list vs).document layout).item? i = vs[i]?.map (Value.document layout) := by
  rw [Value.document, Json.documents_eq_map, item?, List.getElem?_map]

/-- A finite number is read back from its numeral. -/
theorem binary64?_document {x : Binary64} (h : x.IsFinite) :
    ((Value.ofBinary64 x).document layout).binary64? = some x := by
  obtain ⟨negative, m, rfl⟩ := h
  exact congrArg some (Json.Numeral.value_finite layout negative m)

/-- What is no number of mathematics is null, and nothing else is. -/
theorem document_eq_null_iff (x : Binary64) :
    (Value.ofBinary64 x).document layout = .null ↔ ¬x.IsFinite := by
  cases x with
  | nan | infinite =>
    refine ⟨fun _ => ?_, fun _ => rfl⟩
    rintro ⟨negative, m, h⟩
    exact nomatch h
  -- a finite number is written as a numeral
  | finite negative m =>
    constructor
    · intro h
      exact nomatch h
    · intro h
      exact (h ⟨negative, m, rfl⟩).elim

/-- A printed list is read if each of its items is. -/
theorem items?_document {α : Type} {read : Document → Option α} {write : α → Value} {as : List α}
    (h : ∀ a ∈ as, read ((write a).document layout) = some a) :
    ((Value.list (as.map write)).document layout).items? read = some as := by
  rw [Value.document, Json.documents_eq_map, items?]
  induction as with
  | nil => rfl
  | cons a as ih =>
    have hhead := h a List.mem_cons_self
    have htail := ih fun b hb => h b (List.mem_cons_of_mem _ hb)
    simp only [List.map_cons, List.mapM_cons, hhead, htail]
    rfl

end Parts

/-! ### The parts of a report -/

section Records

variable (layout : Binary64.Layout)

/-- A source reads back. -/
theorem Source.ofDocument?_json (s : Source) :
    Source.ofDocument? (s.json.document layout) = some s := by
  simp [Source.ofDocument?, Source.json, member?_document, List.lookup_cons]

/-- What is told of a run reads back. -/
theorem Run.ofDocument?_json (r : Run) : Run.ofDocument? (r.json.document layout) = some r := by
  have hsources := items?_document layout fun s (_ : s ∈ r.sources) => s.ofDocument?_json layout
  simp [Run.ofDocument?, Run.json, member?_document, List.lookup_cons, hsources]

/-- A style reads back. -/
theorem Style.ofDocument?_json (s : Style) :
    Style.ofDocument? (s.json.document layout) = some s := by
  -- the names of colours, markers and lines are all different
  have hcolor : Color.all.find? (fun c => c.name == s.color.name) = some s.color := by
    cases s.color <;> decide
  have hmarker : Marker.all.find? (fun m => m.name == s.marker.name) = some s.marker := by
    cases s.marker <;> decide
  have hline : Line.all.find? (fun l => l.name == s.line.name) = some s.line := by
    cases s.line <;> decide
  simp [Style.ofDocument?, Style.json, member?_document, List.lookup_cons, named?_document layout hcolor,
    named?_document layout hmarker, named?_document layout hline]

/-- A point with finite coordinates reads back. -/
theorem Point.ofDocument?_json {p : Point} (h : p.Finite) :
    Point.ofDocument? (p.json.document layout) = some p := by
  simp [Point.ofDocument?, Point.json, member?_document, List.lookup_cons, binary64?_document layout h.x,
    binary64?_document layout h.y]

/-- A series with finite coordinates reads back. -/
theorem Series.ofDocument?_json {s : Series} (h : ∀ p ∈ s.points, p.Finite) :
    Series.ofDocument? (s.json.document layout) = some s := by
  have haxis : Axis.all.find? (fun a => a.name == s.axis.name) = some s.axis := by
    cases s.axis <;> decide
  have hpoints := items?_document layout fun p hp => Point.ofDocument?_json layout (h p hp)
  simp [Series.ofDocument?, Series.json, member?_document, List.lookup_cons, named?_document layout haxis,
    Style.ofDocument?_json, hpoints]

/-- A breakdown reads back. -/
theorem Breakdown.ofDocument?_json (b : Breakdown) :
    Breakdown.ofDocument? (b.json.document layout) = some b := by
  simp [Breakdown.ofDocument?, Breakdown.json, member?_document, List.lookup_cons]

/-- The breakdown of a scenario reads back. -/
theorem ScenarioBreakdown.ofDocument?_json (b : ScenarioBreakdown) :
    ScenarioBreakdown.ofDocument? (b.json.document layout) = some b := by
  simp [ScenarioBreakdown.ofDocument?, ScenarioBreakdown.json, member?_document, List.lookup_cons,
    Breakdown.ofDocument?_json]

/-- A report with finite coordinates reads back from its document. -/
theorem Report.ofDocument?_document {r : Report} (h : r.Finite) :
    Report.ofDocument? (r.document.document layout) = some r := by
  have hseries := items?_document layout fun s hs => Series.ofDocument?_json layout (h s hs)
  have hbreakdowns := items?_document layout
    fun b (_ : b ∈ r.breakdowns) => b.ofDocument?_json layout
  simp [Report.ofDocument?, Report.document, member?_document, List.lookup_cons, Run.ofDocument?_json,
    hseries, hbreakdowns]

/-- The coordinates of a point stand where the point stands in the report. -/
theorem Report.coordinate?_document {r : Report} {i j : Nat} {s : Series} {p : Point}
    (hs : r.series[i]? = some s) (hp : s.points[j]? = some p) (axis : String) :
    coordinate? i j axis (r.document.document layout) = (p.json.document layout).member? axis := by
  simp [coordinate?, Report.document, Series.json, member?_document, List.lookup_cons, item?_document,
    hs, hp]

end Records

namespace Report

/-! ### The text of a report -/

/-- The text of a report spells its document, and no other. -/
theorem spells_json_iff (r : Report) (d : Document) :
    Spells r.json d ↔ d = r.document.document numberLayout := by
  have h : Spells r.json (r.document.document numberLayout) := Json.spells_render numberLayout _
  constructor
  · intro hd
    exact hd.unique h
  · rintro rfl
    exact h

/-- Finite reports with the same text are the same report. -/
theorem json_injective {r r' : Report} (hr : r.Finite) (hr' : r'.Finite) (h : r.json = r'.json) :
    r = r' := by
  have hdocument : r.document.document numberLayout = r'.document.document numberLayout := by
    rw [← spells_json_iff, ← h, spells_json_iff]
  have hread := ofDocument?_document numberLayout hr
  rw [hdocument, ofDocument?_document numberLayout hr'] at hread
  exact (Option.some.inj hread).symm

/-- The JSON text of a report spells exactly one document. A report with finite coordinates is read
    from it, and has another text than every other such report. The coordinates that are not finite are
    the ones that are null. -/
theorem json_readsBack (r : Report) :
    ∃ d, Spells r.json d ∧ (∀ d', Spells r.json d' → d' = d) ∧
      (r.Finite → ofDocument? d = some r ∧
        ∀ r' : Report, r'.Finite → r' ≠ r → r'.json ≠ r.json) ∧
      ∀ i j s p, r.series[i]? = some s → s.points[j]? = some p →
        (coordinate? i j "x" d = some .null ↔ ¬p.x.IsFinite) ∧
        (coordinate? i j "y" d = some .null ↔ ¬p.y.IsFinite) := by
  refine ⟨r.document.document numberLayout, (spells_json_iff r _).2 rfl,
    fun d' => (spells_json_iff r d').1, ?_, ?_⟩
  -- two reports with one text would be read as the same report
  · intro hr
    refine ⟨ofDocument?_document numberLayout hr, fun r' hr' hne htext => ?_⟩
    exact hne (json_injective hr' hr htext)
  -- a coordinate is looked up in the document by the places of its series and its point
  · intro i j s p hs hp
    rw [coordinate?_document numberLayout hs hp, coordinate?_document numberLayout hs hp]
    simp [Point.json, member?_document, List.lookup_cons, document_eq_null_iff]

/-- A report with one point, at zero with either sign, and texts with marks that are escaped. -/
def atZero (negative : Bool) : Report where
  run := ⟨1, "0.1.0", "scale", [⟨"a \"b\".csv", "e3b0", 2⟩], 256, 18446744073709551615, "\t"⟩
  series := [⟨"\\\x01é", .percentUpdated, ⟨.red, .circle, .dashed⟩,
    [⟨.finite negative .zero, .finite false .zero⟩]⟩]
  breakdowns := []

/-- The sign of zero shows in the text, and the escapes do no harm. -/
theorem json_readsBack_atZero : (atZero true).json ≠ (atZero false).json ∧
    ∃ d, Spells (atZero true).json d ∧ ofDocument? d = some (atZero true) := by
  have hfinite (negative : Bool) : (atZero negative).Finite := by
    intro s hs p hp
    obtain rfl := List.mem_singleton.1 hs
    obtain rfl := List.mem_singleton.1 hp
    exact ⟨⟨_, _, rfl⟩, ⟨_, _, rfl⟩⟩
  constructor
  · obtain ⟨d, -, -, hread, -⟩ := json_readsBack (atZero false)
    exact (hread (hfinite false)).2 (atZero true) (hfinite true) (by decide)
  · obtain ⟨d, hspells, -, hread, -⟩ := json_readsBack (atZero true)
    exact ⟨d, hspells, (hread (hfinite true)).1⟩

end Report

end ProofSize
