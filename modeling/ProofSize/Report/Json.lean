import ProofSize.Config.Fault
import ProofSize.Json.Value
import ProofSize.Report.Basic

/-! # Reports as JSON -/

namespace ProofSize

open Json (Value)

def Source.json (s : Source) : Value :=
  .table [("path", .text s.path), ("sha256", .text s.sha256), ("rows", .natural s.rows)]

def Run.json (r : Run) : Value :=
  .table [
    ("schema_version", .natural r.schemaVersion),
    ("tool_version", .text r.toolVersion),
    ("view", .text r.view),
    ("sources", .list (r.sources.map Source.json)),
    ("signature_size", .natural r.signatureSize.toNat),
    ("target_signatures", .natural r.targetSignatures.toNat),
    ("timestamp_utc", .text r.timestamp)]

def Style.json (s : Style) : Value :=
  .table [("color", .text s.color.name), ("marker", .text s.marker.name),
    ("line", .text s.line.name)]

def Point.json (p : Point) : Value :=
  .table [("x", .ofBinary64 p.x), ("y", .ofBinary64 p.y)]

def Series.json (s : Series) : Value :=
  .table [("label", .text s.label), ("x_axis", .text s.axis.name), ("style", s.style.json),
    ("points", .list (s.points.map Point.json))]

def Breakdown.json (b : Breakdown) : Value :=
  .table [
    ("total", .natural b.totalBytes.toNat),
    ("n_sigs", .natural b.signatureCount.toNat),
    ("size_sigs", .natural b.signatureBytes.toNat),
    ("size_update", .natural b.updateBytes.toNat),
    ("size_update_proof", .natural b.updateProofBytes.toNat)]

def ScenarioBreakdown.json (b : ScenarioBreakdown) : Value :=
  .table [("scenario", .text b.scenario), ("breakdown", b.breakdown.json)]

namespace Report

/-- The report as a document. -/
def document (r : Report) : Value :=
  .table [("run", r.run.json), ("series", .list (r.series.map Series.json)),
    ("breakdowns", .list (r.breakdowns.map ScenarioBreakdown.json))]

/-- The report as JSON text. -/
def json (r : Report) : String := String.ofList (r.document.render numberLayout 0)

end Report

end ProofSize
