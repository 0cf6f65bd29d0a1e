import ProofSize.Binary64.Text
import ProofSize.Report.Basic
import ProofSize.Text.Align

/-! # Reports for the console

A line cites each data file. Then each series is a heading and a table of two columns, and each
breakdown a heading and five lines.
-/

namespace ProofSize

/-- The characters that make up the first `n` bytes of a text, or all of a shorter text. There are
    none when the cut goes through a character. -/
def takeBytes? : Nat → List Char → Option (List Char)
  | 0, _ => some []
  | _, [] => some []
  | n + 1, c :: cs =>
    if c.utf8Size ≤ n + 1 then (takeBytes? (n + 1 - c.utf8Size) cs).map (c :: ·) else none

/-- Whole numbers below this one are written without a fraction part. -/
def wholeLimit : Nat := 1000000000000000

/-- An x coordinate: small whole numbers without a fraction part, all others with four decimal
    places. -/
def Binary64.coordinate (x : Binary64) : String :=
  match x with
  | .finite negative m =>
    if m.isWhole && m.whole < wholeLimit then
      (if negative && m.whole != 0 then "-" else "") ++ toString m.whole
    else x.fixed 4
  | _ => x.fixed 4

/-- How many bytes of a digest a line shows. -/
def shownDigestBytes : Nat := 12

/-- The line that cites a data file. There is none when the digest cannot be cut. -/
def Source.line? (s : Source) : Option String :=
  (takeBytes? shownDigestBytes s.sha256.toList).map fun digest =>
    s!"# {s.path} ({s.rows} rows, sha256 {String.ofList digest})"

/-- The two columns of a point. -/
def Point.line (p : Point) : String :=
  alignRight 12 p.x.coordinate ++ "  " ++ alignRight 10 (toString p.y.toWord.toNat)

/-- The heading of a series, and a line for each of its points. -/
def Series.lines (s : Series) : List String :=
  s!"== {s.label} [{s.axis.label} vs proof bytes]" :: s.points.map Point.line

/-- The heading of a breakdown, and a line for each of its numbers. -/
def ScenarioBreakdown.lines (b : ScenarioBreakdown) : List String :=
  [s!"-------- verification object for {b.scenario} receipt ----------",
    s!"total: {b.breakdown.totalBytes.toNat}",
    s!"# sigs: {b.breakdown.signatureCount.toNat}",
    s!"size sigs: {b.breakdown.signatureBytes.toNat}",
    s!"size update: {b.breakdown.updateBytes.toNat}",
    s!"size update proof: {b.breakdown.updateProofBytes.toNat}"]

namespace Report

/-- The lines of the report. There are none when a digest cannot be cut. -/
def lines? (r : Report) : Option (List String) := do
  let sources ← r.run.sources.mapM Source.line?
  return sources ++ r.series.flatMap Series.lines ++ r.breakdowns.flatMap ScenarioBreakdown.lines

/-- The report for the console. -/
def text? (r : Report) : Option String :=
  r.lines?.map fun lines => String.join (lines.map (· ++ "\n"))

end Report

end ProofSize
