import ProofSize.Row

/-! # Scenarios and selectors

A scenario is an event in the life of a receipt; the number of data structures that its update
touches tells the events apart. A selector picks the rows of one experiment condition.
-/

namespace ProofSize

/-- A condition on rows. -/
inductive Selector where
  /-- The update touched exactly this many data structures. -/
  | adsModified (n : UInt32)
  /-- The update carried exactly this many signatures. -/
  | signatures (n : UInt64)
  deriving DecidableEq

namespace Selector

/-- The row meets the condition. A row without a recorded number of data structures meets none
    on that number. -/
def accepts : Selector → Row → Bool
  | adsModified n, row => row.adsModified == some n
  | signatures n, row => row.signatureCount == n

/-- The selector as messages show it. -/
def text : Selector → String
  | adsModified n => s!"ads_modified={n.toNat}"
  | signatures n => s!"signatures={n.toNat}"

/-- The rows that meet the condition, in their order. -/
def select (s : Selector) (rows : List Row) : List Row := rows.filter s.accepts

end Selector

/-- An event in the life of a receipt. -/
inductive Scenario where
  | issued
  | transferred
  | loaned
  deriving DecidableEq

namespace Scenario

/-- Every scenario, in the order of reports. -/
def all : List Scenario := [issued, transferred, loaned]

/-- Data structures that an update of this kind touches. -/
def adsModified : Scenario → UInt32
  | issued => 1
  | transferred => 2
  | loaned => 3

/-- Picks the rows of this kind of update. -/
def selector (s : Scenario) : Selector := .adsModified s.adsModified

def name : Scenario → String
  | issued => "issued"
  | transferred => "transferred"
  | loaned => "loaned"

/-- Issued receipts are reported with the one signature that they carry; the others are compared on
    a common number of signatures. -/
def normalizesSignatures : Scenario → Bool
  | issued => false
  | transferred | loaned => true

/-- The scenario of that name. -/
def ofName? (s : String) : Option Scenario := all.find? (fun x => x.name == s)

end Scenario

end ProofSize
