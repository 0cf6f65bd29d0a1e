import ProofSize.Binary64.Basic

/-! # Series of points

A series is one line of a plot: a label, the meaning of its x axis, a style, and points.
-/

namespace ProofSize

/-- What the x axis of a series shows. -/
inductive Axis where
  | updatesSinceRefresh
  | totalUpdates
  | percentUpdated
  deriving DecidableEq

namespace Axis

def all : List Axis := [updatesSinceRefresh, totalUpdates, percentUpdated]

def name : Axis → String
  | updatesSinceRefresh => "updates_since_last_refresh"
  | totalUpdates => "total_updates_processed"
  | percentUpdated => "percent_ads_updated"

def label : Axis → String
  | updatesSinceRefresh => "updates since last refresh"
  | totalUpdates => "total updates processed"
  | percentUpdated => "% of ADSes updated"

end Axis

inductive Color where
  | red
  | blue
  | green
  | black
  deriving DecidableEq

def Color.all : List Color := [red, blue, green, black]

def Color.name : Color → String
  | red => "red"
  | blue => "blue"
  | green => "green"
  | black => "black"

inductive Marker where
  | triangle
  | circle
  | square
  | diamond
  deriving DecidableEq

def Marker.all : List Marker := [triangle, circle, square, diamond]

def Marker.name : Marker → String
  | triangle => "triangle"
  | circle => "circle"
  | square => "square"
  | diamond => "diamond"

inductive Line where
  | solid
  | dashed
  deriving DecidableEq

def Line.all : List Line := [solid, dashed]

def Line.name : Line → String
  | solid => "solid"
  | dashed => "dashed"

/-- How a series is drawn. -/
structure Style where
  color : Color
  marker : Marker
  line : Line
  deriving DecidableEq

structure Point where
  x : Binary64
  y : Binary64
  deriving DecidableEq

/-- One line of a plot. -/
structure Series where
  label : String
  axis : Axis
  style : Style
  points : List Point
  deriving DecidableEq

namespace Series

/-- The series of the points whose coordinates stand in two lists; the shorter list decides how many
    there are. -/
def ofLists (label : String) (axis : Axis) (style : Style) (xs ys : List Binary64) : Series :=
  ⟨label, axis, style, List.zipWith Point.mk xs ys⟩

end Series

end ProofSize
