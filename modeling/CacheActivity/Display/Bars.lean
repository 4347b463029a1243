import CacheActivity.Binary64.Basic
import CacheActivity.Display.Line
import CacheActivity.Usage.Report

/-!
# Bars

A bar shows the requests of a point next to its name: first those that the cache answered, then the
others. The largest total of a series takes `barWidth` columns, and no bar takes more.
-/

namespace CacheActivity.Display

open Usage (SeriesPoint Series)

/-- The columns of the longest bar. -/
def barWidth : Nat := 40

/-- The longest name in front of a bar. -/
def nameLimit : Nat := 24

/-- A way to scale a value: its columns where the greatest value takes the whole width. Only
positive values are scaled. -/
abbrev Scale := Int → Int → Nat → Nat

/-- Scales in doubles, to the nearest column. -/
def toNearest : Scale := fun value greatest width =>
  (((Binary64.ofInt value).div (.ofInt greatest)).mul (.ofNat width)).roundMagnitude

/-- The columns for a value. There are none unless it and the greatest one are positive. -/
def scaled (scale : Scale) (value greatest : Int) (width : Nat) : Nat :=
  if value ≤ 0 ∨ greatest ≤ 0 then 0 else scale value greatest width

def barWidths (scale : Scale) (p : SeriesPoint) (greatest : Int) (width : Nat) : Nat × Nat :=
  let hits := min (scaled scale p.cacheHits.toInt greatest width) width
  (hits, min (scaled scale p.apiRequests.toInt greatest width) (width - hits))

/-- The greatest total of a series, and zero where all are negative. -/
def greatestTotal (s : Series) : Int := (s.map fun p => p.totalRequests.toInt).foldr max 0

def nameWidth (s : Series) : Nat :=
  min ((s.map fun p => p.name.toList.length).foldr max 0) nameLimit

/-- What the line of a point shows: its name in a column, the blocks of its two segments, and the
counts that they stand for. -/
structure Bar where
  name : Line
  hits : Nat
  others : Nat
  counts : Line

def Bar.line (b : Bar) : Line :=
  b.name ++ ' ' :: rule '█' b.hits ++ rule '█' b.others ++ ' ' :: b.counts

def bar (scale : Scale) (greatest : Int) (nameWidth : Nat) (p : SeriesPoint) : Bar :=
  let (hits, others) := barWidths scale p greatest barWidth
  { name := padTo nameWidth (truncate nameWidth p.name.toList)
    hits
    others
    counts := grouped p.cacheHits.toInt ++ [' ', '/', ' '] ++ grouped p.apiRequests.toInt }

def bars (scale : Scale) (s : Series) : List Bar :=
  s.map (bar scale (greatestTotal s) (nameWidth s))

def legend : Line := "█ Cache hit   █ LLM API requests".toList

/-- A bar for every point, and what they mean. -/
def barLines (scale : Scale) (s : Series) : List Line := (bars scale s).map Bar.line ++ [legend]

theorem barWidths_le (scale : Scale) (p : SeriesPoint) (greatest : Int) (width : Nat) :
    (barWidths scale p greatest width).1 + (barWidths scale p greatest width).2 ≤ width := by
  simp only [barWidths]
  omega

end CacheActivity.Display
