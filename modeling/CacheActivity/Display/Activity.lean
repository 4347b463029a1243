import CacheActivity.Calendar.Window
import CacheActivity.Display.Bars
import CacheActivity.Display.Table
import CacheActivity.Usage.Facets

/-!
# Activity on a display

A report is shown as a table with a row for each point and one for the totals. The page of a report
puts a card with its summary and the bars in front of that table. The generated tokens of the row of
totals are added up with overflow checks: where the sum leaves the range of counts the display ends
in front of the table. A build without these checks would show a wrapped sum instead.

The facets of rows are a table of their own: how many values each of them has, and the values one
below the other.
-/

namespace CacheActivity.Display

open Calendar (Window)
open Usage (Facets SeriesPoint Report Summary Totals)

def activityHeader : List (List Char) :=
  ["Call Type", "LLM API Requests", "Cache Hits", "Cached Completion Tokens",
    "Generated Completion Tokens"].map String.toList

def pointRow (p : SeriesPoint) : List (List Char) :=
  [p.name.toList, grouped p.apiRequests.toInt, grouped p.cacheHits.toInt,
    grouped p.cachedTokens.toInt, grouped p.generatedTokens.toInt]

/-- The generated tokens of all points, if their sum never leaves the range of counts. -/
def generatedTotal? (r : Report) : Option Count :=
  (r.series.map (·.generatedTokens)).foldlM Count.add? .zero

def totalRow (r : Report) (generated : Count) : List (List Char) :=
  ["Total".toList, grouped r.totals.apiRequests.toInt, grouped r.totals.cacheHits.toInt,
    grouped r.totals.cachedTokens.toInt, grouped generated.toInt]

/-- The table of a report, if it has a row of totals. -/
def activityTable? (r : Report) : Option Table :=
  (generatedTotal? r).map fun generated =>
    ⟨activityHeader,
      r.series.map pointRow ++ if r.series.isEmpty then [] else [totalRow r generated]⟩

/-- The table of a report, and the hit ratio below it. The checked sum fails as a whole or not at
all, and nothing of the table is out by then. -/
def activityLines (r : Report) : Shown :=
  match activityTable? r with
  | some t =>
    .all (t.lines ++ ["Cache hit ratio: ".toList ++ r.summary.hitRatio.toList ++ ['%']])
  | none => .missing

def pageWidth : Nat := 80

def cardWidth : Nat := 77

def figuresLine (hits tokens ratio : Line) : Line :=
  "│ ✅ Cache Hits: ".toList ++ hits ++ "  │  💾 Cached Tokens: ".toList ++ tokens ++
    "  │  📈 Hit Ratio: ".toList ++ ratio ++ "% │".toList

/-- The card of a summary. Its counts come as texts. -/
def cardLines (s : Summary) : List Line :=
  ["🎯 CACHE SUMMARY".toList, '┌' :: rule '─' cardWidth ++ ['┐'],
    figuresLine (groupedText s.cacheHits) (groupedText s.cachedTokens) s.hitRatio.toList,
    '└' :: rule '─' cardWidth ++ ['┘']]

/-- What a page says of its report, when and for which window it was made. -/
def headLines (generated : String) (w : Window) : List Line :=
  [rule '═' pageWidth, "📊 Cache Activity  Generated ".toList ++ generated.toList,
    "Window ".toList ++ w.start.text.toList ++ " → ".toList ++ w.finish.text.toList,
    rule '═' pageWidth]

def seriesLines (r : Report) : Shown :=
  if r.series.isEmpty then .all ["No cache activity for the current selection".toList]
  else
    .all ([rule '─' pageWidth, "📋 Requests by Call Type".toList, rule '─' pageWidth] ++
      barLines toNearest r.series ++ [[]]) ++ activityLines r

def pageLines (generated : String) (w : Window) (r : Report) : Shown :=
  .all (headLines generated w ++ [] :: cardLines r.summary ++ [[]]) ++ seriesLines r ++
    .all [[], rule '═' pageWidth]

/-! ## Facets -/

/-- The longest value that is shown in full. -/
def valueLimit : Nat := 40

def valueLine (v : String) : Line :=
  if v = "" then "(empty)".toList else truncate valueLimit v.toList

def facetRow (name : String) (values : List String) : List (List Char) :=
  [name.toList, Nat.toDigits 10 values.length, Text.joinWith '\n' (values.map valueLine)]

def facetTable (f : Facets) : Table where
  header := ["Facet", "Count", "Values"].map String.toList
  rows := [facetRow "API keys" f.apiKeys, facetRow "Models" f.models,
    facetRow "Call types" f.callTypes]

def facetLines (f : Facets) : List Line := (facetTable f).lines

end CacheActivity.Display
