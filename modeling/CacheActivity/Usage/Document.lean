import CacheActivity.Json.Writer
import CacheActivity.Usage.Selection

/-!
# Reports as JSON

The documents that a dashboard hands out: a report, the facets, and both together.
-/

namespace CacheActivity.Usage

open Json (Value Members)

def SeriesPoint.toValue (p : SeriesPoint) : Value :=
  .object [("name", .text p.name), ("LLM API requests", .whole p.apiRequests.toInt),
    ("Cache hit", .whole p.cacheHits.toInt),
    ("Cached Completion Tokens", .whole p.cachedTokens.toInt),
    ("Generated Completion Tokens", .whole p.generatedTokens.toInt)]

def Summary.toValue (s : Summary) : Value :=
  .object [("cacheHits", .text s.cacheHits), ("cachedTokens", .text s.cachedTokens),
    ("cacheHitRatio", .text s.hitRatio)]

def Totals.toValue (t : Totals) : Value :=
  .object [("cacheHits", .whole t.cacheHits.toInt), ("cachedTokens", .whole t.cachedTokens.toInt),
    ("llmApiRequests", .whole t.apiRequests.toInt)]

def Report.toMembers (r : Report) : Members :=
  [("series", .array (r.series.map SeriesPoint.toValue)), ("summary", r.summary.toValue),
    ("totals", r.totals.toValue)]

def Report.toValue (r : Report) : Value := .object r.toMembers

def Facets.toValue (f : Facets) : Value :=
  .object [("apiKeys", .array (f.apiKeys.map .text)), ("models", .array (f.models.map .text)),
    ("callTypes", .array (f.callTypes.map .text))]

/-- What a dashboard shows: the report of the accepted rows and the facets of all rows. -/
structure View where
  report : Report
  facets : Facets
  deriving DecidableEq

def View.ofRows (s : Selection) (rows : List Row) : View := ⟨s.report rows, .ofRows rows⟩

def View.toValue (v : View) : Value :=
  .object (v.report.toMembers ++ [("facets", v.facets.toValue)])

end CacheActivity.Usage
