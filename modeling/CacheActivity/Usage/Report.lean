import CacheActivity.Binary64.Decimal
import CacheActivity.Usage.Row

/-!
# Reports

A report sums up rows: a point for each label, in the order in which the labels first come, and
totals over all rows. Every sum saturates from row to row. The summary shows the totals as texts,
with the share of requests that the cache answered.
-/

namespace CacheActivity.Usage

/-- The counts under one label. -/
structure SeriesPoint where
  name : String
  apiRequests : Count
  cacheHits : Count
  cachedTokens : Count
  generatedTokens : Count
  deriving DecidableEq

namespace SeriesPoint

def blank (name : String) : SeriesPoint := ⟨name, .zero, .zero, .zero, .zero⟩

instance : Inhabited SeriesPoint := ⟨blank ""⟩

def add (p : SeriesPoint) (r : Row) : SeriesPoint where
  name := p.name
  apiRequests := p.apiRequests.add r.apiRequests
  cacheHits := p.cacheHits.add r.cacheHits
  cachedTokens := p.cachedTokens.add r.cachedTokens
  generatedTokens := p.generatedTokens.add r.generatedTokens

/-- All requests, answered by the cache or not. -/
def totalRequests (p : SeriesPoint) : Count := p.apiRequests.add p.cacheHits

@[simp] theorem name_blank (name : String) : (blank name).name = name := rfl

@[simp] theorem name_add (p : SeriesPoint) (r : Row) : (p.add r).name = p.name := rfl

end SeriesPoint

abbrev Series := List SeriesPoint

/-- Adds a row to the point of its label, or to a new point at the end. -/
def Series.add (r : Row) : Series → Series
  | [] => [(SeriesPoint.blank r.label).add r]
  | p :: ps => if p.name = r.label then p.add r :: ps else p :: Series.add r ps

def Series.ofRows (rows : List Row) : Series := rows.foldl (fun s r => Series.add r s) []

/-- The counts of all rows together. -/
structure Totals where
  cacheHits : Count
  cachedTokens : Count
  apiRequests : Count
  deriving DecidableEq

namespace Totals

def zero : Totals := ⟨.zero, .zero, .zero⟩

def add (t : Totals) (r : Row) : Totals where
  cacheHits := t.cacheHits.add r.cacheHits
  cachedTokens := t.cachedTokens.add r.cachedTokens
  apiRequests := t.apiRequests.add r.apiRequests

def ofRows (rows : List Row) : Totals := rows.foldl add zero

/-- The share of requests answered by the cache, in percent. There is none of no requests. -/
def hitRatio? (t : Totals) : Option Binary64 :=
  let hits := Binary64.ofInt t.cacheHits.toInt
  let requests := hits.add (.ofInt t.apiRequests.toInt)
  if requests.isZero then none else some ((hits.div requests).mul (.ofNat 100))

end Totals

/-- The totals as they are shown. -/
structure Summary where
  cacheHits : String
  cachedTokens : String
  hitRatio : String
  deriving DecidableEq

/-- The ratio is shown with two places. -/
def Totals.summary (t : Totals) : Summary where
  cacheHits := t.cacheHits.text
  cachedTokens := t.cachedTokens.text
  hitRatio := (t.hitRatio?.map fun x => String.ofList (x.writeFixed 2)).getD "0"

structure Report where
  series : Series
  totals : Totals
  deriving DecidableEq

namespace Report

def ofRows (rows : List Row) : Report := ⟨.ofRows rows, .ofRows rows⟩

def summary (r : Report) : Summary := r.totals.summary

end Report

end CacheActivity.Usage
