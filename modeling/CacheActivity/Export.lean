import CacheActivity.Files.Disk
import CacheActivity.Usage.Report

/-!
# Exports

A report goes into two files of comma-separated values, one with a record for each point and one
with the summary. Both stand next to each other under a base path.

Such a file has a record on each line, with commas between the fields. A field with a comma, a quote
or a line break in it stands in double quotes, and its own quotes are doubled. So does the only
field of a record when it is empty, because its line would be empty.
-/

namespace CacheActivity

namespace Csv

abbrev Field := List Char

abbrev Record := List Field

/-- The characters that a bare field cannot have. -/
def isSpecial (c : Char) : Bool := c = ',' || c = '"' || c = '\n' || c = '\r'

def doubleQuotes (cs : Field) : List Char := cs.flatMap fun c => if c = '"' then ['"', '"'] else [c]

def quoted (cs : Field) : List Char := '"' :: doubleQuotes cs ++ ['"']

/-- A field, in quotes where it needs them. -/
def writeField (cs : Field) : List Char := if cs.any isSpecial then quoted cs else cs

def writeFields : Record → List Char
  | [] => []
  | [f] => writeField f
  | f :: fs => writeField f ++ ',' :: writeFields fs

def writeRecord (r : Record) : List Char :=
  (if r = [[]] then quoted [] else writeFields r) ++ ['\n']

def write (rs : List Record) : List Char := rs.flatMap writeRecord

end Csv

namespace Export

open Files (Disk)
open Usage (SeriesPoint Report)

/-- What a file holds. -/
inductive Part where
  | series
  | summary
  deriving DecidableEq, Repr

def seriesHeader : Csv.Record :=
  ["Call Type", "LLM API requests", "Cache hit", "Cached Completion Tokens",
    "Generated Completion Tokens"].map String.toList

def pointRecord (p : SeriesPoint) : Csv.Record :=
  [p.name, p.apiRequests.text, p.cacheHits.text, p.cachedTokens.text, p.generatedTokens.text].map
    String.toList

def seriesRecords (r : Report) : List Csv.Record := seriesHeader :: r.series.map pointRecord

def summaryRecords (r : Report) : List Csv.Record :=
  [["Metric", "Value"], ["Cache Hits", r.summary.cacheHits],
    ["Cached Tokens", r.summary.cachedTokens], ["Cache Hit Ratio (%)", r.summary.hitRatio],
    ["LLM API Requests", r.totals.apiRequests.text],
    ["Call Types", toString r.series.length]].map fun fields => fields.map String.toList

namespace Part

def text (r : Report) : Part → String
  | .series => String.ofList (Csv.write (seriesRecords r))
  | .summary => String.ofList (Csv.write (summaryRecords r))

def extension : Part → String
  | .series => "series.csv"
  | .summary => "summary.csv"

/-- What a reader calls a part. -/
def label : Part → String
  | .series => "Series"
  | .summary => "Summary"

def path (base : String) (p : Part) : String := Files.Path.withExtension base p.extension

end Part

def save (r : Report) (p : Part) (path : String) (d : Disk) : Except FileFault Disk :=
  d.write path (p.text r)

/-- The name of an export without a base path of its own. -/
def defaultName : String := "cachelytics_export"

end Export

end CacheActivity
