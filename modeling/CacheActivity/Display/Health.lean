import CacheActivity.Display.Table
import CacheActivity.Health

/-!
# Health on a display

A headline says whether the check passed, and a table shows what is known. The parameters of a
passed check follow as JSON.
-/

namespace CacheActivity.Display

open Json (Value)
open Health (Success Failure Result)

def fieldTable (fields : List (String × String)) : Table where
  header := ["Field", "Value"].map String.toList
  rows := fields.map fun (name, value) => [name.toList, value.toList]

/-- A text as it is, any other value as JSON on lines. -/
def valueText : Value → String
  | .text s => s
  | v => v.pretty

/-- Parameters under a title, if there are any. -/
def paramLines (title : String) (params : Option Value) : List Line :=
  match params with
  | some v => [title.toList, (valueText v).toList]
  | none => []

def successLines (s : Success) : List Line :=
  "✅ Cache health check passed".toList ::
    (fieldTable [("Status", s.status), ("Cache Type", s.cacheType),
      ("Ping Response", if s.pingResponse then "true" else "false"),
      ("Set Cache Response", s.setCacheResponse)]).lines ++
    paramLines "Cache Params" s.cacheParams ++
    paramLines "Health Check Cache Params" s.checkParams

def failureLines (f : Failure) : List Line :=
  "❌ Cache health check failed".toList ::
    (fieldTable (("Error Message", f.message) :: f.extra)).lines

def healthLines : Result → List Line
  | .success s => successLines s
  | .failure f => failureLines f

end CacheActivity.Display
