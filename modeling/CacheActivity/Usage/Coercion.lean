import CacheActivity.Binary64.Decimal
import CacheActivity.Json.Writer
import CacheActivity.Text.Basic
import CacheActivity.Usage.Row

/-!
# Rows from loose values

Whoever delivers the rows may leave members out or give them another type, so every value can be
taken for a text and for a count. A number or a truth value is taken for its JSON text. A count is
taken from a number, or from a text that reads as one: fractions lose their fractional part, and
what lies outside the range gives the nearest count. Everything else counts as nothing.
-/

namespace CacheActivity.Usage

open Json (Value Members)

/-- The count of a double: its integer part, or the nearest count. -/
def countOfDouble (x : Binary64) : Count := .ofInt x.truncate

/-- The count of a whole number. Where that is no count, its nearest double is taken. -/
def countOfWhole (z : Int) : Count :=
  if Count.least ≤ z ∧ z ≤ Count.greatest then .ofInt z else countOfDouble (.ofInt z)

/-- The count of a text, blanks around it left out. An integer is taken exactly where it is a count,
and through the nearest double where it is not. -/
def countOfText (s : String) : Count :=
  let cs := Text.trim s.toList
  let exact := (Text.integer? cs).filter fun z => Count.least ≤ z && z ≤ Count.greatest
  match exact with
  | some z => .ofInt z
  | none =>
    match Numeral.double? cs with
    | some x => countOfDouble x
    | none => .zero

@[simp] theorem countOfWhole_toInt (a : Count) : countOfWhole a.toInt = a := by
  rw [countOfWhole, if_pos ⟨a.least_le, a.le_greatest⟩, Count.ofInt_toInt]

def countOf : Value → Count
  | .number (.whole z) => countOfWhole z
  | .number (.double x) => countOfDouble x
  | .text s => countOfText s
  | _ => .zero

def textOf? : Value → Option String
  | .text s => some s
  | .bool b => some (Value.bool b).compact
  | .number n => some (Value.number n).compact
  | _ => none

namespace Row

/-- The members that a row is made from, in the order of its fields. -/
def fieldNames : List String :=
  ["api_key", "model", "call_type", "total_rows", "cache_hit_true_rows",
    "cached_completion_tokens", "generated_completion_tokens"]

/-- The row that members make. Missing ones count as empty. -/
def ofMembers (ms : Members) : Row :=
  let text? key := (ms.get? key).bind textOf?
  let count key := ((ms.get? key).map countOf).getD .zero
  { apiKey := (text? "api_key").getD ""
    model := (text? "model").getD ""
    callType := text? "call_type"
    totalRows := count "total_rows"
    cacheHits := count "cache_hit_true_rows"
    cachedTokens := count "cached_completion_tokens"
    generatedTokens := count "generated_completion_tokens" }

/-- The members seen once one more is visited. Members of other names are passed over, and a member
of a row may come once. -/
def visit? (seen : Members) (m : String × Value) : Option Members :=
  if !fieldNames.contains m.1 then some seen
  else if seen.has m.1 then none
  else some (seen ++ [m])

/-- The row of an object, whose members are visited in their order. Other values are no rows. -/
def ofValue? : Value → Option Row
  | .object ms => (ms.foldlM visit? []).map ofMembers
  | _ => none

def ofValues (vs : List Value) : List Row := vs.filterMap ofValue?

def toMembers (r : Row) : Members :=
  [("api_key", .text r.apiKey), ("model", .text r.model),
    ("call_type", (r.callType.map Value.text).getD .null),
    ("total_rows", .whole r.totalRows.toInt), ("cache_hit_true_rows", .whole r.cacheHits.toInt),
    ("cached_completion_tokens", .whole r.cachedTokens.toInt),
    ("generated_completion_tokens", .whole r.generatedTokens.toInt)]

def toValue (r : Row) : Value := .object r.toMembers

end Row

end CacheActivity.Usage
