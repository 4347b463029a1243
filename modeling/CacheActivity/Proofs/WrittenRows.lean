import CacheActivity.Proofs.CaptureFormats
import CacheActivity.Proofs.CompactTexts
import CacheActivity.Proofs.Writes

/-!
# Rows come back from a capture

The object of a row gives the row again, and its compact text goes on one line. So a capture that
rows are written to, in any layout, is fetched as just these rows (`rows_survive_writing`).
-/

namespace CacheActivity.Usage.Row

open Json (Value Plain maxNegative maxSignificand)

theorem nodup_keys_toMembers (r : Row) : r.toMembers.keys.Nodup := by
  simp [Json.Members.keys, toMembers]

theorem plain_toValue (d : Nat) (r : Row) : Plain (d + 1) r.toValue := by
  have hcount : ∀ c : Count, Plain d (.whole c.toInt) := by
    intro c
    refine .whole c.least_le (Int.le_trans c.le_greatest ?_)
    decide
  have hcall : Plain d ((r.callType.map Value.text).getD .null) := by
    cases r.callType with
    | none => exact .null
    | some t => exact .text t
  refine .object r.nodup_keys_toMembers ?_
  simp only [toMembers, List.forall_mem_cons]
  exact ⟨.text _, .text _, hcall, hcount _, hcount _, hcount _, hcount _, List.forall_mem_nil _⟩

/-- The object of a row gives the row again. A type of call that is empty and one that is missing
stay apart. -/
theorem ofMembers_toMembers (r : Row) : ofMembers r.toMembers = r := by
  obtain ⟨key, model, callType, total, hits, cached, generated⟩ := r
  cases callType <;>
    simp [ofMembers, toMembers, Json.Members.get?_cons, textOf?, countOf, Value.whole]

theorem ofValue?_toValue (r : Row) : ofValue? r.toValue = some r :=
  (ofValue?_object r.nodup_keys_toMembers).trans (congrArg some r.ofMembers_toMembers)

theorem ofValues_map_toValue (rows : List Row) : ofValues (rows.map toValue) = rows := by
  rw [ofValues, List.filterMap_map]
  exact (List.filterMap_congr fun r _ => r.ofValue?_toValue).trans List.filterMap_some

end CacheActivity.Usage.Row

namespace CacheActivity.Capture

open Files (Disk)
open Json (Value Plain)
open Text (joinWith)
open Usage (Row)

/-- How rows are laid out in a capture. -/
inductive Layout where
  | array
  | envelope
  /-- A row on each line, with a line break behind the last one or without it. -/
  | lines (breakAtEnd : Bool)

namespace Layout

def format : Layout → Format
  | .array | .envelope => .document
  | .lines _ => .lines

def text (rows : List Row) : Layout → String
  | .array => (Value.array (rows.map Row.toValue)).compact
  | .envelope => (Value.object [("data", .array (rows.map Row.toValue))]).compact
  | .lines breakAtEnd =>
    String.ofList (joinWith '\n' (rows.map fun r => r.toValue.chars) ++
      if breakAtEnd then ['\n'] else [])

end Layout

section Layouts

variable {path : String} {rows : List Row}

theorem onLines_joinWith (ts : List (List Char)) (breakAtEnd : Bool) :
    OnLines ts (joinWith '\n' ts ++ if breakAtEnd then ['\n'] else []) := by
  induction ts with
  | nil =>
    cases breakAtEnd with
    | false => exact .nil
    | true => exact .idle false ⟨List.not_mem_nil, .inl rfl⟩ .nil
  | cons t ts ih =>
    -- Only the last line can be without a break behind it.
    rcases ts with _ | ⟨u, ts⟩
    · cases breakAtEnd with
      | false => simpa [joinWith] using OnLines.last t
      | true => simpa [joinWith, lineEnd] using OnLines.line t false .nil
    · simpa [joinWith, lineEnd] using OnLines.line t false ih

theorem objectOf_chars (r : Row) : objectOf? r.toValue.chars = some r.toMembers := by
  have hread : Json.read (String.ofList r.toValue.chars) = .ok r.toValue :=
    Json.read_compact (r.plain_toValue _)
  rw [objectOf?, hread]
  rfl

theorem rowsOfLines_text (rows : List Row) (breakAtEnd : Bool) :
    rowsOfLines ((Layout.lines breakAtEnd).text rows) = rows := by
  have hbreaks : ∀ t ∈ rows.map fun r => r.toValue.chars, '\n' ∉ t :=
    List.forall_mem_map.2 fun r _ => (r.plain_toValue 0).lineFeed_not_mem
  rw [Layout.text, rowsOfLines_eq, (onLines_joinWith _ _).filterMap_eq hbreaks, List.map_filterMap,
    List.filterMap_map]
  refine (List.filterMap_congr fun r _ => ?_).trans List.filterMap_some
  rw [Function.comp_apply, objectOf_chars, Option.map_some, r.ofMembers_toMembers]

theorem rowsOfDocument_text (path : String) {v : Value} (h : Plain Json.depthLimit v)
    (hv : itemsOf? v = some (rows.map Row.toValue)) :
    rowsOfDocument path v.compact = .ok rows := by
  simp only [rowsOfDocument, Json.read_compact h, hv, Row.ofValues_map_toValue]

theorem rowsOf_text (rows : List Row) {l : Layout} (h : Format.ofPath path = l.format) :
    rowsOf path (l.text rows) = .ok rows := by
  have hitems : ∀ d, Plain (d + 2) (.array (rows.map Row.toValue)) := fun d =>
    .array (List.forall_mem_map.2 fun r _ => r.plain_toValue d)
  rw [rowsOf, h]
  cases l with
  | array => exact rowsOfDocument_text path (hitems _) rfl
  | envelope =>
    exact rowsOfDocument_text path
      (.object (List.pairwise_singleton _ _) (List.forall_mem_singleton.2 (hitems _))) rfl
  | lines breakAtEnd => exact congrArg Except.ok (rowsOfLines_text rows breakAtEnd)

end Layouts

/-- Rows come back as they were written. Whatever the layout, a capture that some rows are written
to is fetched as these rows, all of them and in their order. The text of a row decodes to the object
of the row, and that gives the row again, so taking a row from a value a second time changes
nothing. -/
theorem rows_survive_writing (rows : List Row) :
    (∀ (l : Layout) (d d' : Disk) (path : String), Format.ofPath path = l.format →
      d.write path (l.text rows) = .ok d' → fetchFile d' path = .ok rows) ∧
    (∀ r : Row, Json.read r.toValue.compact = .ok r.toValue ∧ Row.ofValue? r.toValue = some r) ∧
    ∀ v, ((Row.ofValue? v).bind fun r => Row.ofValue? r.toValue) = Row.ofValue? v := by
  refine ⟨fun l d d' path hpath hwrite => ?_, fun r => ?_, fun v => ?_⟩
  · rw [fetchFile, Files.Disk.read_of_write hwrite]
    exact rowsOf_text rows hpath
  · exact ⟨Json.read_compact (r.plain_toValue _), r.ofValue?_toValue⟩
  · cases Row.ofValue? v with
    | none => rfl
    | some r => exact r.ofValue?_toValue

/-- Rows with characters that are escaped in quotes, with both ends of the range of counts, and with
a type of call that is missing in one and empty in the other. -/
def awkwardRows : List Row :=
  [⟨"a\"b\\c\nd\x01", "é", none, .ofInt Count.greatest, .zero, .zero, .ofInt 7⟩,
    ⟨"", "\r\n", some "", .ofInt Count.least, .ofInt (-1), .zero, .zero⟩]

def awkwardDisk (name : String) (l : Layout) : Disk :=
  (Disk.blank []).put [name] (.file (some (l.text awkwardRows)))

theorem rows_survive_writing_of_awkward :
    fetchFile (awkwardDisk "r.json" .array) "/r.json" = .ok awkwardRows ∧
    fetchFile (awkwardDisk "r.json" .envelope) "/r.json" = .ok awkwardRows ∧
    fetchFile (awkwardDisk "r.jsonl" (.lines true)) "/r.jsonl" = .ok awkwardRows ∧
    fetchFile (awkwardDisk "r.jsonl" (.lines false)) "/r.jsonl" = .ok awkwardRows := by
  obtain ⟨hwritten, -⟩ := rows_survive_writing awkwardRows
  exact ⟨hwritten .array (.blank []) _ _ rfl rfl, hwritten .envelope (.blank []) _ _ rfl rfl,
    hwritten (.lines true) (.blank []) _ _ rfl rfl, hwritten (.lines false) (.blank []) _ _ rfl rfl⟩

end CacheActivity.Capture
