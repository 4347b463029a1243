import CacheActivity.Fault
import CacheActivity.Files.Path
import CacheActivity.Json.Reader
import CacheActivity.Log
import CacheActivity.Text.Basic
import CacheActivity.Text.Split
import CacheActivity.Usage.Coercion

/-!
# Rows of a capture

A capture is a text that holds rows. Named with the extension `jsonl` it has a row on each line, and
lines that are no rows are skipped. Any other name stands for one JSON document: an array of rows,
or an object whose member `data` is one. Items that are no rows are skipped too. What is skipped is
logged.
-/

namespace CacheActivity.Capture

open Json (Value)
open Usage (Row)

/-- How a capture holds its rows. -/
inductive Format where
  | lines
  | document
  deriving DecidableEq, Repr

def Format.ofPath (path : String) : Format :=
  if Files.Path.extension? path = some "jsonl" then .lines else .document

/-- The row on a line, if there is one. -/
def rowOfLine? (line : List Char) : Option Row :=
  if (Text.trim line).isEmpty then none
  else
    match Json.read (String.ofList line) with
    | .ok v => Row.ofValue? v
    | .error _ => none

def rowsOfLines (text : String) : List Row := (Text.lines text.toList).filterMap rowOfLine?

def itemsOf? : Value → Option (List Value)
  | .array vs => some vs
  | .object ms =>
    match Json.Members.get? "data" ms with
    | some (.array vs) => some vs
    | _ => none
  | _ => none

def rowsOfDocument (path text : String) : Except Fault (List Row) :=
  match Json.read text with
  | .error cause => .error (.json path cause.position.line cause)
  | .ok v =>
    match itemsOf? v with
    | some vs => .ok (Row.ofValues vs)
    | none => .error (.invalid "data" (path ++ " is not an activity export"))

def rowsOf (path text : String) : Except Fault (List Row) :=
  match Format.ofPath path with
  | .lines => .ok (rowsOfLines text)
  | .document => rowsOfDocument path text

/-- What is logged of the line with a number, if that is no row. -/
def lineEvent? (path : String) (n : Nat) (line : List Char) : Option Log.Event :=
  if (Text.trim line).isEmpty then none
  else
    match Json.read (String.ofList line) with
    | .ok v =>
      if (Row.ofValue? v).isSome then none
      else
        some ⟨.warn, "skipping non-object activity row", [("path", path), ("line", toString n)]⟩
    | .error cause =>
      some ⟨.warn, "skipping unparsable activity row",
        [("path", path), ("line", toString n), ("error", cause.message)]⟩

/-- What is logged of a document, if some items in it are no rows. -/
def documentEvent? (path text : String) : Option Log.Event := do
  let v ← (Json.read text).toOption
  let vs ← itemsOf? v
  let skipped := vs.length - (Row.ofValues vs).length
  if skipped = 0 then none
  else
    some ⟨.warn, "skipping non-object activity rows",
      [("path", path), ("skipped", toString skipped)]⟩

/-- What is logged of a text at a path. -/
def eventsOf (path text : String) : List Log.Event :=
  match Format.ofPath path with
  | .lines =>
    (Text.lines text.toList).zipIdx.filterMap fun x => lineEvent? path (x.2 + 1) x.1
  | .document => (documentEvent? path text).toList

end CacheActivity.Capture
