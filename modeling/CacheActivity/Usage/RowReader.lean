import CacheActivity.Json.Skip
import CacheActivity.Text.Literal
import CacheActivity.Usage.Coercion

/-!
# Rows straight from a text

`Row.read` reads a row without building the value of its text first. An object gives its members by
name, and an array by position. A member of a row may come once; other members are passed over
unread.
-/

namespace CacheActivity.Usage.Row

open Json (Cursor Reader SyntaxError Problem Value Members)

/-- How errors name what was expected. -/
def schemaName : String := "struct RawUsageRecord"

/-- The values of the members of a row: the row itself is one level. -/
def memberValue : Reader Value := Json.readValue (Json.depthLimit - 1)

/-- The members of an object from the first key on, those seen so far given. A repeated member is
reported behind its key, and behind the end of the object where that follows at once. -/
def readNamed : Nat → Members → Reader Members
  | 0, _, c => c.fail .endInObject
  | fuel + 1, seen, c =>
    match c.rest with
    | '"' :: _ => do
      let (key, c) ← Json.readText c.step
      if fieldNames.contains key then
        if seen.has key then
          let c := c.skipBlanks
          match c.rest with
          | '\x7d' :: _ => c.step.fail (.repeatedField key)
          | _ => c.fail (.repeatedField key)
        else
          let ((), c) ← Json.readColon c
          let (v, c) ← memberValue c
          go fuel (seen ++ [(key, v)]) c
      else
        let ((), c) ← Json.readColon c
        let ((), c) ← Json.skipValue c
        go fuel seen c
    | _ => c.failNext .keyNotText
where
  /-- The end of the object or the next member. -/
  go (fuel : Nat) (seen : Members) (c : Cursor) : Except SyntaxError (Members × Cursor) := do
    let (done, c) ← Json.readMemberEnd c
    if done then return (seen, c) else readNamed fuel seen c

/-- The items of an array for so many members still missing. -/
def readPlaced : List String → Bool → Members → Reader Members
  | [], _, seen, c =>
    let c := c.skipBlanks
    match c.rest with
    | [] => c.fail .endInList
    | ']' :: _ => .ok (seen, c.step)
    | ',' :: _ =>
      let c := c.step.skipBlanks
      match c.rest with
      | ']' :: _ => c.failNext .trailingComma
      | _ => c.failNext .trailingCharacters
    | _ => c.failNext .trailingCharacters
  | name :: names, first, seen, c => do
    let c := c.skipBlanks
    match c.rest with
    | [] => c.fail .endInList
    | ']' :: _ => .ok (seen, c.step)
    | ch :: _ =>
      if first then
        let (v, c) ← memberValue c
        readPlaced names false (seen ++ [(name, v)]) c
      else if ch = ',' then
        let c := c.step.skipBlanks
        match c.rest with
        | [] => c.fail .endInValue
        | ']' :: _ => c.failNext .trailingComma
        | _ =>
          let (v, c) ← memberValue c
          readPlaced names false (seen ++ [(name, v)]) c
      else c.failNext .listCommaOrEndExpected

/-- How errors name a value of the wrong type. -/
def found : Value → String
  | .null => "null"
  | .bool b => "boolean `" ++ (Value.bool b).compact ++ "`"
  | .number (.whole z) => "integer `" ++ toString z ++ "`"
  | .number (.double x) => "floating point `" ++ (Value.double x).compact ++ "`"
  | .text s => "string " ++ Text.literal s
  | .array _ => "sequence"
  | .object _ => "map"

def readMembers : Reader Members := fun c =>
  let c := c.skipBlanks
  match c.rest with
  | '[' :: _ => readPlaced fieldNames true [] c.step
  | '\x7b' :: _ =>
    let c := c.step.skipBlanks
    match c.rest with
    | [] => c.fail .endInObject
    | '\x7d' :: _ => .ok ([], c.step)
    | _ => readNamed (c.rest.length + 1) [] c
  | _ => do
    let (v, c) ← Json.readWith none c
    c.fail (.wrongType (found v) schemaName)

def read (text : String) : Except SyntaxError Row := do
  let (ms, c) ← readMembers (.start text.toList)
  Json.expectEnd c
  return ofMembers ms

end CacheActivity.Usage.Row
