import CacheActivity.Json.Numeral
import CacheActivity.Json.Quoted

/-!
# Reading JSON texts

`read` takes a text to its one value. The grammar is the strict one: no comments, no trailing
commas, no text behind the value, and at most `depthLimit` arrays and objects inside one another.

`readValue depth` is built by recursion on the depth: an array or object hands its items to the
reader of the depth below. The loops over items count down a bound on the text ahead.
-/

namespace CacheActivity.Json

/-- How many arrays and objects may stand inside one another. -/
def depthLimit : Nat := 127

/-- The rest of a word whose first letter is known. -/
def readWord : List Char → Reader Unit
  | [], c => .ok ((), c)
  | w :: ws, c =>
    match c.rest with
    | [] => c.fail .endInValue
    | ch :: _ => if ch = w then readWord ws c.step else c.failNext .identExpected

/-- The items of an array from the first one on. -/
def readItems (item : Reader Value) : Nat → Reader (List Value)
  | 0, c => c.fail .endInList
  | fuel + 1, c => do
    let (v, c) ← item c
    let c := c.skipBlanks
    match c.rest with
    | [] => c.fail .endInList
    | ']' :: _ => return ([v], c.step)
    | ',' :: _ =>
      let c := c.step.skipBlanks
      match c.rest with
      | [] => c.fail .endInValue
      | ']' :: _ => c.failNext .trailingComma
      | _ =>
        let (vs, c) ← readItems item fuel c
        return (v :: vs, c)
    | _ => c.failNext .listCommaOrEndExpected

/-- An array behind its bracket. -/
def readArray (item : Reader Value) : Reader (List Value) := fun c =>
  let c := c.skipBlanks
  match c.rest with
  | [] => c.fail .endInList
  | ']' :: _ => .ok ([], c.step)
  | _ => readItems item c.rest.length c

def readColon : Reader Unit := fun c =>
  let c := c.skipBlanks
  match c.rest with
  | [] => c.fail .endInObject
  | ':' :: _ => .ok ((), c.step)
  | _ => c.failNext .colonExpected

/-- A key with its quotes, and the colon. -/
def readKey : Reader String := fun c =>
  match c.rest with
  | '"' :: _ => do
    let (key, c) ← readText c.step
    let ((), c) ← readColon c
    return (key, c)
  | _ => c.failNext .keyNotText

/-- What follows the value of a member: the end of the object, or a comma and the next key. -/
def readMemberEnd : Reader Bool := fun c =>
  let c := c.skipBlanks
  match c.rest with
  | [] => c.fail .endInObject
  | '\x7d' :: _ => .ok (true, c.step)
  | ',' :: _ =>
    let c := c.step.skipBlanks
    match c.rest with
    | [] => c.fail .endInValue
    | '\x7d' :: _ => c.failNext .trailingComma
    | '"' :: _ => .ok (false, c)
    | _ => c.failNext .keyNotText
  | _ => c.failNext .objectCommaOrEndExpected

/-- The members of an object from the first key on, in the order of the text. -/
def readMembers (item : Reader Value) : Nat → Reader (List (String × Value))
  | 0, c => c.fail .endInObject
  | fuel + 1, c => do
    let (key, c) ← readKey c
    let (v, c) ← item c
    let (done, c) ← readMemberEnd c
    if done then return ([(key, v)], c)
    else
      let (ms, c) ← readMembers item fuel c
      return ((key, v) :: ms, c)

/-- The object that pairs make when they come in order. -/
def Members.ofPairs (pairs : List (String × Value)) : Members :=
  pairs.foldl (fun ms m => Members.put m.1 m.2 ms) []

/-- An object behind its brace. -/
def readObject (item : Reader Value) : Reader Members := fun c =>
  let c := c.skipBlanks
  match c.rest with
  | [] => c.fail .endInObject
  | '\x7d' :: _ => .ok ([], c.step)
  | _ => do
    let (pairs, c) ← readMembers item c.rest.length c
    return (Members.ofPairs pairs, c)

/-- A value with the blanks before it. Its items are read by `inner`, and without one no array or
object may start. -/
def readWith (inner : Option (Reader Value)) : Reader Value := fun c =>
  let c := c.skipBlanks
  match c.rest with
  | [] => c.fail .endInValue
  | 'n' :: _ => do
    let ((), c) ← readWord ['u', 'l', 'l'] c.step
    return (.null, c)
  | 't' :: _ => do
    let ((), c) ← readWord ['r', 'u', 'e'] c.step
    return (.bool true, c)
  | 'f' :: _ => do
    let ((), c) ← readWord ['a', 'l', 's', 'e'] c.step
    return (.bool false, c)
  | '"' :: _ => do
    let (s, c) ← readText c.step
    return (.text s, c)
  | '[' :: _ =>
    match inner with
    | none => c.failNext .tooDeep
    | some item => do
      let (vs, c) ← readArray item c.step
      return (.array vs, c)
  | '\x7b' :: _ =>
    match inner with
    | none => c.failNext .tooDeep
    | some item => do
      let (ms, c) ← readObject item c.step
      return (.object ms, c)
  | '-' :: _ => do
    let (n, c) ← readNumber true c.step
    return (.number n, c)
  | d :: _ =>
    if d.isDigit then do
      let (n, c) ← readNumber false c
      return (.number n, c)
    else c.failNext .valueExpected

/-- A value with so many levels of arrays and objects. -/
def readValue : Nat → Reader Value
  | 0 => readWith none
  | depth + 1 => readWith (some (readValue depth))

/-- Nothing but blanks up to the end. -/
def expectEnd (c : Cursor) : Except SyntaxError Unit :=
  let c := c.skipBlanks
  match c.rest with
  | [] => .ok ()
  | _ => c.failNext .trailingCharacters

/-- The value that the whole of a text stands for. -/
def readAll (text : List Char) : Except SyntaxError Value := do
  let (v, c) ← readValue depthLimit (.start text)
  expectEnd c
  return v

def read (text : String) : Except SyntaxError Value := readAll text.toList

end CacheActivity.Json
