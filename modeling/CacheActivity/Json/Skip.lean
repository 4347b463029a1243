import CacheActivity.Json.Reader

/-!
# Passing over values

`skipValue` passes over a value that nobody needs. It checks less than a reader: numbers may leave
the range of doubles, surrogates need not pair up, and arrays and objects may stand inside one
another to any depth.
-/

namespace CacheActivity.Json

/-- Passes over the digits of a power of ten behind `e`. -/
def skipPower : Reader Unit := fun c =>
  let c :=
    match c.rest with
    | '+' :: _ | '-' :: _ => c.step
    | _ => c
  match c.rest with
  | d :: _ =>
    if d.isDigit then .ok ((), c.jump (c.rest.dropWhile Char.isDigit))
    else c.failNext .invalidNumber
  | [] => c.fail .invalidNumber

def skipPowerIfAny : Reader Unit := fun c =>
  match c.rest with
  | 'e' :: _ | 'E' :: _ => skipPower c.step
  | _ => .ok ((), c)

/-- Passes over the digits behind a point. -/
def skipFraction : Reader Unit := fun c =>
  let rest := c.rest.dropWhile Char.isDigit
  if rest.length = c.rest.length then c.failNext .invalidNumber
  else skipPowerIfAny (c.jump rest)

/-- Passes over a number behind its sign. -/
def skipNumber : Reader Unit := fun c =>
  match c.rest with
  | [] => c.fail .invalidNumber
  | d :: cs =>
    if !d.isDigit then c.failNext .invalidNumber
    else if d = '0' ∧ (cs.head?.map Char.isDigit).getD false then c.step.failNext .invalidNumber
    else
      let c := c.jump (c.rest.dropWhile Char.isDigit)
      match c.rest with
      | '.' :: _ => skipFraction c.step
      | _ => skipPowerIfAny c

/-- Passes over the items of an array from the first one on. -/
def skipItems (item : Reader Unit) : Nat → Reader Unit
  | 0, c => c.fail .endInList
  | fuel + 1, c => do
    let ((), c) ← item c
    let c := c.skipBlanks
    match c.rest with
    | [] => c.fail .endInList
    | ']' :: _ => return ((), c.step)
    | ',' :: _ => skipItems item fuel c.step
    | _ => c.failNext .listCommaOrEndExpected

/-- Passes over the members of an object from the first key on. -/
def skipMembers (item : Reader Unit) : Nat → Reader Unit
  | 0, c => c.fail .endInObject
  | fuel + 1, c => do
    let c := c.skipBlanks
    match c.rest with
    | [] => c.fail .endInObject
    | '"' :: _ =>
      let ((), c) ← skipText c.step
      let ((), c) ← readColon c
      let ((), c) ← item c
      let c := c.skipBlanks
      match c.rest with
      | [] => c.fail .endInObject
      | '\x7d' :: _ => return ((), c.step)
      | ',' :: _ => skipMembers item fuel c.step
      | _ => c.failNext .objectCommaOrEndExpected
    | _ => c.failNext .keyNotText

/-- Passes over a value whose items are passed over by `inner`. -/
def skipWith (inner : Reader Unit) : Reader Unit := fun c =>
  let c := c.skipBlanks
  match c.rest with
  | [] => c.fail .endInValue
  | 'n' :: _ => readWord ['u', 'l', 'l'] c.step
  | 't' :: _ => readWord ['r', 'u', 'e'] c.step
  | 'f' :: _ => readWord ['a', 'l', 's', 'e'] c.step
  | '"' :: _ => skipText c.step
  | '[' :: _ =>
    let c := c.step.skipBlanks
    match c.rest with
    | [] => c.fail .endInList
    | ']' :: _ => .ok ((), c.step)
    | _ => skipItems inner c.rest.length c
  | '\x7b' :: _ =>
    let c := c.step.skipBlanks
    match c.rest with
    | '\x7d' :: _ => .ok ((), c.step)
    | _ => skipMembers inner (c.rest.length + 1) c
  | '-' :: _ => skipNumber c.step
  | d :: _ => if d.isDigit then skipNumber c else c.failNext .valueExpected

/-- Passes over a value with so many levels of arrays and objects. -/
def skipLevels : Nat → Reader Unit
  | 0 => skipWith fun c => c.fail .endInValue
  | depth + 1 => skipWith (skipLevels depth)

/-- Passes over a value. No value has more levels than its text has characters. -/
def skipValue : Reader Unit := fun c => skipLevels c.rest.length c

end CacheActivity.Json
