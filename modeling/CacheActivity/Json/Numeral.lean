import CacheActivity.Binary64.Decimal
import CacheActivity.Json.Basic
import CacheActivity.Json.Cursor
import CacheActivity.Text.Basic

/-!
# Numbers in a JSON text

A number without fraction and power is whole while it fits 64 bits. Every other number is a double,
made from a significand of at most 64 bits and a power of ten: digits that no longer fit are counted
before the point and dropped behind it. The double is the significand rounded, then multiplied or
divided by the rounded power, so it can be off the nearest double in its last place.
-/

namespace CacheActivity.Json

/-- The largest significand, one less than `2 ^ 64`. -/
def maxSignificand : Nat := 18446744073709551615

/-- The largest power of ten that is read, one less than `2 ^ 31`. -/
def maxPower : Nat := 2147483647

/-- The largest magnitude of a negative whole number, `2 ^ 63`. -/
def maxNegative : Nat := 9223372036854775808

/-- Takes digits into a number as long as it stays within a limit. -/
def absorb (limit : Nat) : Nat → List Char → Nat × List Char
  | n, [] => (n, [])
  | n, c :: cs =>
    if c.isDigit ∧ 10 * n + Text.digitValue c ≤ limit then
      absorb limit (10 * n + Text.digitValue c) cs
    else (n, c :: cs)

/-- The double next to a power of ten. -/
def powerOfTen (n : Nat) : Binary64 := .nearest false (Binary64.tenTo n) 1

/-- Multiplies by a power of ten, or answers `none` beyond the finite doubles. Powers below
`10 ^ -308` are applied in steps of that size. Two steps take every significand to zero. -/
def scale (x : Binary64) : Nat → Int → Option Binary64
  | fuel, power =>
    if power.natAbs ≤ 308 then
      if 0 ≤ power then
        let y := x.mul (powerOfTen power.natAbs)
        if y.IsFinite then some y else none
      else some (x.div (powerOfTen power.natAbs))
    else if x.isZero then some x
    else if 0 ≤ power then none
    else
      match fuel with
      | 0 => some (.zero false)
      | fuel + 1 => scale (x.div (powerOfTen 308)) fuel (power + 308)

/-- The double of a significand and a power of ten. -/
def toDouble? (negative : Bool) (significand : Nat) (power : Int) : Option Binary64 :=
  (scale (.ofNat significand) 2 power).map fun x => if negative then x.neg else x

/-- A whole number where it fits 64 bits. The negative zero does not. -/
def wholeNumber (negative : Bool) (significand : Nat) : Number :=
  if !negative then .whole significand
  else if 0 < significand ∧ significand ≤ maxNegative then .whole (-(significand : Int))
  else .double (Binary64.ofNat significand).neg

def finishDouble (negative : Bool) (significand : Nat) (power : Int) : Reader Number := fun c =>
  match toDouble? negative significand power with
  | some x => .ok (.double x, c)
  | none => c.fail .numberOutOfRange

/-- The power of ten behind `e`. -/
def readPower (negative : Bool) (significand : Nat) (power : Int) : Reader Number := fun c =>
  let (downwards, c) :=
    match c.rest with
    | '+' :: _ => (false, c.step)
    | '-' :: _ => (true, c.step)
    | _ => (false, c)
  match c.rest with
  | [] => c.fail .endInValue
  | d :: _ =>
    if !d.isDigit then c.failNext .invalidNumber
    else
      let (n, rest) := absorb maxPower 0 c.rest
      let c := c.jump rest
      if (rest.head?.map Char.isDigit).getD false then
        if significand ≠ 0 ∧ !downwards then c.step.fail .numberOutOfRange
        else .ok (.double (.zero negative), c.jump (rest.dropWhile Char.isDigit))
      else finishDouble negative significand (if downwards then power - n else power + n) c

def readFraction (negative : Bool) (significand : Nat) (power : Int) : Reader Number := fun c =>
  let (n, rest) := absorb maxSignificand significand c.rest
  let taken := c.rest.length - rest.length
  let rest := rest.dropWhile Char.isDigit
  if rest.length = c.rest.length then
    c.failNext (if c.rest.isEmpty then .endInValue else .invalidNumber)
  else
    let c := c.jump rest
    let power := power - taken
    match rest with
    | 'e' :: _ | 'E' :: _ => readPower negative n power c.step
    | _ => finishDouble negative n power c

/-- What follows the whole part, of which some digits were counted only. -/
def readTail (negative : Bool) (significand dropped : Nat) : Reader Number := fun c =>
  match c.rest with
  | '.' :: _ => readFraction negative significand dropped c.step
  | 'e' :: _ | 'E' :: _ => readPower negative significand dropped c.step
  | _ =>
    if dropped = 0 then .ok (wholeNumber negative significand, c)
    else finishDouble negative significand dropped c

/-- A number behind its sign. A zero stands alone. -/
def readNumber (negative : Bool) : Reader Number := fun c =>
  match c.rest with
  | [] => c.fail .endInValue
  | '0' :: cs =>
    if (cs.head?.map Char.isDigit).getD false then c.step.failNext .invalidNumber
    else readTail negative 0 0 c.step
  | d :: _ =>
    if !d.isDigit then c.failNext .invalidNumber
    else
      let (n, rest) := absorb maxSignificand 0 c.rest
      let dropped := (rest.takeWhile Char.isDigit).length
      readTail negative n dropped (c.jump (rest.drop dropped))

end CacheActivity.Json
