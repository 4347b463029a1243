import CacheActivity.Binary64.Basic
import CacheActivity.Text.Basic

/-!
# Decimal numerals and doubles

`Decimal` is `digits · 10 ^ exponent`. `Binary64.ofDecimal?` takes one to the nearest double, and
`Binary64.shortest` takes a double to the decimal with the fewest digits that reads back as it,
the closest of those to the double.

`Numeral.double?` reads a numeral with an optional sign, point and power as the nearest double.

The search behind `shortest` walks down the decimal grids. On each it looks at the two neighbours
of the double: if any point of a grid lies in the interval of reals that round to the double, so
does one of these two.
-/

namespace CacheActivity

structure Decimal where
  digits : Nat
  exponent : Int
  deriving DecidableEq, Repr

namespace Decimal

/-- The decimal digits of the coefficient, the leading one first. -/
def text (d : Decimal) : List Char := Nat.toDigits 10 d.digits

/-- The power of ten of the leading digit. -/
def leading (d : Decimal) : Int := d.exponent + d.text.length - 1

/-- Digits with a point somewhere among them, and at least one digit on either side of it. -/
def positional (d : Decimal) : List Char :=
  let ds := d.text
  if 0 ≤ d.exponent then ds ++ List.replicate d.exponent.toNat '0' ++ ['.', '0']
  else
    let whole := (ds.length + d.exponent).toNat
    if 0 < whole then ds.take whole ++ '.' :: ds.drop whole
    else ['0', '.'] ++ List.replicate (-d.exponent - ds.length).toNat '0' ++ ds

/-- One digit, the others behind a point, and a signed power of ten. -/
def scientific (d : Decimal) : List Char :=
  let mantissa :=
    match d.text with
    | [] => []
    | [c] => [c]
    | c :: cs => c :: '.' :: cs
  let e := d.leading
  mantissa ++ 'e' :: (if e < 0 then '-' else '+') :: Nat.toDigits 10 e.natAbs

/-- Which leading powers of ten are written with a point and no power. -/
structure Layout where
  lowest : Int
  highest : Int

def write (l : Layout) (d : Decimal) : List Char :=
  if d.digits = 0 then ['0', '.', '0']
  else if l.lowest ≤ d.leading ∧ d.leading ≤ l.highest then d.positional
  else d.scientific

end Decimal

namespace Binary64

def tenTo (n : Nat) : Nat := Nat.pow 10 n

/-- The double nearest to `± digits · 10 ^ exponent`, or `none` beyond the finite ones. Numerals
far outside the range of doubles are settled by their leading power of ten alone. -/
def ofDecimal? (negative : Bool) (d : Decimal) : Option Binary64 :=
  if d.digits = 0 ∨ d.leading < -330 then some (zero negative)
  else if 400 < d.leading then none
  else
    let x := nearest negative (d.digits * tenTo d.exponent.toNat) (tenTo (-d.exponent).toNat)
    if x.IsFinite then some x else none

/-- The power of ten of the leading digit of `num / den`. -/
def leadingPower (num den : Nat) : Int :=
  if den ≤ num then (Nat.toDigits 10 (num / den)).length - 1
  else -((Nat.toDigits 10 ((den - 1) / num)).length : Int)

/-- The interval of reals that round to a double, in quarters of its last place. -/
structure Basin where
  low : Nat
  centre : Nat
  high : Nat
  /-- Whether the ends belong to it. -/
  closed : Bool

/-- Half a place to either side, but a quarter below the least mantissa of a grid, where the next
grid is twice as fine. An end rounds to the even mantissa. -/
def basin (x : Binary64) : Basin where
  low := 4 * x.mantissa - (if x.mantissa = leastFull ∧ minExponent < x.exponent then 1 else 2)
  centre := 4 * x.mantissa
  high := 4 * x.mantissa + 2
  closed := x.mantissa % 2 == 0

/-- Whether `n` steps of size `step` lie in a basin whose quarters have size `quarter`. -/
def Basin.holds (b : Basin) (quarter step n : Nat) : Bool :=
  if b.closed then b.low * quarter ≤ n * step && n * step ≤ b.high * quarter
  else b.low * quarter < n * step && n * step < b.high * quarter

/-- The point of the grid `10 ^ k` that lies in the basin, the nearer of two. -/
def onGrid? (x : Binary64) (k : Int) : Option Nat :=
  let b := x.basin
  let q := x.exponent - 2
  let quarter := twoTo q.toNat * tenTo (-k).toNat
  let step := tenTo k.toNat * twoTo (-q).toNat
  let below := b.centre * quarter / step
  let above := below + 1
  match b.holds quarter step below, b.holds quarter step above with
  | true, true =>
    let down := b.centre * quarter - below * step
    let up := above * step - b.centre * quarter
    some (if down < up then below
      else if up < down then above
      else if below % 2 = 0 then below else above)
  | true, false => some below
  | false, true => some above
  | false, false => none

/-- The first hit on the grids `10 ^ k`, `10 ^ (k - 1)`, … -/
def searchGrids (x : Binary64) : Nat → Int → Decimal
  | 0, k => ⟨(x.onGrid? k).getD 0, k⟩
  | fuel + 1, k =>
    match x.onGrid? k with
    | some n => ⟨n, k⟩
    | none => searchGrids x fuel (k - 1)

/-- The fewest digits that read back. Seventeen always do. -/
def shortest (x : Binary64) : Decimal :=
  if x.mantissa = 0 then ⟨0, 0⟩ else searchGrids x 17 (leadingPower x.num x.den + 1)

/-- A sign where there is one, then the shortest numeral. -/
def write (l : Decimal.Layout) (x : Binary64) : List Char :=
  (if x.negative then ['-'] else []) ++ x.shortest.write l

/-- A fixed number of places after the point, a half to the even last digit. -/
def writeFixed (places : Nat) (x : Binary64) : List Char :=
  let n := roundHalfEven (x.num * tenTo places) x.den
  let ds := Nat.toDigits 10 n
  let ds := List.replicate (places + 1 - ds.length) '0' ++ ds
  let whole := ds.length - places
  (if x.negative then ['-'] else []) ++ ds.take whole ++ '.' :: ds.drop whole

end Binary64

namespace Numeral

/-- The power of ten at the end of a numeral. -/
def power? : List Char → Option Int
  | [] => some 0
  | c :: cs => if c = 'e' ∨ c = 'E' then Text.integer? cs else none

/-- Digits with an optional sign, point and power, and the sign apart. -/
def decimal? (cs : List Char) : Option (Bool × Decimal) :=
  let (negative, cs) := Text.splitSign cs
  let whole := cs.takeWhile Char.isDigit
  let rest := cs.dropWhile Char.isDigit
  let (fraction, rest) :=
    match rest with
    | '.' :: cs => (cs.takeWhile Char.isDigit, cs.dropWhile Char.isDigit)
    | _ => ([], rest)
  if whole.isEmpty && fraction.isEmpty then none
  else
    (power? rest).map fun power =>
      (negative, ⟨Text.digitsValue (whole ++ fraction), power - fraction.length⟩)

/-- The double nearest to a numeral, unless it is too large for one. -/
def double? (cs : List Char) : Option Binary64 :=
  (decimal? cs).bind fun d => Binary64.ofDecimal? d.1 d.2

end Numeral

end CacheActivity
