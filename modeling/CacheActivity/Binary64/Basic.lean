/-!
# Doubles

A double is `± mantissa · 2 ^ exponent` with a mantissa below `2 ^ 53` and an exponent of at least
`-1074`. Every operation is exact on fractions and is followed by one rounding, `nearest`, which
takes a fraction to the closest double and a tie to the even mantissa.

The exponent has no upper end here, so the operations are total. `IsFinite` says which values a
64-bit double can hold.
-/

namespace CacheActivity

/-- A signed mantissa on a binary grid. -/
structure Binary64 where
  negative : Bool
  mantissa : Nat
  exponent : Int
  deriving DecidableEq, Repr

/-- The quotient to the nearest integer, a half to the even neighbour. -/
def roundHalfEven (num den : Nat) : Nat :=
  let q := num / den
  let r := num % den
  if 2 * r < den then q else if den < 2 * r then q + 1 else q + q % 2

/-- The quotient to the nearest integer, a half upwards. -/
def roundHalfUp (num den : Nat) : Nat := (2 * num + den) / (2 * den)

namespace Binary64

def twoTo (n : Nat) : Nat := Nat.pow 2 n

/-- The least mantissa of a full grid, `2 ^ 52`. -/
def leastFull : Nat := 4503599627370496

/-- The exponent below which no grid of doubles lies. -/
def minExponent : Int := -1074

/-- The largest exponent of a finite double. -/
def maxExponent : Int := 971

def zero (negative : Bool) : Binary64 := ⟨negative, 0, minExponent⟩

/-- The grid on which the doubles near `num / den` lie: there the quotient has 53 binary digits,
or fewer at the lower end. -/
def gridExponent (num den : Nat) : Int :=
  let e : Int := (Nat.log2 num : Int) - Nat.log2 den - 52
  max minExponent
    (if num * twoTo (-e).toNat < leastFull * (den * twoTo e.toNat) then e - 1 else e)

/-- The double closest to `± num / den`. -/
def nearest (negative : Bool) (num den : Nat) : Binary64 :=
  if num = 0 then zero negative
  else
    let e := gridExponent num den
    let m := roundHalfEven (num * twoTo (-e).toNat) (den * twoTo e.toNat)
    if m = 2 * leastFull then ⟨negative, leastFull, e + 1⟩ else ⟨negative, m, e⟩

def ofNat (n : Nat) : Binary64 := nearest false n 1

def ofInt (z : Int) : Binary64 := nearest (z < 0) z.natAbs 1

/-- The numerator of the magnitude as a fraction. -/
def num (x : Binary64) : Nat := x.mantissa * twoTo x.exponent.toNat

/-- The denominator of the magnitude as a fraction. -/
def den (x : Binary64) : Nat := twoTo (-x.exponent).toNat

def IsFinite (x : Binary64) : Prop := x.exponent ≤ maxExponent

instance (x : Binary64) : Decidable x.IsFinite := inferInstanceAs (Decidable (_ ≤ _))

def isZero (x : Binary64) : Bool := x.mantissa == 0

def neg (x : Binary64) : Binary64 := { x with negative := !x.negative }

def mul (x y : Binary64) : Binary64 :=
  nearest (x.negative != y.negative) (x.num * y.num) (x.den * y.den)

/-- The quotient by a value that is not zero. -/
def div (x y : Binary64) : Binary64 :=
  nearest (x.negative != y.negative) (x.num * y.den) (x.den * y.num)

def signedNum (x : Binary64) : Int := if x.negative then -(x.num : Int) else x.num

/-- The sum. Opposite values cancel to the positive zero. -/
def add (x y : Binary64) : Binary64 :=
  let s := x.signedNum * y.den + y.signedNum * x.den
  if s = 0 then zero (x.negative && y.negative)
  else nearest (s < 0) s.natAbs (x.den * y.den)

/-- The integer part, towards zero. -/
def truncate (x : Binary64) : Int :=
  let q := x.num / x.den
  if x.negative then -(q : Int) else q

/-- The nearest integer to the magnitude, a half upwards. -/
def roundMagnitude (x : Binary64) : Nat := roundHalfUp x.num x.den

@[simp] theorem isZero_zero (b : Bool) : (zero b).isZero = true := rfl

@[simp] theorem isFinite_zero (b : Bool) : (zero b).IsFinite := by
  show minExponent ≤ maxExponent
  decide

@[simp] theorem neg_neg (x : Binary64) : x.neg.neg = x := by simp [neg]

theorem nearest_zero (b : Bool) (den : Nat) : nearest b 0 den = zero b := by simp [nearest]

@[simp] theorem ofInt_zero : ofInt 0 = zero false := nearest_zero _ 1

@[simp] theorem signedNum_zero (b : Bool) : (zero b).signedNum = 0 := by
  simp [signedNum, num, zero]

@[simp] theorem zero_add_zero (a b : Bool) : (zero a).add (zero b) = zero (a && b) := by
  simp only [add, signedNum_zero, Int.zero_mul, Int.add_zero, if_true]
  rfl

end Binary64

end CacheActivity
