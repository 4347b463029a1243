/-!
# Counts

A count is a signed 64-bit integer. Sums and differences saturate: beyond an end of the range they
give that end. The laws are stated through `toInt`, where a saturated operation is the exact one
followed by `Count.clamp`.
-/

namespace CacheActivity

/-- A signed 64-bit integer. -/
structure Count where
  toInt : Int
  least_le : -9223372036854775808 ≤ toInt
  le_greatest : toInt ≤ 9223372036854775807

namespace Count

theorem ext {a b : Count} (h : a.toInt = b.toInt) : a = b := by
  cases a; cases b; cases h; rfl

theorem ext_iff {a b : Count} : a = b ↔ a.toInt = b.toInt := ⟨fun h => h ▸ rfl, ext⟩

instance : DecidableEq Count := fun _ _ => decidable_of_iff _ ext_iff.symm

/-- The smallest count, `-2 ^ 63`. -/
def least : Int := -9223372036854775808

/-- The largest count, one less than `2 ^ 63`. -/
def greatest : Int := 9223372036854775807

/-- The nearest integer that is a count. -/
def clamp (z : Int) : Int := max least (min z greatest)

theorem least_le_clamp (z : Int) : least ≤ clamp z := by unfold clamp; omega

theorem clamp_le_greatest (z : Int) : clamp z ≤ greatest := by
  unfold clamp least greatest; omega

def ofInt (z : Int) : Count := ⟨clamp z, least_le_clamp z, clamp_le_greatest z⟩

def zero : Count := ofInt 0

instance : Inhabited Count := ⟨zero⟩

/-- The saturated sum. -/
def add (a b : Count) : Count := ofInt (a.toInt + b.toInt)

/-- The exact sum, if it is a count. -/
def add? (a b : Count) : Option Count :=
  let sum := a.toInt + b.toInt
  if h : least ≤ sum ∧ sum ≤ greatest then some ⟨sum, h.1, h.2⟩ else none

/-- The saturated difference. -/
def sub (a b : Count) : Count := ofInt (a.toInt - b.toInt)

/-- The saturated sum from left to right. -/
def sum (cs : List Count) : Count := cs.foldl add zero

def text (a : Count) : String := toString a.toInt

@[simp] theorem toInt_ofInt (z : Int) : (ofInt z).toInt = clamp z := rfl

@[simp] theorem toInt_zero : zero.toInt = 0 := rfl

@[simp] theorem toInt_add (a b : Count) : (a.add b).toInt = clamp (a.toInt + b.toInt) := rfl

@[simp] theorem toInt_sub (a b : Count) : (a.sub b).toInt = clamp (a.toInt - b.toInt) := rfl

theorem clamp_of_mem {z : Int} (h₁ : least ≤ z) (h₂ : z ≤ greatest) : clamp z = z := by
  unfold clamp; omega

@[simp] theorem clamp_toInt (a : Count) : clamp a.toInt = a.toInt :=
  clamp_of_mem a.least_le a.le_greatest

@[simp] theorem ofInt_toInt (a : Count) : ofInt a.toInt = a := ext (clamp_toInt a)

/-- An exact sum is the saturated one. -/
theorem add?_eq_some_iff {a b c : Count} :
    a.add? b = some c ↔ a.toInt + b.toInt = c.toInt := by
  have hl : least ≤ c.toInt := c.least_le
  have hg : c.toInt ≤ greatest := c.le_greatest
  unfold add?
  dsimp only
  split
  · simp [ext_iff]
  · next h => simp; omega

@[simp] theorem add_zero (a : Count) : a.add zero = a := by simp [add]

@[simp] theorem zero_add (a : Count) : zero.add a = a := by simp [add]

@[simp] theorem sum_nil : sum [] = zero := rfl

theorem sum_concat (cs : List Count) (c : Count) : sum (cs ++ [c]) = (sum cs).add c := by
  simp [sum, List.foldl_append]

end Count

end CacheActivity
