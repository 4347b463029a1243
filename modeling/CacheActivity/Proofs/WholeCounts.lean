import CacheActivity.Binary64.Decimal
import CacheActivity.Proofs.CompactTexts
import CacheActivity.Proofs.TrimmedTexts
import CacheActivity.Usage.Coercion
import Mathlib.Algebra.Ring.Int.Defs
import Mathlib.Algebra.Ring.Nat

/-!
# Counts that are given as integers

An integer of 64 bits, signed or not, is taken for the nearest count, as a number and as a text
(`count_of_whole`). Integers beyond the range of counts go through a double, and rounding does no
harm there: it never goes below a power of two (`le_truncate_nearest`), and the range ends just
below one.
-/

namespace CacheActivity.Binary64

section Rounding

variable {n k : Nat}

theorem le_roundHalfEven (num den : Nat) : num / den ≤ roundHalfEven num den := by
  unfold roundHalfEven
  simp only
  split
  · exact Nat.le_refl _
  · split <;> omega

theorem le_log2_of_full (h : leastFull ≤ n) : n ≠ 0 ∧ 52 ≤ n.log2 := by
  have hne : n ≠ 0 := Nat.ne_of_gt (Nat.lt_of_lt_of_le (by decide) h)
  exact ⟨hne, (Nat.le_log2 hne).2 h⟩

/-- The grid of an integer with 53 binary digits or more. -/
theorem gridExponent_of_full (h : leastFull ≤ n) : gridExponent n 1 = (n.log2 - 52 : Nat) := by
  obtain ⟨hne, hlog⟩ := le_log2_of_full h
  have hgrid : leastFull * 2 ^ (n.log2 - 52) ≤ n := by
    calc leastFull * 2 ^ (n.log2 - 52) = 2 ^ (52 + (n.log2 - 52)) := (Nat.pow_add 2 52 _).symm
      _ = 2 ^ n.log2 := by rw [Nat.add_sub_cancel' hlog]
      _ ≤ n := Nat.log2_self_le hne
  have hexponent : (n.log2 : Int) - Nat.log2 1 - 52 = (n.log2 - 52 : Nat) := by
    rw [show Nat.log2 1 = 0 from rfl]
    omega
  have hzero : (-((n.log2 - 52 : Nat) : Int)).toNat = 0 := by omega
  have hleast : minExponent ≤ ((n.log2 - 52 : Nat) : Int) :=
    Int.le_trans (by decide) (Int.natCast_nonneg _)
  unfold gridExponent
  simp only [hexponent, hzero, Int.toNat_natCast, twoTo, Nat.pow_eq, Nat.pow_zero, Nat.mul_one,
    Nat.one_mul]
  rw [if_neg (Nat.not_lt.2 hgrid)]
  exact Int.max_eq_right hleast

/-- The double nearest to such an integer is an integer too, and no smaller than the power of two
below it. -/
theorem exists_nearest (negative : Bool) (h : leastFull ≤ n) :
    ∃ m e : Nat, nearest negative n 1 = ⟨negative, m, e⟩ ∧ 2 ^ n.log2 ≤ m * 2 ^ e ∧
      e ≤ n.log2 - 51 := by
  obtain ⟨hne, hlog⟩ := le_log2_of_full h
  let e := n.log2 - 52
  have hpower : 2 ^ n.log2 = leastFull * 2 ^ e := by
    rw [← Nat.add_sub_cancel' hlog, Nat.pow_add]
    rfl
  have hzero : (-(e : Int)).toNat = 0 := by omega
  have hm : leastFull ≤ roundHalfEven n (2 ^ e) := by
    refine Nat.le_trans ?_ (le_roundHalfEven _ _)
    rw [Nat.le_div_iff_mul_le (Nat.two_pow_pos e), ← hpower]
    exact Nat.log2_self_le hne
  have hnearest : nearest negative n 1 =
      if roundHalfEven n (2 ^ e) = 2 * leastFull then ⟨negative, leastFull, ((e + 1 : Nat) : Int)⟩
      else ⟨negative, roundHalfEven n (2 ^ e), e⟩ := by
    unfold nearest
    rw [if_neg hne, gridExponent_of_full h]
    simp only [hzero, Int.toNat_natCast, twoTo, Nat.pow_eq, Nat.pow_zero, Nat.mul_one,
      Nat.one_mul, Int.natCast_add, Int.natCast_one, e]
  rw [hnearest, hpower]
  split
  · exact ⟨leastFull, e + 1, rfl, Nat.mul_le_mul_left _ (Nat.pow_le_pow_right (by decide)
      (Nat.le_succ e)), by omega⟩
  · exact ⟨_, e, rfl, Nat.mul_le_mul_right _ hm, by omega⟩

theorem truncate_of_grid (m e : Nat) : truncate ⟨false, m, e⟩ = (m * 2 ^ e : Nat) := by
  have hzero : (-(e : Int)).toNat = 0 := by omega
  simp only [truncate, num, den, hzero, Int.toNat_natCast, twoTo, Nat.pow_eq, Nat.pow_zero,
    Nat.div_one, Bool.false_eq_true, if_false]

/-- Rounding an integer does not go below a power of two. -/
theorem le_truncate_nearest (hk : 52 ≤ k) (h : 2 ^ k ≤ n) :
    ((2 ^ k : Nat) : Int) ≤ (nearest false n 1).truncate := by
  have hfull : leastFull ≤ n := Nat.le_trans (Nat.pow_le_pow_right Nat.two_pos hk) h
  obtain ⟨hne, -⟩ := le_log2_of_full hfull
  obtain ⟨m, e, hnearest, hpower, -⟩ := exists_nearest false hfull
  rw [hnearest, truncate_of_grid, Int.ofNat_le]
  calc 2 ^ k ≤ 2 ^ n.log2 := Nat.pow_le_pow_right (by decide) ((Nat.le_log2 hne).2 h)
    _ ≤ m * 2 ^ e := hpower

theorem isFinite_nearest (negative : Bool) (h : leastFull ≤ n) (hn : n.log2 ≤ 1022) :
    (nearest negative n 1).IsFinite := by
  obtain ⟨m, e, hnearest, -, he⟩ := exists_nearest negative h
  rw [hnearest]
  show (e : Int) ≤ 971
  omega

/-- An integer as a decimal numeral goes to its nearest double. -/
theorem ofDecimal?_of_full (negative : Bool) (h : leastFull ≤ n) (hn : n < 2 ^ 64) :
    ofDecimal? negative ⟨n, 0⟩ = some (nearest negative n 1) := by
  obtain ⟨hne, -⟩ := le_log2_of_full h
  have hlength : (Nat.toDigits 10 n).length ≤ 20 :=
    (Nat.length_toDigits_le_iff (by decide) (by decide)).2 (Nat.lt_trans hn (by decide))
  have hlog : n.log2 < 64 := (Nat.log2_lt hne).2 hn
  have hfinite : (nearest negative n 1).IsFinite := isFinite_nearest negative h (by omega)
  have hlow : ¬(n = 0 ∨ Decimal.leading ⟨n, 0⟩ < -330) := by
    simp only [Decimal.leading, Decimal.text]
    omega
  have hhigh : ¬400 < Decimal.leading ⟨n, 0⟩ := by
    simp only [Decimal.leading, Decimal.text]
    omega
  have hdigits : n * tenTo (0 : Int).toNat = n := Nat.mul_one n
  have hscale : tenTo (-(0 : Int)).toNat = 1 := rfl
  unfold ofDecimal?
  rw [if_neg hlow, if_neg hhigh]
  simp only [hdigits, hscale, if_pos hfinite]

end Rounding

end CacheActivity.Binary64

namespace CacheActivity.Text

/-! ## Texts of integers -/

/-- The signs that may stand in front of the digits of an integer. -/
def signsOf (z : Int) : List (List Char) := if z < 0 then [['-']] else [[], ['+']]

/-- What stands around the decimal digits of an integer in a text: a sign, zeros behind it, and
white space at both ends. -/
structure WholeText (z : Int) where
  before : List Char
  sign : List Char
  zeros : Nat
  after : List Char
  spaces_before : ∀ c ∈ before, isSpace c = true
  spaces_after : ∀ c ∈ after, isSpace c = true
  sign_mem : sign ∈ signsOf z

namespace WholeText

variable {z : Int}

def digits (x : WholeText z) : List Char :=
  List.replicate x.zeros '0' ++ Nat.toDigits 10 z.natAbs

def numeral (x : WholeText z) : List Char := x.sign ++ x.digits

def text (x : WholeText z) : String := String.ofList (x.before ++ x.numeral ++ x.after)

theorem isDigit_of_mem_digits (x : WholeText z) : ∀ d ∈ x.digits, d.isDigit = true :=
  Json.isDigit_of_mem_zeros

theorem digits_ne_nil (x : WholeText z) : x.digits ≠ [] :=
  List.append_ne_nil_of_right_ne_nil _ Nat.toDigits_ne_nil

theorem digitsValue_digits (x : WholeText z) : digitsValue x.digits = z.natAbs :=
  Json.digitsValue_zeros _ _

theorem splitSign_numeral (x : WholeText z) :
    splitSign x.numeral = (decide (z < 0), x.digits) := by
  have hdigits : splitSign x.digits = (false, x.digits) := by
    have hall := x.isDigit_of_mem_digits
    unfold splitSign
    split
    · rename_i hplus
      exact absurd (hall '+' (hplus ▸ List.mem_cons_self)) (by decide)
    · rename_i hminus
      exact absurd (hall '-' (hminus ▸ List.mem_cons_self)) (by decide)
    · rfl
  have hsign := x.sign_mem
  unfold signsOf at hsign
  split at hsign
  · rename_i hz
    rw [numeral, List.mem_singleton.1 hsign, decide_eq_true hz]
    rfl
  · rename_i hz
    rw [numeral, decide_eq_false hz]
    rcases List.mem_pair.1 hsign with hsign | hsign <;> rw [hsign]
    · exact hdigits
    · rfl

theorem integer?_numeral (x : WholeText z) : integer? x.numeral = some z := by
  have hall : x.digits.all Char.isDigit = true := List.all_eq_true.2 x.isDigit_of_mem_digits
  have hvalue : (if z < 0 then -(z.natAbs : Int) else z.natAbs) = z := by split <;> omega
  simp only [integer?, x.splitSign_numeral, hall, x.digitsValue_digits, decide_eq_true_eq, hvalue]
  simp [x.digits_ne_nil]

theorem decimal?_numeral (x : WholeText z) :
    Numeral.decimal? x.numeral = some (decide (z < 0), ⟨z.natAbs, 0⟩) := by
  have hwhole : x.digits.takeWhile Char.isDigit = x.digits :=
    List.takeWhile_eq_self_iff.2 x.isDigit_of_mem_digits
  have hrest : x.digits.dropWhile Char.isDigit = [] :=
    List.dropWhile_eq_nil_iff.2 x.isDigit_of_mem_digits
  have hne : x.digits.isEmpty = false := by simp [x.digits_ne_nil]
  simp only [Numeral.decimal?, x.splitSign_numeral, hwhole, hrest, hne, Bool.false_and,
    Bool.false_eq_true, if_false, List.append_nil, x.digitsValue_digits, Numeral.power?]
  rfl

theorem not_isSpace_of_mem_numeral (x : WholeText z) : ∀ c ∈ x.numeral, isSpace c = false := by
  intro c hc
  rcases List.mem_append.1 hc with hc | hc
  · have hsign := x.sign_mem
    unfold signsOf at hsign
    split at hsign
    · rw [List.mem_singleton.1 hsign, List.mem_singleton] at hc
      rw [hc]
      decide
    · rcases List.mem_pair.1 hsign with hsign | hsign
      · rw [hsign] at hc
        cases hc
      · rw [hsign, List.mem_singleton] at hc
        rw [hc]
        decide
  · exact Json.not_isSpace_of_isDigit (x.isDigit_of_mem_digits c hc)

theorem trim_text (x : WholeText z) : trim x.text.toList = x.numeral := by
  rw [text, String.toList_ofList]
  exact trim_of_spaces x.spaces_before x.spaces_after x.not_isSpace_of_mem_numeral

end WholeText

end CacheActivity.Text

namespace CacheActivity.Usage

open Json (Value Members)
open Text (WholeText)

section Counts

variable {z : Int} {s : String}

/-- The double next to an integer above the counts is above them too. -/
theorem toInt_countOfWhole (hleast : Count.least ≤ z) :
    (countOfWhole z).toInt = min z Count.greatest := by
  unfold countOfWhole
  split
  · rename_i hz
    rw [Count.toInt_ofInt, Count.clamp_of_mem hz.1 hz.2, Int.min_eq_left hz.2]
  · rename_i hz
    have hgreatest : Count.greatest + 1 ≤ z := by omega
    have hpower : 2 ^ 63 ≤ z.natAbs := by
      unfold Count.greatest at hgreatest
      omega
    have hdouble : Binary64.ofInt z = .nearest false z.natAbs 1 := by
      rw [Binary64.ofInt, decide_eq_false (by unfold Count.greatest at hgreatest; omega)]
    have hrounded : ((2 ^ 63 : Nat) : Int) ≤ (Binary64.ofInt z).truncate := by
      rw [hdouble]
      exact Binary64.le_truncate_nearest (by decide) hpower
    rw [countOfDouble, Count.toInt_ofInt, Int.min_eq_right (by omega)]
    unfold Count.clamp Count.least Count.greatest
    omega

theorem countOfText_text (x : WholeText z) (hleast : Count.least ≤ z) (hz : z < 2 ^ 64) :
    countOfText x.text = countOfWhole z := by
  unfold countOfText countOfWhole
  simp only [x.trim_text, x.integer?_numeral]
  by_cases hcount : Count.least ≤ z ∧ z ≤ Count.greatest
  · have hfilter : (some z).filter (fun z => Count.least ≤ z && z ≤ Count.greatest) = some z := by
      simp [hcount.1, hcount.2]
    rw [hfilter, if_pos hcount]
  · have hfilter : (some z).filter (fun z => Count.least ≤ z && z ≤ Count.greatest) = none := by
      simp only [Option.filter_some, Bool.and_eq_true, decide_eq_true_eq, if_neg hcount]
    have hfull : Binary64.leastFull ≤ z.natAbs := by
      unfold Count.least at hleast hcount
      unfold Count.greatest at hcount
      unfold Binary64.leastFull
      omega
    have hdouble : Numeral.double? x.numeral = some (.ofInt z) := by
      rw [Numeral.double?, x.decimal?_numeral, Option.bind_some,
        Binary64.ofDecimal?_of_full _ hfull (by unfold Count.least at hleast; omega)]
      rfl
    rw [hfilter, if_neg hcount]
    simp only [hdouble]

end Counts

/-- The counts of a row by the names of their members. -/
def Row.counts : List (String × (Row → Count)) :=
  [("total_rows", Row.totalRows), ("cache_hit_true_rows", Row.cacheHits),
    ("cached_completion_tokens", Row.cachedTokens),
    ("generated_completion_tokens", Row.generatedTokens)]

theorem Row.count_ofMembers {key : String} {count : Row → Count} (h : (key, count) ∈ Row.counts)
    {ms : Members} {v : Value} (hv : ms.get? key = some v) :
    count (Row.ofMembers ms) = countOf v := by
  simp only [Row.counts, List.mem_cons, Prod.mk.injEq, List.not_mem_nil, or_false] at h
  rcases h with ⟨rfl, rfl⟩ | ⟨rfl, rfl⟩ | ⟨rfl, rfl⟩ | ⟨rfl, rfl⟩ <;> simp [Row.ofMembers, hv]

/-- That a value is an integer, as a number or as a text. -/
inductive IsWhole (z : Int) : Value → Prop
  | number : IsWhole z (.whole z)
  | text (x : WholeText z) : IsWhole z (.text x.text)

theorem countOf_of_isWhole {z : Int} {v : Value} (h : IsWhole z v) (hleast : Count.least ≤ z)
    (hz : z < 2 ^ 64) : (countOf v).toInt = min z Count.greatest := by
  cases h with
  | number => exact toInt_countOfWhole hleast
  | text x =>
    rw [countOf, countOfText_text x hleast hz]
    exact toInt_countOfWhole hleast

/-- An integer of 64 bits, signed or not, is the nearest count wherever a row has one. It can be
given as a number, which is how its decimal text is read, or as a text with white space around it,
zeros in front of its digits and a plus where it is not negative, and that makes no difference. So
larger integers never give smaller counts. -/
theorem count_of_whole {z : Int} (hleast : -2 ^ 63 ≤ z) (hz : z < 2 ^ 64) :
    Json.read (Value.whole z).compact = .ok (.whole z) ∧
    (∀ key count, (key, count) ∈ Row.counts → ∀ (ms : Members) (v : Value),
      ms.get? key = some v → IsWhole z v →
      (count (Row.ofMembers ms)).toInt = min z (2 ^ 63 - 1)) ∧
    (∀ x : WholeText z, countOf (.text x.text) = countOf (.whole z)) ∧
    ∀ (z' : Int) (v v' : Value), z ≤ z' → z' < 2 ^ 64 → IsWhole z v → IsWhole z' v' →
      (countOf v).toInt ≤ (countOf v').toInt := by
  have hcount : Count.least ≤ z := by unfold Count.least; omega
  refine ⟨Json.read_compact (.whole ?_ ?_), fun key count hkey ms v hv h => ?_,
    fun x => countOfText_text x hcount hz, fun z' v v' hle hz' h h' => ?_⟩
  · unfold Json.maxNegative; omega
  · unfold Json.maxSignificand; omega
  · rw [Row.count_ofMembers hkey hv]
    exact countOf_of_isWhole h hcount hz
  · rw [countOf_of_isWhole h hcount hz, countOf_of_isWhole h' (Int.le_trans hcount hle) hz']
    omega

/-- The largest integer of 64 bits, with a plus, zeros and white space. -/
def paddedLargest : WholeText 18446744073709551615 where
  before := ['\t', ' ']
  sign := ['+']
  zeros := 2
  after := ['\n']
  spaces_before := List.forall_mem_cons.2 ⟨rfl, List.forall_mem_singleton.2 rfl⟩
  spaces_after := List.forall_mem_singleton.2 rfl
  sign_mem := by decide

theorem count_of_whole_of_paddedLargest :
    paddedLargest.text = "\t +0018446744073709551615\n" ∧
    (Row.ofMembers [("total_rows", .text paddedLargest.text)]).totalRows.toInt =
      9223372036854775807 ∧
    countOf (.text paddedLargest.text) = countOf (.whole 18446744073709551615) ∧
    (countOf (.whole 9007199254740993)).toInt = 9007199254740993 ∧
    (countOf (.whole 9007199254740993)).toInt ≤ (countOf (.text paddedLargest.text)).toInt := by
  have htext : paddedLargest.text = "\t +0018446744073709551615\n" := by decide
  obtain ⟨-, hmembers, hquoted, -⟩ :=
    count_of_whole (z := 18446744073709551615) (by decide) (by decide)
  obtain ⟨-, hsmaller, -, hmono⟩ :=
    count_of_whole (z := 9007199254740993) (by decide) (by decide)
  have hrow := hmembers "total_rows" Row.totalRows (by simp [Row.counts])
    [("total_rows", .text paddedLargest.text)] _ rfl (.text paddedLargest)
  have hodd := hsmaller "total_rows" Row.totalRows (by simp [Row.counts])
    [("total_rows", .whole 9007199254740993)] _ rfl .number
  exact ⟨htext, hrow, hquoted _, hodd,
    hmono 18446744073709551615 _ _ (by decide) (by decide) .number (.text _)⟩

end CacheActivity.Usage
