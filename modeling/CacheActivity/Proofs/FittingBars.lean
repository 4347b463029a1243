import CacheActivity.Display.Bars
import Mathlib.Data.List.Forall2
import Mathlib.Data.List.MinMax

/-!
# Bars that fit

The names in front of the bars of a series fill one column, which is as wide as the longest of them
up to a limit. A name is cut only where the column has that limit for its width
(`nameWidth_eq_of_lt`), so there is always room for the dots. Of the two segments of a bar, the
second one gets what the first one leaves of the width. So they fit whatever values are scaled to,
and a point with more hits than the largest total has is no exception (`bars_fit`).
-/

namespace CacheActivity.Display

open Usage (SeriesPoint Series)

variable {s : Series} {p : SeriesPoint}

theorem nameWidth_le (s : Series) : nameWidth s ≤ nameLimit := Nat.min_le_right _ _

theorem min_length_le_nameWidth (h : p ∈ s) :
    min p.name.toList.length nameLimit ≤ nameWidth s := by
  have hlength : p.name.toList.length ∈ s.map fun p => p.name.toList.length :=
    List.mem_map.2 ⟨p, h, rfl⟩
  exact min_le_min_right nameLimit (List.le_max_of_le' 0 hlength (Nat.le_refl _))

theorem length_le_nameWidth (h : p ∈ s) (hfits : p.name.toList.length ≤ nameLimit) :
    p.name.toList.length ≤ nameWidth s := by
  have hmin := min_length_le_nameWidth h
  rwa [Nat.min_eq_left hfits] at hmin

theorem nameWidth_eq_of_lt (h : p ∈ s) (hlong : nameLimit < p.name.toList.length) :
    nameWidth s = nameLimit := by
  have hmin := min_length_le_nameWidth h
  rw [Nat.min_eq_right (Nat.le_of_lt hlong)] at hmin
  exact Nat.le_antisymm (nameWidth_le s) hmin

/-- The name of a point in the column of its series. -/
def nameColumn (s : Series) (p : SeriesPoint) : Line :=
  padTo (nameWidth s) (truncate (nameWidth s) p.name.toList)

theorem nameColumn_of_le (h : p ∈ s) (hfits : p.name.toList.length ≤ nameLimit) :
    ∃ n, nameColumn s p = p.name.toList ++ List.replicate n ' ' := by
  rw [nameColumn, truncate, if_pos (length_le_nameWidth h hfits)]
  exact ⟨_, rfl⟩

theorem nameColumn_of_lt (h : p ∈ s) (hlong : nameLimit < p.name.toList.length) :
    nameColumn s p = p.name.toList.take 21 ++ ['.', '.', '.'] := by
  have hcut : (p.name.toList.take 21 ++ ['.', '.', '.']).length = nameLimit := by
    rw [List.length_append, List.length_take_of_le (Nat.le_trans (by decide) hlong)]
    rfl
  rw [nameColumn, nameWidth_eq_of_lt h hlong, truncate, if_neg (Nat.not_le.2 hlong)]
  show padTo nameLimit (p.name.toList.take 21 ++ ['.', '.', '.']) = _
  rw [padTo, hcut, Nat.sub_self, List.replicate_zero, List.append_nil]

theorem length_nameColumn (h : p ∈ s) : (nameColumn s p).length = nameWidth s := by
  refine length_padTo ?_
  by_cases hfits : p.name.toList.length ≤ nameLimit
  · have hle := length_le_nameWidth h hfits
    rwa [truncate, if_pos hle]
  · refine length_truncate_le ?_ _
    rw [nameWidth_eq_of_lt h (Nat.not_le.1 hfits)]
    decide

theorem greatestTotal_nonpos (h : ∀ q ∈ s, q.totalRequests.toInt ≤ 0) : greatestTotal s ≤ 0 := by
  induction s with
  | nil => exact Int.le_refl 0
  | cons q s ih =>
    obtain ⟨hq, hs⟩ := List.forall_mem_cons.1 h
    exact Int.max_le.2 ⟨hq, ih hs⟩

section Segments

variable {scale : Scale} {greatest : Int} {width : Nat}

theorem hits_eq_zero (h : p.cacheHits.toInt ≤ 0 ∨ greatest ≤ 0) :
    (barWidths scale p greatest width).1 = 0 := by
  rw [barWidths, scaled, if_pos h]
  exact Nat.zero_min width

theorem others_eq_zero (h : p.apiRequests.toInt ≤ 0 ∨ greatest ≤ 0) :
    (barWidths scale p greatest width).2 = 0 := by
  rw [barWidths, scaled, scaled, if_pos h]
  exact Nat.zero_min _

end Segments

/-- What a line shows of a point among those of its series: the name in a column, the blocks of two
segments, and the counts that these stand for. -/
structure Bar.Shows (s : Series) (p : SeriesPoint) (b : Bar) (l : Line) : Prop where
  line_eq : l = b.name ++ ' ' :: List.replicate b.hits '█' ++ List.replicate b.others '█' ++
    ' ' :: grouped p.cacheHits.toInt ++ " / ".toList ++ grouped p.apiRequests.toInt
  name_length : b.name.length = nameWidth s
  name_whole : p.name.toList.length ≤ 24 → ∃ n, b.name = p.name.toList ++ List.replicate n ' '
  name_cut : 24 < p.name.toList.length → b.name = p.name.toList.take 21 ++ ['.', '.', '.']
  /-- What is left for the second segment is a difference, and not one below zero. -/
  hits_le : b.hits ≤ 40
  segments_le : b.hits + b.others ≤ 40
  no_hits : p.cacheHits.toInt ≤ 0 → b.hits = 0
  no_others : p.apiRequests.toInt ≤ 0 → b.others = 0
  no_totals : (∀ q ∈ s, q.totalRequests.toInt ≤ 0) → b.hits = 0 ∧ b.others = 0

theorem line_bar (scale : Scale) (greatest : Int) (width : Nat) (p : SeriesPoint) :
    let b := bar scale greatest width p
    b.line = b.name ++ ' ' :: List.replicate b.hits '█' ++ List.replicate b.others '█' ++
      ' ' :: grouped p.cacheHits.toInt ++ " / ".toList ++ grouped p.apiRequests.toInt := by
  simp [bar, Bar.line, rule]

theorem shows_bar (scale : Scale) (h : p ∈ s) :
    let b := bar scale (greatestTotal s) (nameWidth s) p
    b.Shows s p b.line where
  line_eq := line_bar scale (greatestTotal s) (nameWidth s) p
  name_length := length_nameColumn h
  name_whole := nameColumn_of_le h
  name_cut := nameColumn_of_lt h
  hits_le := Nat.min_le_right _ _
  segments_le := barWidths_le scale p (greatestTotal s) barWidth
  no_hits hp := hits_eq_zero (.inl hp)
  no_others hp := others_eq_zero (.inl hp)
  no_totals hs :=
    ⟨hits_eq_zero (.inr (greatestTotal_nonpos hs)), others_eq_zero (.inr (greatestTotal_nonpos hs))⟩

/-- A series is shown with a line for each of its points, in their order, and one more line that
says what the blocks mean. All names stand in a column of at most 24 characters, and no line has
more than 40 blocks, to whatever number of columns positive values are scaled. -/
theorem bars_fit (scale : Scale) (s : Series) :
    nameWidth s ≤ 24 ∧ ∃ ls, barLines scale s = ls ++ ["█ Cache hit   █ LLM API requests".toList] ∧
      List.Forall₂ (fun p l => ∃ b : Bar, b.Shows s p l) s ls := by
  refine ⟨nameWidth_le s, (bars scale s).map Bar.line, rfl, ?_⟩
  rw [bars, List.map_map, List.forall₂_map_right_iff, List.forall₂_same]
  exact fun p hp => ⟨_, shows_bar scale hp⟩

/-- Two points, one of them with more hits than the largest total has, since it lacks requests. -/
def overdrawn : Series :=
  [⟨"overdrawn requests of a type", .ofInt (-6), .ofInt 9, .zero, .zero⟩,
    ⟨"chat", .ofInt 1, .ofInt 1, .zero, .zero⟩]

example : barLines (fun value _ _ => 10 * value.toNat) overdrawn =
    ["overdrawn requests of... ".toList ++ rule '█' 40 ++ " 9 / -6".toList,
      "chat                     ".toList ++ rule '█' 20 ++ " 1 / 1".toList, legend] := by decide

end CacheActivity.Display
