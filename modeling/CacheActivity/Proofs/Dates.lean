import CacheActivity.Calendar.Date

/-!
# Counting days

Every year starts where the days of the year before end (`daysBeforeYear_succ`), and so does every
month within its year (`daysBeforeMonth_succ`). So the days of different months and years do not
overlap, and a date is known by its number (`dayNumber_inj`). Numbers between those of two dates
are numbers of dates too (`exists_dayNumber_eq`), and `ofDayNumber?` finds them.
-/

namespace CacheActivity.Calendar

def yearLength (year : Int) : Nat := if isLeap year then 366 else 365

namespace Date

theorem daysBeforeMonth_succ (year : Int) {month : Nat} (h : 1 ≤ month) :
    daysBeforeMonth year (month + 1) = daysBeforeMonth year month + monthLength year month := by
  obtain ⟨m, rfl⟩ := Nat.exists_eq_add_of_le' h
  simp only [daysBeforeMonth, Nat.add_sub_cancel]
  rw [List.range_succ, List.foldl_append]
  rfl

theorem daysBeforeMonth_le (year : Int) {m n : Nat} (hm : 1 ≤ m) (h : m < n) :
    daysBeforeMonth year m + monthLength year m ≤ daysBeforeMonth year n := by
  induction h with
  | refl => exact Nat.le_of_eq (daysBeforeMonth_succ year hm).symm
  | @step n h ih =>
    rw [daysBeforeMonth_succ year (Nat.le_trans hm (Nat.le_of_succ_le h))]
    exact Nat.le_trans ih (Nat.le_add_right _ _)

theorem daysBeforeMonth_twelve (year : Int) :
    daysBeforeMonth year 12 + monthLength year 12 = yearLength year := by
  simp only [daysBeforeMonth, monthLength, yearLength, List.range_succ, List.range_zero]
  cases isLeap year <;> rfl

theorem daysBeforeYear_succ (year : Int) :
    daysBeforeYear (year + 1) = daysBeforeYear year + yearLength year := by
  simp only [daysBeforeYear, yearLength, isLeap, Bool.and_eq_true, Bool.or_eq_true,
    decide_eq_true_eq]
  split <;> omega

theorem daysBeforeYear_le {y z : Int} (h : y < z) :
    daysBeforeYear y + yearLength y ≤ daysBeforeYear z := by
  rw [← daysBeforeYear_succ]
  simp only [daysBeforeYear]
  omega

/-- The days of a date lie within its year. -/
theorem dayNumber_mem (d : Date) :
    daysBeforeYear d.year < d.dayNumber ∧
      d.dayNumber ≤ daysBeforeYear d.year + yearLength d.year := by
  have hlast : daysBeforeMonth d.year d.month + monthLength d.year d.month ≤ yearLength d.year := by
    rw [← daysBeforeMonth_twelve]
    rcases Nat.lt_or_eq_of_le d.month_mem.2 with h | h
    · exact Nat.le_trans (daysBeforeMonth_le d.year d.month_mem.1 h) (Nat.le_add_right _ _)
    · exact Nat.le_of_eq (by rw [h])
  have hday := d.day_mem
  unfold dayNumber
  omega

theorem dayNumber_lt_of_year_lt {a b : Date} (h : a.year < b.year) : a.dayNumber < b.dayNumber := by
  have ha := (dayNumber_mem a).2
  have hb := (dayNumber_mem b).1
  have hyears := daysBeforeYear_le h
  omega

theorem dayNumber_lt_of_month_lt {a b : Date} (hyear : a.year = b.year) (h : a.month < b.month) :
    a.dayNumber < b.dayNumber := by
  have hmonths := daysBeforeMonth_le b.year a.month_mem.1 h
  have ha := a.day_mem
  have hb := b.day_mem
  unfold dayNumber
  rw [hyear] at ha ⊢
  omega

/-- A date is known by its number. -/
theorem dayNumber_inj {a b : Date} : a.dayNumber = b.dayNumber ↔ a = b := by
  refine ⟨fun h => ?_, congrArg dayNumber⟩
  have hyear : a.year = b.year := by
    rcases Int.lt_trichotomy a.year b.year with hlt | heq | hlt
    · exact absurd h (Int.ne_of_lt (dayNumber_lt_of_year_lt hlt))
    · exact heq
    · exact absurd h (Int.ne_of_gt (dayNumber_lt_of_year_lt hlt))
  have hmonth : a.month = b.month := by
    rcases Nat.lt_trichotomy a.month b.month with hlt | heq | hlt
    · exact absurd h (Int.ne_of_lt (dayNumber_lt_of_month_lt hyear hlt))
    · exact heq
    · exact absurd h (Int.ne_of_gt (dayNumber_lt_of_month_lt hyear.symm hlt))
  have hday : a.day = b.day := by
    unfold dayNumber at h
    rw [hyear, hmonth] at h
    omega
  cases a
  cases b
  simp_all

theorem yearOfDayNumber_mem (n : Int) :
    daysBeforeYear (yearOfDayNumber n) < n ∧ n ≤ daysBeforeYear (yearOfDayNumber n + 1) := by
  have hlow : daysBeforeYear (n * 400 / 146097 + 1 - 1) < n := by
    simp only [daysBeforeYear]
    omega
  have hhigh : n ≤ daysBeforeYear (n * 400 / 146097 + 1 + 1 + 1) := by
    simp only [daysBeforeYear]
    omega
  unfold yearOfDayNumber
  dsimp only
  split
  · rename_i h
    rw [Int.sub_add_cancel]
    exact ⟨hlow, h⟩
  · rename_i h
    split
    · rename_i h'
      exact ⟨h', hhigh⟩
    · rename_i h'
      exact ⟨Int.not_le.1 h, Int.not_lt.1 h'⟩

theorem year_le_of_daysBeforeYear_lt {y z : Int}
    (h : daysBeforeYear y < daysBeforeYear (z + 1)) : y ≤ z := by
  rcases Int.lt_or_le z y with hlt | hle
  · have := daysBeforeYear_le hlt
    rw [daysBeforeYear_succ] at h
    omega
  · exact hle

theorem monthAndDay_mem (year : Int) (fuel month day : Nat) (hm : 1 ≤ month)
    (hfuel : month + fuel = 12) (hday : 1 ≤ day)
    (hle : daysBeforeMonth year month + day ≤ yearLength year) :
    let r := monthAndDay year fuel month day
    (1 ≤ r.1 ∧ r.1 ≤ 12) ∧ (1 ≤ r.2 ∧ r.2 ≤ monthLength year r.1) ∧
      daysBeforeMonth year r.1 + r.2 = daysBeforeMonth year month + day := by
  induction fuel generalizing month day with
  | zero =>
    have hlast := daysBeforeMonth_twelve year
    obtain rfl : month = 12 := hfuel
    exact ⟨⟨hm, Nat.le_refl _⟩, ⟨hday, by simp only [monthAndDay]; omega⟩, rfl⟩
  | succ fuel ih =>
    have hsucc := daysBeforeMonth_succ year hm
    rw [monthAndDay]
    split
    · rename_i h
      exact ⟨⟨hm, by omega⟩, ⟨hday, h⟩, rfl⟩
    · obtain ⟨h₁, h₂, hsum⟩ := ih (month + 1) (day - monthLength year month)
        (by omega) (by omega) (by omega) (by omega)
      exact ⟨h₁, h₂, by omega⟩

theorem exists_ofDayNumber? {n : Int}
    (h : minYear ≤ yearOfDayNumber n ∧ yearOfDayNumber n ≤ maxYear) :
    ∃ d, ofDayNumber? n = some d ∧ d.dayNumber = n := by
  obtain ⟨hlow, hhigh⟩ := yearOfDayNumber_mem n
  rw [daysBeforeYear_succ] at hhigh
  have hzero : daysBeforeMonth (yearOfDayNumber n) 1 = 0 := rfl
  obtain ⟨hmonth, hday, hsum⟩ := monthAndDay_mem (yearOfDayNumber n) 11 1
    (n - daysBeforeYear (yearOfDayNumber n)).toNat (Nat.le_refl 1) rfl (by omega) (by omega)
  refine ⟨⟨_, _, _, h, hmonth, hday⟩, dif_pos ⟨h, hmonth, hday⟩, ?_⟩
  simp only [dayNumber]
  omega

theorem year_mem_of_dayNumber_between {a b : Date} {n : Int} (ha : a.dayNumber ≤ n)
    (hb : n ≤ b.dayNumber) : minYear ≤ yearOfDayNumber n ∧ yearOfDayNumber n ≤ maxYear := by
  obtain ⟨hlow, hhigh⟩ := yearOfDayNumber_mem n
  have hyear : a.year ≤ yearOfDayNumber n :=
    year_le_of_daysBeforeYear_lt (by have := (dayNumber_mem a).1; omega)
  have hyear' : yearOfDayNumber n ≤ b.year := by
    refine year_le_of_daysBeforeYear_lt ?_
    rw [daysBeforeYear_succ]
    have := (dayNumber_mem b).2
    omega
  exact ⟨Int.le_trans a.year_mem.1 hyear, Int.le_trans hyear' b.year_mem.2⟩

theorem ofDayNumber?_eq_some_iff {n : Int} {d : Date} :
    ofDayNumber? n = some d ↔ d.dayNumber = n := by
  constructor
  · intro h
    have hyear : minYear ≤ yearOfDayNumber n ∧ yearOfDayNumber n ≤ maxYear := by
      unfold ofDayNumber? of? at h
      dsimp only at h
      split at h
      · rename_i hd
        exact hd.1
      · cases h
    obtain ⟨d', hd', hn⟩ := exists_ofDayNumber? hyear
    rw [hd'] at h
    exact Option.some.inj h ▸ hn
  · rintro rfl
    obtain ⟨d', hd', hn⟩ :=
      exists_ofDayNumber? (year_mem_of_dayNumber_between (Int.le_refl _) (Int.le_refl d.dayNumber))
    exact hd'.trans (congrArg some (dayNumber_inj.1 hn))

theorem exists_dayNumber_eq {a b : Date} {n : Int} (ha : a.dayNumber ≤ n)
    (hb : n ≤ b.dayNumber) : ∃ d : Date, d.dayNumber = n := by
  obtain ⟨d, -, hd⟩ := exists_ofDayNumber? (year_mem_of_dayNumber_between ha hb)
  exact ⟨d, hd⟩

end Date

end CacheActivity.Calendar
