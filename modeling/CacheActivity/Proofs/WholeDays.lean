import CacheActivity.Proofs.WindowParts

/-!
# Windows and their days

A window can be looked at in three ways: as the instants between its bounds, as the dates between
its ends, and as a number of days. They fit together (`windows_are_whole_days`): an instant is
between the bounds just where its date is in the window, and the window of the most recent days has
as many dates as it was asked for.
-/

namespace CacheActivity.Calendar

variable {a b date today : Date} {w : Window} {n : Int} {t : Nat}

/-- Dates are in the order of their years, then of their months, then of their days. -/
theorem Date.lt_iff : a < b ↔ a.year < b.year ∨
    a.year = b.year ∧ (a.month < b.month ∨ a.month = b.month ∧ a.day < b.day) := by
  have hday : a.year = b.year → a.month = b.month → (a < b ↔ a.day < b.day) := fun hy hm => by
    rw [Date.lt_def, dayNumber, dayNumber, hy, hm]
    omega
  rcases Int.lt_trichotomy a.year b.year with hy | hy | hy
  · exact iff_of_true (dayNumber_lt_of_year_lt hy) (.inl hy)
  · rcases Nat.lt_trichotomy a.month b.month with hm | hm | hm
    · exact iff_of_true (dayNumber_lt_of_month_lt hy hm) (.inr ⟨hy, .inl hm⟩)
    · rw [hday hy hm]
      omega
    · have hlt := dayNumber_lt_of_month_lt hy.symm hm
      refine iff_of_false (Int.not_lt.2 (Int.le_of_lt hlt)) ?_
      omega
  · have hlt := dayNumber_lt_of_year_lt hy
    refine iff_of_false (Int.not_lt.2 (Int.le_of_lt hlt)) ?_
    omega

namespace Window

theorem start_le_iff : w.start.Le ⟨date, t⟩ ↔ w.first ≤ date := by
  simp only [Instant.Le, start, Date.lt_def, Date.le_def]
  omega

/-- All times of the last date are before its end. -/
theorem le_finish_iff (ht : t < Instant.perDay) :
    Instant.Le ⟨date, t⟩ w.finish ↔ date ≤ w.last := by
  simp only [Instant.Le, finish, Date.lt_def, Date.le_def]
  omega

theorem ofDates_eq_ok_iff : ofDates a b = .ok w ↔ w.first = a ∧ w.last = b := by
  unfold ofDates
  constructor
  · intro h
    split at h
    · cases h
      exact ⟨rfl, rfl⟩
    · cases h
  · rintro ⟨rfl, rfl⟩
    exact ofDates_eq_ok w.ordered

theorem ofDates_eq_error_iff {f : Fault} : ofDates a b = .error f ↔
    b < a ∧ f = .invalid "date_range" "From date must be before or equal to to date" := by
  unfold ofDates
  split
  · rename_i h
    exact iff_of_false (by rintro ⟨⟩) fun h' => Int.not_lt.2 h h'.1
  · rename_i h
    rw [Except.error.injEq, eq_comm, iff_and_self]
    exact fun _ => Date.not_le.1 h

/-- Between the ends of a window the calendar has no gap. -/
theorem length_days (w : Window) : (w.days.length : Int) = w.span + 1 := by
  have hordered := w.ordered
  rw [Date.le_def] at hordered
  have hfound : w.days.length = (List.range (w.span.toNat + 1)).length := by
    refine List.filterMap_length_eq_length.2 fun n hn => ?_
    have hlast : w.first.dayNumber + n ≤ w.last.dayNumber := by
      rw [List.mem_range, span] at hn
      omega
    obtain ⟨d, hd⟩ := Date.exists_dayNumber_eq (Int.le_add_of_nonneg_right (Int.natCast_nonneg n))
      hlast
    rw [Date.ofDayNumber?_eq_some_iff.2 hd]
    rfl
  rw [hfound, List.length_range, span]
  omega

theorem lastDays?_eq_some_iff :
    lastDays? today n = some w ↔ w.last = today ∧ w.span + 1 = max n 1 := by
  have hfirst : ∀ first, today.minusDays? (max n 1 - 1) = some first ↔
      first.dayNumber = today.dayNumber - (max n 1 - 1) := fun _ => Date.ofDayNumber?_eq_some_iff
  unfold lastDays?
  constructor
  · intro h
    split at h
    · rename_i first hminus
      split at h
      · cases h
        have := (hfirst first).1 hminus
        exact ⟨rfl, by simp only [span]; omega⟩
      · cases h
    · cases h
  · rintro ⟨rfl, hspan⟩
    have hminus := (hfirst w.first).2 (by rw [span] at hspan; omega)
    rw [hminus]
    exact dif_pos w.ordered

/-- There is a window of the most recent days just where it has a date to start on. -/
theorem exists_lastDays?_iff : (∃ w, lastDays? today n = some w) ↔
    ∃ first : Date, first.dayNumber + max n 1 = today.dayNumber + 1 := by
  simp only [lastDays?_eq_some_iff]
  constructor
  · rintro ⟨w, rfl, hspan⟩
    exact ⟨w.first, by rw [span] at hspan; omega⟩
  · rintro ⟨first, hfirst⟩
    have hordered : first ≤ today := Date.le_def.2 (by omega)
    exact ⟨⟨first, today, hordered⟩, rfl, by simp only [span]; omega⟩

/-- Two dates that are not in order make a fault, and all others a window. The instants between the
bounds of a window are those of its dates. The window of the most recent days, wherever it has a
date to start on, ends today and has as many dates as it was asked for, but one at least. -/
theorem windows_are_whole_days :
    (∀ a b : Date, (∀ w, ofDates a b = .ok w ↔ w.first = a ∧ w.last = b) ∧
      (∀ f, ofDates a b = .error f ↔
        b < a ∧ f = .invalid "date_range" "From date must be before or equal to to date") ∧
      (b < a ↔ b.year < a.year ∨
        b.year = a.year ∧ (b.month < a.month ∨ b.month = a.month ∧ b.day < a.day))) ∧
    (∀ w : Window, w.start.Le w.finish ∧ ∀ date t, t < Instant.perDay →
      (w.start.Le ⟨date, t⟩ ∧ Instant.Le ⟨date, t⟩ w.finish ↔ w.Contains date)) ∧
    ∀ (today : Date) (n : Int),
      (∀ w, lastDays? today n = some w → w.last = today ∧ w.Contains today ∧
        ∃ dates : List Date, dates.Nodup ∧ (∀ date, date ∈ dates ↔ w.Contains date) ∧
          (dates.length : Int) = max n 1) ∧
      ((∃ w, lastDays? today n = some w) ↔
        ∃ first : Date, first.dayNumber + max n 1 = today.dayNumber + 1) := by
  refine ⟨fun a b => ⟨fun w => ofDates_eq_ok_iff, fun f => ofDates_eq_error_iff, Date.lt_iff⟩,
    fun w => ⟨start_le_iff.2 w.ordered, fun date t ht => ?_⟩,
    fun today n => ⟨fun w hw => ?_, exists_lastDays?_iff⟩⟩
  · rw [start_le_iff, le_finish_iff ht]
    rfl
  · obtain ⟨rfl, hspan⟩ := lastDays?_eq_some_iff.1 hw
    have hdistinct : w.days.Nodup := w.pairwise_days.imp fun h he =>
      Int.ne_of_lt h (congrArg Date.dayNumber he)
    exact ⟨rfl, ⟨w.ordered, Date.le_refl _⟩, w.days, hdistinct, fun _ => mem_days,
      w.length_days.trans hspan⟩

/-- The first seven days of May. -/
def weekOfMay : Window :=
  ⟨Capture.firstOfMay, { Capture.firstOfMay with day := 7, day_mem := by decide },
    Int.le_of_lt (Date.lt_iff.2 (.inr ⟨rfl, .inr ⟨rfl, Nat.one_lt_succ_succ 5⟩⟩))⟩

/-- The last millisecond of the last day is in the week, and the week is the last seven days. -/
theorem windows_are_whole_days_of_week :
    ofDates weekOfMay.last weekOfMay.first =
      .error (.invalid "date_range" "From date must be before or equal to to date") ∧
    Instant.Le ⟨weekOfMay.last, 86399999⟩ weekOfMay.finish ∧
    ∃ (w : Window) (dates : List Date), lastDays? weekOfMay.last 7 = some w ∧
      w.last = weekOfMay.last ∧ (∀ date, date ∈ dates ↔ w.Contains date) ∧ dates.length = 7 := by
  obtain ⟨hdates, hinstants, hlast⟩ := windows_are_whole_days
  have hreversed := ((hdates weekOfMay.last weekOfMay.first).2.1 _).2 ⟨by decide, rfl⟩
  have hinside := ((hinstants weekOfMay).2 weekOfMay.last 86399999 (by decide)).2
    ⟨weekOfMay.ordered, Date.le_refl _⟩
  obtain ⟨w, hw⟩ := (hlast weekOfMay.last 7).2.2 ⟨weekOfMay.first, rfl⟩
  obtain ⟨hend, -, dates, -, hmem, hlength⟩ := (hlast weekOfMay.last 7).1 w hw
  exact ⟨hreversed, hinside.2, w, dates, hw, hend, hmem, Int.ofNat_inj.1 hlength⟩

end Window

end CacheActivity.Calendar
