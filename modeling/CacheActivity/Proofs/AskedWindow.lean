import CacheActivity.Command.Run
import CacheActivity.Proofs.DateSpellings
import CacheActivity.Proofs.WholeDays

/-!
# The window that is asked for

The words of a run can name the first and the last date of its window. A date that they do not name
is that of the settings' window, which ends today. So the dates come to a window, or to a fault that
says which text is no date or that the dates are the wrong way round (`Resolves`). But the settings'
window has to be there in any case: where it would start before the calendar does, the run breaks
off, even if both dates are named (`window_of_scope`).
-/

namespace CacheActivity.Command

open Calendar (Date Window)
open Capture (firstOfMay secondOfMay)

/-- That the settings' window goes from a date to today: as many days as they ask for, and today
alone if that is less than one. -/
def StartsOn (s : Settings) (today first : Date) : Prop :=
  if 1 ≤ s.rangeDays.toInt then first.dayNumber + s.rangeDays.toInt = today.dayNumber + 1
  else first = today

instance (s : Settings) (today first : Date) : Decidable (StartsOn s today first) :=
  inferInstanceAs (Decidable (if 1 ≤ s.rangeDays.toInt then _ = _ else _ = _))

/-- A date that is named by a text, or stands in for one. -/
inductive Asks (default : Date) : Option String → Date → Prop
  | text {t : String} {d : Date} : Date.parse t = .ok d → Asks default (some t) d
  | default : Asks default none default

/-- What the dates of a scope come to. The first date goes before the last one. -/
inductive Resolves (c : Scope) (first today : Date) : Except Fault Window → Prop
  | window {a b : Date} (h : a ≤ b) : Asks first c.since a → Asks today c.upTo b →
      Resolves c first today (.ok ⟨a, b, h⟩)
  | since {t form : String} : c.since = some t → Date.parse t = .error (.date t form) →
      Resolves c first today (.error (.date t form))
  | upTo {a : Date} {t form : String} : Asks first c.since a → c.upTo = some t →
      Date.parse t = .error (.date t form) → Resolves c first today (.error (.date t form))
  | reversed {a b : Date} : Asks first c.since a → Asks today c.upTo b → b < a →
      Resolves c first today
        (.error (.invalid "date_range" "From date must be before or equal to to date"))

variable {c : Scope} {s : Settings} {today first d : Date} {t? : Option String} {f : Fault}

theorem StartsOn.le (h : StartsOn s today first) : first ≤ today := by
  refine Date.le_def.2 ?_
  unfold StartsOn at h
  split at h
  · omega
  · exact Int.le_of_eq (congrArg _ h)

theorem startsOn_iff : StartsOn s today first ↔
    first.dayNumber + max s.rangeDays.toInt 1 = today.dayNumber + 1 := by
  unfold StartsOn
  split
  · omega
  · rw [← Date.dayNumber_inj]
    omega

theorem lastDays?_of_startsOn (h : StartsOn s today first) :
    Window.lastDays? today s.rangeDays.toInt = some ⟨first, today, h.le⟩ := by
  have hfirst := startsOn_iff.1 h
  refine Window.lastDays?_eq_some_iff.2 ⟨rfl, ?_⟩
  simp only [Window.span]
  omega

theorem lastDays?_eq_none (h : ∀ first, ¬StartsOn s today first) :
    Window.lastDays? today s.rangeDays.toInt = none := by
  rw [Option.eq_none_iff_forall_ne_some]
  intro w hw
  obtain ⟨first, hfirst⟩ := Window.exists_lastDays?_iff.1 ⟨w, hw⟩
  exact h first (startsOn_iff.2 hfirst)

theorem asks_of_dateOr (h : dateOr first t? = .ok d) : Asks first t? d := by
  cases t? with
  | none =>
    cases h
    exact .default
  | some t => exact .text h

theorem exists_text_of_dateOr (h : dateOr first t? = .error f) :
    ∃ t form, t? = some t ∧ f = .date t form ∧ Date.parse t = .error (.date t form) := by
  cases t? with
  | none => cases h
  | some t =>
    obtain ⟨form, -, rfl⟩ := Date.parse_eq_error h
    exact ⟨t, form, rfl, rfl, h⟩

theorem exists_resolves (c : Scope) (first today : Date) :
    ∃ r, Resolves c first today r ∧
      (do Window.ofDates (← dateOr first c.since) (← dateOr today c.upTo)) = r := by
  cases hsince : dateOr first c.since with
  | error f =>
    obtain ⟨t, form, ht, rfl, hparse⟩ := exists_text_of_dateOr hsince
    exact ⟨_, .since ht hparse, rfl⟩
  | ok a =>
    cases hupTo : dateOr today c.upTo with
    | error f =>
      obtain ⟨t, form, ht, rfl, hparse⟩ := exists_text_of_dateOr hupTo
      exact ⟨_, .upTo (asks_of_dateOr hsince) ht hparse, rfl⟩
    | ok b =>
      by_cases h : a ≤ b
      · exact ⟨_, .window h (asks_of_dateOr hsince) (asks_of_dateOr hupTo),
          Window.ofDates_eq_ok h⟩
      · exact ⟨_, .reversed (asks_of_dateOr hsince) (asks_of_dateOr hupTo) (Date.not_le.1 h),
          dif_neg h⟩

theorem window_of_startsOn (hflag : c.today = false) (h : StartsOn s today first) :
    c.window s today =
      (do Window.ofDates (← dateOr first c.since) (← dateOr today c.upTo)).mapError .fault := by
  rw [Scope.window, hflag, lastDays?_of_startsOn h]
  rfl

/-- A scope of today alone has today's window. Any other scope comes to the window or the fault of
its dates, as long as the settings' window starts on a date, and the dates that it names are all
that counts if it names both. Where the settings' window starts on no date, a run breaks off,
whatever dates it names. -/
theorem window_of_scope (c : Scope) (s : Settings) (today : Date) :
    (c.today = true → c.window s today = .ok (.ofDay today)) ∧
    (c.today = false → ∀ first, StartsOn s today first →
      (∃ r, Resolves c first today r ∧ c.window s today = r.mapError .fault) ∧
      ∀ t u a b, c.since = some t → c.upTo = some u → Date.parse t = .ok a →
        Date.parse u = .ok b → c.window s today = (Window.ofDates a b).mapError .fault) ∧
    (c.today = false → (∀ first, ¬StartsOn s today first) →
      c.window s today = .error .outOfCalendar) := by
  refine ⟨fun hflag => ?_, fun hflag first h => ⟨?_, ?_⟩, fun hflag h => ?_⟩
  · rw [Scope.window, hflag, if_pos rfl, Window.ofDates_eq_ok (Date.le_refl today)]
    rfl
  · obtain ⟨r, hr, heq⟩ := exists_resolves c first today
    exact ⟨r, hr, by rw [window_of_startsOn hflag h, heq]⟩
  · intro t u a b hsince hupTo ht hu
    rw [window_of_startsOn hflag h, hsince, hupTo]
    simp only [dateOr, ht, hu]
    rfl
  · rw [Scope.window, hflag, lastDays?_eq_none h]
    rfl

/-- A scope that names both dates. -/
def datedScope : Scope := ⟨some "2024-05-01", some "20240502", none, false, false⟩

def todayScope : Scope := ⟨none, none, none, false, true⟩

def runDay : Date := ⟨2026, 1, 15, by decide, by decide, by decide⟩

/-- Settings with more days than the calendar has. -/
def endlessSettings : Settings := { Settings.default with rangeDays := .ofInt Count.greatest }

theorem not_startsOn_endless (first : Date) : ¬StartsOn endlessSettings runDay first := by
  intro h
  have hnone : Window.lastDays? runDay endlessSettings.rangeDays.toInt = none := rfl
  cases hnone.symm.trans (lastDays?_of_startsOn h)

theorem window_of_scope_of_three_scopes :
    todayScope.window endlessSettings runDay = .ok (.ofDay runDay) ∧
    datedScope.window .default runDay =
      (Window.ofDates firstOfMay secondOfMay).mapError .fault ∧
    datedScope.window endlessSettings runDay = .error .outOfCalendar := by
  have hfirst : StartsOn .default runDay ⟨2026, 1, 9, by decide, by decide, by decide⟩ := by decide
  obtain ⟨htoday, -⟩ := window_of_scope todayScope endlessSettings runDay
  obtain ⟨-, hdates, -⟩ := window_of_scope datedScope .default runDay
  obtain ⟨-, -, hendless⟩ := window_of_scope datedScope endlessSettings runDay
  exact ⟨htoday rfl, (hdates rfl _ hfirst).2 _ _ firstOfMay secondOfMay rfl rfl rfl rfl,
    hendless rfl not_startsOn_endless⟩

/-- Both dates are named, and yet it depends on the settings whether there is a window. -/
theorem window_of_named_dates_lost :
    Date.parse "2024-05-01" = .ok firstOfMay ∧ Date.parse "20240502" = .ok secondOfMay ∧
    datedScope.window .default runDay = .ok ⟨firstOfMay, secondOfMay, by decide⟩ ∧
    datedScope.window endlessSettings runDay = .error .outOfCalendar ∧
    (Ending.aborted .outOfCalendar).code = 101 :=
  ⟨rfl, rfl, rfl, rfl, rfl⟩

end CacheActivity.Command
