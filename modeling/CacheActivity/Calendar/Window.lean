import CacheActivity.Calendar.Text

/-!
# Windows of whole days

A window runs from the first instant of one date to the last millisecond of another one that is no
earlier. It contains the dates between, both ends included.
-/

namespace CacheActivity.Calendar

/-- A date and a time of day. -/
structure Instant where
  date : Date
  millisecond : Nat
  deriving DecidableEq

namespace Instant

def perDay : Nat := 86400000

/-- Earlier by date, and by time on one date. -/
def Le (a b : Instant) : Prop :=
  a.date < b.date ∨ a.date.dayNumber = b.date.dayNumber ∧ a.millisecond ≤ b.millisecond

instance (a b : Instant) : Decidable (a.Le b) := inferInstanceAs (Decidable (_ ∨ _))

def timeText (t : Instant) : String :=
  let s := t.millisecond / 1000
  String.ofList (Date.padded 2 (s / 3600) ++ ':' :: Date.padded 2 (s / 60 % 60) ++
    ':' :: Date.padded 2 (s % 60) ++ '.' :: Date.padded 3 (t.millisecond % 1000))

def text (t : Instant) : String := t.date.text ++ " " ++ t.timeText

end Instant

structure Window where
  first : Date
  last : Date
  ordered : first ≤ last

namespace Window

def start (w : Window) : Instant := ⟨w.first, 0⟩

def finish (w : Window) : Instant := ⟨w.last, Instant.perDay - 1⟩

def Contains (w : Window) (d : Date) : Prop := w.first ≤ d ∧ d ≤ w.last

instance (w : Window) (d : Date) : Decidable (w.Contains d) := inferInstanceAs (Decidable (_ ∧ _))

/-- The window between two dates. -/
def ofDates (first last : Date) : Except Fault Window :=
  if h : first ≤ last then .ok ⟨first, last, h⟩
  else .error (.invalid "date_range" "From date must be before or equal to to date")

/-- The window of the `days` most recent days, today included, and of today alone for less than one.
There is none where it would start before the calendar does. -/
def lastDays? (today : Date) (days : Int) : Option Window :=
  match today.minusDays? (max days 1 - 1) with
  | some first => if h : first ≤ today then some ⟨first, today, h⟩ else none
  | none => none

def parse (first last : String) : Except Fault Window := do
  let first ← Date.parse first
  let last ← Date.parse last
  ofDates first last

/-- The bounds as a query takes them. -/
def bounds (w : Window) : String × String := (w.first.text, w.last.text)

/-- The number of days from the first date to the last. -/
def span (w : Window) : Int := w.last.dayNumber - w.first.dayNumber

end Window

end CacheActivity.Calendar
