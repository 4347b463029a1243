import CacheActivity.Calendar.Window
import CacheActivity.Fault
import CacheActivity.Log
import CacheActivity.Usage.Document

/-!
# Dashboards

A dashboard shows the rows of a window through a selection. Fetching takes time, so every request
for rows carries a ticket with a number of its own, and rows that arrive with a ticket older than
the latest are dropped. Changes of the selection need no new rows. Rows come from a source, which
may change whenever it is asked.
-/

namespace CacheActivity

open Calendar (Window)
open Usage (Row Selection View Choice)

/-- The number of a request for rows. -/
structure Ticket where
  number : Nat
  deriving DecidableEq, Repr

namespace Ticket

instance : LE Ticket := ⟨fun a b => a.number ≤ b.number⟩

instance : LT Ticket := ⟨fun a b => a.number < b.number⟩

instance (a b : Ticket) : Decidable (a ≤ b) := inferInstanceAs (Decidable (a.number ≤ b.number))

instance (a b : Ticket) : Decidable (a < b) := inferInstanceAs (Decidable (a.number < b.number))

def first : Ticket := ⟨0⟩

def next (t : Ticket) : Ticket := ⟨t.number + 1⟩

theorem le_def {a b : Ticket} : a ≤ b ↔ a.number ≤ b.number := Iff.rfl

theorem lt_def {a b : Ticket} : a < b ↔ a.number < b.number := Iff.rfl

@[simp] theorem number_first : first.number = 0 := rfl

@[simp] theorem number_next (t : Ticket) : t.next.number = t.number + 1 := rfl

end Ticket

/-- What a source in some state gives for a window, and the state it is in behind that. -/
abbrev Source (σ : Type) := Window → σ → Except Fault (List Row) × σ

structure Dashboard where
  window : Window
  selection : Selection
  rows : List Row
  /-- The ticket of the latest request. -/
  latest : Ticket

namespace Dashboard

def start (window : Window) (selection : Selection) : Dashboard :=
  ⟨window, selection, [], .first⟩

def request (d : Dashboard) : Ticket × Dashboard :=
  (d.latest.next, { d with latest := d.latest.next })

def setWindow (w : Window) (d : Dashboard) : Ticket × Dashboard := { d with window := w }.request

/-- That rows with a ticket are not out of date. -/
def Accepts (d : Dashboard) (t : Ticket) : Prop := d.latest ≤ t

instance (d : Dashboard) (t : Ticket) : Decidable (d.Accepts t) :=
  inferInstanceAs (Decidable (d.latest ≤ t))

/-- Takes the rows that a request gave, unless they are out of date. Says whether it did. -/
def receive (t : Ticket) (rows : List Row) (d : Dashboard) : Bool × Dashboard :=
  if d.Accepts t then (true, { d with rows }) else (false, d)

/-- Asks for the rows of the window, fetches and receives them. A fetch that fails leaves the rows
as they are. -/
def refresh {σ : Type} (source : Source σ) (s : σ) (d : Dashboard) :
    Except Fault Bool × σ × Dashboard :=
  let (ticket, asked) := d.request
  match source asked.window s with
  | (.ok rows, s) =>
    let (taken, shown) := asked.receive ticket rows
    (.ok taken, s, shown)
  | (.error fault, s) => (.error fault, s, asked)

theorem receive_of_accepts {d : Dashboard} {t : Ticket} (h : d.Accepts t) (rows : List Row) :
    d.receive t rows = (true, { d with rows }) := if_pos h

theorem receive_of_not_accepts {d : Dashboard} {t : Ticket} (h : ¬d.Accepts t) (rows : List Row) :
    d.receive t rows = (false, d) := if_neg h

/-- A refresh takes a ticket and asks for the window, and what it fetches is never too late. -/
theorem refresh_eq {σ : Type} (source : Source σ) (s : σ) (d : Dashboard) :
    d.refresh source s =
      let asked := { d with latest := d.latest.next }
      match source d.window s with
      | (.ok rows, s) => (.ok true, s, { asked with rows })
      | (.error fault, s) => (.error fault, s, asked) := by
  have h : d.latest.next ≤ d.latest.next := Nat.le_refl _
  unfold refresh
  rcases hs : source d.window s with ⟨rows | fault, s'⟩ <;> simp [request, receive, Accepts, h, hs]

/-- What is logged when rows arrive. -/
def arrival (t : Ticket) (rows : List Row) (d : Dashboard) : Log.Event :=
  if d.Accepts t then
    ⟨.debug, "applying cache activity rows",
      [("ticket", toString t.number), ("rows", toString rows.length)]⟩
  else
    ⟨.warn, "discarding stale cache activity response",
      [("ticket", toString t.number), ("latest", toString d.latest.number)]⟩

/-- What a refresh logs once its source has answered. -/
def refreshEvents (fetched : Except Fault (List Row)) (d : Dashboard) : List Log.Event :=
  match fetched with
  | .ok rows =>
    let (ticket, asked) := d.request
    let (first, last) := asked.window.bounds
    [⟨.info, "fetched cache activity",
      [("from", first), ("to", last), ("rows", toString rows.length)]⟩, asked.arrival ticket rows]
  | .error _ => []

def selectApiKeys (keys : List String) (d : Dashboard) : Dashboard :=
  { d with selection := { d.selection with apiKeys := .ofList keys } }

def selectModels (models : List String) (d : Dashboard) : Dashboard :=
  { d with selection := { d.selection with models := .ofList models } }

def toggleApiKey (key : String) (d : Dashboard) : Dashboard :=
  { d with selection := { d.selection with apiKeys := d.selection.apiKeys.toggle key } }

def toggleModel (model : String) (d : Dashboard) : Dashboard :=
  { d with selection := { d.selection with models := d.selection.models.toggle model } }

def view (d : Dashboard) : View := .ofRows d.selection d.rows

end Dashboard

end CacheActivity
