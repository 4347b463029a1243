import CacheActivity.Display.Line
import CacheActivity.Fault
import CacheActivity.Log
import CacheActivity.Settings.Store

/-!
# Outcomes

A run says things, leaves a disk behind, and ends well or not. It shows lines on the stream for
output. Warnings, and what is said at an early end, go to the stream for errors, and events of the
log go wherever logs are written.
-/

namespace CacheActivity.Command

open Display (Line)
open Files (Disk)

/-- Why a run ends before its work is done. -/
inductive Abort where
  | fault (cause : Fault)
  /-- An export could not be written. -/
  | exporting (cause : FileFault)
  /-- There is nothing to watch. -/
  | watching (cause : FileFault)
  | settings (cause : Settings.StoreFault)
  /-- There is no health check to show. -/
  | noCheck
  /-- The window of the settings starts before the calendar does. -/
  | outOfCalendar
  /-- A total is no count. -/
  | outOfCounts

namespace Abort

def message : Abort → String
  | .fault cause => cause.explanation
  | .exporting cause | .watching cause => cause.message
  | .settings cause => cause.message
  | .noCheck =>
    "No cache ping response given\nHint: pass --response FILE or --error TEXT, " ++
      "or set health_response_path in the config file"
  | .outOfCalendar => "The window starts before the calendar does"
  | .outOfCounts => "A total is out of range"

end Abort

inductive Ending where
  | done
  /-- All work is done, but a check that had to pass failed. -/
  | failed
  | aborted (cause : Abort)
  /-- There was no command to run. -/
  | misused

namespace Ending

/-- The exit code of a program that ends so. -/
def code : Ending → UInt8
  | .done => 0
  | .failed => 1
  | .aborted .outOfCalendar | .aborted .outOfCounts => 101
  | .aborted _ => 1
  | .misused => 2

/-- What is said at the end. -/
def remarks : Ending → List String
  | .done | .failed => []
  | .aborted cause => ["Error: " ++ cause.message]
  | .misused => ["Error: unknown or incomplete arguments; see --help"]

end Ending

/-- What a run says on the way. -/
inductive Said where
  | line (line : Line)
  | warning (text : String)
  | event (event : Log.Event)
  deriving DecidableEq, Repr

namespace Said

def line? : Said → Option Line
  | .line l => some l
  | _ => none

def stream : Said → Stream
  | .line _ => .output
  | .warning _ => .errors
  | .event _ => Log.stream

/-- The text of what is said, where events have texts of their own. -/
def text (eventText : Log.Event → String) : Said → String
  | .line l => Display.text [l]
  | .warning w => "Warning: " ++ w ++ "\n"
  | .event e => eventText e

end Said

structure Outcome where
  said : List Said
  ending : Ending
  disk : Disk

namespace Outcome

/-- A run that shows lines and changes nothing. -/
def ofLines (d : Disk) (shown : List Line) : Outcome := ⟨shown.map .line, .done, d⟩

/-- A run that changes nothing and shows lines as far as they can be shown. -/
def ofShown (d : Disk) (s : Display.Shown) : Outcome :=
  ⟨s.lines.map .line, if s.complete then .done else .aborted .outOfCounts, d⟩

/-- A run that says nothing and ends early. -/
def ofAbort (d : Disk) (cause : Abort) : Outcome := ⟨[], .aborted cause, d⟩

/-- Puts what was said before in front. -/
def after (o : Outcome) (before : List Said) : Outcome := { o with said := before ++ o.said }

def warned (o : Outcome) (ws : List String) : Outcome := o.after (ws.map .warning)

def logged (o : Outcome) (events : List Log.Event) : Outcome := o.after (events.map .event)

@[simp] theorem disk_after (o : Outcome) (before : List Said) :
    (o.after before).disk = o.disk := rfl

@[simp] theorem disk_warned (o : Outcome) (ws : List String) : (o.warned ws).disk = o.disk := rfl

@[simp] theorem disk_logged (o : Outcome) (events : List Log.Event) :
    (o.logged events).disk = o.disk := rfl

@[simp] theorem ending_after (o : Outcome) (before : List Said) :
    (o.after before).ending = o.ending := rfl

@[simp] theorem ending_warned (o : Outcome) (ws : List String) :
    (o.warned ws).ending = o.ending := rfl

@[simp] theorem ending_logged (o : Outcome) (events : List Log.Event) :
    (o.logged events).ending = o.ending := rfl

def shown (o : Outcome) : List Line := o.said.filterMap Said.line?

/-- All text on a stream, where events have texts that depend on how much was said before. What is
said at the end comes last. -/
def textOn (stream : Stream) (eventText : Nat → Log.Event → String) (o : Outcome) : String :=
  let said := o.said.zipIdx.filter fun x => x.1.stream = stream
  String.join (said.map fun x => x.1.text (eventText x.2)) ++
    if stream = .errors then Display.text (o.ending.remarks.map String.toList) else ""

/-- Only lines go to the stream for output. -/
theorem textOn_output (eventText : Nat → Log.Event → String) (o : Outcome) :
    o.textOn .output eventText = Display.text o.shown := by
  have hsaid (n : Nat) : String.join (((o.said.zipIdx n).filter fun x => x.1.stream = .output).map
      fun x => x.1.text (eventText x.2)) = Display.text o.shown := by
    unfold shown
    induction o.said generalizing n with
    | nil => rfl
    | cons x said ih =>
      rw [List.zipIdx_cons, List.filter_cons]
      cases x with
      | line l =>
        rw [if_pos (by rfl), List.map_cons, String.join_cons, ih]
        exact (Display.text_append [l] _).symm
      | warning w => exact ih (n + 1)
      | event e => exact ih (n + 1)
  exact (String.append_empty ..).trans (hsaid 0)

end Outcome

end CacheActivity.Command
