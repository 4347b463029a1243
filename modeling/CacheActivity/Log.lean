/-!
# Logs

What happens on the way is logged as events. Which of them are written, and how, is up to a library
of its own; the program only hands it the directives of a filter, and the stream to write to.
-/

namespace CacheActivity

/-- Where a run writes text. -/
inductive Stream where
  | output
  | errors
  deriving DecidableEq, Repr

namespace Log

inductive Level where
  | debug
  | info
  | warn
  deriving DecidableEq, Repr

structure Event where
  level : Level
  message : String
  /-- Names and values of what the message is about. -/
  fields : List (String × String)
  deriving DecidableEq, Repr

/-- A library that writes logs. -/
structure Library where
  /-- The events that directives let through, unless there is a mistake in them. -/
  filter? : String → Option (Event → Bool)
  /-- The events that directives let through if all mistakes in them are passed over. -/
  filter : String → Event → Bool
  /-- The text of an event after so many other things that were said. -/
  text : Nat → Event → String

structure Setup where
  library : Library
  /-- The directives of the environment. -/
  directives? : Option String

/-- The filter of a run: that of the environment, else that of the settings, else one for
warnings. -/
def Setup.filter (x : Setup) (directives : String) : Event → Bool :=
  ((x.directives?.bind x.library.filter?).or (x.library.filter? directives)).getD
    (x.library.filter "warn")

/-- What is written of an event. -/
def Setup.text (x : Setup) (directives : String) (n : Nat) (e : Event) : String :=
  if x.filter directives e then x.library.text n e else ""

/-- The stream that logs are written to. -/
def stream : Stream := .errors

end Log

end CacheActivity
