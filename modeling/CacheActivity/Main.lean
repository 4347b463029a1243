import CacheActivity.Command.Run
import Std.Time.Format

/-!
# The program

Notes on a disk what a run is going to look at, runs, writes the files that have changed, and shows
the outcome.
-/

namespace CacheActivity.Program

open Files (Disk Place)
open Command (Occasion Invocation Outcome)

def placeOf (path : String) : Place :=
  (Files.Path.pieces path.toList).filterMap fun p =>
    if p.isEmpty then none else some (String.ofList p)

def pathOf (place : Place) : String := "/" ++ "/".intercalate place

/-- The item at a path, and the names in it if it is a folder. -/
def look? (path : String) : IO (Option (Files.Item × List String)) := do
  try
    let path ← IO.FS.realPath path
    if ← path.isDir then
      let names? ← try pure (some ((← path.readDir).toList.map (·.fileName))) catch _ => pure none
      return some (.folder ⟨names?.isSome, ← (path / ".").pathExists⟩, names?.getD [])
    else
      return some (.file (String.fromUTF8? (← IO.FS.readBinFile path)), [])
  catch _ => return none

/-- Notes a place, and everything under it. What a folder lists but lets no path reach is noted as
a file. -/
partial def noteAll (d : Disk) (place : Place) : IO Disk := do
  match ← look? (pathOf place) with
  | none => return d
  | some (item, names) =>
    let mut d := d.put place item
    for name in names do
      d ← if item = .folder ⟨true, false⟩ then pure (d.put (place ++ [name]) (.file none))
        else noteAll d (place ++ [name])
    return d

/-- Notes everything that a path goes through, and everything under it. -/
def note (d : Disk) (path : String) : IO Disk := do
  let mut d := d
  let mut place := if Files.Path.isAbsolute path then [] else d.here
  for piece in placeOf path do
    if piece = ".." then place := place.dropLast
    else if piece ≠ "." then place := place ++ [piece]
    if let some (item, _) ← look? (pathOf place) then
      if place ≠ [] then d := d.put place item
  noteAll d place

def write (d earlier : Disk) : IO Unit := do
  for (place, text) in d.changedSince earlier do
    IO.FS.createDirAll (pathOf place.dropLast)
    IO.FS.writeFile (pathOf place) text

/-- The rank of a level among those that a filter can name, or that of no event. -/
def rankOf? : String → Option Nat
  | "off" => some 3
  | "error" => some 3
  | "warn" => some 2
  | "info" => some 1
  | "debug" | "trace" => some 0
  | _ => none

def rank : Log.Level → Nat
  | .debug => 0
  | .info => 1
  | .warn => 2

/-- Filters by the name of a level, and one line for each event. -/
def library : Log.Library where
  filter? := fun directives => (rankOf? directives.toLower).map fun least e => least ≤ rank e.level
  filter := fun directives e => (rankOf? directives.toLower).getD 3 ≤ rank e.level
  text := fun _ e =>
    let fields := e.fields.map fun (name, value) => " " ++ name ++ "=" ++ value
    e.message ++ String.join fields ++ "\n"

def now : IO Occasion := do
  let t ← Std.Time.PlainDateTime.now
  let year := t.date.year.toInt
  let month := t.date.month.toNat
  let day := t.date.day.toNat
  let two (n : Nat) : String := String.ofList (Calendar.Date.padded 2 n)
  let clock := ":".intercalate
    [two t.time.hour.toNat, two t.time.minute.toNat, two t.time.second.toNat]
  match Calendar.Date.of? year month day with
  | some today =>
    return ⟨(← IO.getEnv "HOME").getD "/", today, today.text ++ " " ++ clock,
      ⟨library, ← IO.getEnv "CACHELYTICS_LOG"⟩⟩
  | none => throw (IO.userError "today is not in the calendar")

def tell (logText : Nat → Log.Event → String) (o : Outcome) : IO Unit := do
  IO.print (o.textOn .output logText)
  IO.eprint (o.textOn .errors logText)
  (← IO.getStdout).flush

/-- Looks at a dashboard again and again, until it cannot be shown. -/
partial def watch (path level : String) (seconds : Nat) (blank : Disk) (board : Dashboard) :
    IO UInt32 := do
  IO.sleep (UInt32.ofNat (min (1000 * seconds) (UInt32.size - 1)))
  let occasion ← now
  let (outcome, board) := Command.look occasion.time path (← note blank path) board
  tell (occasion.logging.text level) outcome
  if outcome.ending.code = 0 then watch path level seconds blank board
  else return outcome.ending.code.toUInt32

def run (words : List String) : IO UInt32 := do
  let occasion ← now
  let blank := Disk.blank (placeOf (← IO.currentDir).toString)
  let mut disk ← note blank (Settings.storePath occasion.home)
  let (settings, _) := Command.settingsOrDefault occasion.home disk
  let call? := (Invocation.read words).toOption
  if let some call := call? then
    for path in call.paths settings disk do
      disk ← note disk path
  let outcome := Command.runWords occasion words disk
  write outcome.disk disk
  tell (occasion.logging.text settings.logLevel) outcome
  if outcome.ending.code = 0 then
    if let some ⟨scope, .watch⟩ := call? then
      if let .ok board := scope.watched settings occasion.today then
        let path := scope.dataPath settings
        let (_, board) := Command.look occasion.time path disk board
        return ← watch path settings.logLevel (max settings.watchSeconds.toNat 1) blank board
  return outcome.ending.code.toUInt32

end CacheActivity.Program

def main (words : List String) : IO UInt32 := CacheActivity.Program.run words
