import CacheActivity.Calendar.Window
import CacheActivity.Capture.Rows
import CacheActivity.Files.Disk

/-!
# Captures on a disk

A path to a file stands for one capture, whatever the window. A path to a folder stands for the
daily captures under it, at any depth: the files with the extension `json` or `jsonl` whose stem is
a date. Those with a date in the window are read in the order of their dates, and of their paths
where dates are equal. One unreadable capture makes the whole fetch fail, but what lies in a folder
that cannot be listed is passed over.
-/

namespace CacheActivity.Capture

open Calendar (Date Window)
open Files (Disk Place)
open Usage (Row)

def fetchFile (d : Disk) (path : String) : Except Fault (List Row) := do
  match d.read path with
  | .ok text => rowsOf path text
  | .error cause => .error (.file cause)

/-- A capture of one day. -/
structure Daily where
  date : Date
  /-- The way to it from the folder of the archive. -/
  place : Place

namespace Daily

def extensions : List String := ["json", "jsonl"]

/-- The daily capture that the file at a place is, judged by its name. -/
def ofPlace? (place : Place) : Option Daily := do
  let name ← place.getLast?
  let extension ← Files.Path.extension? name
  let date ← Date.readDashed? (← Files.Path.stem? name)
  if extension ∈ extensions then some ⟨date, place⟩ else none

/-- Earlier by date, and by path on one date. -/
def Le (a b : Daily) : Prop :=
  a.date < b.date ∨ a.date.dayNumber = b.date.dayNumber ∧ List.le a.place b.place

instance (a b : Daily) : Decidable (a.Le b) := inferInstanceAs (Decidable (_ ∨ _))

def path (folder : String) (c : Daily) : String := Files.Path.joinAll folder c.place

end Daily

/-- The captures in the archive of a folder with a date in a window, in order. -/
def dailies (d : Disk) (folder : String) (place : Place) (w : Window) : List Daily :=
  let found := ((d.filesUnder place).filter (d.opensDownTo folder)).filterMap Daily.ofPlace?
  (found.filter fun c => decide (w.Contains c.date)).mergeSort fun a b => decide (a.Le b)

def fetch (d : Disk) (path : String) (w : Window) : Except Fault (List Row) := do
  match d.find? path, d.locate path with
  | some (.file _), _ => fetchFile d path
  | some (.folder _), .ok place =>
    return (← (dailies d path place w).mapM fun c => fetchFile d (c.path path)).flatten
  | _, _ => .error (.noData path)

/-- What is logged of a file. -/
def fileEvents (d : Disk) (path : String) : List Log.Event :=
  match d.read path with
  | .ok text => eventsOf path text
  | .error _ => []

/-- What a fetch logs. Captures are read at the same time, so their events may also come in another
order, and those of some captures may be missing if one cannot be read. -/
def fetchEvents (d : Disk) (path : String) (w : Window) : List Log.Event :=
  let asked := [("path", path), ("from", w.bounds.1), ("to", w.bounds.2)]
  let events :=
    match d.find? path, d.locate path with
    | some (.file _), _ => fileEvents d path
    | some (.folder _), .ok place =>
      let files := dailies d path place w
      if files.isEmpty then [⟨.warn, "no daily captures in range", asked⟩]
      else
        files.flatMap (fun c => fileEvents d (c.path path)) ++
          match fetch d path w with
          | .ok rows =>
            [⟨.debug, "loaded daily captures",
              [("files", toString files.length), ("rows", toString rows.length)]⟩]
          | .error _ => []
    | _, _ => []
  ⟨.debug, "fetching cache activity", asked⟩ :: events

end CacheActivity.Capture
