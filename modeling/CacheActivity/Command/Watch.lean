import CacheActivity.Capture.Archive
import CacheActivity.Command.Outcome
import CacheActivity.Dashboard
import CacheActivity.Display.Activity

/-!
# Watching

While activity is watched, a dashboard fetches its rows again and again, and every look shows them.
-/

namespace CacheActivity.Command

open Display (Line Shown)
open Files (Disk)

def infoLine (s : String) : Line := "Info: ".toList ++ s.toList

/-- What is said before the first look. -/
def watchLines (path : String) : List Line :=
  [infoLine "🔍 Starting watch mode...", infoLine ("👀 Monitoring: " ++ path),
    infoLine "Press Ctrl+C to stop"]

def lookLines (time : String) : List Line :=
  [[], "🕐 Last updated: ".toList ++ time.toList, Display.rule '─' Display.pageWidth]

/-- What is at a path as a source of rows. Its state is the log. -/
def captures (d : Disk) (path : String) : Source (List Log.Event) := fun w log =>
  (Capture.fetch d path w, log ++ Capture.fetchEvents d path w)

/-- A refresh from what is at a path, and what is logged on the way. -/
def refreshed (path : String) (d : Disk) (board : Dashboard) :
    Except Fault Bool × List Log.Event × Dashboard :=
  let (answer, log, shown) := board.refresh (captures d path) []
  (answer, log ++ board.refreshEvents (Capture.fetch d path board.window), shown)

/-- One look at a dashboard. A fetch that fails leaves the rows as they are. -/
def look (time path : String) (d : Disk) (board : Dashboard) : Outcome × Dashboard :=
  let (answer, log, board) := refreshed path d board
  let report := board.view.report
  let activity : Shown :=
    if report.series.isEmpty then
      .all [infoLine "No cache activity for the current selection"]
    else Display.activityLines report
  let failed :=
    match answer with
    | .ok _ => []
    | .error cause => ["Refetch failed: " ++ cause.message]
  let behind := Outcome.ofShown d (activity ++ .all [Display.rule '─' Display.pageWidth])
  (((behind.warned failed).logged log).after ((lookLines time).map .line), board)

end CacheActivity.Command
