import CacheActivity.Command.Help
import CacheActivity.Command.Invocation
import CacheActivity.Command.Watch
import CacheActivity.Display.Activity
import CacheActivity.Display.Health
import CacheActivity.Text.Literal

/-!
# Runs

A run takes the words behind the program's name and a disk to an outcome. Settings are loaded first;
those that cannot be loaded have their defaults, and the run warns of that.
-/

namespace CacheActivity.Command

open Calendar (Date Window)
open Display (Line)
open Files (Disk)
open Usage (Selection View Report)

/-- When and for whom a run takes place, and how it logs. -/
structure Occasion where
  /-- The path of the home folder. -/
  home : String
  today : Date
  /-- The text of the date and the time. -/
  time : String
  logging : Log.Setup

def documentLines (v : Json.Value) : List Line := [v.pretty.toList]

def pathText : Option String → String
  | none => "None"
  | some path => "Some(" ++ Text.pathLiteral path ++ ")"

/-- The list of all settings. -/
def settingsLines (home : String) (s : Settings) : List Line :=
  ["Current Configuration:", "Data Path: " ++ pathText s.dataPath,
    "Health Response Path: " ++ pathText s.healthPath,
    "Default Output Format: " ++ s.outputFormat.name,
    "Default Range: " ++ s.rangeDays.text ++ " days",
    "Watch Interval: " ++ toString s.watchSeconds.toNat ++ "s",
    "Export Directory: " ++ pathText s.exportFolder, "Log Level: " ++ s.logLevel,
    "Config File: " ++ Text.pathLiteral (Settings.storePath home)].map String.toList

def saveSettings (home : String) (s : Settings) (said : String) (d : Disk) : Outcome :=
  match Settings.save home s d with
  | .ok d => .ofLines d [infoLine said]
  | .error cause => .ofAbort d (.settings cause)

def runSettings (home : String) (s : Settings) (d : Disk) : Option SettingsTask → Outcome
  | none => .ofLines d []
  | some .reset => saveSettings home .default "Configuration reset to defaults" d
  | some (.setDataPath path) =>
    saveSettings home (s.setDataPath path) ("Data path set to: " ++ path) d
  | some .list => .ofLines d (settingsLines home s)

def CheckSource.check (d : Disk) : CheckSource → Health.Check
  | .captured path => .ofCapture (d.read path)
  | .thrown message => .thrown message

/-- What is logged of a source and the result of its check. -/
def CheckSource.events (d : Disk) (result : Health.Result) (source : CheckSource) :
    List Log.Event :=
  let unreadable :=
    match source with
    | .thrown _ => []
    | .captured path =>
      match d.read path with
      | .ok _ => []
      | .error cause =>
        [⟨.warn, "health capture unreadable", [("path", path), ("error", cause.message)]⟩]
  unreadable ++ if result.isSuccess then [] else [⟨.warn, "cache health check failed", []⟩]

def runHealth (s : Settings) (json : Bool) (source : Option CheckSource) (strict : Bool)
    (d : Disk) : Outcome :=
  match source.or (s.healthPath.map .captured) with
  | none => .ofAbort d .noCheck
  | some source =>
    let result := (source.check d).result
    let shown := if json then documentLines result.toValue else Display.healthLines result
    let ending := if strict && !result.isSuccess then .failed else .done
    { Outcome.ofLines d shown with ending }.logged (source.events d result)

/-- The date of a text, or another date without one. -/
def dateOr (default : Date) : Option String → Except Fault Date
  | some text => Date.parse text
  | none => .ok default

/-- The window of a scope. Dates that it does not name are those of the settings' window. -/
def Scope.window (c : Scope) (s : Settings) (today : Date) : Except Abort Window :=
  if c.today then (Window.ofDates today today).mapError .fault
  else
    match Window.lastDays? today s.rangeDays.toInt with
    | none => .error .outOfCalendar
    | some w =>
      (do Window.ofDates (← dateOr w.first c.since) (← dateOr w.last c.upTo)).mapError .fault

def Scope.dataPath (c : Scope) (s : Settings) : String := c.path.getD s.dataPathOrCommon

/-- The dashboard of a scope after its first fetch, and what is logged on the way. -/
def Scope.dashboard (c : Scope) (s : Settings) (today : Date) (selection : Selection) (d : Disk) :
    Except Abort Dashboard × List Log.Event :=
  match c.window s today with
  | .error cause => (.error cause, [])
  | .ok w =>
    match refreshed (c.dataPath s) d (.start w selection) with
    | (.ok _, log, board) => (.ok board, log)
    | (.error cause, log, _) => (.error (.fault cause), log)

def showActivity (o : Occasion) (s : Settings) (c : Scope) (classic : Bool) (board : Dashboard)
    (d : Disk) : Outcome :=
  if c.json || s.outputFormat = .json then .ofLines d (documentLines board.view.toValue)
  else
    let report := board.view.report
    let shown :=
      if classic || s.outputFormat = .table then Display.activityLines report
      else Display.pageLines o.time board.window report
    (Outcome.ofShown d shown).warned
      (if report.series.isEmpty then ["No cache activity found for the specified criteria"] else [])

def showFacets (c : Scope) (board : Dashboard) (d : Disk) : Outcome :=
  .ofLines d
    (if c.json then documentLines board.view.facets.toValue
      else Display.facetLines board.view.facets)

/-- The base path of an export that names none. -/
def exportBase (s : Settings) (d : Disk) : String :=
  Files.Path.join (s.exportFolder.getD d.herePath) Export.defaultName

/-- Goes on with the disk behind a write, if that worked. -/
def goOn (d : Disk) (written : Except FileFault Disk) (next : Disk → Outcome) : Outcome :=
  match written with
  | .error cause => .ofAbort d (.exporting cause)
  | .ok d => next d

/-- Writes parts of a report one after the other, up to the first that cannot be written. -/
def saveParts (r : Report) (base : String) : List Export.Part → Disk → Outcome
  | [], d => .ofLines d []
  | p :: ps, d =>
    let path := p.path base
    goOn d (Export.save r p path d) fun d =>
      (saveParts r base ps d).after [.line (infoLine (p.label ++ " exported to: " ++ path))]

/-- The dashboard that a scope watches. -/
def Scope.watched (c : Scope) (s : Settings) (today : Date) : Except Abort Dashboard :=
  (c.window s today).map fun w => .start w .all

/-- The first look of a scope, if there is something to look at. -/
def firstLook (o : Occasion) (s : Settings) (c : Scope) (d : Disk) : Outcome :=
  let path := c.dataPath s
  match c.watched s o.today with
  | .error cause => .ofAbort d cause
  | .ok board =>
    let seen : Outcome :=
      match d.item (Files.Path.join d.herePath path) with
      | .error cause => .ofAbort d (.watching cause)
      | .ok _ => (look o.time path d board).1
    seen.after ((watchLines path).map .line)

/-! ## Runs -/

def run (o : Occasion) (s : Settings) (c : Scope) (d : Disk) : Command → Outcome
  | .settings task => runSettings o.home s d task
  | .health source strict => runHealth s c.json source strict d
  | .watch => firstLook o s c d
  | .facets => withDashboard .all fun board => showFacets c board d
  | .activity selection classic =>
    withDashboard selection fun board => showActivity o s c classic board d
  | .exports selection parts base =>
    withDashboard selection fun board =>
      saveParts board.view.report (base.getD (exportBase s d)) parts d
where
  /-- Goes on with a dashboard that has rows. -/
  withDashboard (selection : Selection) (next : Dashboard → Outcome) : Outcome :=
    match c.dashboard s o.today selection d with
    | (.ok board, log) => (next board).logged log
    | (.error cause, log) => (Outcome.ofAbort d cause).logged log

/-- Settings from a disk, and the warnings that they cause. -/
def settingsOrDefault (home : String) (d : Disk) : Settings × List String :=
  match Settings.load home d with
  | .ok s => (s, [])
  | .error cause => (.default, [cause.message ++ "; using default configuration"])

def Invocation.run (o : Occasion) (call : Invocation) (d : Disk) : Outcome :=
  let (s, warnings) := settingsOrDefault o.home d
  (Command.run o s call.scope d call.command).warned warnings

/-- The paths that a run looks at, besides those of its settings. -/
def Invocation.paths (call : Invocation) (s : Settings) (d : Disk) : List String :=
  match call.command with
  | .settings _ | .health (some (.thrown _)) _ => []
  | .health (some (.captured path)) _ => [path]
  | .health none _ => s.healthPath.toList
  | .activity .. | .facets | .watch => [call.scope.dataPath s]
  | .exports _ parts base =>
    call.scope.dataPath s :: parts.map fun p => p.path (base.getD (exportBase s d))

def runWords (o : Occasion) (words : List String) (d : Disk) : Outcome :=
  match Invocation.read words with
  | .ok call => call.run o d
  | .error .version => .ofLines d [versionLine]
  | .error .help => .ofLines d helpLines
  | .error .misuse => ⟨[], .misused, d⟩

/-- All text of a run on a stream. -/
def textOfRun (stream : Stream) (o : Occasion) (words : List String) (d : Disk) : String :=
  (runWords o words d).textOn stream (o.logging.text (settingsOrDefault o.home d).1.logLevel)

end CacheActivity.Command
