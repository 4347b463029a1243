import CacheActivity.Command.Flag
import CacheActivity.Export
import CacheActivity.Usage.Selection

/-!
# Invocations

An invocation is a command with everything that the words behind the program's name say about it.
Flags of the scope come first, then the name of a command and its own flags. Without a name the
command shows all activity.
-/

namespace CacheActivity

open Usage (Selection)

namespace Command

/-- The activity that a command is about, and how it shows it. -/
structure Scope where
  /-- The first date of the window. -/
  since : Option String
  /-- The last date of the window. -/
  upTo : Option String
  path : Option String
  json : Bool
  today : Bool
  deriving DecidableEq, Repr

/-- Where the outcome of a health check comes from. -/
inductive CheckSource where
  | captured (path : String)
  | thrown (message : String)
  deriving DecidableEq, Repr

/-- What is done with the settings. -/
inductive SettingsTask where
  | reset
  | setDataPath (path : String)
  | list
  deriving DecidableEq, Repr

end Command

inductive Command where
  | activity (selection : Selection) (classic : Bool)
  | facets
  /-- Without a source of its own the check is the one of the settings. A strict one fails the run
  when it fails. -/
  | health (source : Option Command.CheckSource) (strict : Bool)
  | exports (selection : Selection) (parts : List Export.Part) (base : Option String)
  | watch
  | settings (task : Option Command.SettingsTask)

namespace Command

structure Invocation where
  scope : Scope
  command : Command

inductive Name where
  | activity
  | facets
  | health
  | exports
  | watch
  | settings
  deriving DecidableEq, Repr

namespace Name

def all : List Name := [.activity, .facets, .health, .exports, .watch, .settings]

def text : Name → String
  | .activity => "activity"
  | .facets => "facets"
  | .health => "health"
  | .exports => "export"
  | .watch => "watch"
  | .settings => "config"

def ofText? (s : String) : Option Name := all.find? (·.text = s)

@[simp] theorem ofText?_text (n : Name) : ofText? n.text = some n := by cases n <;> decide

end Name

def helpFlag : Flag := ⟨"help", some 'h', .stop .help⟩

def versionFlag : Flag := ⟨"version", some 'V', .stop .version⟩

/-- The flags in front of a command. -/
def scopeFlags : List Flag :=
  [⟨"since", some 's', .text⟩, ⟨"until", some 'u', .text⟩, ⟨"path", some 'p', .path⟩,
    ⟨"json", some 'j', .switch⟩, ⟨"today", some 't', .switch⟩, helpFlag, versionFlag]

/-- The flags that choose rows. -/
def selectionFlags : List Flag := [⟨"api-key", none, .texts⟩, ⟨"model", none, .texts⟩]

/-- The flags behind a command. -/
def Name.flags : Name → List Flag
  | .activity => selectionFlags ++ [⟨"classic", none, .switch⟩, helpFlag]
  | .health =>
    [⟨"response", none, .path⟩, ⟨"error", none, .text⟩, ⟨"fail-on-error", none, .switch⟩, helpFlag]
  | .exports =>
    selectionFlags ++ [⟨"series", none, .switch⟩, ⟨"summary", none, .switch⟩,
      ⟨"output", some 'o', .path⟩, helpFlag]
  | .settings =>
    [⟨"show", none, .switch⟩, ⟨"reset", none, .switch⟩, ⟨"set-path", none, .path⟩, helpFlag]
  | .facets | .watch => [helpFlag]

def Scope.ofGiven (g : Given) : Scope where
  since := g.operand? "since"
  upTo := g.operand? "until"
  path := g.operand? "path"
  json := g.has "json"
  today := g.has "today"

def selectionOf (g : Given) : Selection :=
  ⟨.ofList (g.operands "api-key"), .ofList (g.operands "model")⟩

/-- The source of a check. It cannot have two. -/
def checkSourceOf (g : Given) : Except Stop (Option CheckSource) :=
  match g.operand? "response", g.operand? "error" with
  | none, none => .ok none
  | some path, none => .ok (some (.captured path))
  | none, some message => .ok (some (.thrown message))
  | some _, some _ => .error .misuse

/-- The parts of an export: both, if none is asked for. -/
def partsOf (g : Given) : List Export.Part :=
  match g.has "series", g.has "summary" with
  | true, false => [.series]
  | false, true => [.summary]
  | _, _ => [.series, .summary]

/-- The task of the settings. A reset goes before a new path, and both before the list. -/
def settingsTaskOf (g : Given) : Option SettingsTask :=
  if g.has "reset" then some .reset
  else
    match g.operand? "set-path" with
    | some path => some (.setDataPath path)
    | none => if g.has "show" then some .list else none

def ofGiven (n : Name) (g : Given) : Except Stop Command :=
  match n with
  | .activity => .ok (.activity (selectionOf g) (g.has "classic"))
  | .facets => .ok .facets
  | .health => (checkSourceOf g).map fun source => .health source (g.has "fail-on-error")
  | .exports => .ok (.exports (selectionOf g) (partsOf g) (g.operand? "output"))
  | .watch => .ok .watch
  | .settings => .ok (.settings (settingsTaskOf g))

/-! ## Reading -/

def read (name : String) (words : List String) : Except Stop Command := do
  match Name.ofText? name with
  | none => .error .misuse
  | some n =>
    match ← Reading.start.readFlags n.flags words with
    | (g, []) => ofGiven n g
    | (_, _ :: _) => .error .misuse

/-- The name of the command that gives help on the others. -/
def helpName : String := "help"

def helpOn : List String → Stop
  | [] => .help
  | [topic] => if topic = helpName || (Name.ofText? topic).isSome then .help else .misuse
  | _ => .misuse

/-- The invocation of the words behind the program's name. -/
def Invocation.read (words : List String) : Except Stop Invocation := do
  let (g, words) ← Reading.start.readFlags scopeFlags words
  match words with
  | [] => return ⟨.ofGiven g, .activity .all false⟩
  | name :: words =>
    if name = helpName then .error (helpOn words)
    else return ⟨.ofGiven g, ← Command.read name words⟩

end Command

end CacheActivity
