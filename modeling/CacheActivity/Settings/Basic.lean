import CacheActivity.Count

/-!
# Settings

What a user can set once for all runs. Every setting has a default.
-/

namespace CacheActivity

inductive OutputFormat where
  | enhanced
  | table
  | json
  deriving DecidableEq, Repr

namespace OutputFormat

def all : List OutputFormat := [.enhanced, .table, .json]

def name : OutputFormat → String
  | .enhanced => "Enhanced"
  | .table => "Table"
  | .json => "Json"

def ofName? (s : String) : Option OutputFormat := all.find? (·.name = s)

@[simp] theorem ofName?_name (f : OutputFormat) : ofName? f.name = some f := by
  cases f <;> decide

end OutputFormat

structure Settings where
  /-- Where activity is captured: a file or a folder. -/
  dataPath : Option String
  /-- Where the response of a health check is captured. -/
  healthPath : Option String
  outputFormat : OutputFormat
  /-- The days of the window where none is asked for. -/
  rangeDays : Count
  /-- The seconds between two looks while watching. -/
  watchSeconds : UInt64
  exportFolder : Option String
  logLevel : String
  deriving DecidableEq

namespace Settings

def default : Settings where
  dataPath := none
  healthPath := none
  outputFormat := .enhanced
  rangeDays := .ofInt 7
  watchSeconds := 5
  exportFolder := none
  logLevel := "warn"

instance : Inhabited Settings := ⟨default⟩

/-- The path of activity where none is set. -/
def commonDataPath : String := "cache_activity"

def dataPathOrCommon (s : Settings) : String := s.dataPath.getD commonDataPath

def setDataPath (path : String) (s : Settings) : Settings := { s with dataPath := some path }

/-- The settings, in the order in which they are written. -/
inductive Field where
  | dataPath
  | healthPath
  | outputFormat
  | rangeDays
  | watchSeconds
  | exportFolder
  | logLevel
  deriving DecidableEq, Repr

namespace Field

def all : List Field :=
  [.dataPath, .healthPath, .outputFormat, .rangeDays, .watchSeconds, .exportFolder, .logLevel]

def key : Field → String
  | .dataPath => "data_path"
  | .healthPath => "health_response_path"
  | .outputFormat => "default_output_format"
  | .rangeDays => "default_range_days"
  | .watchSeconds => "watch_interval_seconds"
  | .exportFolder => "export_directory"
  | .logLevel => "log_level"

def ofKey? (s : String) : Option Field := all.find? (·.key = s)

@[simp] theorem ofKey?_key (f : Field) : ofKey? f.key = some f := by
  cases f <;> decide

theorem mem_all (f : Field) : f ∈ all := by cases f <;> decide

end Field

end Settings

end CacheActivity
