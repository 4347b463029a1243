import CacheActivity.Files.Disk
import CacheActivity.Settings.Reader
import CacheActivity.Yaml.Writer

/-!
# Settings on a disk

The settings of a user are kept in one file under the home folder, with a line for each setting in a
fixed order. A setting without a value is written as `null`. Without that file all settings have
their defaults.
-/

namespace CacheActivity.Settings

open Files (Disk)

/-- A path as a value. -/
def pathChars : Option String → List Char
  | some path => Yaml.writeScalar path.toList
  | none => "null\n".toList

/-- The value of a setting, and its line break. -/
def fieldChars (s : Settings) : Field → List Char
  | .dataPath => pathChars s.dataPath
  | .healthPath => pathChars s.healthPath
  | .outputFormat => s.outputFormat.name.toList ++ ['\n']
  | .rangeDays => s.rangeDays.text.toList ++ ['\n']
  | .watchSeconds => Nat.toDigits 10 s.watchSeconds.toNat ++ ['\n']
  | .exportFolder => pathChars s.exportFolder
  | .logLevel => Yaml.writeScalar s.logLevel.toList

def memberChars (s : Settings) (f : Field) : List Char :=
  f.key.toList ++ ':' :: ' ' :: s.fieldChars f

def text (s : Settings) : String := String.ofList (Field.all.flatMap s.memberChars)

/-- The folders from the home folder down to the file, and the file. -/
def storeNames : List String := [".config", "cachelytics", "config.yaml"]

/-- The path of the file, seen from a home folder. -/
def storePath (home : String) : String := Files.Path.joinAll home storeNames

/-- Why settings could not be loaded or saved. -/
inductive StoreFault where
  | unreadable (path : String) (cause : FileFault)
  | invalid (path : String) (cause : Problem)
  | noFolder (cause : FileFault)
  | unwritable (path : String) (cause : FileFault)

def StoreFault.message : StoreFault → String
  | .unreadable path cause => "Failed to read " ++ path ++ ": " ++ cause.message
  | .invalid path cause => "Invalid config file " ++ path ++ ": " ++ cause.message
  | .noFolder cause => cause.message
  | .unwritable path cause => "Failed to write " ++ path ++ ": " ++ cause.message

def load (home : String) (d : Disk) : Except StoreFault Settings :=
  let path := storePath home
  if (d.find? path).isNone then .ok default
  else
    match d.read path with
    | .error cause => .error (.unreadable path cause)
    | .ok text =>
      match read text with
      | .error cause => .error (.invalid path cause)
      | .ok s => .ok s

/-- Makes the folder of the file if it is not there, and writes the file. -/
def save (home : String) (s : Settings) (d : Disk) : Except StoreFault Disk :=
  let path := storePath home
  match d.makeFoldersOf path with
  | .error cause => .error (.noFolder cause)
  | .ok d =>
    match d.write path s.text with
    | .error cause => .error (.unwritable path cause)
    | .ok d => .ok d

end CacheActivity.Settings
