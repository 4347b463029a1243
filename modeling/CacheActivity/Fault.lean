import CacheActivity.Json.Cursor

/-!
# Faults

Why activity could not be loaded. Each cause has a short message, and the two causes that a user can
mend have a longer explanation.
-/

namespace CacheActivity

/-- Why a file could not be read or written. -/
inductive FileFault where
  | notFound
  | notDirectory
  | isDirectory
  | alreadyExists
  | nameTooLong
  | accessDenied
  /-- A path holds the character of code zero. -/
  | nulInPath
  /-- The bytes are no text. -/
  | notText
  | other (reason : String)
  deriving DecidableEq, Repr

def FileFault.message : FileFault → String
  | .notFound => "No such file or directory (os error 2)"
  | .notDirectory => "Not a directory (os error 20)"
  | .isDirectory => "Is a directory (os error 21)"
  | .alreadyExists => "File exists (os error 17)"
  | .nameTooLong => "File name too long (os error 36)"
  | .accessDenied => "Permission denied (os error 13)"
  | .nulInPath => "file name contained an unexpected NUL byte"
  | .notText => "stream did not contain valid UTF-8"
  | .other reason => reason

inductive Fault where
  | file (cause : FileFault)
  | json (path : String) (line : Nat) (cause : Json.SyntaxError)
  | date (input format : String)
  | invalid (field reason : String)
  | noData (path : String)
  deriving DecidableEq, Repr

namespace Fault

def message : Fault → String
  | .file cause => "I/O error: " ++ cause.message
  | .json path line cause =>
    "JSON parse error in " ++ path ++ " at line " ++ toString line ++ ": " ++ cause.message
  | .date input format =>
    "Date parse error: '" ++ input ++ "' (expected format: " ++ format ++ ")"
  | .invalid field reason => "Validation error in field '" ++ field ++ "': " ++ reason
  | .noData path => "Cache activity data not found: " ++ path

/-- The message with advice. -/
def explanation : Fault → String
  | .json path line cause =>
    "Failed to parse JSON in file '" ++ path ++ "' at line " ++ toString line ++ "\nError: " ++
      cause.message ++
      "\nThe capture is probably truncated or not a gateway activity export."
  | .noData path =>
    "No cache activity data at '" ++ path ++
      "'\nPoint --path (or `config --set-path`) at a captured activity export:" ++
      "\n- a .json file holding an array of rows" ++
      "\n- a .jsonl file with one row per line" ++
      "\n- a directory of YYYY-MM-DD.json daily captures"
  | f => f.message

/-- The message of the fault behind this one. -/
def cause? : Fault → Option String
  | .file cause => some cause.message
  | .json _ _ cause => some cause.message
  | _ => none

/-- A JSON fault in a text that belongs to no file. -/
def ofSyntaxError (cause : Json.SyntaxError) : Fault := .json "unknown" 0 cause

end Fault

end CacheActivity
