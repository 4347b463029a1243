import CacheActivity.Files.Disk
import CacheActivity.Json.Layers
import CacheActivity.Text.Basic

/-!
# Health of the cache

A health check gives a response or fails with a message, and either can hold an error. An error
arrives in many shapes: an object, a text, JSON inside a text, and that once more. `Check.result`
reduces all of them to a success or to a failure with a message.
-/

namespace CacheActivity.Health

open Json (Value Members)

inductive Check where
  | response (body : Value)
  /-- The check itself failed. -/
  | thrown (message : String)

structure Success where
  status : String
  cacheType : String
  pingResponse : Bool
  setCacheResponse : String
  cacheParams : Option Value
  checkParams : Option Value

structure Failure where
  message : String
  /-- The other members of the error as texts, in their order. -/
  extra : List (String × String)

inductive Result where
  | success (s : Success)
  | failure (f : Failure)

def Result.isSuccess : Result → Bool
  | .success _ => true
  | .failure _ => false

/-- The error that members carry. A missing, null, false or empty one is none. -/
def carriedError? (ms : Members) : Option Value :=
  match ms.get? "error" with
  | none | some .null | some (.bool false) | some (.text "") => none
  | some v => some v

/-- The members of an error. A value that has none becomes the message. -/
def errorMembers : Value → Members
  | .object ms => ms
  | .null => []
  | v => [("message", .text v.plainText)]

/-- How many layers of text come off an error. -/
def errorLayers : Nat := 2

/-- The error inside the message of an error, if that is a text with an object in it. One layer came
off before the message is known, and the message may hold the layers that are left. -/
def unfoldMessage (ms : Members) : Members :=
  match ms.get? "message" with
  | some (.text s) =>
    match (Value.text s).peelUpTo (errorLayers - 1) with
    | .object inner => inner
    | _ => ms
  | _ => ms

def Failure.ofMembers (ms : Members) : Failure where
  message := ((ms.get? "message").map Value.plainText).getD ""
  extra := (ms.erase "message").map fun (k, v) => (k, v.plainText)

/-- The failure of an error, which may come inside a text. -/
def Failure.ofError (v : Value) : Failure := .ofMembers (unfoldMessage (errorMembers v.peel))

def textOf (key : String) (ms : Members) : String :=
  match ms.get? key with
  | none | some .null => ""
  | some v => v.plainText

/-- A member that may come inside a text. -/
def paramsOf? (key : String) (ms : Members) : Option Value :=
  match ms.get? key with
  | none | some .null => none
  | some v => some v.peel

def Success.ofMembers (ms : Members) : Success where
  status := textOf "status" ms
  cacheType := textOf "cache_type" ms
  pingResponse := ((ms.get? "ping_response").bind Value.asBool?).getD false
  setCacheResponse := textOf "set_cache_response" ms
  cacheParams := paramsOf? "litellm_cache_params" ms
  checkParams := paramsOf? "health_check_cache_params" ms

/-- The result of a response: a success if it is an object without an error. -/
def resultOfBody (body : Value) : Result :=
  match body.peel with
  | .object ms =>
    match carriedError? ms with
    | some e => .failure (.ofError e)
    | none => .success (.ofMembers ms)
  | v => .failure (.ofError v)

/-- The message of a check that failed without one. -/
def unknownError : String := "Unknown error occurred"

def thrownError (message : String) : Value :=
  if message = "" then .object [("message", .text unknownError)]
  else
    match (Value.text message).peel with
    | .object ms => (carriedError? ms).getD (.object ms)
    | _ => .object [("message", .text message)]

def Check.result : Check → Result
  | .response body => resultOfBody body
  | .thrown message => .failure (.ofError (thrownError message))

/-- The check that a captured response stands for. A text that is no JSON counts as the message of a
failed check, and so does the reason why there is no text. -/
def Check.ofCapture : Except FileFault String → Check
  | .ok text =>
    match Json.read text with
    | .ok body => .response body
    | .error _ => .thrown (String.ofList (Text.trim text.toList))
  | .error cause => .thrown cause.message

/-- A member, if there is a value for it. -/
def optional (key : String) (v : Option Value) : Members := (v.map fun v => (key, v)).toList

def Success.toValue (s : Success) : Value :=
  .object ([("result", .text "success"), ("status", .text s.status),
    ("cacheType", .text s.cacheType), ("pingResponse", .bool s.pingResponse),
    ("setCacheResponse", .text s.setCacheResponse)] ++
    optional "cacheParams" s.cacheParams ++ optional "healthCheckCacheParams" s.checkParams)

def Failure.toValue (f : Failure) : Value :=
  .object [("result", .text "failure"), ("message", .text f.message),
    ("extra", .object (f.extra.map fun (k, v) => (k, .text v)))]

def Result.toValue : Result → Value
  | .success s => s.toValue
  | .failure f => f.toValue

end CacheActivity.Health
