import CacheActivity.Settings.Basic
import CacheActivity.Text.Literal
import CacheActivity.Yaml.Event
import CacheActivity.Yaml.Plain

/-!
# Settings from a text

A text of settings is a mapping. A key that is no setting is passed over, a setting without a key
has its default, and no key may come twice. Paths and texts take any scalar, and numbers only plain
ones.
-/

namespace CacheActivity.Settings

open Yaml (Event EventKind Mark Meaning Promise)

inductive Defect where
  | wrongType (found expected : String)
  | wrongValue (found expected : String)
  | unknownVariant (name : String)
  | repeatedField (key : String)
  deriving DecidableEq, Repr

/-- Names in quotes with commas between them. -/
def quotedNames (names : List String) : String :=
  ", ".intercalate (names.map fun n => "`" ++ n ++ "`")

def Defect.message : Defect → String
  | .wrongType found expected => "invalid type: " ++ found ++ ", expected " ++ expected
  | .wrongValue found expected => "invalid value: " ++ found ++ ", expected " ++ expected
  | .unknownVariant name =>
    "unknown variant `" ++ name ++ "`, expected one of " ++
      quotedNames (OutputFormat.all.map OutputFormat.name)
  | .repeatedField key => "duplicate field `" ++ key ++ "`"

/-- Where in the mapping a node is. -/
inductive Path where
  /-- The mapping itself, or one of its keys. -/
  | root
  | member (key : String)
  /-- The value of a key that is an alias. -/
  | unnamed
  deriving DecidableEq, Repr

def Path.text : Path → String
  | .root => ""
  | .member key => key ++ ": "
  | .unnamed => "?: "

inductive Problem where
  | syntaxError (e : Yaml.SyntaxError)
  | defect (d : Defect) (path : Path) (m : Mark)
  | manyDocuments
  | endOfDocument
  deriving DecidableEq, Repr

def Problem.message : Problem → String
  | .syntaxError e => e.message
  | .defect d path m => path.text ++ d.message ++ (Yaml.Place.mark m).text
  | .manyDocuments =>
    "deserializing from YAML containing more than one document is not supported"
  | .endOfDocument => "EOF while parsing a value"

/-- The largest unsigned word, one less than `2 ^ 64`. -/
def greatestWord : Int := 18446744073709551615

/-- The smallest and the largest integer that are called plain integers, signed or not. -/
def wordBounds : Int × Int := (Count.least, greatestWord)

/-- What a scalar is called in a message. -/
def meaningText (text : List Char) : Meaning → String
  | .nothing => "unit value"
  | .bool b => "boolean `" ++ (if b then "true" else "false") ++ "`"
  | .integer z =>
    "integer `" ++ toString z ++ "`" ++
      if wordBounds.1 ≤ z ∧ z ≤ wordBounds.2 then "" else if 0 ≤ z then " as u128" else " as i128"
  | .float x =>
    "floating point `" ++
      String.ofList ((if x.negative then ['-'] else []) ++ x.shortest.positional) ++ "`"
  | .infinite negative => "floating point `" ++ (if negative then "-inf" else "inf") ++ "`"
  | .notNumber => "floating point `NaN`"
  | .text => "string " ++ Text.literal (String.ofList text)

def quoted (text : List Char) : String := meaningText text .text

/-- What is wrong with an event in place of something else. The promise of a common tag goes before
what a scalar means by itself. -/
def defectOf (expected : String) (e : Event) : Defect :=
  match e.kind with
  | .scalar style text =>
    match e.tag.bind Promise.ofTag? with
    | some p =>
      match p.meaning? text with
      | some m => .wrongType (meaningText text m) expected
      | none => .wrongValue (quoted text) p.text
    | none =>
      let own := e.tag.all (·.head? = some (some '!'))
      .wrongType (meaningText text (if style = .plain && own then Yaml.meaning text else .text))
        expected
  | .mappingStart | .mappingEnd => .wrongType "map" expected
  | _ => .wrongType "sequence" expected

/-- What is read from the value of a key. -/
abbrev Decoder (α : Type) := Path → Event → Except Problem α

def mismatch {α : Type} (expected : String) : Decoder α := fun path e =>
  .error (.defect (defectOf expected e) path e.mark)

/-- Any scalar as a text. -/
def textOf (expected : String) : Decoder String := fun path e =>
  match e.kind with
  | .scalar _ text => .ok (String.ofList text)
  | _ => mismatch expected path e

/-- A path, or none where a plain scalar stands for nothing. `root` is where the mapping starts. -/
def pathIn (root : Mark) : Decoder (Option String) := fun path e =>
  let some? := (textOf "path string" path e).map some
  match e.kind, e.tag with
  | .scalar .plain text, none => if Yaml.isNull text then .ok none else some?
  | .scalar .plain text, some tag =>
    if Promise.ofTag? tag ≠ some .nothing then some?
    else if (Promise.nothing.meaning? text).isSome then .ok none
    else .error (.defect (.wrongValue (quoted text) Promise.nothing.text) .root root)
  | _, _ => some?

/-- That a scalar can be an integer: a plain one, or a literal one with the tag of integers. -/
def canBeInteger (e : Event) : Bool :=
  match e.kind with
  | .scalar .plain _ => true
  | .scalar .literal _ => e.tag.bind Promise.ofTag? = some .integer
  | _ => false

/-- An integer between two bounds, with a sign or without one. -/
def integerOf (expected : String) (signed : Bool) (least greatest : Int) : Decoder Int :=
  fun path e =>
    match e.kind with
    | .scalar _ text =>
      let z? := if signed then Yaml.integer? text else Yaml.unsigned? text
      match z?.filter fun z => canBeInteger e && least ≤ z && z ≤ greatest with
      | some z => .ok z
      | none => mismatch expected path e
    | _ => mismatch expected path e

/-- The name in a tag of one's own: what stands behind the exclamation mark, or the mark alone. -/
def tagName? (e : Event) : Option String :=
  match e.tag.bind Yaml.TagText.chars? with
  | some ['!'] => some "!"
  | some ('!' :: name) => some (String.ofList name)
  | _ => none

def formatOf (name : String) (path : Path) (m : Mark) : Except Problem OutputFormat :=
  match OutputFormat.ofName? name with
  | some f => .ok f
  | none => .error (.defect (.unknownVariant name) path m)

/-- A format, named by a scalar or by the tag of an empty one. `root` is where the mapping
starts. -/
def formatIn (root : Mark) : Decoder OutputFormat := fun path e =>
  match tagName? e, e.kind with
  | some name, kind => do
    let f ← formatOf name .root root
    match kind with
    | .scalar style text =>
      if style = .plain && Yaml.isNull text then .ok f
      else .error (.defect (.wrongValue (quoted text) Promise.nothing.text) path e.mark)
    | _ => mismatch "unit" path e
  | none, .scalar _ text => formatOf (String.ofList text) path e.mark
  | none, _ => mismatch "a YAML tag starting with '!'" path e

/-- Sets one setting from the value of its key. -/
def setField (root : Mark) (s : Settings) (f : Field) (path : Path) (e : Event) :
    Except Problem Settings :=
  match f with
  | .dataPath => (pathIn root path e).map fun p => { s with dataPath := p }
  | .healthPath => (pathIn root path e).map fun p => { s with healthPath := p }
  | .outputFormat => (formatIn root path e).map fun f => { s with outputFormat := f }
  | .rangeDays =>
    (integerOf "i64" true Count.least Count.greatest path e).map fun z =>
      { s with rangeDays := .ofInt z }
  | .watchSeconds =>
    (integerOf "u64" false 0 greatestWord path e).map fun z =>
      { s with watchSeconds := .ofNat z.toNat }
  | .exportFolder => (pathIn root path e).map fun p => { s with exportFolder := p }
  | .logLevel => (textOf "a string" path e).map fun t => { s with logLevel := t }

/-! ## The mapping -/

/-- The node that an event stands for. -/
def resolve (d : Yaml.Document) (e : Event) : Event :=
  match e.kind with
  | .alias name => (Yaml.Document.target? d.events name e.mark).getD e
  | _ => e

/-- The problem at which a document breaks off. -/
def broken (d : Yaml.Document) : Problem :=
  match d.fault with
  | some e => .syntaxError e
  | none => .endOfDocument

def valuePath (key : Event) : Path :=
  match key.kind with
  | .scalar _ text => .member (String.ofList text)
  | _ => .unnamed

/-- The members of a mapping from here on. -/
def readMembers (d : Yaml.Document) (root : Mark) :
    Nat → List Field → Settings → List Event → Except Problem Settings
  | 0, _, _, _ => .error (broken d)
  | _ + 1, _, _, [] => .error (broken d)
  | fuel + 1, seen, s, k :: es =>
    if k.kind = .mappingEnd then .ok s
    else do
      let key ← textOf "field identifier" .root (resolve d k)
      match Field.ofKey? key, es with
      | some f, v :: es =>
        if f ∈ seen then .error (.defect (.repeatedField key) .root root)
        else do
          let s ← setField root s f (valuePath k) (resolve d v)
          readMembers d root fuel (f :: seen) s es
      | some f, [] =>
        if f ∈ seen then .error (.defect (.repeatedField key) .root root) else .error (broken d)
      | none, v :: es =>
        match Yaml.behindNode v es with
        | some es => readMembers d root fuel seen s es
        | none => .error (broken d)
      | none, [] => .error (broken d)

def ofEvents (d : Yaml.Document) : Except Problem Settings :=
  match d.events with
  | [] => if d.fault.isNone then .ok default else .error (broken d)
  | e :: es =>
    match e.kind with
    | .mappingStart => readMembers d e.mark (es.length + 1) [] default es
    | .scalar .plain [] => .ok default
    | _ => mismatch "struct Config" .root e

def ofDocument (d : Yaml.Document) : Except Problem Settings := do
  let s ← ofEvents d
  match d.fault with
  | some e => .error (.syntaxError e)
  | none => if d.more then .error .manyDocuments else .ok s

def read (text : String) : Except Problem Settings := ofDocument (.read text.toList)

end CacheActivity.Settings
