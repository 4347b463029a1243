import CacheActivity.Binary64.Decimal
import CacheActivity.Yaml.Property

/-!
# What plain scalars mean

A plain scalar may stand for nothing, a truth value or a number, and otherwise it is a text.
Integers have an optional sign and decimal digits, or a base and digits of it. A number with
superfluous zeros in front is a text.
-/

namespace CacheActivity.Yaml

/-- What a plain scalar stands for. -/
inductive Meaning where
  | nothing
  | bool (value : Bool)
  | integer (value : Int)
  | float (value : Binary64)
  | infinite (negative : Bool)
  | notNumber
  | text
  deriving DecidableEq, Repr

def nullTexts : List String := ["null", "Null", "NULL", "~"]

def isNull (cs : List Char) : Bool := cs = [] || nullTexts.contains (String.ofList cs)

def bool? (cs : List Char) : Option Bool :=
  let s := String.ofList cs
  if ["true", "True", "TRUE"].contains s then some true
  else if ["false", "False", "FALSE"].contains s then some false
  else none

/-- Digits with superfluous zeros in front. -/
def hasLeadingZeros (cs : List Char) : Bool :=
  match (Text.splitSign cs).2 with
  | '0' :: c :: cs => (c :: cs).all Char.isDigit
  | _ => false

/-- The number of unsigned digits, in the base that their first characters name. -/
def natural? : List Char → Option Nat
  | '0' :: 'x' :: cs => Text.inBase? 16 cs
  | '0' :: 'o' :: cs => Text.inBase? 8 cs
  | '0' :: 'b' :: cs => Text.inBase? 2 cs
  | cs => Text.inBase? 10 cs

def integer? (cs : List Char) : Option Int :=
  if hasLeadingZeros cs then none
  else
    let (negative, ds) := Text.splitSign cs
    (natural? ds).map fun n => if negative then -(n : Int) else n

/-- The integer of a text without a minus sign. -/
def unsigned? (cs : List Char) : Option Int :=
  if cs.head? = some '-' then none else integer? cs

/-- The integers that are not read as floating numbers: from `-2 ^ 127` to below `2 ^ 128`. -/
def integerBounds : Int × Int :=
  (-170141183460469231731687303715884105728, 340282366920938463463374607431768211455)

def boundedInteger? (cs : List Char) : Option Int :=
  (integer? cs).filter fun z => integerBounds.1 ≤ z && z ≤ integerBounds.2

/-- A floating number, with or without superfluous zeros. -/
def anyFloat? (cs : List Char) : Option Meaning :=
  let s := String.ofList cs
  let unsigned := if cs.head? = some '+' then cs.drop 1 else cs
  if [".inf", ".Inf", ".INF"].contains (String.ofList unsigned) then some (.infinite false)
  else if ["-.inf", "-.Inf", "-.INF"].contains s then some (.infinite true)
  else if [".nan", ".NaN", ".NAN"].contains s then some .notNumber
  else (Numeral.double? cs).map .float

def float? (cs : List Char) : Option Meaning :=
  if hasLeadingZeros cs then none else anyFloat? cs

def meaning (cs : List Char) : Meaning :=
  if isNull cs then .nothing
  else
    match bool? cs with
    | some b => .bool b
    | none =>
      match boundedInteger? cs with
      | some z => .integer z
      | none => (float? cs).getD .text

/-- What a tag of the common schema promises about its scalar. -/
inductive Promise where
  | bool
  | integer
  | float
  | nothing
  deriving DecidableEq, Repr

namespace Promise

def ofTag? (tag : TagText) : Option Promise :=
  match tag.chars?.map String.ofList with
  | some "tag:yaml.org,2002:bool" => some .bool
  | some "tag:yaml.org,2002:int" => some .integer
  | some "tag:yaml.org,2002:float" => some .float
  | some "tag:yaml.org,2002:null" => some .nothing
  | _ => none

/-- What a promise asks for. -/
def text : Promise → String
  | .bool => "a boolean"
  | .integer => "an integer"
  | .float => "a float"
  | .nothing => "null"

/-- What a scalar stands for under a promise, if it keeps it. -/
def meaning? (p : Promise) (cs : List Char) : Option Meaning :=
  match p with
  | .bool => (bool? cs).map .bool
  | .integer => (boundedInteger? cs).map .integer
  | .float => anyFloat? cs
  | .nothing => if nullTexts.contains (String.ofList cs) then some .nothing else none

end Promise

end CacheActivity.Yaml
