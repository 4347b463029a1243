import CacheActivity.Binary64.Decimal
import CacheActivity.Json.Basic
import CacheActivity.Json.Quoted

/-!
# Writing JSON texts

`compact` writes a value without blanks. `pretty` puts every item on a line of its own, two blanks
deeper than the bracket around it, and leaves empty arrays and objects on one line. Both keep the
order of the members.
-/

namespace CacheActivity.Json

/-- Doubles from `10 ^ -5` up to below `10 ^ 16` are written with a point, all others with a
power. -/
def doubleLayout : Decimal.Layout := ⟨-5, 15⟩

/-- The decimal digits of an integer, behind a minus sign where it is negative. -/
def writeInt (z : Int) : List Char :=
  (if z < 0 then ['-'] else []) ++ Nat.toDigits 10 z.natAbs

def Number.write : Number → List Char
  | .whole z => writeInt z
  | .double x => x.write doubleLayout

def writeBool (b : Bool) : List Char :=
  if b then ['t', 'r', 'u', 'e'] else ['f', 'a', 'l', 's', 'e']

mutual

def Value.chars : Value → List Char
  | .null => ['n', 'u', 'l', 'l']
  | .bool b => writeBool b
  | .number n => n.write
  | .text s => quote s
  | .array vs => '[' :: itemChars vs ++ [']']
  | .object ms => '\x7b' :: memberChars ms ++ ['\x7d']

def itemChars : List Value → List Char
  | [] => []
  | v :: vs => v.chars ++ (if vs.isEmpty then [] else [',']) ++ itemChars vs

def memberChars : List (String × Value) → List Char
  | [] => []
  | (k, v) :: ms =>
    quote k ++ ':' :: v.chars ++ (if ms.isEmpty then [] else [',']) ++ memberChars ms

end

/-- The text of a value without blanks. -/
def Value.compact (v : Value) : String := String.ofList v.chars

/-- A text as it is, any other value as its compact text. -/
def Value.plainText : Value → String
  | .text s => s
  | v => v.compact

/-- A line break and the blanks of a level. -/
def newLine (level : Nat) : List Char := '\n' :: List.replicate (2 * level) ' '

mutual

def Value.prettyChars (level : Nat) : Value → List Char
  | .array [] => ['[', ']']
  | .array (v :: vs) =>
    '[' :: prettyItems (level + 1) (v :: vs) ++ newLine level ++ [']']
  | .object [] => ['\x7b', '\x7d']
  | .object (m :: ms) =>
    '\x7b' :: prettyMembers (level + 1) (m :: ms) ++ newLine level ++ ['\x7d']
  | .null => ['n', 'u', 'l', 'l']
  | .bool b => writeBool b
  | .number n => n.write
  | .text s => quote s

def prettyItems (level : Nat) : List Value → List Char
  | [] => []
  | v :: vs =>
    newLine level ++ v.prettyChars level ++ (if vs.isEmpty then [] else [',']) ++
      prettyItems level vs

def prettyMembers (level : Nat) : List (String × Value) → List Char
  | [] => []
  | (k, v) :: ms =>
    newLine level ++ quote k ++ ':' :: ' ' :: v.prettyChars level ++
      (if ms.isEmpty then [] else [',']) ++ prettyMembers level ms

end

/-- The text of a value on lines. -/
def Value.pretty (v : Value) : String := String.ofList (v.prettyChars 0)

end CacheActivity.Json
