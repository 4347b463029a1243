import CacheActivity.Calendar.Date
import CacheActivity.Fault
import CacheActivity.Text.Basic

/-!
# Dates as texts

A date is written as year, month and day with dashes; years outside `0` to `9999` carry a sign.
Reading is laxer than writing: months and days may have one digit, a signed year any number of
them, and blanks may stand before each number. `Date.parse` also reads the compact form of eight
bytes without dashes.
-/

namespace CacheActivity.Calendar.Date

/-- Decimal digits with zeros in front, up to a length. -/
def padded (length n : Nat) : List Char :=
  let ds := Nat.toDigits 10 n
  List.replicate (length - ds.length) '0' ++ ds

/-- A year of four digits, with a sign where it is negative or has more of them. -/
def yearChars (year : Int) : List Char :=
  (if year < 0 then ['-'] else if 9999 < year then ['+'] else []) ++ padded 4 year.natAbs

/-- Year, month and day with a separator between them. -/
def charsWith (separator : List Char) (d : Date) : List Char :=
  yearChars d.year ++ separator ++ padded 2 d.month ++ separator ++ padded 2 d.day

def text (d : Date) : String := String.ofList (d.charsWith ['-'])

/-- The number at the front of a text. -/
def number? (cs : List Char) : Option (Nat × List Char) :=
  let ds := cs.takeWhile Char.isDigit
  if ds.isEmpty then none else some (Text.digitsValue ds, cs.drop ds.length)

/-- The number at the front of a text, of so many digits at most. -/
def shortNumber? (limit : Nat) (cs : List Char) : Option (Nat × List Char) :=
  let ds := (cs.take limit).takeWhile Char.isDigit
  if ds.isEmpty then none else some (Text.digitsValue ds, cs.drop ds.length)

/-- A year: four digits at most, or a sign and any number of them. -/
def year? (cs : List Char) : Option (Int × List Char) :=
  match Text.trimStart cs with
  | '-' :: cs => (number? cs).map fun r => (-(r.1 : Int), r.2)
  | '+' :: cs => (number? cs).map fun r => ((r.1 : Int), r.2)
  | cs => (shortNumber? 4 cs).map fun r => ((r.1 : Int), r.2)

def twoDigits? (cs : List Char) : Option (Nat × List Char) := shortNumber? 2 (Text.trimStart cs)

/-- What follows a separator. -/
def after? (separator cs : List Char) : Option (List Char) :=
  if separator.isPrefixOf cs then some (cs.drop separator.length) else none

/-- The date of a text with a separator between the numbers. -/
def readWith? (separator cs : List Char) : Option Date := do
  let (year, cs) ← year? cs
  let cs ← after? separator cs
  let (month, cs) ← twoDigits? cs
  let cs ← after? separator cs
  let (day, cs) ← twoDigits? cs
  if cs.isEmpty then of? year month day else none

def readDashed? (s : String) : Option Date := readWith? ['-'] s.toList

/-- The number of bytes of a compact date. -/
def compactLength : Nat := 8

/-- The date of a text, blanks around it left out. -/
def parse (input : String) : Except Fault Date :=
  let cs := Text.trim input.toList
  let orFault (d : Option Date) : Except Fault Date :=
    match d with
    | some d => .ok d
    | none => .error (.date input "YYYYMMDD or YYYY-MM-DD")
  if cs.contains '-' then orFault (readWith? ['-'] cs)
  else if Text.byteLength cs ≠ compactLength then .error (.date input "YYYYMMDD")
  else orFault (readWith? [] cs)

end CacheActivity.Calendar.Date
