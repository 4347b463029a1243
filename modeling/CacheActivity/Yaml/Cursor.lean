import CacheActivity.Text.Basic

/-!
# Places in a YAML text

A cursor is what is left of a text and a mark of the place reached: the bytes passed, the line, and
the characters passed on that line, all counted from zero. Lines end at a line feed, a carriage
return, both together, or one of three further breaks.
-/

namespace CacheActivity.Yaml

def isBreak (c : Char) : Bool :=
  c = '\n' || c = '\r' || c = '\u0085' || c = '\u2028' || c = '\u2029'

def isBlank (c : Char) : Bool := c = ' ' || c = '\t'

/-- The characters of anchors, handles and directives. -/
def isWord (c : Char) : Bool := c.isAlphanum || c = '-' || c = '_'

/-- That a blank, a break or nothing comes next. -/
def blankNext : List Char → Bool
  | [] => true
  | c :: _ => isBlank c || isBreak c

/-- That a break or nothing comes next. -/
def breakNext : List Char → Bool
  | [] => true
  | c :: _ => isBreak c

/-- What a break stands for inside a scalar. -/
def breakText (c : Char) : List Char := if c = '\u2028' ∨ c = '\u2029' then [c] else ['\n']

/-- That a document starts or ends here, if a line does. -/
def documentMarkerNext : List Char → Bool
  | a :: b :: c :: cs => a = b && b = c && (a = '-' || a = '.') && blankNext cs
  | _ => false

structure Mark where
  index : Nat
  line : Nat
  column : Nat
  deriving DecidableEq, Repr

namespace Mark

def start : Mark := ⟨0, 0, 0⟩

/-- Past characters of one line. -/
def on (m : Mark) (cs : List Char) : Mark :=
  ⟨m.index + Text.byteLength cs, m.line, m.column + cs.length⟩

def newLine (m : Mark) (cs : List Char) : Mark := ⟨m.index + Text.byteLength cs, m.line + 1, 0⟩

def atStart (m : Mark) : Bool := m.line = 0 && m.column = 0

/-- The place, counted from one. -/
def text (m : Mark) : String :=
  "line " ++ toString (m.line + 1) ++ " column " ++ toString (m.column + 1)

end Mark

structure Cursor where
  rest : List Char
  mark : Mark
  deriving Repr

namespace Cursor

def start (text : List Char) : Cursor := ⟨text, .start⟩

/-- Past some characters of a line. -/
def pass (n : Nat) (c : Cursor) : Cursor := ⟨c.rest.drop n, c.mark.on (c.rest.take n)⟩

/-- Past all characters of a line that have a property. -/
def passWhile (p : Char → Bool) (c : Cursor) : Cursor := c.pass (c.rest.takeWhile p).length

/-- Past a break, if one comes next, and what it stands for. -/
def takeBreak (c : Cursor) : List Char × Cursor :=
  match c.rest with
  | '\r' :: '\n' :: cs => (['\n'], ⟨cs, c.mark.newLine ['\r', '\n']⟩)
  | ch :: cs => if isBreak ch then (breakText ch, ⟨cs, c.mark.newLine [ch]⟩) else ([], c)
  | [] => ([], c)

def passBreak (c : Cursor) : Cursor := c.takeBreak.2

/-- Past blanks, a comment and the end of the line, if nothing else is left on it. -/
def passLineEnd? (c : Cursor) : Option Cursor :=
  let c := c.passWhile isBlank
  let c := if c.rest.head? = some '#' then c.passWhile (!isBreak ·) else c
  if breakNext c.rest then some c.passBreak else none

/-- The mark of the end of the text: a last line without a break counts as ended. -/
def endMark (c : Cursor) : Mark :=
  if c.mark.column = 0 then c.mark else ⟨c.mark.index, c.mark.line + 1, 0⟩

end Cursor

end CacheActivity.Yaml
