/-!
# Places in a JSON text

A cursor is what is left of the text and the place reached: lines count from one, and columns count
the bytes since the last line break. A syntax error names a problem and a place. Some problems are
reported where reading stopped, others one byte further, on the character that is out of place.
-/

namespace CacheActivity.Json

/-- A line and the bytes read on it. -/
structure Position where
  line : Nat
  column : Nat
  deriving DecidableEq, Repr

namespace Position

def start : Position := ⟨1, 0⟩

/-- The place behind a character. -/
def past (p : Position) (c : Char) : Position :=
  if c = '\n' then ⟨p.line + 1, 0⟩ else ⟨p.line, p.column + c.utf8Size⟩

/-- The place behind the first byte of a character. -/
def into (p : Position) (c : Char) : Position :=
  if c = '\n' then ⟨p.line + 1, 0⟩ else ⟨p.line, p.column + 1⟩

/-- The place a number of bytes further on, or at the end of a shorter text. -/
def bytesOn (p : Position) : Nat → List Char → Position
  | _, [] => p
  | n, c :: cs =>
    if n = 0 then p
    else if c = '\n' then bytesOn ⟨p.line + 1, 0⟩ (n - 1) cs
    else bytesOn ⟨p.line, p.column + min n c.utf8Size⟩ (n - c.utf8Size) cs

end Position

inductive Problem where
  | endInList
  | endInObject
  | endInText
  | endInValue
  | colonExpected
  | listCommaOrEndExpected
  | objectCommaOrEndExpected
  | identExpected
  | valueExpected
  | invalidEscape
  | invalidNumber
  | numberOutOfRange
  | controlCharacter
  | keyNotText
  | loneSurrogate
  | trailingComma
  | trailingCharacters
  | hexEscapeCutShort
  | tooDeep
  | repeatedField (name : String)
  | wrongType (found expected : String)
  deriving DecidableEq, Repr

def Problem.message : Problem → String
  | .endInList => "EOF while parsing a list"
  | .endInObject => "EOF while parsing an object"
  | .endInText => "EOF while parsing a string"
  | .endInValue => "EOF while parsing a value"
  | .colonExpected => "expected `:`"
  | .listCommaOrEndExpected => "expected `,` or `]`"
  | .objectCommaOrEndExpected => "expected `,` or `\x7d`"
  | .identExpected => "expected ident"
  | .valueExpected => "expected value"
  | .invalidEscape => "invalid escape"
  | .invalidNumber => "invalid number"
  | .numberOutOfRange => "number out of range"
  | .controlCharacter => "control character (\\u0000-\\u001F) found while parsing a string"
  | .keyNotText => "key must be a string"
  | .loneSurrogate => "lone leading surrogate in hex escape"
  | .trailingComma => "trailing comma"
  | .trailingCharacters => "trailing characters"
  | .hexEscapeCutShort => "unexpected end of hex escape"
  | .tooDeep => "recursion limit exceeded"
  | .repeatedField name => "duplicate field `" ++ name ++ "`"
  | .wrongType found expected => "invalid type: " ++ found ++ ", expected " ++ expected

structure SyntaxError where
  problem : Problem
  position : Position
  deriving DecidableEq, Repr

/-- The problem, then the place. -/
def SyntaxError.message (e : SyntaxError) : String :=
  e.problem.message ++ " at line " ++ toString e.position.line ++ " column " ++
    toString e.position.column

/-- The text ahead and the place reached. -/
structure Cursor where
  rest : List Char
  position : Position
  deriving Repr

/-- Takes something from the front of a text. -/
abbrev Reader (α : Type) := Cursor → Except SyntaxError (α × Cursor)

/-- Blanks between tokens. -/
def isBlank (c : Char) : Bool := c = ' ' || c = '\n' || c = '\t' || c = '\r'

namespace Cursor

def start (text : List Char) : Cursor := ⟨text, .start⟩

/-- Past the next character. -/
def step : Cursor → Cursor
  | ⟨[], p⟩ => ⟨[], p⟩
  | ⟨c :: cs, p⟩ => ⟨cs, p.past c⟩

/-- Forward to a later part of the text, over characters of one byte on the same line. -/
def jump (c : Cursor) (rest : List Char) : Cursor :=
  ⟨rest, c.position.line, c.position.column + (c.rest.length - rest.length)⟩

def skipBlanks (c : Cursor) : Cursor := go c.rest c.position
where
  go : List Char → Position → Cursor
    | [], p => ⟨[], p⟩
    | c :: cs, p => if isBlank c then go cs (p.past c) else ⟨c :: cs, p⟩

/-- The place of the next byte. -/
def next : Cursor → Position
  | ⟨[], p⟩ => p
  | ⟨c :: _, p⟩ => p.into c

def fail {α : Type} (c : Cursor) (problem : Problem) : Except SyntaxError α :=
  .error ⟨problem, c.position⟩

/-- Reports a problem on the next byte. -/
def failNext {α : Type} (c : Cursor) (problem : Problem) : Except SyntaxError α :=
  .error ⟨problem, c.next⟩

end Cursor

end CacheActivity.Json
