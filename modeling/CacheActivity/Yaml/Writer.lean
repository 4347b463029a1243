import CacheActivity.Yaml.Plain
import CacheActivity.Yaml.Scalar

/-!
# Writing texts as scalars

A text is written plain where it reads back as that text. It is quoted where it would be read as
something else, and a text of several lines becomes a literal block. Characters that do not show
are escaped, and then the quotes are double ones.
-/

namespace CacheActivity.Yaml

/-- The characters that are written as they are. -/
def isPrintable (c : Char) : Bool :=
  let n := c.toNat
  n = 10 || (0x20 ≤ n && n ≤ 0x7E) || (0xA0 ≤ n && n ≤ 0xFFFD && n ≠ 0xFEFF) || 0x10000 ≤ n

/-- The characters that start no plain text. -/
def leadingIndicators : List Char :=
  ['#', ',', '[', ']', '\x7b', '\x7d', '&', '*', '!', '|', '>', '\'', '"', '%', '@', '\x60']

def startsLikeMarker (cs : List Char) : Bool :=
  ['-', '-', '-'].isPrefixOf cs || ['.', '.', '.'].isPrefixOf cs

/-- That the first character would be read as an indicator. -/
def startsWithIndicator (cs : List Char) : Bool :=
  match cs with
  | [] => false
  | c :: cs =>
    leadingIndicators.contains c || ((c = '?' || c = ':' || c = '-') && blankNext cs)

/-- That a later colon or number sign would be read as an indicator. -/
def hasInnerIndicator : List Char → Bool
  | [] => false
  | c :: cs =>
    match cs with
    | [] => false
    | d :: rest =>
      (d = ':' && blankNext rest) || (d = '#' && (isBlank c || isBreak c)) || hasInnerIndicator cs

def isSpaceOrBreak (c : Char) : Bool := c = ' ' || isBreak c

/-- That two neighbours have two properties. -/
def hasPair (p q : Char → Bool) : List Char → Bool
  | c :: d :: cs => (p c && q d) || hasPair p q (d :: cs)
  | _ => false

def allowsPlain (cs : List Char) : Bool :=
  cs.all isPrintable && !cs.any isBreak && !startsLikeMarker cs && !startsWithIndicator cs &&
    !hasInnerIndicator cs && !(cs.head?.map isSpaceOrBreak).getD false &&
    !(cs.getLast?.map isSpaceOrBreak).getD false

def allowsSingleQuotes (cs : List Char) : Bool :=
  cs.all isPrintable && !hasPair (· = ' ') isBreak cs && !hasPair isBreak (· = ' ') cs

def allowsLiteral (cs : List Char) : Bool :=
  cs.all isPrintable && !hasPair (· = ' ') isBreak cs && cs.getLast? ≠ some ' '

/-- The style in which a text is written. -/
def styleOf (cs : List Char) : Style :=
  if cs.contains '\n' then (if allowsLiteral cs then .literal else .doubleQuoted)
  else if meaning cs = .text && !hasLeadingZeros cs && allowsPlain cs then .plain
  else if allowsSingleQuotes cs then .singleQuoted
  else .doubleQuoted

/-- The indentation of further lines in a mapping without indentation. -/
def lineIndent : List Char := [' ', ' ']

/-- A text between single quotes, with apostrophes doubled; `broken` says that a line starts. -/
def singleQuotedChars (broken : Bool) : List Char → List Char
  | [] => if broken then lineIndent else []
  | c :: cs =>
    if isBreak c then c :: singleQuotedChars true cs
    else
      (if broken then lineIndent else []) ++ (if c = '\'' then ['\'', '\''] else [c]) ++
        singleQuotedChars false cs

/-- Hexadecimal digits in upper case, with zeros in front up to a length. -/
def hexDigits (length n : Nat) : List Char :=
  let ds := (Nat.toDigits 16 n).map Char.toUpper
  List.replicate (length - ds.length) '0' ++ ds

/-- The letter that stands for a character behind a backslash. -/
def escapeLetter? : Char → Option Char
  | '\x00' => some '0'
  | '\x07' => some 'a'
  | '\x08' => some 'b'
  | '\t' => some 't'
  | '\n' => some 'n'
  | '\x0b' => some 'v'
  | '\x0c' => some 'f'
  | '\r' => some 'r'
  | '\x1b' => some 'e'
  | '"' => some '"'
  | '\\' => some '\\'
  | '\u0085' => some 'N'
  | '\u2028' => some 'L'
  | '\u2029' => some 'P'
  | _ => none

/-- A character in double quotes. -/
def escapeChar (c : Char) : List Char :=
  match escapeLetter? c with
  | some letter => ['\\', letter]
  | none =>
    if isPrintable c then [c]
    else
      let n := c.toNat
      if n ≤ 0xFF then '\\' :: 'x' :: hexDigits 2 n
      else if n ≤ 0xFFFF then '\\' :: 'u' :: hexDigits 4 n
      else '\\' :: 'U' :: hexDigits 8 n

/-- The lines of a block. Empty ones are not indented. -/
def blockChars (lineStart : Bool) : List Char → List Char
  | [] => []
  | c :: cs =>
    if isBreak c then c :: blockChars true cs
    else (if lineStart then lineIndent else []) ++ c :: blockChars false cs

/-- What the first line of a block says about the blanks in front of its text and about its last
breaks. -/
def blockHints (cs : List Char) : List Char :=
  (if (cs.head?.map isSpaceOrBreak).getD false then Nat.toDigits 10 lineIndent.length else []) ++
    match cs.reverse with
    | c :: d :: _ => if !isBreak c then ['-'] else if isBreak d then ['+'] else []
    | [c] => if isBreak c then ['+'] else ['-']
    | [] => ['-']

/-- A text as the value of a member, and its line break. -/
def writeScalar (cs : List Char) : List Char :=
  match styleOf cs with
  | .plain => cs ++ ['\n']
  | .singleQuoted => '\'' :: singleQuotedChars false cs ++ ['\'', '\n']
  | .literal | .folded =>
    '|' :: blockHints cs ++ '\n' :: blockChars true cs ++
      (if (cs.getLast?.map isBreak).getD false then [] else ['\n'])
  | .doubleQuoted => '"' :: cs.flatMap escapeChar ++ ['"', '\n']

end CacheActivity.Yaml
