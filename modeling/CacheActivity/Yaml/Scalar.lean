import CacheActivity.Text.Basic
import CacheActivity.Yaml.SyntaxError

/-!
# Scalars in a YAML text

A scalar is plain, quoted in one of two ways, or a block of lines. Breaks inside plain and quoted
scalars fold: one break becomes a blank, and of several the first is dropped. A literal block keeps
its breaks, and a folded one joins lines that do not start with a blank.
-/

namespace CacheActivity.Yaml

inductive Style where
  | plain
  | singleQuoted
  | doubleQuoted
  | literal
  | folded
  deriving DecidableEq, Repr

/-- Blanks and breaks between two parts of a scalar. -/
structure Gap where
  /-- The blanks before the first break. -/
  blanks : List Char
  /-- Whether a break came. -/
  broken : Bool
  /-- What the first break stands for. -/
  first : List Char
  /-- What the later breaks stand for. -/
  others : List Char

namespace Gap

def none : Gap := ⟨[], false, [], []⟩

/-- The gap behind an escaped break, which stands for nothing. -/
def escaped : Gap := ⟨[], true, [], []⟩

def addBlank (g : Gap) (c : Char) : Gap :=
  if g.broken then g else { g with blanks := g.blanks ++ [c] }

def addBreak (g : Gap) (text : List Char) : Gap :=
  if g.broken then { g with others := g.others ++ text } else ⟨[], true, text, []⟩

/-- What a gap stands for. -/
def fold (g : Gap) : List Char :=
  if !g.broken then g.blanks
  else if g.first = ['\n'] then (if g.others = [] then [' '] else g.others)
  else g.first ++ g.others

/-- The gap that comes next, added to one before. On a new line there is no tab left of the
indentation. -/
def read (activity : Activity) (since : Mark) (indentation : Nat) (g : Gap) :
    List Char → Mark → Except SyntaxError (Gap × Cursor)
  | [], m => .ok (g, ⟨[], m⟩)
  | '\r' :: '\n' :: cs, m =>
    read activity since indentation (g.addBreak ['\n']) cs (m.newLine ['\r', '\n'])
  | c :: cs, m =>
    if isBlank c then
      if g.broken && c = '\t' && m.column < indentation then
        failIn activity since .tabInIndentation m
      else read activity since indentation (g.addBlank c) cs (m.on [c])
    else if isBreak c then
      read activity since indentation (g.addBreak (breakText c)) cs (m.newLine [c])
    else .ok (g, ⟨c :: cs, m⟩)

end Gap

def isFlowIndicator (c : Char) : Bool := c = ',' || c = '[' || c = ']' || c = '\x7b' || c = '\x7d'

/-- That a colon stands where flow collections cannot have one. -/
def colonClash (flow : Bool) (cs : List Char) : Bool :=
  match cs with
  | ':' :: c :: _ => flow && (isFlowIndicator c || c = '?')
  | _ => false

/-- That a plain scalar ends before the rest of the text. -/
def plainStops (flow : Bool) (cs : List Char) : Bool :=
  match cs with
  | [] => true
  | c :: rest =>
    isBlank c || isBreak c || (c = ':' && blankNext rest) || (flow && isFlowIndicator c) ||
      colonClash flow cs

/-- The part of a plain scalar up to the next gap or to its end. -/
def plainRun (flow : Bool) : List Char → List Char
  | [] => []
  | c :: cs => if plainStops flow (c :: cs) then [] else c :: plainRun flow cs

/-- A scalar that has been read: its text, the place behind it, and whether a break came after
it. -/
structure PlainText where
  text : List Char
  broken : Bool

/-- Goes on with a plain scalar behind a gap. -/
def readPlainFrom (flow : Bool) (indentation : Nat) (since : Mark) :
    Nat → List Char → Gap → Cursor → Except SyntaxError (PlainText × Cursor)
  | 0, text, g, c => .ok (⟨text, g.broken⟩, c)
  | fuel + 1, text, g, c =>
    if (c.mark.column = 0 && documentMarkerNext c.rest) || c.rest.head? = some '#' then
      .ok (⟨text, g.broken⟩, c)
    else
      let run := plainRun flow c.rest
      let (text, g) := if run = [] then (text, g) else (text ++ g.fold ++ run, Gap.none)
      let c := c.pass run.length
      if colonClash flow c.rest then failIn .plainScalar since .badTokenColon c.mark
      else if !(blankNext c.rest && c.rest ≠ []) then .ok (⟨text, g.broken⟩, c)
      else do
        let (g, c) ← Gap.read .plainScalar since indentation g c.rest c.mark
        if !flow && c.mark.column < indentation then .ok (⟨text, g.broken⟩, c)
        else readPlainFrom flow indentation since fuel text g c

def readPlain (flow : Bool) (indentation : Nat) (c : Cursor) :
    Except SyntaxError (PlainText × Cursor) :=
  readPlainFrom flow indentation c.mark (c.rest.length + 1) [] Gap.none c

/-- What the letter of an escape stands for. -/
def escapeText? : Char → Option (List Char)
  | '0' => some ['\x00']
  | 'a' => some ['\x07']
  | 'b' => some ['\x08']
  | 't' | '\t' => some ['\t']
  | 'n' => some ['\n']
  | 'v' => some ['\x0b']
  | 'f' => some ['\x0c']
  | 'r' => some ['\r']
  | 'e' => some ['\x1b']
  | ' ' => some [' ']
  | '"' => some ['"']
  | '/' => some ['/']
  | '\\' => some ['\\']
  | 'N' => some ['\u0085']
  | '_' => some ['\u00a0']
  | 'L' => some ['\u2028']
  | 'P' => some ['\u2029']
  | _ => none

/-- How many hexadecimal digits follow the letter of an escape. -/
def codeLength? : Char → Option Nat
  | 'x' => some 2
  | 'u' => some 4
  | 'U' => some 8
  | _ => none

/-- The character of a code point. Surrogates have none. -/
def charOfCode? (n : Nat) : Option Char := if n.isValidChar then some (Char.ofNat n) else none

/-- The escape behind a backslash at the cursor. -/
def readEscape (since : Mark) (c : Cursor) : Except SyntaxError (List Char × Cursor) :=
  match c.rest with
  | _ :: letter :: _ =>
    match escapeText? letter, codeLength? letter with
    | some text, _ => .ok (text, c.pass 2)
    | none, some n =>
      let c := c.pass 2
      let digits := c.rest.take n
      match if digits.length = n then Text.inBase? 16 digits else none with
      | none => failIn .quotedEscape since .hexDigitsExpected c.mark
      | some code =>
        match charOfCode? code with
        | some ch => .ok ([ch], c.pass n)
        | none => failIn .quotedEscape since .badUnicodeEscape c.mark
    | none, none => failIn .quotedEscape since .badEscape c.mark
  | _ => failIn .quotedEscape since .badEscape c.mark

/-- What a part of a quoted scalar stopped at. -/
inductive QuotedStop where
  | quote
  | gap
  | escapedBreak
  deriving DecidableEq, Repr

/-- The part of a quoted scalar up to the next gap or to its closing quote. -/
def readQuotedRun (single : Bool) (since : Mark) :
    Nat → List Char → Cursor → Except SyntaxError (List Char × QuotedStop × Cursor)
  | 0, text, c => .ok (text, .gap, c)
  | fuel + 1, text, c =>
    match c.rest with
    | [] => .ok (text, .gap, c)
    | ch :: cs =>
      if isBlank ch || isBreak ch then .ok (text, .gap, c)
      else if single then
        if ch ≠ '\'' then readQuotedRun single since fuel (text ++ [ch]) (c.pass 1)
        else if cs.head? = some '\'' then
          readQuotedRun single since fuel (text ++ ['\'']) (c.pass 2)
        else .ok (text, .quote, c)
      else if ch = '"' then .ok (text, .quote, c)
      else if ch ≠ '\\' then readQuotedRun single since fuel (text ++ [ch]) (c.pass 1)
      else if cs ≠ [] && breakNext cs then .ok (text, .escapedBreak, (c.pass 1).passBreak)
      else do
        let (escape, c) ← readEscape since c
        readQuotedRun single since fuel (text ++ escape) c

/-- Goes on with a quoted scalar behind a gap. -/
def readQuotedFrom (single : Bool) (since : Mark) :
    Nat → List Char → Cursor → Except SyntaxError (List Char × Cursor)
  | 0, _, c => failIn .quotedScalar since .endOfStream c.mark
  | fuel + 1, text, c =>
    if c.mark.column = 0 && documentMarkerNext c.rest then
      failIn .quotedScalar since .documentMarkerInText c.mark
    else if c.rest = [] then failIn .quotedScalar since .endOfStream c.mark
    else do
      let (text, stop, c) ← readQuotedRun single since (c.rest.length + 1) text c
      match stop with
      | .quote => .ok (text, c.pass 1)
      | stop =>
        let g := if stop = .escapedBreak then Gap.escaped else Gap.none
        let (g, c) ← Gap.read .quotedScalar since 0 g c.rest c.mark
        readQuotedFrom single since fuel (text ++ g.fold) c

/-- A quoted scalar, from its opening quote on. -/
def readQuoted (single : Bool) (c : Cursor) : Except SyntaxError (List Char × Cursor) :=
  readQuotedFrom single c.mark (c.rest.length + 1) [] (c.pass 1)

/-! ## Block scalars -/

/-- What happens to the breaks at the end of a block. -/
inductive Chomping where
  | strip
  | clip
  | keep
  deriving DecidableEq, Repr

def chomping? : List Char → Option Chomping
  | '+' :: _ => some .keep
  | '-' :: _ => some .strip
  | _ => none

/-- The digit of an indentation indicator. -/
def readIndicator (since : Mark) (c : Cursor) : Except SyntaxError (Option Nat × Cursor) :=
  match c.rest with
  | d :: _ =>
    if !d.isDigit then .ok (none, c)
    else if d = '0' then failIn .blockScalar since .indentationZero c.mark
    else .ok (some (Text.digitValue d), c.pass 1)
  | [] => .ok (none, c)

/-- The chomping and the indentation that the first line of a block asks for, in either order. -/
def readHeader (since : Mark) (c : Cursor) :
    Except SyntaxError (Chomping × Option Nat × Cursor) := do
  let (chomping, indicator, c) ←
    match chomping? c.rest with
    | some ch => do
      let (n, c) ← readIndicator since (c.pass 1)
      pure (ch, n, c)
    | none => do
      let (n, c) ← readIndicator since c
      match n, chomping? c.rest with
      | some n, some ch => pure (ch, some n, c.pass 1)
      | n, _ => pure (.clip, n, c)
  match c.passLineEnd? with
  | some c => .ok (chomping, indicator, c)
  | none =>
    let c := c.passWhile isBlank
    failIn .blockScalar since .commentOrBreakExpected c.mark

/-- Empty lines and the indentation of the line behind them. While the indentation is unknown,
`none`, every blank counts to it. Gives the breaks and the largest indentation seen. -/
def readEmptyLines (since : Mark) (indentation : Option Nat) :
    Nat → List Char → Nat → Cursor → Except SyntaxError (List Char × Nat × Cursor)
  | 0, breaks, widest, c => .ok (breaks, widest, c)
  | fuel + 1, breaks, widest, c =>
    let blanks := (c.rest.takeWhile (· = ' ')).length
    let c := c.pass (match indentation with
      | some n => min blanks (n - c.mark.column)
      | none => blanks)
    let widest := max widest c.mark.column
    let inside : Bool := match indentation with
      | some n => c.mark.column < n
      | none => true
    if inside && c.rest.head? = some '\t' then
      failIn .blockScalar since .tabInsteadOfSpace c.mark
    else if c.rest ≠ [] && breakNext c.rest then
      let (text, c) := c.takeBreak
      readEmptyLines since indentation fuel (breaks ++ text) widest c
    else .ok (breaks, widest, c)

/-- The lines of a block: the text so far, the last break, the empty lines behind it, and whether
the last line started with a blank. -/
def readBlockLines (literal : Bool) (since : Mark) (indentation : Nat) :
    Nat → List Char → List Char → List Char → Bool → Cursor →
      Except SyntaxError (List Char × List Char × List Char × Cursor)
  | 0, text, last, breaks, _, c => .ok (text, last, breaks, c)
  | fuel + 1, text, last, breaks, blankBefore, c =>
    if c.mark.column ≠ indentation || c.rest = [] then .ok (text, last, breaks, c)
    else do
      let blankNow := (c.rest.head?.map isBlank).getD false
      let joint :=
        if !literal && last = ['\n'] && !blankBefore && !blankNow then
          if breaks = [] then [' '] else []
        else last
      let line := c.rest.takeWhile (!isBreak ·)
      let (last, c) := (c.pass line.length).takeBreak
      let text := text ++ joint ++ breaks ++ line
      let (breaks, _, c) ← readEmptyLines since (some indentation) (c.rest.length + 1) [] 0 c
      readBlockLines literal since indentation fuel text last breaks blankNow c

/-- A block scalar, from its indicator on, under a node of some indentation. -/
def readBlock (literal : Bool) (parent : Int) (c : Cursor) :
    Except SyntaxError (List Char × Cursor) := do
  let since := c.mark
  let (chomping, indicator, c) ← readHeader since (c.pass 1)
  let given := indicator.map fun n => (if 0 ≤ parent then parent else 0).toNat + n
  let (breaks, widest, c) ← readEmptyLines since given (c.rest.length + 1) [] 0 c
  let indentation := given.getD (max (max widest (parent + 1).toNat) 1)
  let (text, last, breaks, c) ←
    readBlockLines literal since indentation (c.rest.length + 1) [] [] breaks false c
  let tail := match chomping with
    | .strip => []
    | .clip => last
    | .keep => last ++ breaks
  .ok (text ++ tail, c)

end CacheActivity.Yaml
