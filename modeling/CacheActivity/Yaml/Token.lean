import CacheActivity.Yaml.Property

/-!
# Tokens of a YAML text

A text is a row of tokens: indicators, scalars, properties, and the starts and ends of block
collections, which only the indentation shows. That a scalar is a key is known when the colon
behind it comes, so tokens wait in a queue while the first of them can still turn out to be a key;
the colon then puts a key token in front of it, and the start of a mapping if one starts there.

`Scan.tokens` gives the tokens up to the first error, and that error.
-/

namespace CacheActivity.Yaml

inductive TokenKind where
  | streamEnd
  | directive (d : Directive)
  | documentStart
  | documentEnd
  | blockSequenceStart
  | blockMappingStart
  | blockEnd
  | flowSequenceStart
  | flowSequenceEnd
  | flowMappingStart
  | flowMappingEnd
  | blockEntry
  | flowEntry
  | key
  | value
  | alias (name : List Char)
  | anchor (name : List Char)
  | tag (t : Tag)
  | scalar (style : Style) (text : List Char)
  deriving DecidableEq, Repr

structure Token where
  kind : TokenKind
  start : Mark
  finish : Mark
  deriving DecidableEq, Repr

/-- A place where a key may have started. -/
structure KeyPlace where
  /-- The number of the token that would be the key. -/
  number : Nat
  mark : Mark
  /-- Nothing but a key can stand there. -/
  required : Bool
  deriving Repr

/-- How far a text has been taken apart. -/
structure Scan where
  cursor : Cursor
  /-- Tokens that wait. -/
  queue : List Token
  /-- The number of the first of them. -/
  handed : Nat
  /-- The indentation of the innermost block collection, and of those around it. -/
  indent : Int
  outer : List Int
  /-- Where a key may have started on the innermost level of flow collections. -/
  keyPlace : Option KeyPlace
  /-- The same for the levels around it, one for each flow collection that is open. -/
  outerPlaces : List (Option KeyPlace)
  /-- Whether a key may start here. -/
  keyAllowed : Bool
  /-- The error behind the text, if it goes on but cannot be read. -/
  cut : Option SyntaxError

namespace Scan

def start (text : List Char) (cut : Option SyntaxError) : Scan :=
  ⟨.start text, [], 0, -1, [], none, [], true, cut⟩

def inFlow (s : Scan) : Bool := !s.outerPlaces.isEmpty

def mark (s : Scan) : Mark := s.cursor.mark

/-- The longest text that can be a key. -/
def keyLimit : Nat := 1024

/-- Whether a key that started at a place would be too long by now. -/
def isStale (now : Mark) (k : KeyPlace) : Bool :=
  k.mark.line < now.line || k.mark.index + keyLimit < now.index

/-- Gives up a place that can no longer be a key. -/
def dropStale (now : Mark) : Option KeyPlace → Except SyntaxError (Option KeyPlace)
  | none => .ok none
  | some k =>
    if !isStale now k then .ok (some k)
    else if k.required then failIn .simpleKey k.mark .colonExpected now
    else .ok none

/-- Gives up all such places, from the outermost level inwards. -/
def dropAllStale (s : Scan) : Except SyntaxError Scan := do
  let outer ← s.outerPlaces.reverse.mapM (dropStale s.mark)
  let inner ← dropStale s.mark s.keyPlace
  .ok { s with keyPlace := inner, outerPlaces := outer.reverse }

/-- Gives up the innermost place. -/
def dropKey (s : Scan) : Except SyntaxError Scan :=
  match s.keyPlace with
  | some k =>
    if k.required then failIn .simpleKey k.mark .colonExpected s.mark
    else .ok { s with keyPlace := none }
  | none => .ok s

/-- Notes that a key may start here. -/
def noteKey (s : Scan) : Except SyntaxError Scan :=
  if s.keyAllowed then do
    let s ← s.dropKey
    .ok { s with keyPlace := some ⟨s.handed + s.queue.length, s.mark,
            !s.inFlow && s.indent = s.mark.column⟩ }
  else .ok s

/-! ## Blocks -/

def push (s : Scan) (t : Token) : Scan := { s with queue := s.queue ++ [t] }

/-- Puts a token in front of the one with a number. -/
def insertAt (s : Scan) (number : Nat) (t : Token) : Scan :=
  { s with queue := s.queue.insertIdx (number - s.handed) t }

/-- Opens a block collection where the text is indented further than before. -/
def openBlock (s : Scan) (column number : Nat) (kind : TokenKind) (m : Mark) : Scan :=
  if !s.inFlow && s.indent < column then
    { s with indent := column, outer := s.indent :: s.outer }.insertAt number ⟨kind, m, m⟩
  else s

def nextNumber (s : Scan) : Nat := s.handed + s.queue.length

/-- The block collections that end at a column, and the indentation left. -/
def closing (column : Int) : Int → List Int → Nat × Int × List Int
  | indent, [] => (0, indent, [])
  | indent, o :: os =>
    if column < indent then
      let (n, indent, outer) := closing column o os
      (n + 1, indent, outer)
    else (0, indent, o :: os)

/-- Closes the block collections that the text is no longer indented for. -/
def closeBlocks (s : Scan) (column : Int) : Scan :=
  if s.inFlow then s
  else
    let (n, indent, outer) := closing column s.indent s.outer
    { s with
      indent, outer,
      queue := s.queue ++ List.replicate n ⟨.blockEnd, s.mark, s.mark⟩ }

/-- An indicator of some characters. -/
def indicator (s : Scan) (kind : TokenKind) (length : Nat) : Scan :=
  let c := s.cursor.pass length
  { s with cursor := c }.push ⟨kind, s.mark, c.mark⟩

def endStream (s : Scan) : Except SyntaxError Scan := do
  let s := { s with cursor := ⟨[], s.cursor.endMark⟩ }.closeBlocks (-1)
  let s ← s.dropKey
  .ok ({ s with keyAllowed := false }.push ⟨.streamEnd, s.mark, s.mark⟩)

/-- What stands on a line of its own: it ends all blocks. -/
def leaveBlocks (s : Scan) : Except SyntaxError Scan := do
  let s ← (s.closeBlocks (-1)).dropKey
  .ok { s with keyAllowed := false }

def scanDirective (s : Scan) : Except SyntaxError Scan := do
  let s ← s.leaveBlocks
  let (d, c) ← readDirective s.cursor
  .ok ({ s with cursor := c }.push ⟨.directive d, s.mark, c.mark⟩)

def scanDocumentMarker (s : Scan) (kind : TokenKind) : Except SyntaxError Scan := do
  let s ← s.leaveBlocks
  .ok (s.indicator kind 3)

def scanFlowStart (s : Scan) (kind : TokenKind) : Except SyntaxError Scan := do
  let s ← s.noteKey
  .ok ({ s with
    keyPlace := none, outerPlaces := s.keyPlace :: s.outerPlaces,
    keyAllowed := true }.indicator kind 1)

def scanFlowEnd (s : Scan) (kind : TokenKind) : Except SyntaxError Scan := do
  let s ← s.dropKey
  let s := match s.outerPlaces with
    | [] => s
    | p :: ps => { s with keyPlace := p, outerPlaces := ps }
  .ok ({ s with keyAllowed := false }.indicator kind 1)

def scanFlowEntry (s : Scan) : Except SyntaxError Scan := do
  let s ← s.dropKey
  .ok ({ s with keyAllowed := true }.indicator .flowEntry 1)

def scanBlockEntry (s : Scan) : Except SyntaxError Scan := do
  if !s.inFlow && !s.keyAllowed then fail .blockEntryNotAllowed s.mark
  else
    let s := s.openBlock s.mark.column s.nextNumber .blockSequenceStart s.mark
    let s ← s.dropKey
    .ok ({ s with keyAllowed := true }.indicator .blockEntry 1)

def scanKey (s : Scan) : Except SyntaxError Scan := do
  if !s.inFlow && !s.keyAllowed then fail .keyNotAllowed s.mark
  else
    let s := s.openBlock s.mark.column s.nextNumber .blockMappingStart s.mark
    let s ← s.dropKey
    .ok ({ s with keyAllowed := !s.inFlow }.indicator .key 1)

/-- A colon: a key ends here, if one can have started. -/
def scanValue (s : Scan) : Except SyntaxError Scan :=
  match s.keyPlace with
  | some k =>
    let s := s.insertAt k.number ⟨.key, k.mark, k.mark⟩
    let s := s.openBlock k.mark.column k.number .blockMappingStart k.mark
    .ok ({ s with keyPlace := none, keyAllowed := false }.indicator .value 1)
  | none =>
    if !s.inFlow && !s.keyAllowed then fail .valueNotAllowed s.mark
    else
      let s := s.openBlock s.mark.column s.nextNumber .blockMappingStart s.mark
      .ok ({ s with keyAllowed := !s.inFlow }.indicator .value 1)

/-- Something that can be a key or belong to one. -/
def scanContent {α : Type} (s : Scan) (read : Cursor → Except SyntaxError (α × Cursor))
    (kind : α → TokenKind) : Except SyntaxError Scan := do
  let s ← s.noteKey
  let (a, c) ← read s.cursor
  .ok ({ s with cursor := c, keyAllowed := false }.push ⟨kind a, s.mark, c.mark⟩)

def scanBlockScalar (s : Scan) (style : Style) : Except SyntaxError Scan := do
  let s ← s.dropKey
  let (text, c) ← readBlock (style = .literal) s.indent s.cursor
  .ok ({ s with cursor := c, keyAllowed := true }.push ⟨.scalar style text, s.mark, c.mark⟩)

def scanPlain (s : Scan) : Except SyntaxError Scan := do
  let s ← s.noteKey
  let (p, c) ← readPlain s.inFlow (s.indent + 1).toNat s.cursor
  .ok ({ s with cursor := c, keyAllowed := p.broken }.push
    ⟨.scalar .plain p.text, s.mark, c.mark⟩)

/-! ## The next token -/

/-- The mark of byte order in front of a line. It says nothing, but takes a column. -/
def byteOrderMark : Char := '\uFEFF'

/-- Past blanks, comments and breaks. A tab counts as a blank where no key may start. -/
def toNextToken (s : Scan) : Nat → Scan
  | 0 => s
  | fuel + 1 =>
    let c := s.cursor
    let c := if c.mark.column = 0 && c.rest.head? = some byteOrderMark then c.pass 1 else c
    let c := c.passWhile fun ch =>
      ch = ' ' || ((s.inFlow || !s.keyAllowed) && ch = '\t')
    let c := if c.rest.head? = some '#' then c.passWhile (!isBreak ·) else c
    if c.rest ≠ [] && breakNext c.rest then
      toNextToken { s with cursor := c.passBreak, keyAllowed := s.keyAllowed || !s.inFlow } fuel
    else { s with cursor := c }

/-- The characters that start no plain scalar. -/
def indicators : List Char :=
  ['-', '?', ':', ',', '[', ']', '\x7b', '\x7d', '#', '&', '*', '!', '|', '>', '\'', '"', '%', '@',
    '\x60']

/-- That a plain scalar starts with a character and the rest of the text. -/
def startsPlain (flow : Bool) (c : Char) (cs : List Char) : Bool :=
  !(isBlank c || isBreak c || indicators.contains c) ||
    (c = '-' && !((cs.head?.map isBlank).getD false)) ||
    (!flow && (c = '?' || c = ':') && !blankNext cs)

/-- The token that starts with a character. -/
def dispatch (s : Scan) (c : Char) (cs : List Char) : Except SyntaxError Scan :=
  let atLineStart := s.mark.column = 0
  if atLineStart && c = '%' then s.scanDirective
  else if atLineStart && documentMarkerNext (c :: cs) then
    s.scanDocumentMarker (if c = '-' then .documentStart else .documentEnd)
  else if c = '[' then s.scanFlowStart .flowSequenceStart
  else if c = '\x7b' then s.scanFlowStart .flowMappingStart
  else if c = ']' then s.scanFlowEnd .flowSequenceEnd
  else if c = '\x7d' then s.scanFlowEnd .flowMappingEnd
  else if c = ',' then s.scanFlowEntry
  else if c = '-' && blankNext cs then s.scanBlockEntry
  else if c = '?' && (s.inFlow || blankNext cs) then s.scanKey
  else if c = ':' && (s.inFlow || blankNext cs) then s.scanValue
  else if c = '*' then s.scanContent (readAnchorName .alias) .alias
  else if c = '&' then s.scanContent (readAnchorName .anchor) .anchor
  else if c = '!' then s.scanContent (readTag s.inFlow) .tag
  else if c = '|' && !s.inFlow then s.scanBlockScalar .literal
  else if c = '>' && !s.inFlow then s.scanBlockScalar .folded
  else if c = '\'' then s.scanContent (readQuoted true) (.scalar .singleQuoted)
  else if c = '"' then s.scanContent (readQuoted false) (.scalar .doubleQuoted)
  else if startsPlain s.inFlow c cs then s.scanPlain
  else failIn .nextToken s.mark .badTokenStart s.mark

/-- The length of the longest indicator with the blank behind it. -/
def indicatorLength : Nat := 4

/-- Reports the error behind the text where fewer characters than some number are left. -/
def need (s : Scan) (n : Nat) : Except SyntaxError Unit :=
  match s.cut with
  | some e => if (s.cursor.rest.drop (n - 1)).isEmpty then .error e else .ok ()
  | none => .ok ()

/-- The error behind the text in place of one at its end. -/
def orCut (s : Scan) (e : SyntaxError) : SyntaxError :=
  match s.cut, e.place with
  | some cut, .mark m =>
    if m.index = s.mark.index + Text.byteLength s.cursor.rest then cut else e
  | _, _ => e

/-- Scans the next token into the queue. -/
def advance (s : Scan) : Except SyntaxError Scan := do
  let s := s.toNextToken (s.cursor.rest.length + 1)
  s.need 1
  let s ← s.dropAllStale
  let s := s.closeBlocks s.mark.column
  s.need indicatorLength
  match s.cursor.rest with
  | [] => s.endStream
  | c :: cs =>
    match s.dispatch c cs with
    | .ok next =>
      next.need 1
      .ok next
    | .error e => .error (s.orCut e)

/-- Whether the first waiting token can no longer become a key. -/
def isReady (s : Scan) : Bool :=
  !s.queue.isEmpty &&
    (s.keyPlace :: s.outerPlaces).all fun p =>
      (p.map fun k => k.number != s.handed).getD true

/-- The tokens from here on and the error that ends them, if one does. -/
def run : Nat → Scan → List Token × Option SyntaxError
  | 0, _ => ([], none)
  | fuel + 1, s =>
    match if s.queue.isEmpty then .ok s else s.dropAllStale with
    | .error e => ([], some e)
    | .ok s =>
      match s.queue, s.isReady with
      | t :: ts, true =>
        if t.kind = .streamEnd then ([t], none)
        else
          let (more, e) := run fuel { s with queue := ts, handed := s.handed + 1 }
          (t :: more, e)
      | _, _ =>
        match s.advance with
        | .ok s => run fuel s
        | .error e => ([], some e)

/-- Enough steps for the tokens of a text: each character gives one token at most, with the ends
and starts of collections around it. -/
def enough (text : List Char) : Nat := 8 * text.length + 16

/-- The tokens of a text and the error that ends them, if one does. -/
def tokens (text : List Char) (cut : Option SyntaxError) : List Token × Option SyntaxError :=
  run (enough text) (.start text cut)

end Scan

end CacheActivity.Yaml
