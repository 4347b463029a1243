import CacheActivity.Yaml.Scalar

/-!
# Anchors, tags and directives

The smaller parts of a YAML text: names of anchors and aliases, tags with their handles, and the
directives in front of a document.
-/

namespace CacheActivity.Yaml

/-- Characters from the front of a text that have a property. -/
def takeFront (p : Char → Bool) (c : Cursor) : List Char × Cursor :=
  (c.rest.takeWhile p, c.passWhile p)

/-- The name behind `&` or `*`. -/
def readAnchorName (activity : Activity) (c : Cursor) : Except SyntaxError (List Char × Cursor) :=
  let since := c.mark
  let (name, c) := takeFront isWord (c.pass 1)
  let ended := blankNext c.rest ||
    ((c.rest.head?.map ['?', ':', ',', ']', '\x7d', '%', '@', '\x60'].contains).getD false)
  if name = [] || !ended then failIn activity since .anchorNameExpected c.mark
  else .ok (name, c)

/-- The characters of a tag. Escapes in it can name bytes that are no character, `none`. -/
abbrev TagText := List (Option Char)

namespace TagText

def ofChars (cs : List Char) : TagText := cs.map some

/-- The characters of a tag if all its bytes belong to some. -/
def chars? (t : TagText) : Option (List Char) := t.mapM id

/-- The part of a tag that counts: the character of code zero ends it. -/
def ended (t : TagText) : TagText := t.takeWhile (· ≠ some '\x00')

end TagText

/-- A tag as it is written: a handle between exclamation marks, and what follows it. -/
structure Tag where
  handle : List Char
  rest : TagText
  deriving DecidableEq, Repr

/-- The characters of a tag besides words and escapes. -/
def uriMarks : List Char :=
  [';', '/', '?', ':', '@', '&', '=', '+', '$', '.', '!', '~', '*', '\'', '(', ')']

/-- The characters of a tag that flow collections use. -/
def uriFlowMarks : List Char := [',', '[', ']']

/-- The byte of an escape: a percent sign and two hexadecimal digits. -/
def readOctet (activity : Activity) (since : Mark) (c : Cursor) :
    Except SyntaxError (Nat × Cursor) :=
  match c.rest with
  | '%' :: a :: b :: _ =>
    match Text.inBase? 16 [a, b] with
    | some n => .ok (n, c.pass 3)
    | none => failIn activity since .octetExpected c.mark
  | _ => failIn activity since .octetExpected c.mark

/-- How many bytes follow the first one of a character, and the bits that the first one gives. -/
def leadingOctet? (n : Nat) : Option (Nat × Nat) :=
  if n < 0x80 then some (0, n)
  else if n / 0x20 = 6 then some (1, n % 0x20)
  else if n / 0x10 = 14 then some (2, n % 0x10)
  else if n / 8 = 30 then some (3, n % 8)
  else none

/-- The bytes behind the first one of a character, each of which gives six bits. -/
def readTrailing (activity : Activity) (since : Mark) :
    Nat → Nat → Cursor → Except SyntaxError (Nat × Cursor)
  | 0, code, c => .ok (code, c)
  | count + 1, code, c => do
    let (n, after) ← readOctet activity since c
    if n / 0x40 ≠ 2 then failIn activity since .badTrailingOctet c.mark
    else readTrailing activity since count (code * 0x40 + n % 0x40) after

/-- A character of escaped bytes. Bytes of a longer form than the character needs, and those of a
code point without a character, are none. -/
def readEscaped (activity : Activity) (since : Mark) (c : Cursor) :
    Except SyntaxError (Option Char × Cursor) := do
  let (n, after) ← readOctet activity since c
  match leadingOctet? n with
  | none => failIn activity since .badLeadingOctet c.mark
  | some (count, bits) => do
    let (code, c) ← readTrailing activity since count bits after
    .ok ((charOfCode? code).filter (·.utf8Size = count + 1), c)

/-- The characters of a tag from here on. -/
def readUriFrom (flowMarks : Bool) (activity : Activity) (since : Mark) :
    Nat → TagText → Cursor → Except SyntaxError (TagText × Cursor)
  | 0, text, c => .ok (text, c)
  | fuel + 1, text, c =>
    match c.rest with
    | [] => .ok (text, c)
    | ch :: _ =>
      if ch = '%' then do
        let (escaped, c) ← readEscaped activity since c
        readUriFrom flowMarks activity since fuel (text ++ [escaped]) c
      else if isWord ch || uriMarks.contains ch || (flowMarks && uriFlowMarks.contains ch) then
        readUriFrom flowMarks activity since fuel (text ++ [some ch]) (c.pass 1)
      else .ok (text, c)

/-- The rest of a tag behind characters that were read before. It must not be empty. -/
def readUri (flowMarks : Bool) (activity : Activity) (since : Mark) (before : List Char)
    (c : Cursor) : Except SyntaxError (TagText × Cursor) := do
  let (text, c) ←
    readUriFrom flowMarks activity since (c.rest.length + 1) (.ofChars before) c
  if text = [] then failIn activity since .tagUriExpected c.mark else .ok (text, c)

/-- A handle, from its exclamation mark on. It may lack the closing one in a tag, but not in a
directive, unless it is the mark alone. -/
def readHandle (directive : Bool) (since : Mark) (c : Cursor) :
    Except SyntaxError (List Char × Cursor) :=
  if c.rest.head? ≠ some '!' then
    failIn (if directive then .tagDirectiveHandle else .tag) since .tagBangExpected c.mark
  else
    let (name, c) := takeFront isWord (c.pass 1)
    if c.rest.head? = some '!' then .ok ('!' :: name ++ ['!'], c.pass 1)
    else if directive && name ≠ [] then failIn .tagDirectiveName since .tagBangExpected c.mark
    else .ok ('!' :: name, c)

/-- The tag of a handle without a closing exclamation mark, which belongs to the rest. -/
def Tag.ofRest (text : TagText) : Tag :=
  match text.drop 1 with
  | [] => ⟨[], [some '!']⟩
  | rest => ⟨['!'], rest⟩

/-- A tag, from its exclamation mark on. -/
def readTag (flow : Bool) (c : Cursor) : Except SyntaxError (Tag × Cursor) := do
  let since := c.mark
  let (tag, c) ←
    match c.rest with
    | '!' :: '<' :: _ => do
      let (text, c) ← readUri true .tagUri since [] (c.pass 2)
      if c.rest.head? = some '>' then pure (Tag.mk [] text.ended, c.pass 1)
      else failIn .tag since .tagEndExpected c.mark
    | _ => do
      let (handle, c) ← readHandle false since c
      if 2 ≤ handle.length && handle.getLast? = some '!' then do
        let (text, c) ← readUri false .tagUri since [] c
        pure (Tag.mk handle text.ended, c)
      else do
        let (text, c) ← readUri false .tagUri since handle c
        pure (Tag.ofRest text.ended, c)
  if blankNext c.rest || (flow && c.rest.head? = some ',') then .ok (tag, c)
  else failIn .tag since .whitespaceOrBreakExpected c.mark

inductive Directive where
  | version (major minor : Nat)
  | tag (t : Tag)
  deriving DecidableEq, Repr

def maxVersionLength : Nat := 9

/-- A part of a version. -/
def readVersionNumber (since : Mark) (c : Cursor) : Except SyntaxError (Nat × Cursor) :=
  let (digits, after) := takeFront Char.isDigit c
  if maxVersionLength < digits.length then
    failIn .versionDirective since .longVersionNumber (c.mark.on (digits.take maxVersionLength))
  else if digits = [] then failIn .versionDirective since .versionNumberExpected c.mark
  else .ok (Text.digitsValue digits, after)

def readVersion (since : Mark) (c : Cursor) : Except SyntaxError (Directive × Cursor) := do
  let (major, c) ← readVersionNumber since (c.passWhile isBlank)
  if c.rest.head? ≠ some '.' then failIn .versionDirective since .versionDotExpected c.mark
  else do
    let (minor, c) ← readVersionNumber since (c.pass 1)
    .ok (.version major minor, c)

def readTagDirective (since : Mark) (c : Cursor) : Except SyntaxError (Directive × Cursor) := do
  let (handle, c) ← readHandle true since (c.passWhile isBlank)
  if !((c.rest.head?.map isBlank).getD false) then
    failIn .tagDirective since .whitespaceExpected c.mark
  else do
    let (text, c) ← readUri true .tagDirectiveUri since [] (c.passWhile isBlank)
    if blankNext c.rest then .ok (.tag ⟨handle, text.ended⟩, c)
    else failIn .tagDirective since .whitespaceOrBreakExpected c.mark

/-- A directive, from its percent sign to the end of its line. -/
def readDirective (c : Cursor) : Except SyntaxError (Directive × Cursor) := do
  let since := c.mark
  let (name, c) := takeFront isWord (c.pass 1)
  if name = [] then failIn .directive since .directiveNameExpected c.mark
  else if !blankNext c.rest then failIn .directive since .nonAlphabetic c.mark
  else do
    let (d, c) ←
      if name = "YAML".toList then readVersion since c
      else if name = "TAG".toList then readTagDirective since c
      else failIn .directive since .unknownDirective c.mark
    match c.passLineEnd? with
    | some c => .ok (d, c)
    | none => failIn .directive since .commentOrBreakExpected (c.passWhile isBlank).mark

end CacheActivity.Yaml
