import CacheActivity.Yaml.Cursor

/-!
# Errors in a YAML text

An error names a problem and its place, and often what was being read, with the place where that
began.
-/

namespace CacheActivity.Yaml

inductive Problem where
  | controlCharacter
  | anchorNameExpected
  | badEscape
  | badLeadingOctet
  | badTokenStart
  | badTokenColon
  | badTrailingOctet
  | badUnicodeEscape
  | blockEntryNotAllowed
  | colonExpected
  | commaOrBraceExpected
  | commaOrBracketExpected
  | commentOrBreakExpected
  | contentExpected
  | directiveNameExpected
  | documentMarkerInText
  | documentStartExpected
  | duplicateTagDirective
  | duplicateVersionDirective
  | endOfStream
  | entryExpected
  | hexDigitsExpected
  | indentationZero
  | keyExpected
  | keyNotAllowed
  | longVersionNumber
  | nonAlphabetic
  | octetExpected
  | tabInIndentation
  | tabInsteadOfSpace
  | tagBangExpected
  | tagEndExpected
  | tagUriExpected
  | unknownAnchor
  | unknownDirective
  | unknownHandle
  | unknownVersion
  | valueNotAllowed
  | versionDotExpected
  | versionNumberExpected
  | whitespaceExpected
  | whitespaceOrBreakExpected
  deriving DecidableEq, Repr

def Problem.message : Problem → String
  | .controlCharacter => "control characters are not allowed"
  | .anchorNameExpected => "did not find expected alphabetic or numeric character"
  | .badEscape => "found unknown escape character"
  | .badLeadingOctet => "found an incorrect leading UTF-8 octet"
  | .badTokenStart => "found character that cannot start any token"
  | .badTokenColon => "found unexpected ':'"
  | .badTrailingOctet => "found an incorrect trailing UTF-8 octet"
  | .badUnicodeEscape => "found invalid Unicode character escape code"
  | .blockEntryNotAllowed => "block sequence entries are not allowed in this context"
  | .colonExpected => "could not find expected ':'"
  | .commaOrBraceExpected => "did not find expected ',' or '\x7d'"
  | .commaOrBracketExpected => "did not find expected ',' or ']'"
  | .commentOrBreakExpected => "did not find expected comment or line break"
  | .contentExpected => "did not find expected node content"
  | .directiveNameExpected => "could not find expected directive name"
  | .documentMarkerInText => "found unexpected document indicator"
  | .documentStartExpected => "did not find expected <document start>"
  | .duplicateTagDirective => "found duplicate %TAG directive"
  | .duplicateVersionDirective => "found duplicate %YAML directive"
  | .endOfStream => "found unexpected end of stream"
  | .entryExpected => "did not find expected '-' indicator"
  | .hexDigitsExpected => "did not find expected hexadecimal number"
  | .indentationZero => "found an indentation indicator equal to 0"
  | .keyExpected => "did not find expected key"
  | .keyNotAllowed => "mapping keys are not allowed in this context"
  | .longVersionNumber => "found extremely long version number"
  | .nonAlphabetic => "found unexpected non-alphabetical character"
  | .octetExpected => "did not find URI escaped octet"
  | .tabInIndentation => "found a tab character that violates indentation"
  | .tabInsteadOfSpace => "found a tab character where an indentation space is expected"
  | .tagBangExpected => "did not find expected '!'"
  | .tagEndExpected => "did not find the expected '>'"
  | .tagUriExpected => "did not find expected tag URI"
  | .unknownAnchor => "unknown anchor"
  | .unknownDirective => "found unknown directive name"
  | .unknownHandle => "found undefined tag handle"
  | .unknownVersion => "found incompatible YAML document"
  | .valueNotAllowed => "mapping values are not allowed in this context"
  | .versionDotExpected => "did not find expected digit or '.' character"
  | .versionNumberExpected => "did not find expected version number"
  | .whitespaceExpected => "did not find expected whitespace"
  | .whitespaceOrBreakExpected => "did not find expected whitespace or line break"

inductive Activity where
  | alias
  | anchor
  | blockCollection
  | blockMapping
  | blockNode
  | blockScalar
  | directive
  | flowMapping
  | flowNode
  | flowSequence
  | nextToken
  | node
  | plainScalar
  | quotedScalar
  | quotedEscape
  | simpleKey
  | tag
  | tagDirective
  | tagDirectiveHandle
  | tagDirectiveName
  | tagUri
  | tagDirectiveUri
  | versionDirective
  deriving DecidableEq, Repr

def Activity.message : Activity → String
  | .alias => "while scanning an alias"
  | .anchor => "while scanning an anchor"
  | .blockCollection => "while parsing a block collection"
  | .blockMapping => "while parsing a block mapping"
  | .blockNode => "while parsing a block node"
  | .blockScalar => "while scanning a block scalar"
  | .directive => "while scanning a directive"
  | .flowMapping => "while parsing a flow mapping"
  | .flowNode => "while parsing a flow node"
  | .flowSequence => "while parsing a flow sequence"
  | .nextToken => "while scanning for the next token"
  | .node => "while parsing a node"
  | .plainScalar => "while scanning a plain scalar"
  | .quotedScalar => "while scanning a quoted scalar"
  | .quotedEscape => "while parsing a quoted scalar"
  | .simpleKey => "while scanning a simple key"
  | .tag => "while scanning a tag"
  | .tagDirective => "while scanning a %TAG directive"
  | .tagDirectiveHandle => "while scanning a tag directive"
  | .tagDirectiveName => "while parsing a tag directive"
  | .tagUri => "while parsing a tag"
  | .tagDirectiveUri => "while parsing a %TAG directive"
  | .versionDirective => "while scanning a %YAML directive"

inductive Place where
  | mark (m : Mark)
  /-- A number of bytes from the start of the text. -/
  | offset (bytes : Nat)
  deriving DecidableEq, Repr

/-- The place behind a message. The start of the text is left out. -/
def Place.text : Place → String
  | .mark m => if m.atStart then "" else " at " ++ m.text
  | .offset n => if n = 0 then "" else " at position " ++ toString n

structure SyntaxError where
  problem : Problem
  place : Place
  during : Option (Activity × Mark)
  deriving DecidableEq, Repr

/-- The problem and the activity, each with its place. The place of the activity is left out where
it is the place of the problem. -/
def SyntaxError.message (e : SyntaxError) : String :=
  e.problem.message ++ e.place.text ++
    match e.during with
    | none => ""
    | some (activity, m) =>
      ", " ++ activity.message ++
        if e.place.text = (Place.mark m).text then "" else (Place.mark m).text

/-- Reports a problem at a place. -/
def fail {α : Type} (problem : Problem) (place : Mark) : Except SyntaxError α :=
  .error ⟨problem, .mark place, none⟩

/-- Reports a problem at a place, and what was being read from another one on. -/
def failIn {α : Type} (activity : Activity) (since : Mark) (problem : Problem) (place : Mark) :
    Except SyntaxError α :=
  .error ⟨problem, .mark place, some (activity, since)⟩

end CacheActivity.Yaml
