import CacheActivity.Yaml.Token

/-!
# Events of a YAML document

The tokens of a text describe a tree, and its events are that tree in reading order: scalars,
aliases, and the starts and ends of collections. Where nothing stands for a key, a value or an
entry, the event is an empty plain scalar.

`Document.read` gives the events of the first document of a text. They go as far as the text could
be read, so whoever uses the events meets an error only on reaching it.
-/

namespace CacheActivity.Yaml

inductive EventKind where
  | alias (name : List Char)
  | scalar (style : Style) (text : List Char)
  | sequenceStart
  | sequenceEnd
  | mappingStart
  | mappingEnd
  deriving DecidableEq, Repr

structure Event where
  kind : EventKind
  anchor : Option (List Char)
  tag : Option TagText
  mark : Mark
  deriving DecidableEq, Repr

/-- The tokens ahead, and the error behind the last of them. -/
structure Ahead where
  tokens : List Token
  last : SyntaxError

/-- Reads tokens and gives events. An error keeps the events that were given before it. -/
abbrev Emit := StateT Ahead (ExceptT SyntaxError (StateM (List Event)))

namespace Emit

def event (e : Event) : Emit Unit :=
  StateT.lift (ExceptT.lift (modify (e :: ·)))

/-- Gives an event without anchor and tag. -/
def bare (kind : EventKind) (m : Mark) : Emit Unit := event ⟨kind, none, none, m⟩

/-- Gives the scalar for nothing. -/
def nothing (m : Mark) : Emit Unit := bare (.scalar .plain []) m

def peek : Emit Token := do
  let a ← get
  match a.tokens with
  | t :: _ => return t
  | [] => throw a.last

def skip : Emit Unit := modify fun a => { a with tokens := a.tokens.tail }

/-- Past the next token if it is of a kind. -/
def accept (kind : TokenKind) : Emit Bool := do
  if (← peek).kind = kind then
    skip
    return true
  else return false

/-- Stops at a place. -/
def stop {α : Type} (activity : Activity) (since : Mark) (problem : Problem) (m : Mark) : Emit α :=
  throw ⟨problem, .mark m, some (activity, since)⟩

/-- Handles and what they stand for. -/
abbrev Handles := List (List Char × TagText)

/-- The handles that need no directive. -/
def commonHandles : Handles :=
  [("!".toList, .ofChars "!".toList), ("!!".toList, .ofChars "tag:yaml.org,2002:".toList)]

/-- What stands in front of a node. -/
structure Properties where
  anchor : Option (List Char)
  tag : Option (Tag × Mark)
  /-- Where the first of them starts. -/
  start : Option Mark

/-- An anchor and a tag, in either order, as far as they are there. -/
def properties : Nat → Properties → Emit Properties
  | 0, p => return p
  | fuel + 1, p => do
    let t ← peek
    match t.kind, p.anchor, p.tag with
    | .anchor name, none, _ =>
      skip
      properties fuel { p with anchor := some name, start := some (p.start.getD t.start) }
    | .tag tag, _, none =>
      skip
      properties fuel { p with tag := some (tag, t.start), start := some (p.start.getD t.start) }
    | _, _, _ => return p

/-- A tag with its handle replaced by what it stands for. -/
def resolve (handles : Handles) (start : Mark) : Option (Tag × Mark) → Emit (Option TagText)
  | none => return none
  | some (t, m) =>
    if t.handle = [] then return some t.rest
    else
      match handles.lookup t.handle with
      | some text => return some (text ++ t.rest)
      | none => stop .node start .unknownHandle m

variable (handles : Handles)

mutual

/-- A node. Block collections can only stand in a block, and a sequence without an indentation of
its own only in a mapping. -/
def node : Nat → Bool → Bool → Emit Unit
  | 0, _, _ => return
  | fuel + 1, block, inMapping => do
    let t ← peek
    match t.kind with
    | .alias name =>
      skip
      bare (.alias name) t.start
    | _ =>
      let p ← properties 2 ⟨none, none, none⟩
      let t ← peek
      let start := p.start.getD t.start
      let tag ← resolve handles start p.tag
      let give (kind : EventKind) : Emit Unit := event ⟨kind, p.anchor, tag, start⟩
      match t.kind, block, inMapping with
      | .blockEntry, _, true =>
        give .sequenceStart
        bareEntries fuel
      | .scalar style text, _, _ =>
        skip
        give (.scalar style text)
      | .flowSequenceStart, _, _ =>
        give .sequenceStart
        skip
        flowEntries fuel t.start true
      | .flowMappingStart, _, _ =>
        give .mappingStart
        skip
        flowMembers fuel t.start true
      | .blockSequenceStart, true, _ =>
        give .sequenceStart
        skip
        blockEntries fuel t.start
      | .blockMappingStart, true, _ =>
        give .mappingStart
        skip
        blockMembers fuel t.start
      | _, _, _ =>
        if p.start.isSome then give (.scalar .plain [])
        else stop (if block then .blockNode else .flowNode) start .contentExpected t.start

def blockEntries : Nat → Mark → Emit Unit
  | 0, _ => return
  | fuel + 1, since => do
    let t ← peek
    match t.kind with
    | .blockEntry =>
      skip
      match (← peek).kind with
      | .blockEntry | .blockEnd => nothing t.finish
      | _ => node fuel true false
      blockEntries fuel since
    | .blockEnd =>
      bare .sequenceEnd t.start
      skip
    | _ => stop .blockCollection since .entryExpected t.start

/-- The entries of a sequence that is indented like the mapping around it. -/
def bareEntries : Nat → Emit Unit
  | 0 => return
  | fuel + 1 => do
    let t ← peek
    match t.kind with
    | .blockEntry =>
      skip
      match (← peek).kind with
      | .blockEntry | .key | .value | .blockEnd => nothing t.finish
      | _ => node fuel true false
      bareEntries fuel
    | _ => bare .sequenceEnd t.start

def blockMembers : Nat → Mark → Emit Unit
  | 0, _ => return
  | fuel + 1, since => do
    let t ← peek
    match t.kind with
    | .key =>
      skip
      match (← peek).kind with
      | .key | .value | .blockEnd => nothing t.finish
      | _ => node fuel true true
      blockValue fuel
      blockMembers fuel since
    | .blockEnd =>
      bare .mappingEnd t.start
      skip
    | _ => stop .blockMapping since .keyExpected t.start

def blockValue : Nat → Emit Unit
  | 0 => return
  | fuel + 1 => do
    let t ← peek
    match t.kind with
    | .value =>
      skip
      match (← peek).kind with
      | .key | .value | .blockEnd => nothing t.finish
      | _ => node fuel true true
    | _ => nothing t.start

/-- The entries of a flow sequence. A pair among them is a mapping of its own. -/
def flowEntries : Nat → Mark → Bool → Emit Unit
  | 0, _, _ => return
  | fuel + 1, since, isFirst => do
    let t ← peek
    if t.kind ≠ .flowSequenceEnd && !isFirst then
      if !(← accept .flowEntry) then
        stop .flowSequence since .commaOrBracketExpected t.start
    let t ← peek
    match t.kind with
    | .flowSequenceEnd =>
      bare .sequenceEnd t.start
      skip
    | .key =>
      bare .mappingStart t.start
      skip
      flowPair fuel
      flowEntries fuel since false
    | _ =>
      node fuel false false
      flowEntries fuel since false

/-- A pair in a flow sequence, behind its key indicator. -/
def flowPair : Nat → Emit Unit
  | 0 => return
  | fuel + 1 => do
    let t ← peek
    match t.kind with
    | .value | .flowEntry | .flowSequenceEnd =>
      skip
      nothing t.finish
    | _ => node fuel false false
    let t ← peek
    if t.kind = .value then
      skip
      let t ← peek
      match t.kind with
      | .flowEntry | .flowSequenceEnd => nothing t.start
      | _ => node fuel false false
    else nothing t.start
    bare .mappingEnd (← peek).start

/-- The members of a flow mapping. One without a colon has no value. -/
def flowMembers : Nat → Mark → Bool → Emit Unit
  | 0, _, _ => return
  | fuel + 1, since, isFirst => do
    let t ← peek
    if t.kind ≠ .flowMappingEnd && !isFirst then
      if !(← accept .flowEntry) then
        stop .flowMapping since .commaOrBraceExpected t.start
    let t ← peek
    match t.kind with
    | .flowMappingEnd =>
      bare .mappingEnd t.start
      skip
    | .key =>
      skip
      let t ← peek
      match t.kind with
      | .value | .flowEntry | .flowMappingEnd => nothing t.start
      | _ => node fuel false false
      flowValue fuel
      flowMembers fuel since false
    | _ =>
      node fuel false false
      nothing (← peek).start
      flowMembers fuel since false

def flowValue : Nat → Emit Unit
  | 0 => return
  | fuel + 1 => do
    let t ← peek
    if t.kind = .value then
      skip
      let t ← peek
      match t.kind with
      | .flowEntry | .flowMappingEnd => nothing t.start
      | _ => node fuel false false
    else nothing t.start

end

/-! ## Documents -/

def directives : Nat → Bool → Handles → Emit Handles
  | 0, _, own => return own
  | fuel + 1, versioned, own => do
    let t ← peek
    match t.kind with
    | .directive (.version major minor) =>
      if versioned then throw ⟨.duplicateVersionDirective, .mark t.start, none⟩
      else if major ≠ 1 || (minor ≠ 1 && minor ≠ 2) then
        throw ⟨.unknownVersion, .mark t.start, none⟩
      else
        skip
        directives fuel true own
    | .directive (.tag d) =>
      if (own.lookup d.handle).isSome then throw ⟨.duplicateTagDirective, .mark t.start, none⟩
      else
        skip
        directives fuel versioned (own ++ [(d.handle, d.rest)])
    | _ => return own

/-- The first document. Gives whether there is one. -/
def document (fuel : Nat) : Emit Bool := do
  let t ← peek
  match t.kind with
  | .streamEnd => return false
  | .directive _ | .documentStart =>
    let own ← directives fuel false []
    let t ← peek
    if t.kind ≠ .documentStart then throw ⟨.documentStartExpected, .mark t.start, none⟩
    skip
    let t ← peek
    match t.kind with
    | .directive _ | .documentStart | .documentEnd | .streamEnd => nothing t.start
    | _ => node (own ++ commonHandles) fuel true false
  | _ => node commonHandles fuel true false
  let _ ← peek
  return true

/-- Whether nothing but ends of documents is left. -/
def isLast : Nat → Emit Bool
  | 0 => return true
  | fuel + 1 => do
    match (← peek).kind with
    | .documentEnd =>
      skip
      isLast fuel
    | .streamEnd => return true
    | _ => return false

end Emit

/-- The first document of a text. -/
structure Document where
  events : List Event
  /-- The error at which the events end, if one does. -/
  fault : Option SyntaxError
  /-- Whether the text has more documents. -/
  more : Bool

namespace Document

/-! ## Aliases -/

/-- The nodes with an anchor. The number of such a node is that of the names before it, so that
nodes have the same number if one gives an old name again and the next one a new name. -/
def numbered : List (List Char) → List Event → List (Nat × Event)
  | _, [] => []
  | names, e :: es =>
    match e.anchor with
    | none => numbered names es
    | some name =>
      (names.length, e) :: numbered (if names.contains name then names else name :: names) es

/-- The number of an anchor at a place: that of the last node before it with that name. -/
def number? (events : List Event) (name : List Char) (m : Mark) : Option Nat :=
  (((numbered [] events).filter fun p =>
    p.2.anchor = some name && p.2.mark.index < m.index).getLast?).map (·.1)

/-- The node that an alias stands for: the last one with the number of the anchor. -/
def target? (events : List Event) (name : List Char) (m : Mark) : Option Event :=
  (number? events name m).bind fun n =>
    (((numbered [] events).filter (·.1 = n)).getLast?).map (·.2)

/-- That an event is no alias, or one of a node that is there. -/
def isKnown (events : List Event) (e : Event) : Bool :=
  match e.kind with
  | .alias name => (number? events name e.mark).isSome
  | _ => true

/-- Ends a document at the first alias of a node that is not there. -/
def cutUnknown (d : Document) : Document :=
  match d.events.find? (!isKnown d.events ·) with
  | none => d
  | some e =>
    ⟨d.events.takeWhile (isKnown d.events), some ⟨.unknownAnchor, .mark e.mark, none⟩, d.more⟩

/-- The characters that a text may hold. -/
def isAllowed (c : Char) : Bool :=
  let n := c.toNat
  n = 9 || n = 10 || n = 13 || (0x20 ≤ n && n ≤ 0x7E) || n = 0x85 ||
    (0xA0 ≤ n && n ≤ 0xFFFD) || 0x10000 ≤ n

/-- A text is looked over in chunks of at most so many bytes. -/
def chunkLength : Nat := 16384

/-- The first character that a text may not hold: the bytes before its chunk and before itself. -/
def badPlace? (chunk offset : Nat) : List Char → Option (Nat × Nat)
  | [] => none
  | c :: cs =>
    let next := offset + c.utf8Size
    let chunk := if chunk + chunkLength < next then offset else chunk
    if isAllowed c then badPlace? chunk next cs else some (chunk, offset)

/-- The characters at the front of a text that take at most so many bytes. -/
def takeBytes (bytes : Nat) : List Char → List Char
  | [] => []
  | c :: cs => if c.utf8Size ≤ bytes then c :: takeBytes (bytes - c.utf8Size) cs else []

def ofTokens (tokens : List Token) (last : SyntaxError) : Document :=
  let fuel := 4 * tokens.length + 8
  let (result, events) := ((Emit.document fuel).run ⟨tokens, last⟩).run.run []
  match result with
  | .error e => ⟨events.reverse, some e, false⟩
  | .ok (_, ahead) =>
    match ((Emit.isLast fuel).run ahead).run.run [] with
    | (.ok (isLast, _), _) => ⟨events.reverse, none, !isLast⟩
    | (.error _, _) => ⟨events.reverse, none, true⟩

/-- The first document of a text. A text with a character that it may not hold can be read up to the
chunk of that character. -/
def read (text : List Char) : Document :=
  let (text, cut) := match badPlace? 0 0 text with
    | some (chunk, offset) =>
      (takeBytes chunk text, some ⟨.controlCharacter, .offset offset, none⟩)
    | none => (text, none)
  let (tokens, e) := Scan.tokens text cut
  (ofTokens tokens (e.getD ⟨.endOfStream, .mark .start, none⟩)).cutUnknown

end Document

/-- The events behind a number of open collections. -/
def behind : Nat → List Event → Option (List Event)
  | 0, es => some es
  | _ + 1, [] => none
  | depth + 1, e :: es =>
    match e.kind with
    | .sequenceStart | .mappingStart => behind (depth + 2) es
    | .sequenceEnd | .mappingEnd => behind depth es
    | .alias _ | .scalar _ _ => behind (depth + 1) es

/-- The events behind the node that starts with an event, unless the node breaks off. -/
def behindNode (e : Event) (es : List Event) : Option (List Event) :=
  match e.kind with
  | .sequenceStart | .mappingStart => behind 1 es
  | _ => some es

end CacheActivity.Yaml
