/-!
# Flags

The words behind the name of a program are flags, their operands, and the names of commands. A flag
has a name behind two dashes, and it may have a letter behind one; letters can stand together behind
one dash. The operand of a flag is the next word, or it stands behind an equals sign or right behind
the letter. Reading ends at the first word that is neither a flag nor an operand.
-/

namespace CacheActivity.Command

/-- Why there is no command to run. -/
inductive Stop where
  /-- The words make no sense. -/
  | misuse
  | help
  | version
  deriving DecidableEq, Repr

namespace Flag

inductive Kind where
  /-- Given once or not at all, without an operand. -/
  | switch
  /-- Takes a text, once at most. -/
  | text
  /-- Takes a text, any number of times. -/
  | texts
  /-- Takes a path that is not empty, once at most. -/
  | path
  /-- Ends the reading. -/
  | stop (s : Stop)
  deriving DecidableEq, Repr

def Kind.takesOperand : Kind → Bool
  | .switch | .stop _ => false
  | .text | .texts | .path => true

end Flag

structure Flag where
  name : String
  letter : Option Char
  kind : Flag.Kind
  deriving DecidableEq, Repr

/-- Names of flags and their operands, in the order in which they were given. A switch has the empty
operand. -/
abbrev Given := List (String × String)

namespace Given

def has (g : Given) (name : String) : Bool := g.any (·.1 = name)

def operand? (g : Given) (name : String) : Option String := g.lookup name

/-- The operands of a flag that is given any number of times. -/
def operands (g : Given) (name : String) : List String :=
  g.filterMap fun (n, v) => if n = name then some v else none

/-- Adds a flag, if its kind allows it. -/
def add (g : Given) (f : Flag) (operand : String) : Except Stop Given :=
  match f.kind with
  | .stop s => .error s
  | .texts => .ok (g ++ [(f.name, operand)])
  | .switch | .text => if g.has f.name then .error .misuse else .ok (g ++ [(f.name, operand)])
  | .path =>
    if g.has f.name || operand = "" then .error .misuse else .ok (g ++ [(f.name, operand)])

end Given

inductive Word where
  /-- Two dashes alone. -/
  | separator
  | name (name : String) (operand? : Option String)
  | letters (cs : List Char)
  | plain (text : String)
  deriving DecidableEq, Repr

/-- What a word is by the dashes at its front. One dash alone is an operand. -/
def Word.ofChars : List Char → Word
  | ['-', '-'] => .separator
  | '-' :: '-' :: cs =>
    .name (String.ofList (cs.takeWhile (· ≠ '=')))
      (match cs.dropWhile (· ≠ '=') with
        | [] => none
        | _ :: operand => some (String.ofList operand))
  | '-' :: c :: cs => .letters (c :: cs)
  | cs => .plain (String.ofList cs)

/-- The flags read so far, and the one among the last word that still waits for its operand. -/
structure Reading where
  given : Given
  waiting : Option Flag

namespace Reading

def start : Reading := ⟨[], none⟩

def readName (flags : List Flag) (name : String) (operand? : Option String) (g : Given) :
    Except Stop Reading := do
  match flags.find? (·.name = name), operand? with
  | none, _ => .error .misuse
  | some f, none => if f.kind.takesOperand then .ok ⟨g, some f⟩ else return ⟨← g.add f "", none⟩
  | some f, some operand =>
    if f.kind.takesOperand then return ⟨← g.add f operand, none⟩ else .error .misuse

/-- An operand without the equals sign at its front. -/
def attached : List Char → String
  | '=' :: cs => String.ofList cs
  | cs => String.ofList cs

/-- Reads letters that stand together. -/
def readLetters (flags : List Flag) : List Char → Given → Except Stop Reading
  | [], g => .ok ⟨g, none⟩
  | c :: cs, g => do
    match flags.find? (·.letter = some c) with
    | none => .error .misuse
    | some f =>
      if f.kind.takesOperand then
        if cs = [] then .ok ⟨g, some f⟩ else return ⟨← g.add f (attached cs), none⟩
      else readLetters flags cs (← g.add f "")

/-- Reads flags and operands from the front of words, and gives the words behind them. Nothing may
follow a separator. -/
def readFlags (flags : List Flag) (r : Reading) : List String → Except Stop (Given × List String)
  | [] => if r.waiting.isNone then .ok (r.given, []) else .error .misuse
  | w :: ws => do
    match Word.ofChars w.toList, r.waiting with
    | .plain _, none => .ok (r.given, w :: ws)
    | .plain operand, some f => readFlags flags ⟨← r.given.add f operand, none⟩ ws
    | .separator, none => if ws = [] then .ok (r.given, []) else .error .misuse
    | .name name operand?, none => readFlags flags (← readName flags name operand? r.given) ws
    | .letters cs, none => readFlags flags (← readLetters flags cs r.given) ws
    | _, some _ => .error .misuse

end Reading

end CacheActivity.Command
