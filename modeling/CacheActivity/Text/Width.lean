import CacheActivity.Text.Columns
import CacheActivity.Text.Emoji
import CacheActivity.Text.Ligature

/-!
# Display width

The number of columns a text takes on a terminal. Most characters take their own, but some make one
sign together: a picture with a selector or a skin tone, pictures with joiners between them, the
letters of a flag, and the letters of a ligature. For that a text is read from its end, and each
character learns what stands behind it.
-/

namespace CacheActivity.Text

/-- What stands behind a character, as far as it can make one sign with it. -/
inductive Behind where
  | nothing
  | picture
  | tone
  | flagLetters (n : Nat)
  /-- A joiner and a picture. -/
  | joined
  /-- A keycap in front of a joined picture. -/
  | joinedKeycap
  /-- Letters of flags in front of a joined picture. -/
  | joinedFlag (n : Nat)
  /-- The end of a region's name in front of a joined picture. -/
  | joinedTag (letters digits : Nat)
  | alef
  /-- The end of a ligature, with a joiner in front of it or not. -/
  | ligature (l : Ligature) (joined : Bool)
  /-- The Kirat Rai vowels that others are made of. -/
  | vowelE
  | vowelAi
  deriving DecidableEq, Repr

namespace Behind

/-- What a character is for the one before it. -/
def ofChar (c : Char) : Behind :=
  if isTone c then .tone
  else if isFlagLetter c then .flagLetters 1
  else if isPicture c then .picture
  else if isAlef c then .alef
  else if c.toNat = 0x16D67 then .vowelE
  else if c.toNat = 0x16D68 then .vowelAi
  else match Ligature.ofLast? c with
    | some l => .ligature l false
    | none => .nothing

/-- Whether a picture is joined here. -/
def isJoined : Behind → Bool
  | .joined | .joinedKeycap => true
  | _ => false

/-- What is left of it behind a character that neither parts letters nor belongs to them. -/
def letters : Behind → Behind
  | .alef => .alef
  | .ligature l j => .ligature l j
  | _ => .nothing

/-- What is left of it behind a selector. -/
def behindSelector (s : Style) (b : Behind) : Behind :=
  if s = .picture && b.isJoined then b else b.letters

end Behind

/-- What a character learns of the text behind it. -/
structure Context where
  /-- The selector right behind it. -/
  selector : Option Style
  behind : Behind
  deriving DecidableEq, Repr

namespace Context

/-- The context at the end of a text. -/
def empty : Context := ⟨none, .nothing⟩

/-- The context in front of a character or a part of a sign. -/
def ofBehind (b : Behind) : Context := ⟨none, b⟩

end Context

/-- A character that makes no sign with what stands behind it. -/
def aloneWidth (c : Char) : Int × Context := (columns c, .ofBehind (.ofChar c))

/-- A part of a region's name, or the flag in front of a whole one: two to six letters, of which the
first four can have three digits in front of them. -/
def tagWidth (c : Char) (letters digits : Nat) : Int × Context :=
  if digits = 0 && letters < 6 && isTagLetter c then
    (0, .ofBehind (.joinedTag (letters + 1) 0))
  else if letters ≤ 4 && digits < 3 && isTagDigit c then
    (0, .ofBehind (.joinedTag letters (digits + 1)))
  else if (digits = 3 || (digits = 0 && 3 ≤ letters)) && c = blackFlag then
    (0, .ofBehind .picture)
  else aloneWidth c

/-- A character in front of something that is no selector. -/
def signWidth (c : Char) (b : Behind) : Int × Context :=
  let give (n : Int) (b : Behind) : Int × Context := (n, .ofBehind b)
  match b with
  | .nothing | .joinedKeycap => aloneWidth c
  | .picture => if c = joiner then give 0 .joined else aloneWidth c
  | .tone =>
    if isToneBase c then give 0 .picture
    else if c = joiner then give 0 .joined
    else aloneWidth c
  | .flagLetters n =>
    if isFlagLetter c then give 1 (.flagLetters (n + 1))
    else if 2 ≤ n && c = joiner then give 0 .joined
    else aloneWidth c
  | .joined =>
    if c = keycap then give 0 .joinedKeycap
    else if isFlagLetter c then give 1 (.joinedFlag 1)
    else if isTone c then give 0 .tone
    else if isTagEnd c then give 0 (.joinedTag 0 0)
    else if isPicture c then give 0 .picture
    else aloneWidth c
  | .joinedFlag n =>
    if isFlagLetter c then give (if n % 2 = 1 then -1 else 3) (.joinedFlag (n + 1))
    else if 2 ≤ n && c = joiner then give 0 .joined
    else aloneWidth c
  | .joinedTag letters digits => tagWidth c letters digits
  | .alef =>
    if isLam c then give 0 .nothing
    else if isTransparent c then give 0 .alef
    else aloneWidth c
  | .ligature l joined =>
    if c = joiner then give 0 (.ligature l true)
    else if isPassingMark c then give 0 (.ligature l joined)
    else match l.extend? joined c with
      | some (n, some longer) => give n (.ligature longer joined)
      | some (n, none) => give n .nothing
      | none => aloneWidth c
  | .vowelE =>
    if c.toNat = 0x16D63 ∨ c.toNat = 0x16D69 then give 0 .nothing
    else if c.toNat = 0x16D67 then give 0 .vowelAi
    else if c.toNat = 0x16D68 then give 1 .vowelE
    else aloneWidth c
  | .vowelAi => if c.toNat = 0x16D63 then give 0 .nothing else aloneWidth c

/-- A character in front of something that does not choose its style. -/
def unstyledWidth (c : Char) (b : Behind) : Int × Context :=
  match styleOf? c with
  | some s => (0, ⟨some s, b.behindSelector s⟩)
  | none => signWidth c b

/-- The quotation marks that have a wide style. -/
def isQuotationMark (c : Char) : Bool :=
  c = '\u2018' || c = '\u2019' || c = '\u201c' || c = '\u201d'

/-- The columns that a character adds to a text behind it, and what it is for the character before
it. -/
def stepWidth (c : Char) (x : Context) : Int × Context :=
  match x.selector with
  | some .picture =>
    if hasStyles c then (if x.behind.isJoined then 0 else 2, .ofBehind .picture)
    else unstyledWidth c x.behind.letters
  | some .text => if narrowsAsText c then (1, .empty) else unstyledWidth c x.behind
  | some .fullWidth => if isQuotationMark c then (2, .empty) else unstyledWidth c x.behind
  | none => unstyledWidth c x.behind

/-- The columns of a text, and what it is for a character before it. A part of a sign can take
columns back that another part has added. -/
def measure : List Char → Int × Context
  | [] => (0, .empty)
  | c :: cs =>
    let rest := measure cs
    let own := stepWidth c rest.2
    (own.1 + rest.1, own.2)

/-- The columns that a line takes. -/
def width (cs : List Char) : Nat := (measure cs).1.toNat

@[simp] theorem width_nil : width [] = 0 := rfl

end CacheActivity.Text
