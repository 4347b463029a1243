import CacheActivity.Text.Extending

/-!
# Ligatures

Letters of some scripts that make one sign together. Such a sign is found from its end: `ofLast?`
gives the ligatures that can end with a letter, and `extend?` says what the letter before that does.
-/

namespace CacheActivity.Text

/-- How much of a ligature has been found, from its end on. -/
inductive Ligature where
  /-- Hebrew lamed, which alef and a joiner go before. -/
  | lamed
  /-- Buginese ya, which a vowel and a joiner go before. -/
  | ya
  /-- Buginese ya with that vowel, which another letter goes before. -/
  | vowelYa
  /-- A Tifinagh consonant. -/
  | consonant
  /-- A Tifinagh consonant behind its own joiner. -/
  | joinedConsonant
  /-- A Lisu tone letter, which another one goes before. -/
  | toneLetter
  /-- An Old Turkic vowel, which a consonant and a joiner go before. -/
  | orkhonVowel
  /-- A Khmer letter that can stand below another one. -/
  | lowLetter
  deriving DecidableEq, Repr

def consonantRanges : List (Nat × Nat) := [(0x2D31, 0x2D65), (0x2D6F, 0x2D6F)]

/-- The Khmer letters that can stand below another one. -/
def lowLetterRanges : List (Nat × Nat) :=
  [(0x1780, 0x1782), (0x1784, 0x1787), (0x1789, 0x178C), (0x178E, 0x1793), (0x1795, 0x1798),
    (0x179B, 0x179D), (0x17A0, 0x17A0), (0x17A2, 0x17A2), (0x17A7, 0x17A7), (0x17AB, 0x17AC),
    (0x17AF, 0x17AF)]

/-- The marks between the letters of a ligature that do not part them. -/
def passingMarkRanges : List (Nat × Nat) :=
  [(0x34F, 0x34F), (0x17B4, 0x17B5), (0x180B, 0x180D), (0x180F, 0x180F), (0xFE00, 0xFE0F),
    (0xE0100, 0xE01EF)]

def isPassingMark (c : Char) : Bool := inRanges passingMarkRanges c.toNat

namespace Ligature

/-- The ligature that can end with a letter. -/
def ofLast? (c : Char) : Option Ligature :=
  let n := c.toNat
  if n = 0x5DC then some .lamed
  else if n = 0x1A10 then some .ya
  else if inRanges consonantRanges n then some .consonant
  else if n = 0xA4FC ∨ n = 0xA4FD then some .toneLetter
  else if n = 0x10C03 then some .orkhonVowel
  else if inRanges lowLetterRanges n then some .lowLetter
  else none

/-- The columns that a letter adds to a ligature behind it, and the longer ligature that they can
end. `joined` says that a joiner stands between. A ligature of two letters is as wide as one, and a
low letter takes no columns of its own. -/
def extend? (l : Ligature) (joined : Bool) (c : Char) : Option (Int × Option Ligature) :=
  let n := c.toNat
  match l with
  | .lamed => if joined && n = 0x5D0 then some (0, none) else none
  | .ya => if joined && n = 0x1A17 then some (0, some .vowelYa) else none
  | .vowelYa => if n = 0x1A15 then some (0, none) else none
  | .consonant =>
    if n = 0x2D7F then some (1, some .joinedConsonant)
    else if joined && inRanges consonantRanges n then some (0, none)
    else none
  | .joinedConsonant => if inRanges consonantRanges n then some (-1, none) else none
  | .toneLetter => if 0xA4F8 ≤ n ∧ n ≤ 0xA4FB then some (0, none) else none
  | .orkhonVowel => if joined && n = 0x10C32 then some (0, none) else none
  | .lowLetter => if n = 0x17D2 then some (-1, none) else none

end Ligature

def lamRanges : List (Nat × Nat) :=
  [(0x644, 0x644), (0x6B5, 0x6B8), (0x76A, 0x76A), (0x8A6, 0x8A6), (0x8C7, 0x8C7)]

def alefRanges : List (Nat × Nat) :=
  [(0x622, 0x623), (0x625, 0x625), (0x627, 0x627), (0x671, 0x673), (0x675, 0x675), (0x773, 0x774),
    (0x870, 0x882)]

def isLam (c : Char) : Bool := inRanges lamRanges c.toNat

def isAlef (c : Char) : Bool := inRanges alefRanges c.toNat

end CacheActivity.Text
