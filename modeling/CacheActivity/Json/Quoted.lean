import CacheActivity.Json.Cursor
import CacheActivity.Text.Basic

/-!
# Quoted texts

A quoted text stands between double quotes. A backslash opens an escape: one of eight letters, or
`u` and four hexadecimal digits of a UTF-16 unit, two such escapes for a pair of surrogates.
`escape` writes what `readText` reads, and escapes only what has to be escaped.
-/

namespace CacheActivity.Json

/-- The value of four hexadecimal digits. -/
def hexUnit? : List Char → Option Nat
  | [a, b, c, d] => do
    return ((← Text.hexValue? a) * 16 + (← Text.hexValue? b)) * 256 + (← Text.hexValue? c) * 16 +
      (← Text.hexValue? d)
  | _ => none

/-- Four hexadecimal digits. Fewer than four bytes ahead are an unclosed text. -/
def readUnit : Reader Nat := fun c =>
  let ahead := c.rest.take 4
  match hexUnit? ahead with
  | some n => .ok (n, c.jump (c.rest.drop 4))
  | none =>
    .error ⟨if Text.byteLength ahead < 4 then .endInText else .invalidEscape,
      c.position.bytesOn 4 c.rest⟩

def isHighSurrogate (n : Nat) : Bool := 0xD800 ≤ n && n ≤ 0xDBFF

def isLowSurrogate (n : Nat) : Bool := 0xDC00 ≤ n && n ≤ 0xDFFF

/-- The character of a pair of surrogates. -/
def joinSurrogates (high low : Nat) : Char :=
  Char.ofNat (0x10000 + (high - 0xD800) * 0x400 + (low - 0xDC00))

/-- The second half of a pair, from its backslash on. -/
def readLowSurrogate (high : Nat) : Reader Char := fun c =>
  match c.rest with
  | [] => c.fail .endInText
  | '\\' :: [] => c.step.fail .endInText
  | '\\' :: 'u' :: _ => do
    let (low, c) ← readUnit c.step.step
    if isLowSurrogate low then .ok (joinSurrogates high low, c) else c.fail .loneSurrogate
  | '\\' :: _ => c.step.failNext .hexEscapeCutShort
  | _ => c.failNext .hexEscapeCutShort

/-- The character of a letter behind a backslash. -/
def unescape? : Char → Option Char
  | '"' => some '"'
  | '\\' => some '\\'
  | '/' => some '/'
  | 'b' => some '\x08'
  | 'f' => some '\x0c'
  | 'n' => some '\n'
  | 'r' => some '\r'
  | 't' => some '\t'
  | _ => none

/-- An escape behind its backslash. -/
def readEscape : Reader Char := fun c =>
  match c.rest with
  | [] => c.fail .endInText
  | 'u' :: _ => do
    let (n, c) ← readUnit c.step
    if isLowSurrogate n then c.fail .loneSurrogate
    else if isHighSurrogate n then readLowSurrogate n c
    else .ok (Char.ofNat n, c)
  | e :: _ =>
    match unescape? e with
    | some ch => .ok (ch, c.step)
    | none => c.failNext .invalidEscape

/-- The characters up to the closing quote. The first argument bounds the characters ahead. -/
def readChars : Nat → Reader (List Char)
  | 0, c => c.fail .endInText
  | fuel + 1, c =>
    match c.rest with
    | [] => c.fail .endInText
    | '"' :: _ => .ok ([], c.step)
    | '\\' :: _ => do
      let (ch, c) ← readEscape c.step
      let (chs, c) ← readChars fuel c
      return (ch :: chs, c)
    | ch :: _ =>
      if ch < ' ' then c.failNext .controlCharacter
      else do
        let (chs, c) ← readChars fuel c.step
        return (ch :: chs, c)

/-- A quoted text behind its opening quote. -/
def readText : Reader String := fun c => do
  let (chs, c) ← readChars (c.rest.length + 1) c
  return (String.ofList chs, c)

/-- An escape that nobody decodes: the units of surrogates need not pair up. -/
def skipEscape : Reader Unit := fun c =>
  match c.rest with
  | [] => c.fail .endInText
  | 'u' :: _ => do
    let (_, c) ← readUnit c.step
    return ((), c)
  | e :: _ => if (unescape? e).isSome then .ok ((), c.step) else c.failNext .invalidEscape

def skipChars : Nat → Reader Unit
  | 0, c => c.fail .endInText
  | fuel + 1, c =>
    match c.rest with
    | [] => c.fail .endInText
    | '"' :: _ => .ok ((), c.step)
    | '\\' :: _ => do
      let (_, c) ← skipEscape c.step
      skipChars fuel c
    | ch :: _ => if ch < ' ' then c.fail .controlCharacter else skipChars fuel c.step

def skipText : Reader Unit := fun c => skipChars (c.rest.length + 1) c

def hexDigit (n : Nat) : Char := "0123456789abcdef".toList.getD n '0'

def escapeChar (c : Char) : List Char :=
  match c with
  | '"' => ['\\', '"']
  | '\\' => ['\\', '\\']
  | '\x08' => ['\\', 'b']
  | '\x0c' => ['\\', 'f']
  | '\n' => ['\\', 'n']
  | '\r' => ['\\', 'r']
  | '\t' => ['\\', 't']
  | c =>
    if c < ' ' then ['\\', 'u', '0', '0', hexDigit (c.toNat / 16), hexDigit (c.toNat % 16)] else [c]

def quote (s : String) : List Char := '"' :: s.toList.flatMap escapeChar ++ ['"']

end CacheActivity.Json
