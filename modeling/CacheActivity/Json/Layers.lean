import CacheActivity.Json.Reader
import CacheActivity.Json.Writer

/-!
# Values inside texts

A value can arrive as its JSON text inside a text value, and that again inside another text.
`Value.peel` takes one such layer off, and `Value.peelUpTo` a bounded number of them. A value that
is no text, and a text that is not JSON, stay as they are.
-/

namespace CacheActivity.Json.Value

/-- Decodes one layer. -/
def peel : Value → Value
  | .text s =>
    match read s with
    | .ok v => v
    | .error _ => .text s
  | v => v

/-- Decodes at most so many layers, and stops at the first value that is no text or that decoding
leaves as it is. -/
def peelUpTo : Nat → Value → Value
  | 0, v => v
  | n + 1, .text s =>
    match (Value.text s).peel with
    | .text t => if t = s then .text s else peelUpTo n (.text t)
    | v => peelUpTo n v
  | _ + 1, v => v

/-- The text value that holds the compact text of a value. -/
def wrap (v : Value) : Value := .text v.compact

section Layers

variable {s : String} {v : Value}

theorem peel_text (h : read s = .ok v) : (Value.text s).peel = v := by
  simp only [peel, h]

theorem peel_of_ne_text (h : ∀ s, v ≠ .text s) : v.peel = v := by
  cases v with
  | text s => exact absurd rfl (h s)
  | _ => rfl

theorem peelUpTo_one (v : Value) : v.peelUpTo 1 = v.peel := by
  cases v with
  | text s =>
    unfold peelUpTo
    split
    · rename_i t ht
      split
      · rename_i hts
        rw [ht, hts]
      · exact ht.symm
    · rfl
  | _ => rfl

end Layers

end CacheActivity.Json.Value
