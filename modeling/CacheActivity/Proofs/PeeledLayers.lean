import CacheActivity.Json.Layers
import CacheActivity.Proofs.CompactTexts
import CacheActivity.Text.Basic
import Mathlib.Logic.Function.Iterate

/-!
# Layers that come off

Taking off at most so many layers is taking off one layer so many times: that it stops early makes
no difference (`peelUpTo_eq_iterate`). A text inside a text is shorter by its two quotes at least
(`byteLength_of_read_text`), so no more layers come off a text than it has pairs of bytes, and then
nothing changes any more (`peelUpTo_settles`). What was put inside texts layer by layer comes out in
the same way (`peelUpTo_unwraps`).
-/

namespace CacheActivity.Json

open Text (byteLength byteLength_append length_le_byteLength)

section Lengths

variable {t s : List Char} {c : Char}

theorem Escape.utf8Size_le {e : List Char} (h : Escape e c) : c.utf8Size ≤ byteLength e := by
  have hfour := c.utf8Size_le_four
  have hlength := length_le_byteLength e
  cases h with
  | letter he =>
    have hone : ∀ l ∈ escapeLetters, l.2.utf8Size = 1 := by decide
    exact hone _ he ▸ hlength
  | unit hu =>
    refine Nat.le_trans hfour (Nat.le_trans ?_ hlength)
    rw [List.length_cons, hu.length_eq]
    decide
  | pair hu =>
    refine Nat.le_trans hfour (Nat.le_trans ?_ hlength)
    rw [List.length_append, List.length_cons, hu.length_eq]
    omega

/-- What stands between quotes is no shorter than the text it stands for. -/
theorem Quoted.byteLength_le (h : Quoted t s) : byteLength s ≤ byteLength t := by
  induction h with
  | nil => exact Nat.le_refl _
  | plain _ _ _ _ ih => exact Nat.add_le_add_left ih _
  | @escape c e t s he _ ih =>
    calc byteLength (c :: s) = c.utf8Size + byteLength s := rfl
      _ ≤ byteLength e + byteLength t := Nat.add_le_add he.utf8Size_le ih
      _ ≤ byteLength ('\\' :: e ++ t) := by
        rw [← byteLength_append]
        exact Nat.le_add_left _ _

/-- A text inside a text is shorter, by its two quotes at least. -/
theorem byteLength_of_read_text {s t : String} (h : read s = .ok (.text t)) :
    byteLength t.toList + 2 ≤ byteLength s.toList := by
  obtain ⟨x, hx, hv, hspells⟩ := read_eq_ok_iff.1 h
  rw [hv] at hspells
  generalize htext : x.text = cs at hspells
  cases hspells with
  | @text _ q _ hquoted =>
    have hquotes : byteLength ('"' :: q ++ ['"']) = byteLength q + 2 := by
      rw [List.cons_append, byteLength, byteLength_append]
      exact Nat.add_comm 1 (byteLength q + 1)
    calc byteLength t.toList + 2 ≤ byteLength q + 2 := Nat.add_le_add_right hquoted.byteLength_le 2
      _ = byteLength x.text := by rw [htext, hquotes]
      _ ≤ byteLength s.toList := by
        rw [hx, Piece.chars, byteLength_append, byteLength_append]
        omega

end Lengths

namespace Value

variable {v : Value}

theorem peelUpTo_of_peel_eq (h : v.peel = v) (n : Nat) : v.peelUpTo n = v := by
  cases n with
  | zero => rfl
  | succ n =>
    cases v with
    | text s =>
      unfold peelUpTo
      rw [h]
      exact if_pos rfl
    | _ => rfl

/-- Where the layers are counted down, stopping early gives what going on would give. -/
theorem peelUpTo_succ (v : Value) (n : Nat) : v.peelUpTo (n + 1) = v.peel.peelUpTo n := by
  cases v with
  | text s =>
    rw [peelUpTo]
    split
    · rename_i t ht
      rw [ht]
      split
      · rename_i hts
        subst hts
        exact (peelUpTo_of_peel_eq ht n).symm
      · rfl
    · rfl
  | _ => exact (peelUpTo_of_peel_eq rfl n).symm

theorem peelUpTo_eq_iterate (v : Value) (n : Nat) : v.peelUpTo n = peel^[n] v := by
  induction n generalizing v with
  | zero => rfl
  | succ n ih => rw [peelUpTo_succ, ih, Function.iterate_succ_apply]

theorem peelUpTo_peelUpTo (v : Value) (m n : Nat) :
    (v.peelUpTo m).peelUpTo n = v.peelUpTo (m + n) := by
  rw [peelUpTo_eq_iterate, peelUpTo_eq_iterate, peelUpTo_eq_iterate, Nat.add_comm,
    Function.iterate_add_apply]

/-- Two bytes go with every layer, so behind so many layers there is none left. -/
theorem peel_peelUpTo {s : String} {n : Nat} (h : byteLength s.toList < 2 * n) :
    ((text s).peelUpTo n).peel = (text s).peelUpTo n := by
  induction n generalizing s with
  | zero => exact absurd h (Nat.not_lt_zero _)
  | succ n ih =>
    rw [peelUpTo_succ]
    cases hread : read s with
    | error e =>
      have hself : (text s).peel = text s := by simp only [peel, hread]
      rw [hself, peelUpTo_of_peel_eq hself, hself]
    | ok v =>
      rw [peel_text hread]
      cases v with
      | text t =>
        have hshorter := byteLength_of_read_text hread
        exact ih (by omega)
      | _ =>
        rw [peelUpTo_of_peel_eq rfl]
        rfl

theorem peelUpTo_of_le {s : String} {m n : Nat} (hm : byteLength s.toList < 2 * m) (h : m ≤ n) :
    (text s).peelUpTo n = (text s).peelUpTo m := by
  obtain ⟨k, rfl⟩ := Nat.exists_eq_add_of_le h
  rw [← peelUpTo_peelUpTo, peelUpTo_of_peel_eq (peel_peelUpTo hm)]

/-- A layer that comes off a text inside a text takes two bytes at least. -/
theorem byteLength_of_peel {s t : String} (h : (text s).peel = text t) (hne : t ≠ s) :
    byteLength t.toList + 2 ≤ byteLength s.toList := by
  cases hread : read s with
  | error e =>
    simp only [peel, hread, text.injEq] at h
    exact absurd h.symm hne
  | ok v =>
    rw [peel_text hread] at h
    exact byteLength_of_read_text (h ▸ hread)

theorem ne_of_read_text {s t : String} (h : read s = .ok (text t)) : t ≠ s := by
  rintro rfl
  have hshorter := byteLength_of_read_text h
  omega

/-- Taking off at most so many layers is taking off one layer so many times, and doing it twice adds
the numbers up. A text inside a text comes off, and has two bytes less at least. So from one more
than half its bytes on, every number of layers gives the same for a text, and no further layer comes
off that. -/
theorem peelUpTo_settles :
    (∀ (v : Value) (n : Nat), v.peelUpTo n = peel^[n] v) ∧
    (∀ (v : Value) (m n : Nat), (v.peelUpTo m).peelUpTo n = v.peelUpTo (m + n)) ∧
    (∀ s t : String, read s = .ok (text t) → (text s).peel = text t ∧ t ≠ s) ∧
    (∀ s t : String, (text s).peel = text t → t ≠ s →
      byteLength t.toList + 2 ≤ byteLength s.toList) ∧
    ∀ (s : String) (n : Nat), byteLength s.toList / 2 + 1 ≤ n →
      (text s).peelUpTo n = (text s).peelUpTo (byteLength s.toList / 2 + 1) ∧
        ((text s).peelUpTo n).peel = (text s).peelUpTo n := by
  refine ⟨peelUpTo_eq_iterate, peelUpTo_peelUpTo, fun _ _ h => ⟨peel_text h, ne_of_read_text h⟩,
    fun _ _ => byteLength_of_peel, fun s n hn => ⟨peelUpTo_of_le ?_ hn, peel_peelUpTo ?_⟩⟩
  · omega
  · omega

/-- A number inside the text of a text. -/
def quotedSeven : String := "\"\\\"7\\\"\""

theorem peelUpTo_settles_of_quotedSeven :
    (text quotedSeven).peel = text "\"7\"" ∧
    byteLength "\"7\"".toList + 2 ≤ byteLength quotedSeven.toList ∧
    (text quotedSeven).peelUpTo 100 = (text quotedSeven).peelUpTo 4 ∧
    ((text quotedSeven).peelUpTo 100).peel = (text quotedSeven).peelUpTo 100 := by
  obtain ⟨-, -, hpeels, hshorter, hsettles⟩ := peelUpTo_settles
  have hbytes : byteLength quotedSeven.toList = 7 := rfl
  have hbound : byteLength quotedSeven.toList / 2 + 1 ≤ 100 := by rw [hbytes]; decide
  have hstays := hsettles quotedSeven 100 hbound
  rw [hbytes] at hstays
  obtain ⟨hpeel, hne⟩ := hpeels quotedSeven "\"7\"" rfl
  exact ⟨hpeel, hshorter _ _ hpeel hne, hstays⟩

/-- A value inside the JSON text of a text, so many times. -/
def wrapped (v : Value) : Nat → Value
  | 0 => v
  | k + 1 => (v.wrapped k).wrap

theorem peel_wrapped (h : read v.compact = .ok v) (k : Nat) :
    (v.wrapped (k + 1)).peel = v.wrapped k := by
  cases k with
  | zero => exact peel_text h
  | succ k => exact peel_text (read_compact_text _)

/-- As many layers come off as were put on, and no more. -/
theorem peelUpTo_wrapped (hdecodes : read v.compact = .ok v) (hbottom : v.peel = v) (k n : Nat) :
    (v.wrapped k).peelUpTo n = v.wrapped (k - n) := by
  induction n generalizing k with
  | zero => rfl
  | succ n ih =>
    cases k with
    | zero =>
      rw [Nat.zero_sub]
      exact peelUpTo_of_peel_eq hbottom _
    | succ k => rw [peelUpTo_succ, peel_wrapped hdecodes, ih, Nat.add_sub_add_right]

/-- A value that was put inside texts so many times comes out again, if as many layers are taken off
or more, and else inside as many texts as are left. It may be any value whose text decodes to it but
a text, and any text that does not decode. -/
theorem peelUpTo_unwraps (v : Value)
    (h : (∀ s, v ≠ text s) ∧ read v.compact = .ok v ∨ ∃ s, v = text s ∧ ∀ w, read s ≠ .ok w)
    (k n : Nat) :
    (k ≤ n → (v.wrapped k).peelUpTo n = v) ∧
    (n < k → (v.wrapped k).peelUpTo n = v.wrapped (k - n)) := by
  have hwrapped : (v.wrapped k).peelUpTo n = v.wrapped (k - n) := by
    obtain ⟨hne, hdecodes⟩ | ⟨s, rfl, hfails⟩ := h
    · exact peelUpTo_wrapped hdecodes (peel_of_ne_text hne) k n
    · refine peelUpTo_wrapped (read_compact_text s) ?_ k n
      cases hread : read s with
      | ok w => exact absurd hread (hfails w)
      | error e => simp only [peel, hread]
  refine ⟨fun hkn => ?_, fun _ => hwrapped⟩
  rw [hwrapped, Nat.sub_eq_zero_of_le hkn]
  rfl

theorem peelUpTo_unwraps_of_object_and_word :
    ((object [("say", text "\"hi\"")]).wrapped 3).peelUpTo 2 =
      (object [("say", text "\"hi\"")]).wrapped 1 ∧
    ((text "\"hi").wrapped 3).peelUpTo 7 = text "\"hi" := by
  have hobject := peelUpTo_unwraps (object [("say", text "\"hi\"")])
    (.inl ⟨by rintro s ⟨⟩, rfl⟩) 3 2
  have hword := peelUpTo_unwraps (text "\"hi") (.inr ⟨_, rfl, by rintro w ⟨⟩⟩) 3 7
  exact ⟨hobject.2 (by decide), hword.1 (by decide)⟩

end Value

end CacheActivity.Json
