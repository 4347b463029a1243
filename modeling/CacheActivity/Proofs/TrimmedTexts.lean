import CacheActivity.Text.Basic
import Mathlib.Data.List.Basic
import Mathlib.Data.List.TakeWhile

/-!
# Trimmed texts

`Trimmed cs t` says that `t` is `cs` without the white space at its ends. Every text has one such
form, and trimming gives it (`trimmed_iff`).
-/

namespace CacheActivity.Text

variable {cs t : List Char}

/-- That a text is another one without the white space at its ends. -/
structure Trimmed (cs t : List Char) : Prop where
  ends : ∃ front back, cs = front ++ t ++ back ∧
    (∀ c ∈ front, isSpace c = true) ∧ ∀ c ∈ back, isSpace c = true
  head : ∀ c ∈ t.head?, isSpace c = false
  last : ∀ c ∈ t.getLast?, isSpace c = false

theorem trimStart_eq_self (h : ∀ c ∈ cs.head?, isSpace c = false) : trimStart cs = cs := by
  cases cs with
  | nil => rfl
  | cons c cs => exact List.dropWhile_cons_of_neg (by simp [h c rfl])

theorem exists_spaces (cs : List Char) :
    ∃ front, cs = front ++ trimStart cs ∧ ∀ c ∈ front, isSpace c = true :=
  ⟨_, List.takeWhile_append_dropWhile.symm, fun _ hc => List.all_eq_true.1 List.all_takeWhile _ hc⟩

theorem head_trimStart (cs : List Char) : ∀ c ∈ (trimStart cs).head?, isSpace c = false := by
  intro c hc
  have hhead := List.head?_dropWhile_not isSpace cs
  rw [trimStart, Option.mem_def] at hc
  simpa only [hc, Bool.not_eq_true'] using hhead

theorem trimEnd_eq (cs : List Char) : trimEnd cs = (trimStart cs.reverse).reverse := rfl

/-- A text has one trimmed form. -/
theorem trimmed_iff : Trimmed cs t ↔ t = trim cs := by
  constructor
  · rintro ⟨⟨front, back, rfl, hfront, hback⟩, hhead, hlast⟩
    have hback' : ∀ c ∈ back.reverse, isSpace c = true := fun c hc =>
      hback c (List.mem_reverse.1 hc)
    have hlast' : ∀ c ∈ t.reverse.head?, isSpace c = false := by simpa using hlast
    rw [trim, List.append_assoc, trimStart_append_of_forall hfront]
    cases t with
    | nil => simp [trimStart, List.dropWhile_eq_nil_iff.2 hback, trimEnd]
    | cons c t =>
      have hstart : trimStart (c :: t ++ back) = c :: t ++ back := trimStart_eq_self hhead
      rw [hstart, trimEnd_eq, List.reverse_append, trimStart_append_of_forall hback',
        trimStart_eq_self hlast', List.reverse_reverse]
  · rintro rfl
    obtain ⟨front, hfront, hspaces⟩ := exists_spaces cs
    obtain ⟨back, hback, hspaces'⟩ := exists_spaces (trimStart cs).reverse
    have hend : trimStart cs = trim cs ++ back.reverse := by
      rw [trim, trimEnd_eq, ← List.reverse_append, ← hback, List.reverse_reverse]
    refine ⟨⟨front, back.reverse, ?_, hspaces, fun c hc => hspaces' c (List.mem_reverse.1 hc)⟩,
      fun c hc => ?_, ?_⟩
    · rw [List.append_assoc, ← hend]
      exact hfront
    · refine head_trimStart cs c ?_
      rw [hend]
      exact List.mem_head?_append_of_mem_head? hc
    · rw [trim, trimEnd_eq, List.getLast?_reverse]
      exact head_trimStart _

/-- White space around a text without any is left out. -/
theorem trim_of_spaces {front back : List Char} (hfront : ∀ c ∈ front, isSpace c = true)
    (hback : ∀ c ∈ back, isSpace c = true) (ht : ∀ c ∈ t, isSpace c = false) :
    trim (front ++ t ++ back) = t :=
  (trimmed_iff.1
    { ends := ⟨front, back, rfl, hfront, hback⟩
      head := fun c hc => ht c (List.mem_of_mem_head? hc)
      last := fun c hc => ht c (List.mem_of_mem_getLast? hc) }).symm

end CacheActivity.Text
