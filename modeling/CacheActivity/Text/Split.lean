/-!
# Splitting at a character

`splitAt` takes a text apart at every place where a separator stands, so `n` separators leave
`n + 1` parts, and `joinWith` puts the separators back. Lines are the parts between line breaks.
-/

namespace CacheActivity.Text

variable {separator : Char}

/-- The parts of a text between its separators. -/
def splitAt (separator : Char) : List Char → List (List Char)
  | [] => [[]]
  | c :: cs =>
    if c = separator then [] :: splitAt separator cs
    else
      match splitAt separator cs with
      | p :: ps => (c :: p) :: ps
      | [] => [[c]]

/-- Parts with separators between them. -/
def joinWith (separator : Char) : List (List Char) → List Char
  | [] => []
  | [p] => p
  | p :: ps => p ++ separator :: joinWith separator ps

def lines (cs : List Char) : List (List Char) := splitAt '\n' cs

theorem splitAt_ne_nil (cs : List Char) : splitAt separator cs ≠ [] := by
  cases cs with
  | nil => simp [splitAt]
  | cons c cs =>
    unfold splitAt
    split
    · simp
    · split <;> simp

theorem joinWith_cons {p : List Char} {ps : List (List Char)} (h : ps ≠ []) :
    joinWith separator (p :: ps) = p ++ separator :: joinWith separator ps := by
  cases ps with
  | nil => exact absurd rfl h
  | cons q ps => rfl

theorem joinWith_cons_eq_append (p : List Char) (ps : List (List Char)) :
    joinWith separator (p :: ps) = p ++ ps.flatMap (separator :: ·) := by
  induction ps generalizing p with
  | nil => simp [joinWith]
  | cons q ps ih => rw [joinWith_cons (List.cons_ne_nil q ps), ih, List.flatMap_cons]; rfl

@[simp] theorem joinWith_splitAt (cs : List Char) :
    joinWith separator (splitAt separator cs) = cs := by
  induction cs with
  | nil => rfl
  | cons c cs ih =>
    unfold splitAt
    split
    · rename_i h
      rw [joinWith_cons (splitAt_ne_nil cs), ih, h]
      rfl
    · cases hp : splitAt separator cs with
      | nil => exact absurd hp (splitAt_ne_nil cs)
      | cons p ps =>
        rw [hp] at ih
        cases ps with
        | nil => simp only [joinWith] at ih ⊢; rw [ih]
        | cons q ps => simp only [joinWith, List.cons_append] at ih ⊢; rw [ih]

theorem splitAt_of_not_mem {p : List Char} (h : separator ∉ p) : splitAt separator p = [p] := by
  induction p with
  | nil => rfl
  | cons c p ih =>
    rw [List.mem_cons, not_or] at h
    rw [splitAt, if_neg fun hc => h.1 hc.symm, ih h.2]

theorem splitAt_append_cons (cs ds : List Char) :
    splitAt separator (cs ++ separator :: ds) = splitAt separator cs ++ splitAt separator ds := by
  induction cs with
  | nil => simp [splitAt]
  | cons c cs ih =>
    rw [List.cons_append, splitAt, splitAt, ih]
    split
    · rfl
    · cases hp : splitAt separator cs with
      | nil => exact absurd hp (splitAt_ne_nil cs)
      | cons p ps => rfl

theorem splitAt_append_replicate (cs : List Char) (n : Nat) :
    splitAt separator (cs ++ List.replicate n separator) =
      splitAt separator cs ++ List.replicate n [] := by
  induction n with
  | zero => simp
  | succ n ih =>
    rw [List.replicate_succ', ← List.append_assoc, splitAt_append_cons, ih, List.append_assoc,
      List.replicate_succ']
    rfl

theorem not_mem_of_mem_splitAt {cs p : List Char} (h : p ∈ splitAt separator cs) :
    separator ∉ p := by
  induction cs generalizing p with
  | nil => simp [splitAt] at h; simp [h]
  | cons c cs ih =>
    unfold splitAt at h
    split at h
    · rcases List.mem_cons.1 h with rfl | h
      · simp
      · exact ih h
    · rename_i hc
      cases hp : splitAt separator cs with
      | nil => exact absurd hp (splitAt_ne_nil cs)
      | cons q qs =>
        rw [hp] at h ih
        rcases List.mem_cons.1 h with rfl | h
        · simp only [List.mem_cons, not_or]
          exact ⟨fun e => hc e.symm, ih (by simp)⟩
        · exact ih (by simp [h])

end CacheActivity.Text
