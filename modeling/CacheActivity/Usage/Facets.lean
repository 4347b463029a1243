import CacheActivity.Usage.Row

/-!
# Facets

The distinct API keys, models and types of call of some rows, in first-seen order: `firstSeen` keeps
the first of equal values. A missing type of call is the empty text here; only the series give it a
label.
-/

namespace CacheActivity.Usage

section FirstSeen

variable {α : Type} [DecidableEq α]

/-- A new value goes to the end. -/
def note (seen : List α) (x : α) : List α := if x ∈ seen then seen else seen ++ [x]

/-- The distinct values of a list, each where it came first. -/
def firstSeen (xs : List α) : List α := xs.foldl note []

theorem mem_note {seen : List α} {x y : α} : y ∈ note seen x ↔ y ∈ seen ∨ y = x := by
  unfold note
  split
  · exact ⟨.inl, fun h => h.elim id fun e => e ▸ ‹_›⟩
  · simp

theorem nodup_note {seen : List α} {x : α} (h : seen.Nodup) : (note seen x).Nodup := by
  unfold note
  split
  · exact h
  · rename_i hx
    exact List.nodup_append.2 ⟨h, by simp, by rintro a ha b hb rfl; simp at hb; exact hx (hb ▸ ha)⟩

theorem mem_foldl_note {xs seen : List α} {y : α} :
    y ∈ xs.foldl note seen ↔ y ∈ seen ∨ y ∈ xs := by
  induction xs generalizing seen with
  | nil => simp
  | cons x xs ih => simp [ih, mem_note, or_assoc]

@[simp] theorem mem_firstSeen {xs : List α} {y : α} : y ∈ firstSeen xs ↔ y ∈ xs := by
  simp [firstSeen, mem_foldl_note]

theorem nodup_foldl_note {xs seen : List α} (h : seen.Nodup) : (xs.foldl note seen).Nodup := by
  induction xs generalizing seen with
  | nil => exact h
  | cons x xs ih => exact ih (nodup_note h)

theorem nodup_firstSeen (xs : List α) : (firstSeen xs).Nodup := nodup_foldl_note List.nodup_nil

@[simp] theorem firstSeen_nil : firstSeen ([] : List α) = [] := rfl

theorem firstSeen_append (xs ys : List α) :
    firstSeen (xs ++ ys) = ys.foldl note (firstSeen xs) := by
  simp [firstSeen, List.foldl_append]

end FirstSeen

structure Facets where
  apiKeys : List String
  models : List String
  callTypes : List String
  deriving DecidableEq

/-- The type of call of a row, empty where there is none. -/
def Row.callTypeText (r : Row) : String := r.callType.getD ""

def Facets.ofRows (rows : List Row) : Facets where
  apiKeys := firstSeen (rows.map Row.apiKey)
  models := firstSeen (rows.map Row.model)
  callTypes := firstSeen (rows.map Row.callTypeText)

end CacheActivity.Usage
