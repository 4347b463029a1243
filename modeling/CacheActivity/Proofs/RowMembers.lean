import CacheActivity.Json.Reader
import CacheActivity.Usage.Coercion
import Mathlib.Data.List.Induction
import Mathlib.Data.List.Nodup

/-!
# The members that make a row

A row is made from seven members, whatever else an object holds (`ofMembers_congr`). Visiting the
members one by one keeps just these, as long as none of them comes twice (`foldlM_visit`). No key of
an object does, so every object is a row (`ofValue?_object`).
-/

namespace CacheActivity.Json.Members

variable {key : String} {ms : Members}

theorem get?_eq_none_iff : ms.get? key = none ↔ key ∉ ms.keys := by
  simp only [get?, keys, List.lookup_eq_none_iff, List.mem_map, not_exists, not_and,
    bne_iff_ne, ne_eq]
  exact ⟨fun h m hm he => h m hm he.symm, fun h m hm he => h m hm he.symm⟩

theorem count_keys_append_singleton (key : String) (ms : Members) (m : String × Value) :
    (keys (ms ++ [m])).count key = ms.keys.count key + if m.1 = key then 1 else 0 := by
  simp [keys, List.count_singleton]

/-- A pair whose key comes once is found in the object that the pairs make. -/
theorem get?_ofPairs (h : ms.keys.count key ≤ 1) : (ofPairs ms).get? key = ms.get? key := by
  induction ms using List.reverseRecOn with
  | nil => rfl
  | append_singleton ms m ih =>
    rw [count_keys_append_singleton] at h
    have happend : get? key (ms ++ [m]) = (get? key ms).or (get? key [m]) := List.lookup_append
    rw [happend, ofPairs, List.foldl_concat, get?_put, get?_cons]
    by_cases hkey : key = m.1
    · have hnone : get? key ms = none := by
        rw [get?_eq_none_iff, ← List.count_eq_zero]
        rw [if_pos hkey.symm] at h
        omega
      rw [if_pos hkey, if_pos hkey, hnone, Option.none_or]
    · rw [if_neg hkey, if_neg hkey, get?_nil, Option.or_none]
      exact ih (Nat.le_trans (Nat.le_add_right _ _) h)

end CacheActivity.Json.Members

namespace CacheActivity.Usage.Row

open Json (Value Members)

variable {ms ms' seen : Members}

/-- That no member of a row comes twice. -/
def Once (ms : Members) : Prop := ∀ key ∈ fieldNames, ms.keys.count key ≤ 1

instance : DecidablePred Once := fun ms =>
  inferInstanceAs (Decidable (∀ key ∈ fieldNames, ms.keys.count key ≤ 1))

/-- The members of a row among others. -/
def fields (ms : Members) : Members := ms.filter fun m => fieldNames.contains m.1

theorem once_of_nodup (h : ms.keys.Nodup) : Once ms := fun key _ =>
  List.nodup_iff_count_le_one.1 h key

theorem Once.sublist (h : Once ms') (hs : ms.Sublist ms') : Once ms := fun key hkey =>
  Nat.le_trans ((hs.map Prod.fst).count_le key) (h key hkey)

theorem ofMembers_congr (h : ∀ key ∈ fieldNames, ms.get? key = ms'.get? key) :
    ofMembers ms = ofMembers ms' := by
  simp only [fieldNames, List.forall_mem_cons] at h
  obtain ⟨h₁, h₂, h₃, h₄, h₅, h₆, h₇, -⟩ := h
  simp only [ofMembers, h₁, h₂, h₃, h₄, h₅, h₆, h₇]

theorem get?_fields {key : String} (h : key ∈ fieldNames) (ms : Members) :
    (fields ms).get? key = ms.get? key := by
  induction ms with
  | nil => rfl
  | cons m ms ih =>
    obtain ⟨k, v⟩ := m
    by_cases hk : k ∈ fieldNames
    · rw [fields, List.filter_cons_of_pos (by simpa using hk), Members.get?_cons,
        Members.get?_cons]
      exact congrArg (if key = k then some v else ·) ih
    · have hne : key ≠ k := fun he => hk (he ▸ h)
      rw [fields, List.filter_cons_of_neg (by simpa using hk), Members.get?_cons, if_neg hne]
      exact ih

theorem ofMembers_fields (ms : Members) : ofMembers (fields ms) = ofMembers ms :=
  ofMembers_congr fun _ hkey => get?_fields hkey ms

theorem visit_eq_some_iff {seen' : Members} {m : String × Value} : visit? seen m = some seen' ↔
    m.1 ∉ fieldNames ∧ seen' = seen ∨
      m.1 ∈ fieldNames ∧ seen.has m.1 = false ∧ seen' = seen ++ [m] := by
  rw [visit?]
  by_cases hm : m.1 ∈ fieldNames
  · have hcontains : (!fieldNames.contains m.1) = false := by
      rw [List.contains_iff_mem.2 hm, Bool.not_true]
    rw [hcontains, if_neg Bool.false_ne_true]
    cases seen.has m.1 with
    | false => simp only [Bool.false_eq_true, if_false, Option.some.injEq, hm, not_true_eq_false,
        false_and, false_or, true_and, eq_comm]
    | true =>
      simp only [if_true, reduceCtorEq, hm, not_true_eq_false, false_and, and_false, or_self]
  · have hcontains : (!fieldNames.contains m.1) = true := by
      rw [Bool.not_eq_true', ← Bool.not_eq_true, List.contains_iff_mem]
      exact hm
    rw [if_pos hcontains]
    simp only [Option.some.injEq, hm, not_false_eq_true, true_and, false_and, or_false, eq_comm]

/-- A visit keeps the members of a row and nothing else. -/
theorem visit_of_once {m : String × Value} (h : Once (seen ++ [m])) :
    visit? seen m = some (seen ++ fields [m]) := by
  rw [visit_eq_some_iff]
  by_cases hm : m.1 ∈ fieldNames
  · have hcount := h m.1 hm
    rw [Members.count_keys_append_singleton, if_pos rfl] at hcount
    have hnew : seen.has m.1 = false := by
      rw [Members.has, Option.isSome_eq_false_iff, Option.isNone_iff_eq_none,
        Members.get?_eq_none_iff, ← List.count_eq_zero]
      omega
    exact .inr ⟨hm, hnew, by simp [fields, hm]⟩
  · exact .inl ⟨hm, by simp [fields, hm]⟩

/-- Visiting members keeps those of a row. -/
theorem foldlM_visit (h : Once (seen ++ ms)) :
    ms.foldlM visit? seen = some (seen ++ fields ms) := by
  induction ms generalizing seen with
  | nil => simp [fields]
  | cons m ms ih =>
    have hfront : Once (seen ++ [m]) :=
      h.sublist ((List.singleton_sublist.2 List.mem_cons_self).append_left seen)
    have hrest : Once (seen ++ fields [m] ++ ms) := by
      rw [List.append_assoc]
      exact h.sublist ((List.filter_sublist.append_right ms).append_left seen)
    have hfields : fields (m :: ms) = fields [m] ++ fields ms := List.filter_append [m] ms
    rw [List.foldlM_cons, visit_of_once hfront, hfields, ← List.append_assoc]
    exact ih hrest

theorem foldlM_visit_nil (h : Once ms) : ms.foldlM visit? [] = some (fields ms) := foldlM_visit h

/-- Every object is a row. -/
theorem ofValue?_object (h : ms.keys.Nodup) : ofValue? (.object ms) = some (ofMembers ms) := by
  rw [ofValue?, foldlM_visit_nil (once_of_nodup h), Option.map_some, ofMembers_fields]

end CacheActivity.Usage.Row
