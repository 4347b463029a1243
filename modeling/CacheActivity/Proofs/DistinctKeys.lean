import CacheActivity.Json.Layers
import CacheActivity.Proofs.ReadingComplete
import Mathlib.Data.List.Induction

/-!
# Keys that come once

Pairs make an object in which every key comes once, however often the pairs repeat it. A value that
was read has such objects only, at any depth (`distinctKeys_of_read`), and so has what is inside its
texts (`Value.DistinctKeys.peel`).
-/

namespace CacheActivity.Json

/-- That no object in a value has a key twice. -/
inductive Value.DistinctKeys : Value → Prop
  | null : DistinctKeys .null
  | bool (b : Bool) : DistinctKeys (.bool b)
  | number (n : Number) : DistinctKeys (.number n)
  | text (s : String) : DistinctKeys (.text s)
  | array {vs : List Value} : (∀ v ∈ vs, DistinctKeys v) → DistinctKeys (.array vs)
  | object {ms : Members} : ms.keys.Nodup → (∀ m ∈ ms, DistinctKeys m.2) →
      DistinctKeys (.object ms)

variable {key : String} {v : Value} {ms : Members}

theorem Members.mem_of_get? (h : ms.get? key = some v) : (key, v) ∈ ms := by
  obtain ⟨before, after, rfl, -⟩ := List.lookup_eq_some_iff.1 h
  exact List.mem_append_right _ List.mem_cons_self

theorem Members.eq_or_mem_of_mem_put {m : String × Value} (h : m ∈ ms.put key v) :
    m = (key, v) ∨ m ∈ ms := by
  induction ms with
  | nil => exact .inl (List.mem_singleton.1 h)
  | cons l ms ih =>
    rw [put] at h
    split at h
    · exact (List.mem_cons.1 h).imp_right (List.mem_cons_of_mem l)
    · rcases List.mem_cons.1 h with rfl | h
      · exact .inr List.mem_cons_self
      · exact (ih h).imp_right (List.mem_cons_of_mem l)

theorem Members.keys_erase (key : String) (ms : Members) :
    (ms.erase key).keys = ms.keys.filter (· ≠ key) := by
  rw [keys, keys, List.filter_map]
  rfl

namespace Value.DistinctKeys

theorem nodup (h : (Value.object ms).DistinctKeys) : ms.keys.Nodup := by
  cases h with
  | object hkeys => exact hkeys

theorem get? (h : (Value.object ms).DistinctKeys) (hv : ms.get? key = some v) : v.DistinctKeys := by
  cases h with
  | object _ hvalues => exact hvalues _ (Members.mem_of_get? hv)

theorem put (h : (Value.object ms).DistinctKeys) (hv : v.DistinctKeys) (key : String) :
    (Value.object (ms.put key v)).DistinctKeys := by
  cases h with
  | object hkeys hvalues =>
    refine .object (Members.nodup_keys_put key v hkeys) fun m hm => ?_
    rcases Members.eq_or_mem_of_mem_put hm with rfl | hm
    · exact hv
    · exact hvalues m hm

theorem ofPairs {pairs : List (String × Value)} (h : ∀ m ∈ pairs, DistinctKeys m.2) :
    (Value.object (Members.ofPairs pairs)).DistinctKeys := by
  induction pairs using List.reverseRecOn with
  | nil => exact .object List.nodup_nil (List.forall_mem_nil _)
  | append_singleton pairs m ih =>
    obtain ⟨hpairs, hm⟩ := List.forall_mem_append.1 h
    rw [Members.ofPairs, List.foldl_concat]
    exact (ih hpairs).put (hm m List.mem_cons_self) m.1

end Value.DistinctKeys

theorem Spells.distinctKeys {d : Nat} {t : List Char} (h : Spells d t v) : v.DistinctKeys := by
  induction h with
  | null => exact .null
  | bool b => exact .bool b
  | text => exact .text _
  | number => exact .number _
  | emptyArray => exact .array (List.forall_mem_nil _)
  | array _ _ ih => exact .array (List.forall_mem_map.2 ih)
  | emptyObject => exact .object List.nodup_nil (List.forall_mem_nil _)
  | @object _ members _ _ ih =>
    have hpairs : ∀ m ∈ members.map Member.pair, m.2.DistinctKeys := List.forall_mem_map.2 ih
    exact .ofPairs hpairs

theorem distinctKeys_of_read {t : String} (h : read t = .ok v) : v.DistinctKeys := by
  obtain ⟨x, -, rfl, hspells⟩ := read_eq_ok_iff.1 h
  exact hspells.distinctKeys

theorem Value.DistinctKeys.peel (h : v.DistinctKeys) : v.peel.DistinctKeys := by
  cases v with
  | text s =>
    cases hread : read s with
    | ok v => exact peel_text hread ▸ distinctKeys_of_read hread
    | error e => simpa only [Value.peel, hread] using h
  | _ => exact h

end CacheActivity.Json
