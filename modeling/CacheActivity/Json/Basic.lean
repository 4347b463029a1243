import CacheActivity.Binary64.Basic

/-!
# JSON values

Numbers are whole or doubles, and the members of an object keep the order in which their keys first
came. `Members.put` is the one way to build an object from pairs: a key that is there already keeps
its place and takes the new value, so no key comes twice.
-/

namespace CacheActivity.Json

/-- A whole number in the 64-bit range, signed or unsigned, or a double. -/
inductive Number where
  | whole (value : Int)
  | double (value : Binary64)
  deriving DecidableEq, Repr

inductive Value where
  | null
  | bool (value : Bool)
  | number (value : Number)
  | text (value : String)
  | array (items : List Value)
  | object (members : List (String × Value))
  deriving Inhabited, Repr

/-- The members of an object, in order. -/
abbrev Members := List (String × Value)

namespace Members

def get? (key : String) (ms : Members) : Option Value := ms.lookup key

def has (key : String) (ms : Members) : Bool := (ms.get? key).isSome

/-- Sets the value of a key, in place where the key is there and at the end where it is new. -/
def put (key : String) (value : Value) : Members → Members
  | [] => [(key, value)]
  | (k, v) :: ms => if k = key then (key, value) :: ms else (k, v) :: put key value ms

/-- Removes a key and keeps the order of the others. -/
def erase (key : String) (ms : Members) : Members := ms.filter (·.1 ≠ key)

def keys (ms : Members) : List String := ms.map Prod.fst

@[simp] theorem get?_nil (key : String) : get? key [] = none := rfl

theorem get?_cons (key k : String) (v : Value) (ms : Members) :
    get? key ((k, v) :: ms) = if key = k then some v else get? key ms := by
  by_cases h : key = k
  · simp [get?, h]
  · have : (key == k) = false := by simpa using h
    rw [if_neg h, get?, List.lookup_cons, this]
    rfl

theorem get?_put (key k : String) (v : Value) (ms : Members) :
    get? key (put k v ms) = if key = k then some v else get? key ms := by
  induction ms with
  | nil => simp [put, get?_cons]
  | cons m ms ih =>
    obtain ⟨k', v'⟩ := m
    by_cases h : k' = k
    · subst h
      by_cases h' : key = k' <;> simp [put, get?_cons, h']
    · by_cases h' : key = k'
      · subst h'
        simp [put, get?_cons, h]
      · simp [put, get?_cons, h, h', ih]

theorem keys_put (k : String) (v : Value) (ms : Members) :
    keys (put k v ms) = if k ∈ keys ms then keys ms else keys ms ++ [k] := by
  induction ms with
  | nil => simp [put, keys]
  | cons m ms ih =>
    obtain ⟨k', v'⟩ := m
    by_cases h : k' = k
    · subst h
      simp [put, keys]
    · have h' : k ≠ k' := fun e => h e.symm
      by_cases hm : k ∈ keys ms
      · simp_all [put, keys]
      · simp_all [put, keys]

theorem nodup_keys_put (k : String) (v : Value) {ms : Members} (h : (keys ms).Nodup) :
    (keys (put k v ms)).Nodup := by
  rw [keys_put]
  split
  · exact h
  · rename_i hk
    exact List.nodup_append.2 ⟨h, by simp, by rintro a ha b hb rfl; simp at hb; exact hk (hb ▸ ha)⟩

end Members

namespace Value

def double (x : Binary64) : Value := .number (.double x)

def whole (z : Int) : Value := .number (.whole z)

def asBool? : Value → Option Bool
  | .bool b => some b
  | _ => none

end Value

end CacheActivity.Json
