import CacheActivity.Usage.Facets
import CacheActivity.Usage.Report

/-!
# Selections

A choice is a set of values, and the empty choice accepts every value. A selection chooses API keys
and models; it accepts a row when both choices do.
-/

namespace CacheActivity.Usage

/-- A set of chosen values. -/
structure Choice where
  values : List String
  nodup : values.Nodup

namespace Choice

/-- Nothing chosen, so everything accepted. -/
def all : Choice := ⟨[], List.nodup_nil⟩

def ofList (values : List String) : Choice := ⟨firstSeen values, nodup_firstSeen values⟩

instance : Membership String Choice := ⟨fun c v => v ∈ c.values⟩

instance (v : String) (c : Choice) : Decidable (v ∈ c) := inferInstanceAs (Decidable (v ∈ c.values))

def accepts (c : Choice) (v : String) : Bool := c.values.isEmpty || decide (v ∈ c)

/-- Takes a chosen value out of the choice, and any other value in. -/
def toggle (c : Choice) (v : String) : Choice :=
  if v ∈ c then ⟨c.values.erase v, c.nodup.erase v⟩
  else ⟨note c.values v, nodup_note c.nodup⟩

/-- The chosen values in the order of their characters. -/
def sorted (c : Choice) : List String := c.values.mergeSort fun a b => decide (a ≤ b)

@[simp] theorem mem_mk {v : String} {vs : List String} {h : vs.Nodup} :
    v ∈ (⟨vs, h⟩ : Choice) ↔ v ∈ vs := Iff.rfl

@[simp] theorem mem_ofList {v : String} {vs : List String} : v ∈ ofList vs ↔ v ∈ vs := by
  simp [ofList]

theorem mem_toggle {c : Choice} {v w : String} :
    w ∈ c.toggle v ↔ if w = v then w ∉ c else w ∈ c := by
  unfold toggle
  split
  · rename_i h
    rw [mem_mk, c.nodup.mem_erase_iff]
    split
    · subst w
      simp [h]
    · rename_i hw
      exact ⟨fun h => h.2, fun h => ⟨hw, h⟩⟩
  · rename_i h
    rw [mem_mk, mem_note]
    split
    · subst w
      simp [h]
    · rename_i hw
      exact ⟨fun h => h.elim id fun e => absurd e hw, .inl⟩

end Choice

structure Selection where
  apiKeys : Choice
  models : Choice

namespace Selection

def all : Selection := ⟨.all, .all⟩

def accepts (s : Selection) (r : Row) : Bool :=
  s.apiKeys.accepts r.apiKey && s.models.accepts r.model

/-- The report of the accepted rows. -/
def report (s : Selection) (rows : List Row) : Report := .ofRows (rows.filter s.accepts)

end Selection

end CacheActivity.Usage
