import CacheActivity.Count

/-!
# Usage rows

A row counts what one API key did with one model in one type of call: how many requests there were,
how many the cache answered, and how many tokens were cached and generated.
-/

namespace CacheActivity.Usage

structure Row where
  apiKey : String
  model : String
  callType : Option String
  totalRows : Count
  cacheHits : Count
  cachedTokens : Count
  generatedTokens : Count
  deriving DecidableEq

namespace Row

def empty : Row := ⟨"", "", none, .zero, .zero, .zero, .zero⟩

instance : Inhabited Row := ⟨empty⟩

/-- The label of rows without a type of call. -/
def unknownLabel : String := "Unknown"

/-- The type of call under which a row is shown. -/
def label (r : Row) : String :=
  match r.callType with
  | some t => if t = "" then unknownLabel else t
  | none => unknownLabel

/-- Requests that the cache did not answer. Negative where a row has more hits than requests. -/
def apiRequests (r : Row) : Count := r.totalRows.sub r.cacheHits

/-- No count is negative, and the cache answered at most what was asked. -/
structure WellFormed (r : Row) : Prop where
  hits_nonneg : 0 ≤ r.cacheHits.toInt
  hits_le : r.cacheHits.toInt ≤ r.totalRows.toInt
  cached_nonneg : 0 ≤ r.cachedTokens.toInt
  generated_nonneg : 0 ≤ r.generatedTokens.toInt

instance : DecidablePred WellFormed := fun r =>
  decidable_of_iff (0 ≤ r.cacheHits.toInt ∧ r.cacheHits.toInt ≤ r.totalRows.toInt ∧
      0 ≤ r.cachedTokens.toInt ∧ 0 ≤ r.generatedTokens.toInt)
    ⟨fun ⟨h₁, h₂, h₃, h₄⟩ => ⟨h₁, h₂, h₃, h₄⟩, fun ⟨h₁, h₂, h₃, h₄⟩ => ⟨h₁, h₂, h₃, h₄⟩⟩

theorem apiRequests_nonneg {r : Row} (h : r.WellFormed) : 0 ≤ r.apiRequests.toInt := by
  have h₁ := h.hits_le
  have h₂ := r.totalRows.le_greatest
  have h₃ := h.hits_nonneg
  simp only [apiRequests, Count.toInt_sub, Count.clamp, Count.least, Count.greatest]
  omega

end Row

end CacheActivity.Usage
