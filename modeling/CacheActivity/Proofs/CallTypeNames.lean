import CacheActivity.Proofs.FacetChoices
import CacheActivity.Proofs.ReportMerge

/-!
# Types of call and the points of a series

The facets list the types of call as the rows have them, an empty text for a missing one, and a
series names its points by labels. A label is made from the type of call alone, but not every type
has a label of its own: the empty one shares that of unknown ones. So distinct types of call still
have to be told apart once more by their labels, and then they are the names of the series
(`names_are_callTypes`).
-/

namespace CacheActivity.Usage

section FirstSeen

variable {α β : Type} [DecidableEq α] [DecidableEq β]

theorem firstSeen_eq_eraseDups (xs : List α) : firstSeen xs = xs.eraseDups := by
  induction xs using List.reverseRecOn with
  | nil => rfl
  | append_singleton xs x ih =>
    rw [firstSeen_concat, List.eraseDups_append, ← ih]
    unfold note
    by_cases hx : x ∈ xs
    · rw [if_pos (mem_firstSeen.2 hx)]
      simp [List.removeAll, hx]
    · rw [if_neg (mt mem_firstSeen.1 hx)]
      simp [List.removeAll, hx, List.eraseDups_cons]

/-- Values that are distinct already give the same distinct images. -/
theorem firstSeen_map_firstSeen (f : α → β) (xs : List α) :
    firstSeen ((firstSeen xs).map f) = firstSeen (xs.map f) := by
  induction xs using List.reverseRecOn with
  | nil => rfl
  | append_singleton xs x ih =>
    rw [firstSeen_concat, List.map_append, List.map_singleton, firstSeen_concat]
    unfold note
    split
    · -- A value that was seen has an image that was seen.
      rename_i hx
      have himage : f x ∈ firstSeen (xs.map f) :=
        mem_firstSeen.2 (List.mem_map_of_mem (mem_firstSeen.1 hx))
      rw [ih, if_pos himage]
    · rw [List.map_append, List.map_singleton, firstSeen_concat, ih]
      rfl

end FirstSeen

def labelOf (callType : String) : String :=
  if callType = "" then Row.unknownLabel else callType

theorem labelOf_callTypeText (r : Row) : labelOf r.callTypeText = r.label := by
  unfold labelOf Row.callTypeText Row.label
  cases r.callType with
  | none => rfl
  | some t => rfl

theorem names_ofRows_eq_labels (rows : List Row) :
    (Series.ofRows rows).names = ((Facets.ofRows rows).callTypes.map labelOf).eraseDups := by
  have hlabels : rows.map Row.label = (rows.map Row.callTypeText).map labelOf := by
    rw [List.map_map]
    exact List.map_congr_left fun r _ => (labelOf_callTypeText r).symm
  rw [Series.names_ofRows, hlabels, ← firstSeen_map_firstSeen, firstSeen_eq_eraseDups]
  rfl

/-- Where no keys and no models are chosen, the names of a series are the labels of the types of
call among the facets, each where it comes first. Any selection leaves some of these names, each
once. -/
theorem names_are_callTypes (rows : List Row) :
    let labels := ((Facets.ofRows rows).callTypes.map labelOf).eraseDups
    (∀ s : Selection, s.apiKeys.values = [] → s.models.values = [] →
      (s.report rows).series.names = labels) ∧
    ∀ s : Selection, (s.report rows).series.names.Nodup ∧
      ∀ name ∈ (s.report rows).series.names, name ∈ labels := by
  intro labels
  refine ⟨fun s hkeys hmodels => ?_, fun s => ⟨?_, fun name hname => ?_⟩⟩
  · have hall : rows.filter s.accepts = rows := List.filter_eq_self.2 fun r _ => by
      simp [Selection.accepts, Choice.accepts, hkeys, hmodels]
    show (Series.ofRows (rows.filter s.accepts)).names = labels
    rw [hall]
    exact names_ofRows_eq_labels rows
  · show (Series.ofRows (rows.filter s.accepts)).names.Nodup
    rw [Series.names_ofRows]
    exact nodup_firstSeen _
  · obtain ⟨r, hr, hlabel⟩ := Series.mem_names_ofRows.1 hname
    have hwhole : name ∈ (Series.ofRows rows).names :=
      Series.mem_names_ofRows.2 ⟨r, List.mem_of_mem_filter hr, hlabel⟩
    rwa [names_ofRows_eq_labels] at hwhole

/-- Missing, empty and unknown types of call are two facets, but one point. -/
theorem names_are_callTypes_of_unknown_types :
    let missing : Row := { Row.empty with apiKey := "k1" }
    let chat : Row := { missing with callType := some "chat" }
    let unknown : Row := { Row.empty with callType := some "Unknown" }
    let rows := [missing, chat, unknown, { missing with callType := some "" }]
    let chosen : Selection := ⟨.ofList [""], .all⟩
    (Facets.ofRows rows).callTypes = ["", "chat", "Unknown"] ∧
      (Selection.all.report rows).series.names = ["Unknown", "chat"] ∧
      (chosen.report rows).series.names = ["Unknown"] ∧
      (chosen.report rows).series.names.Nodup := by
  intro missing chat unknown rows chosen
  obtain ⟨hall, hsome⟩ := names_are_callTypes rows
  exact ⟨rfl, (hall .all rfl rfl).trans (by decide), by decide, (hsome chosen).1⟩

end CacheActivity.Usage
