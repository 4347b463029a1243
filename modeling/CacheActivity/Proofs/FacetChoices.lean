import CacheActivity.Proofs.Grouping

/-!
# Facets and choices

The facets of some rows are the values that a choice can be made from. They hold each value of the
rows once, where it first comes, and rows that are appended only add to them (`Lists`,
`Facets.ofRows_append`). A choice that misses them all leaves nothing of the rows, and one that has
them all leaves everything, just as the empty choice does (`report_of_choices`).
-/

namespace CacheActivity.Usage

/-- That a list has exactly the values of another one, each once, in the order in which they first
come there. -/
structure Lists (values xs : List String) : Prop where
  nodup : values.Nodup
  mem_iff : ∀ v, v ∈ values ↔ v ∈ xs
  ordered : values.Pairwise fun v w => xs.idxOf v < xs.idxOf w

theorem lists_firstSeen (xs : List String) : Lists (firstSeen xs) xs :=
  ⟨nodup_firstSeen xs, fun _ => mem_firstSeen, pairwise_idxOf_firstSeen xs⟩

/-- The values of facets that others do not have. -/
def Facets.newTo (f old : Facets) : Facets where
  apiKeys := f.apiKeys.filter (· ∉ old.apiKeys)
  models := f.models.filter (· ∉ old.models)
  callTypes := f.callTypes.filter (· ∉ old.callTypes)

/-- Facets with those of others behind them. -/
def Facets.append (f g : Facets) : Facets where
  apiKeys := f.apiKeys ++ g.apiKeys
  models := f.models ++ g.models
  callTypes := f.callTypes ++ g.callTypes

theorem Facets.ofRows_append (rows more : List Row) :
    ofRows (rows ++ more) = (ofRows rows).append ((ofRows more).newTo (ofRows rows)) := by
  simp only [ofRows, append, newTo, List.map_append, firstSeen_append_eq_filter, mem_firstSeen]

section Choices

variable {value : Row → String} {rows : List Row} {choice : Choice}

theorem Choice.accepts_of_ne_nil (h : choice.values ≠ []) (v : String) :
    choice.accepts v = decide (v ∈ choice) := by
  rw [accepts, List.isEmpty_eq_false_iff.2 h, Bool.false_or]

@[simp] theorem Choice.accepts_all (v : String) : all.accepts v = true := rfl

/-- What a choice of values leaves of the rows is nothing if it has none of the values there are. -/
theorem exists_accepted_iff (h : choice.values ≠ []) :
    rows.filter (fun r => choice.accepts (value r)) ≠ [] ↔
      ∃ v ∈ choice, v ∈ firstSeen (rows.map value) := by
  simp only [ne_eq, List.filter_eq_nil_iff, not_forall, not_not, Choice.accepts_of_ne_nil h,
    decide_eq_true_eq, mem_firstSeen, List.mem_map]
  constructor
  · rintro ⟨r, hr, hv⟩
    exact ⟨value r, hv, r, hr, rfl⟩
  · rintro ⟨_, hv, r, hr, rfl⟩
    exact ⟨r, hr, hv⟩

/-- A choice that has all values there are accepts them. -/
theorem accepts_of_covers (h : ∀ v ∈ firstSeen (rows.map value), v ∈ choice) :
    ∀ r ∈ rows, choice.accepts (value r) = true := by
  intro r hr
  have hv : value r ∈ choice := h _ (mem_firstSeen.2 (List.mem_map.2 ⟨r, hr, rfl⟩))
  simp [Choice.accepts, hv]

end Choices

theorem Series.ofRows_eq_nil_iff {rows : List Row} : Series.ofRows rows = [] ↔ rows = [] := by
  rw [Series.ofRows_eq_groups, List.map_eq_nil_iff]
  constructor
  · intro h
    refine List.eq_nil_iff_forall_not_mem.2 fun r hr => ?_
    have hlabel := mem_firstSeen.2 (List.mem_map_of_mem (f := Row.label) hr)
    rw [h] at hlabel
    exact List.not_mem_nil hlabel
  · rintro rfl
    rfl

/-- What is shown of no rows. -/
theorem Totals.summary_zero : zero.summary = ⟨"0", "0", "0"⟩ := by
  have hratio : zero.hitRatio? = none := by simp [hitRatio?, zero]
  rw [summary, hratio]
  rfl

/-- What a selection that chooses among the values of one member reports: nothing, unless it has one
of the values there are. -/
theorem report_of_choice {s : Selection} {value : Row → String} {choice : Choice}
    (hs : ∀ r, s.accepts r = choice.accepts (value r)) (h : choice.values ≠ []) (rows : List Row) :
    let report := s.report rows
    (report.series ≠ [] ↔ ∃ v ∈ choice, v ∈ firstSeen (rows.map value)) ∧
      ((∀ v ∈ choice, v ∉ firstSeen (rows.map value)) →
        report = ⟨[], .zero⟩ ∧ report.summary = ⟨"0", "0", "0"⟩) := by
  intro report
  have hfilter : rows.filter s.accepts = rows.filter fun r => choice.accepts (value r) :=
    List.filter_congr fun r _ => hs r
  have hsome : rows.filter s.accepts ≠ [] ↔ ∃ v ∈ choice, v ∈ firstSeen (rows.map value) := by
    rw [hfilter]
    exact exists_accepted_iff h
  refine ⟨(not_congr Series.ofRows_eq_nil_iff).trans hsome, fun hnone => ?_⟩
  have hempty : rows.filter s.accepts = [] := by
    by_contra hne
    obtain ⟨v, hv, hfacet⟩ := hsome.1 hne
    exact hnone v hv hfacet
  have hreport : report = ⟨[], .zero⟩ := congrArg Report.ofRows hempty
  exact ⟨hreport, by rw [hreport]; exact Totals.summary_zero⟩

/-- The facets of some rows list their values, those that more rows add come behind them, and they
tell what a choice reports. A choice of keys alone reports something if one of them is a facet, and
zero if none is; with all facets in it a choice reports what the empty choice does, whatever else is
chosen. The same is so for models. -/
theorem report_of_choices (rows : List Row) :
    let facets := Facets.ofRows rows
    (Lists facets.apiKeys (rows.map Row.apiKey) ∧ Lists facets.models (rows.map Row.model) ∧
      Lists facets.callTypes (rows.map fun r => r.callType.getD "")) ∧
    (∀ more : List Row,
      Facets.ofRows (rows ++ more) = facets.append ((Facets.ofRows more).newTo facets)) ∧
    (∀ keys : Choice, keys.values ≠ [] →
      let report := (⟨keys, .all⟩ : Selection).report rows
      (report.series ≠ [] ↔ ∃ key ∈ keys, key ∈ facets.apiKeys) ∧
        ((∀ key ∈ keys, key ∉ facets.apiKeys) →
          report = ⟨[], .zero⟩ ∧ report.summary = ⟨"0", "0", "0"⟩)) ∧
    (∀ models : Choice, models.values ≠ [] →
      let report := (⟨.all, models⟩ : Selection).report rows
      (report.series ≠ [] ↔ ∃ model ∈ models, model ∈ facets.models) ∧
        ((∀ model ∈ models, model ∉ facets.models) →
          report = ⟨[], .zero⟩ ∧ report.summary = ⟨"0", "0", "0"⟩)) ∧
    (∀ keys models : Choice, (∀ key ∈ facets.apiKeys, key ∈ keys) →
      (⟨keys, models⟩ : Selection).report rows = (⟨.all, models⟩ : Selection).report rows) ∧
    ∀ keys models : Choice, (∀ model ∈ facets.models, model ∈ models) →
      (⟨keys, models⟩ : Selection).report rows = (⟨keys, .all⟩ : Selection).report rows := by
  intro facets
  refine ⟨⟨lists_firstSeen _, lists_firstSeen _, lists_firstSeen _⟩, Facets.ofRows_append rows,
    fun keys hkeys => ?_, fun models hmodels => ?_, fun keys models hcovers => ?_,
    fun keys models hcovers => ?_⟩
  · exact report_of_choice (fun r => by simp [Selection.accepts]) hkeys rows
  · exact report_of_choice (fun r => by simp [Selection.accepts]) hmodels rows
  · refine congrArg Report.ofRows (List.filter_congr fun r hr => ?_)
    simp [Selection.accepts, accepts_of_covers hcovers r hr]
  · refine congrArg Report.ofRows (List.filter_congr fun r hr => ?_)
    simp [Selection.accepts, accepts_of_covers hcovers r hr]

/-- Three rows with two keys. A missing type of call is an empty facet. -/
theorem report_of_choices_of_two_keys :
    let first : Row := { Row.empty with apiKey := "k2", totalRows := .ofInt 3 }
    let other : Row := { Row.empty with apiKey := "k1", model := "m", callType := some "chat" }
    let rows := [first, other, first]
    let report := fun keys => (⟨.ofList keys, .all⟩ : Selection).report rows
    (Facets.ofRows rows).apiKeys = ["k2", "k1"] ∧ (Facets.ofRows rows).callTypes = ["", "chat"] ∧
      (Choice.ofList ["k3"]).values ≠ [] ∧ report ["k3"] = ⟨[], .zero⟩ ∧
      (report ["k3", "k1"]).series ≠ [] ∧
      report ["k1", "k3", "k2"] = Selection.all.report rows := by
  intro first other rows report
  obtain ⟨-, -, hkeys, -, hcovers, -⟩ := report_of_choices rows
  refine ⟨rfl, rfl, by decide, ((hkeys (.ofList ["k3"]) (by decide)).2 (by decide)).1,
    (hkeys (.ofList ["k3", "k1"]) (by decide)).1.2 ⟨"k1", by decide, by decide⟩,
    hcovers _ .all (by decide)⟩

end CacheActivity.Usage
