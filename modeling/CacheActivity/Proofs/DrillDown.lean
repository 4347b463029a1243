import CacheActivity.Proofs.SaturatedSums

/-!
# From a report to the reports of its keys

Choosing one API key after the other, or one model after the other, looks at each row once: the
facets have each value of the rows, and have it once. Counts that are not negative can be added up
group by group (`Count.sum_fibers`), so the reports of the single values add up to the report of all
of them (`report_drills_down`), also where the sums go beyond the range.
-/

namespace CacheActivity

theorem Count.sum_fibers {α : Type} (key : α → String) (counter : α → Count) {keys : List String}
    (hd : keys.Nodup) {xs : List α} (hkey : ∀ x ∈ xs, key x ∈ keys)
    (hcounter : ∀ x ∈ xs, 0 ≤ (counter x).toInt) :
    sum (keys.map fun k => sum ((xs.filter (key · = k)).map counter)) = sum (xs.map counter) := by
  let f := fun x => (counter x).toInt
  let part := fun k => xs.filter (key · = k)
  have hpart : ∀ k, ∀ x ∈ part k, 0 ≤ f x := fun k x hx => hcounter x (List.mem_of_mem_filter hx)
  have hcapped : ∀ k, (sum ((part k).map counter)).toInt = capped ((part k).map f) := fun k =>
    toInt_sum_map_of_nonneg (fun _ _ => rfl) (hpart k)
  have hnonneg : ∀ k, ∀ z ∈ (part k).map f, 0 ≤ z := by
    intro k z hz
    obtain ⟨x, hx, rfl⟩ := List.mem_map.1 hz
    exact hpart k x hx
  refine ext ?_
  calc (sum (keys.map fun k => sum ((part k).map counter))).toInt
      = capped (keys.map fun k => capped ((part k).map f)) :=
        toInt_sum_map_of_nonneg (fun k _ => hcapped k) fun k _ => capped_nonneg (hnonneg k)
    _ = capped (keys.map fun k => ((part k).map f).sum) := capped_groups fun k _ => hnonneg k
    _ = capped (xs.map f) := by rw [capped, capped, Usage.sum_fibers key f hd hkey]
    _ = (sum (xs.map counter)).toInt :=
        (toInt_sum_map_of_nonneg (fun _ _ => rfl) hcounter).symm

namespace Usage

/-- The point of a name, without counts where there is none. -/
def Series.point (s : Series) (name : String) : SeriesPoint :=
  (s.find? (·.name = name)).getD (.blank name)

/-- The counters of points added up one by one. -/
def SeriesPoint.together (name : String) (points : List SeriesPoint) : SeriesPoint where
  name := name
  apiRequests := .sum (points.map SeriesPoint.apiRequests)
  cacheHits := .sum (points.map SeriesPoint.cacheHits)
  cachedTokens := .sum (points.map SeriesPoint.cachedTokens)
  generatedTokens := .sum (points.map SeriesPoint.generatedTokens)

def Totals.together (totals : List Totals) : Totals where
  cacheHits := .sum (totals.map Totals.cacheHits)
  cachedTokens := .sum (totals.map Totals.cachedTokens)
  apiRequests := .sum (totals.map Totals.apiRequests)

/-- That reports add up to a report: their totals, the points of every name, and the names. -/
structure Report.AddUp (parts : List Report) (whole : Report) : Prop where
  totals : whole.totals = .together (parts.map Report.totals)
  point : ∀ name, whole.series.point name = .together name (parts.map (·.series.point name))
  mem_names_iff : ∀ name, name ∈ whole.series.map SeriesPoint.name ↔
    ∃ part ∈ parts, name ∈ part.series.map SeriesPoint.name

variable {rows : List Row} {name : String}

theorem Series.mem_names_ofRows :
    name ∈ (Series.ofRows rows).map SeriesPoint.name ↔ ∃ r ∈ rows, r.label = name := by
  rw [Series.ofRows_eq_groups, List.map_map]
  simp

theorem find?_groups (labels : List String) :
    (labels.map fun l => SeriesPoint.ofRows l (rowsUnder l rows)).find? (·.name = name) =
      if name ∈ labels then some (.ofRows name (rowsUnder name rows)) else none := by
  induction labels with
  | nil => rfl
  | cons label labels ih =>
    by_cases hlabel : label = name
    · simp [hlabel]
    · simp [hlabel, ih, Ne.symm hlabel]

theorem Series.point_ofRows (rows : List Row) (name : String) :
    (Series.ofRows rows).point name = .ofRows name (rowsUnder name rows) := by
  rw [point, Series.ofRows_eq_groups, find?_groups]
  split
  · rfl
  · rename_i hname
    rw [rowsUnder_eq_nil fun hmem => hname (mem_firstSeen.2 hmem), SeriesPoint.ofRows_nil]
    rfl

section Keys

variable {key : Row → String} {keys : List String} (hd : keys.Nodup)
  (hkey : ∀ r ∈ rows, key r ∈ keys) (h : ∀ r ∈ rows, r.WellFormed)
include hd hkey h

theorem sum_keys (counter : Row → Count)
    (hcounter : ∀ r : Row, r.WellFormed → 0 ≤ (counter r).toInt) :
    Count.sum (keys.map fun k => Count.sum ((rows.filter (key · = k)).map counter)) =
      Count.sum (rows.map counter) :=
  Count.sum_fibers key counter hd hkey fun r hr => hcounter r (h r hr)

theorem SeriesPoint.together_keys (name : String) :
    together name (keys.map fun k => ofRows name (rows.filter (key · = k))) =
      ofRows name rows := by
  have hapi := sum_keys hd hkey h (fun r => r.totalRows.sub r.cacheHits) fun _ =>
    Row.apiRequests_nonneg
  simp only [together, ofRows, List.map_map, Function.comp_def]
  rw [hapi, sum_keys hd hkey h _ fun _ hr => hr.hits_nonneg,
    sum_keys hd hkey h _ fun _ hr => hr.cached_nonneg,
    sum_keys hd hkey h _ fun _ hr => hr.generated_nonneg]

theorem Totals.together_keys :
    together (keys.map fun k => ofRows (rows.filter (key · = k))) = ofRows rows := by
  have hapi := sum_keys hd hkey h (fun r => r.totalRows.sub r.cacheHits) fun _ =>
    Row.apiRequests_nonneg
  simp only [together, Totals.ofRows_eq_sums, sums, List.map_map, Function.comp_def]
  rw [hapi, sum_keys hd hkey h _ fun _ hr => hr.hits_nonneg,
    sum_keys hd hkey h _ fun _ hr => hr.cached_nonneg]

theorem Report.addUp_keys :
    AddUp (keys.map fun k => .ofRows (rows.filter (key · = k))) (.ofRows rows) where
  totals := by
    rw [List.map_map]
    exact (Totals.together_keys hd hkey h).symm
  point name := by
    have hpart : ∀ k, (ofRows (rows.filter (key · = k))).series.point name =
        .ofRows name ((rowsUnder name rows).filter (key · = k)) := by
      intro k
      rw [ofRows, Series.point_ofRows, rowsUnder, List.filter_comm]
      rfl
    have hunder : ∀ r ∈ rowsUnder name rows, r ∈ rows := fun r hr => List.mem_of_mem_filter hr
    rw [ofRows, Series.point_ofRows, List.map_map]
    simp only [Function.comp_def, hpart]
    exact (SeriesPoint.together_keys hd (fun r hr => hkey r (hunder r hr))
      (fun r hr => h r (hunder r hr)) name).symm
  mem_names_iff name := by
    constructor
    · intro hname
      obtain ⟨r, hr, hlabel⟩ := Series.mem_names_ofRows.1 hname
      have hpart : r ∈ rows.filter (key · = key r) := List.mem_filter.2 ⟨hr, by simp⟩
      exact ⟨_, List.mem_map.2 ⟨key r, hkey r hr, rfl⟩,
        Series.mem_names_ofRows.2 ⟨r, hpart, hlabel⟩⟩
    · rintro ⟨part, hpart, hname⟩
      obtain ⟨k, -, rfl⟩ := List.mem_map.1 hpart
      obtain ⟨r, hr, hlabel⟩ := Series.mem_names_ofRows.1 hname
      exact Series.mem_names_ofRows.2 ⟨r, List.mem_of_mem_filter hr, hlabel⟩

end Keys

theorem Choice.accepts_ofList_singleton (v w : String) :
    (ofList [v]).accepts w = decide (w = v) := by
  have hnonempty : (ofList [v]).values.isEmpty = false := rfl
  rw [accepts, hnonempty, Bool.false_or]
  simp

theorem filter_accepts_key (key : String) (choice : Choice) (rows : List Row) :
    rows.filter (⟨.ofList [key], choice⟩ : Selection).accepts =
      (rows.filter (⟨.all, choice⟩ : Selection).accepts).filter (·.apiKey = key) := by
  rw [List.filter_filter]
  refine List.filter_congr fun r _ => ?_
  rw [Selection.accepts, Selection.accepts, Choice.accepts_ofList_singleton]
  rfl

theorem filter_accepts_model (model : String) (choice : Choice) (rows : List Row) :
    rows.filter (⟨choice, .ofList [model]⟩ : Selection).accepts =
      (rows.filter (⟨choice, .all⟩ : Selection).accepts).filter (·.model = model) := by
  rw [List.filter_filter]
  refine List.filter_congr fun r _ => ?_
  rw [Selection.accepts, Selection.accepts, Choice.accepts_ofList_singleton, Bool.and_comm]
  simp [Choice.all, Choice.accepts]

/-- The reports of the API keys in the facets, one key chosen at a time, add up to the report with
no key chosen, whatever the choice of models, and the same is so for the models. -/
theorem report_drills_down (rows : List Row) (h : ∀ r ∈ rows, r.WellFormed) (choice : Choice) :
    Report.AddUp ((Facets.ofRows rows).apiKeys.map fun key =>
        (⟨.ofList [key], choice⟩ : Selection).report rows)
      ((⟨.all, choice⟩ : Selection).report rows) ∧
    Report.AddUp ((Facets.ofRows rows).models.map fun model =>
        (⟨choice, .ofList [model]⟩ : Selection).report rows)
      ((⟨choice, .all⟩ : Selection).report rows) := by
  have hkept (accepts : Row → Bool) : ∀ r ∈ rows.filter accepts, r.WellFormed := fun r hr =>
    h r (List.mem_of_mem_filter hr)
  have hfacet (accepts : Row → Bool) (value : Row → String) :
      ∀ r ∈ rows.filter accepts, value r ∈ firstSeen (rows.map value) := fun r hr =>
    mem_firstSeen.2 (List.mem_map.2 ⟨r, List.mem_of_mem_filter hr, rfl⟩)
  simp only [Selection.report, filter_accepts_key, filter_accepts_model]
  exact ⟨Report.addUp_keys (nodup_firstSeen _) (hfacet _ _) (hkept _),
    Report.addUp_keys (nodup_firstSeen _) (hfacet _ _) (hkept _)⟩

/-- Both keys have hits up to the end of the range, and one type of call is that of one key only. -/
theorem report_drills_down_of_two_keys :
    let huge : Row := { Row.empty with
      apiKey := "k1", totalRows := .ofInt Count.greatest, cacheHits := .ofInt 5 }
    let chat : Row := { Row.empty with
      apiKey := "k1", callType := some "chat", totalRows := .ofInt 9, cacheHits := .ofInt 8 }
    let most : Row := { Row.empty with
      apiKey := "k2", totalRows := .ofInt Count.greatest, cacheHits := .ofInt Count.greatest }
    let rows := [huge, chat, most]
    let one := fun key => (⟨.ofList [key], .all⟩ : Selection).report rows
    let whole := Selection.all.report rows
    (∀ r ∈ rows, r.WellFormed) ∧ (Facets.ofRows rows).apiKeys = ["k1", "k2"] ∧
      whole.totals = .together [(one "k1").totals, (one "k2").totals] ∧
      whole.totals.cacheHits.toInt = Count.greatest ∧
      whole.series.point "chat" =
        .together "chat" [(one "k1").series.point "chat", .blank "chat"] := by
  intro huge chat most rows one whole
  have hrows : ∀ r ∈ rows, r.WellFormed := by
    intro r hr
    simp only [rows, List.mem_cons, List.not_mem_nil, or_false] at hr
    rcases hr with rfl | rfl | rfl <;> exact ⟨by decide, by decide, by decide, by decide⟩
  obtain ⟨hkeys, -⟩ := report_drills_down rows hrows .all
  exact ⟨hrows, rfl, hkeys.totals, by decide, hkeys.point "chat"⟩

end Usage

end CacheActivity
