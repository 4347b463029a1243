import CacheActivity.Proofs.DrillDown

/-!
# Reports of parts merged

The rows of a report can be cut in two. The reports of both parts have all that the report of the
whole needs (`report_append`): the points of the second part join those of the same names, and new
ones go to the end. Sums that saturated in one part already make no difference, since nothing is
ever taken away from them.
-/

namespace CacheActivity.Usage

def Series.names (s : Series) : List String := s.map SeriesPoint.name

/-- The counters of two points added up, under the name of the first. -/
def SeriesPoint.plus (p q : SeriesPoint) : SeriesPoint where
  name := p.name
  apiRequests := p.apiRequests.add q.apiRequests
  cacheHits := p.cacheHits.add q.cacheHits
  cachedTokens := p.cachedTokens.add q.cachedTokens
  generatedTokens := p.generatedTokens.add q.generatedTokens

def Totals.plus (t u : Totals) : Totals where
  cacheHits := t.cacheHits.add u.cacheHits
  cachedTokens := t.cachedTokens.add u.cachedTokens
  apiRequests := t.apiRequests.add u.apiRequests

/-- The names of a series, and behind them those that are new in another one. -/
def Series.mergedNames (s t : Series) : List String := s.names ++ t.names.filter (· ∉ s.names)

def Series.merge (s t : Series) : Series :=
  (s.mergedNames t).map fun name => (s.point name).plus (t.point name)

def Report.merge (a b : Report) : Report := ⟨a.series.merge b.series, a.totals.plus b.totals⟩

theorem Series.names_ofRows (rows : List Row) :
    (Series.ofRows rows).names = firstSeen (rows.map Row.label) := by
  rw [names, Series.ofRows_eq_groups, List.map_map]
  exact List.map_id'' (fun _ => rfl) _

section Parts

variable {xs ys : List Row}

theorem mergedNames_ofRows (xs ys : List Row) :
    (Series.ofRows xs).mergedNames (.ofRows ys) = firstSeen ((xs ++ ys).map Row.label) := by
  rw [Series.mergedNames, Series.names_ofRows, Series.names_ofRows, List.map_append,
    firstSeen_append_eq_filter]
  simp only [mem_firstSeen]

theorem rowsUnder_append (name : String) (xs ys : List Row) :
    rowsUnder name (xs ++ ys) = rowsUnder name xs ++ rowsUnder name ys := List.filter_append ..

variable (hxs : ∀ r ∈ xs, r.WellFormed) (hys : ∀ r ∈ ys, r.WellFormed)
include hxs hys

theorem sum_map_append (counter : Row → Count)
    (hcounter : ∀ r : Row, r.WellFormed → 0 ≤ (counter r).toInt) :
    Count.sum ((xs ++ ys).map counter) =
      (Count.sum (xs.map counter)).add (.sum (ys.map counter)) := by
  rw [List.map_append]
  exact Count.sum_append_of_nonneg (List.forall_mem_map.2 fun r hr => hcounter r (hxs r hr))
    (List.forall_mem_map.2 fun r hr => hcounter r (hys r hr))

theorem SeriesPoint.ofRows_append (name : String) :
    ofRows name (xs ++ ys) = (ofRows name xs).plus (ofRows name ys) := by
  have hapi := sum_map_append hxs hys (fun r => r.totalRows.sub r.cacheHits) fun _ =>
    Row.apiRequests_nonneg
  rw [ofRows, hapi, sum_map_append hxs hys _ fun _ hr => hr.hits_nonneg,
    sum_map_append hxs hys _ fun _ hr => hr.cached_nonneg,
    sum_map_append hxs hys _ fun _ hr => hr.generated_nonneg]
  rfl

theorem Totals.ofRows_append : ofRows (xs ++ ys) = (ofRows xs).plus (ofRows ys) := by
  have hapi := sum_map_append hxs hys (fun r => r.totalRows.sub r.cacheHits) fun _ =>
    Row.apiRequests_nonneg
  rw [Totals.ofRows_eq_sums, Totals.ofRows_eq_sums, Totals.ofRows_eq_sums, sums, hapi,
    sum_map_append hxs hys _ fun _ hr => hr.hits_nonneg,
    sum_map_append hxs hys _ fun _ hr => hr.cached_nonneg]
  rfl

theorem Series.point_append (name : String) :
    (Series.ofRows (xs ++ ys)).point name =
      ((Series.ofRows xs).point name).plus ((Series.ofRows ys).point name) := by
  rw [point_ofRows, point_ofRows, point_ofRows, rowsUnder_append]
  exact SeriesPoint.ofRows_append (wellFormed_rowsUnder hxs name) (wellFormed_rowsUnder hys name)
    name

theorem Report.ofRows_append : ofRows (xs ++ ys) = (ofRows xs).merge (ofRows ys) := by
  have hseries : Series.ofRows (xs ++ ys) = (Series.ofRows xs).merge (.ofRows ys) := by
    rw [Series.ofRows_eq_groups, Series.merge, mergedNames_ofRows]
    -- Both sides go over the same names now.
    refine List.map_congr_left fun name _ => ?_
    rw [← Series.point_ofRows, Series.point_append hxs hys]
  rw [ofRows, hseries, Totals.ofRows_append hxs hys]
  rfl

end Parts

/-- The report of two lists of rows behind each other is the merge of their reports. The names of
its points are those of the first list, and then those that are new in the second, in order. Each
counter of a point is the saturated sum of the counters that both parts have under that name, which
are nothing where there is no point, and so it is with each total. -/
theorem report_append (s : Selection) (xs ys : List Row) (hxs : ∀ r ∈ xs, r.WellFormed)
    (hys : ∀ r ∈ ys, r.WellFormed) :
    let first := s.report xs
    let second := s.report ys
    let whole := s.report (xs ++ ys)
    whole = first.merge second ∧
      whole.series.names =
        first.series.names ++ second.series.names.filter (· ∉ first.series.names) ∧
      (∀ name, let p := first.series.point name
        let q := second.series.point name
        let sum := whole.series.point name
        sum.apiRequests = p.apiRequests.add q.apiRequests ∧
          sum.cacheHits = p.cacheHits.add q.cacheHits ∧
          sum.cachedTokens = p.cachedTokens.add q.cachedTokens ∧
          sum.generatedTokens = p.generatedTokens.add q.generatedTokens) ∧
      whole.totals.cacheHits = first.totals.cacheHits.add second.totals.cacheHits ∧
      whole.totals.cachedTokens = first.totals.cachedTokens.add second.totals.cachedTokens ∧
      whole.totals.apiRequests = first.totals.apiRequests.add second.totals.apiRequests := by
  intro first second whole
  have hfirst : ∀ r ∈ xs.filter s.accepts, r.WellFormed := fun r hr =>
    hxs r (List.mem_of_mem_filter hr)
  have hsecond : ∀ r ∈ ys.filter s.accepts, r.WellFormed := fun r hr =>
    hys r (List.mem_of_mem_filter hr)
  have hsplit : whole = .ofRows (xs.filter s.accepts ++ ys.filter s.accepts) :=
    congrArg Report.ofRows (List.filter_append ..)
  have hmerge : whole = first.merge second :=
    hsplit.trans (Report.ofRows_append hfirst hsecond)
  have hnames : whole.series.names = first.series.mergedNames second.series := by
    rw [hsplit]
    exact (Series.names_ofRows _).trans (mergedNames_ofRows _ _).symm
  have hpoint : ∀ name, whole.series.point name =
      (first.series.point name).plus (second.series.point name) := by
    intro name
    rw [hsplit]
    exact Series.point_append hfirst hsecond name
  refine ⟨hmerge, hnames, fun name => ?_, ?_⟩
  · simp only [hpoint]
    exact ⟨rfl, rfl, rfl, rfl⟩
  · rw [hmerge]
    exact ⟨rfl, rfl, rfl⟩

/-- The parts share two labels. The hits of one of them saturate in the first part already, those of
the other add up. The third label is in the second part only. -/
theorem report_append_of_two_parts :
    let most : Row := { Row.empty with
      totalRows := .ofInt Count.greatest, cacheHits := .ofInt Count.greatest }
    let chat (hits : Int) : Row := { Row.empty with
      callType := some "chat", totalRows := .ofInt 9, cacheHits := .ofInt hits }
    let embed : Row := { Row.empty with
      callType := some "embed", totalRows := .ofInt 3, cacheHits := .ofInt 1 }
    let first := Selection.all.report [most, chat 8, most]
    let second := Selection.all.report [embed, chat 5, most]
    let whole := Selection.all.report ([most, chat 8, most] ++ [embed, chat 5, most])
    (∀ r ∈ [most, chat 8, most] ++ [embed, chat 5, most], r.WellFormed) ∧
      whole = first.merge second ∧ whole.series.names = ["Unknown", "chat", "embed"] ∧
      (whole.series.point "Unknown").cacheHits = .ofInt Count.greatest ∧
      (whole.series.point "chat").cacheHits = .ofInt 13 ∧
      (whole.series.point "chat").apiRequests = .ofInt 5 ∧
      (whole.series.point "embed").cacheHits = .ofInt 1 ∧
      whole.totals.cacheHits = .ofInt Count.greatest ∧ whole.totals.apiRequests = .ofInt 7 := by
  intro most chat embed first second whole
  have hrows : ∀ r ∈ [most, chat 8, most] ++ [embed, chat 5, most], r.WellFormed := by decide
  obtain ⟨hmerge, hnames, hpoint, hhits, -, hapi⟩ := report_append .all [most, chat 8, most]
    [embed, chat 5, most] (fun r hr => hrows r (List.mem_append_left _ hr))
    fun r hr => hrows r (List.mem_append_right _ hr)
  obtain ⟨hchatApi, hchatHits, -⟩ := hpoint "chat"
  refine ⟨hrows, hmerge, hnames.trans (by decide), (hpoint "Unknown").2.1.trans (by decide),
    hchatHits.trans (by decide), hchatApi.trans (by decide), (hpoint "embed").2.1.trans (by decide),
    hhits.trans (by decide), hapi.trans (by decide)⟩

end CacheActivity.Usage
