import CacheActivity.Display.Activity
import CacheActivity.Proofs.DrillDown

/-!
# The totals of the activity table

The table of a report ends in a row of totals. Three of its cells are totals of the report, and the
generated tokens are added up from the points, with a checked sum that gives up where it leaves the
range of counts. For well-formed rows all four cells are the saturated sums of their columns, and
the table is there just where the generated tokens of all points fit together
(`activity_total_row`). What stands here of sums out of range is about the checked sum only; an
unchecked one wraps around and shows a table with a wrong cell.
-/

namespace CacheActivity

theorem Count.foldlM_add?_of_nonneg {cs : List Count} (h : ∀ c ∈ cs, 0 ≤ c.toInt) {a : Count}
    (ha : 0 ≤ a.toInt) :
    cs.foldlM add? a =
      if a.toInt + (cs.map toInt).sum ≤ greatest then some (cs.foldl add a) else none := by
  -- The start goes along, since it has to be exact for the next count.
  induction cs generalizing a with
  | nil =>
    have hle : a.toInt + (([] : List Count).map toInt).sum ≤ greatest :=
      (Int.add_zero _).trans_le a.le_greatest
    exact (if_pos hle).symm
  | cons c cs ih =>
    obtain ⟨hc, hcs⟩ := List.forall_mem_cons.1 h
    have hrest : 0 ≤ (cs.map toInt).sum := List.sum_nonneg (List.forall_mem_map.2 hcs)
    rw [List.foldlM_cons, List.map_cons, List.sum_cons, List.foldl_cons]
    by_cases hle : a.toInt + c.toInt ≤ greatest
    · have hsum : (a.add c).toInt = a.toInt + c.toInt :=
        clamp_of_mem (by unfold least; omega) hle
      rw [add?_eq_some_iff.2 hsum.symm]
      refine (ih hcs (by omega)).trans ?_
      rw [hsum, Int.add_assoc]
    · -- The rest takes nothing away, so the whole sum is out of range too.
      have hnone : a.add? c = none := dif_neg fun hmem => hle hmem.2
      rw [hnone, if_neg (by omega)]
      rfl

namespace Usage

theorem Series.sum_column {rows : List Row} (h : ∀ r ∈ rows, r.WellFormed)
    (column : SeriesPoint → Count) (counter : Row → Count)
    (hcolumn : ∀ name part, column (.ofRows name part) = .sum (part.map counter))
    (hcounter : ∀ r : Row, r.WellFormed → 0 ≤ (counter r).toInt) :
    Count.sum ((Series.ofRows rows).map column) = .sum (rows.map counter) := by
  have hlabel : ∀ r ∈ rows, r.label ∈ firstSeen (rows.map Row.label) := fun r hr =>
    mem_firstSeen.2 (List.mem_map.2 ⟨r, hr, rfl⟩)
  rw [Series.ofRows_eq_groups, List.map_map,
    ← sum_keys (nodup_firstSeen _) hlabel h counter hcounter]
  exact congrArg Count.sum (List.map_congr_left fun label _ => hcolumn label _)

theorem SeriesPoint.generatedTokens_nonneg {rows : List Row} (h : ∀ r ∈ rows, r.WellFormed) :
    ∀ p ∈ Series.ofRows rows, 0 ≤ p.generatedTokens.toInt := by
  intro p hp
  rw [Series.ofRows_eq_groups] at hp
  obtain ⟨label, -, rfl⟩ := List.mem_map.1 hp
  have hunder := wellFormed_rowsUnder h label
  obtain ⟨-, -, -, hgenerated⟩ := SeriesPoint.toInt_ofRows hunder label
  rw [hgenerated]
  exact Count.capped_nonneg (List.forall_mem_map.2 fun r hr => (hunder r hr).generated_nonneg)

end Usage

namespace Display

open Usage (Row Report Selection Series SeriesPoint Totals)

/-- The cells of a row that shows the saturated sum of each column. -/
def sumRow (s : Series) : List (List Char) :=
  "Total".toList :: [SeriesPoint.apiRequests, SeriesPoint.cacheHits, SeriesPoint.cachedTokens,
    SeriesPoint.generatedTokens].map fun column => grouped (Count.sum (s.map column)).toInt

/-- A row for each point, and one with the sums if there are points. -/
def sumTable (s : Series) : Table :=
  ⟨activityHeader, s.map pointRow ++ if s.isEmpty then [] else [sumRow s]⟩

def listedTokens (s : Series) : Int := (s.map fun p => p.generatedTokens.toInt).sum

section Totals

variable {rows : List Row} (h : ∀ r ∈ rows, r.WellFormed)
include h

theorem generatedTotal?_ofRows : generatedTotal? (.ofRows rows) =
    if listedTokens (.ofRows rows) ≤ Count.greatest
    then some (.sum ((Series.ofRows rows).map SeriesPoint.generatedTokens)) else none := by
  have hnonneg : ∀ c ∈ (Series.ofRows rows).map SeriesPoint.generatedTokens, 0 ≤ c.toInt :=
    List.forall_mem_map.2 (SeriesPoint.generatedTokens_nonneg h)
  have hfold := Count.foldlM_add?_of_nonneg hnonneg (a := .zero) (Int.le_refl 0)
  rw [Count.toInt_zero, Int.zero_add, List.map_map] at hfold
  exact hfold

theorem totalRow_ofRows : totalRow (.ofRows rows)
      (.sum ((Series.ofRows rows).map SeriesPoint.generatedTokens)) =
    sumRow (.ofRows rows) := by
  have hapi := Series.sum_column h SeriesPoint.apiRequests _ (fun _ _ => rfl)
    fun _ => Row.apiRequests_nonneg
  have hhits := Series.sum_column h SeriesPoint.cacheHits _ (fun _ _ => rfl)
    fun _ hr => hr.hits_nonneg
  have hcached := Series.sum_column h SeriesPoint.cachedTokens _ (fun _ _ => rfl)
    fun _ hr => hr.cached_nonneg
  simp only [sumRow, List.map_cons, List.map_nil]
  rw [hapi, hhits, hcached, totalRow, Report.ofRows, Totals.ofRows_eq_sums]
  rfl

theorem activityTable?_ofRows : activityTable? (.ofRows rows) =
    if listedTokens (.ofRows rows) ≤ Count.greatest then some (sumTable (.ofRows rows))
    else none := by
  rw [activityTable?, generatedTotal?_ofRows h]
  by_cases hle : listedTokens (.ofRows rows) ≤ Count.greatest
  · rw [if_pos hle, if_pos hle, Option.map_some, totalRow_ofRows h]
    rfl
  · rw [if_neg hle, if_neg hle, Option.map_none]

end Totals

/-- For well-formed rows, the table of a report can be shown just where the exact sum of the
generated tokens of its points is in range. Then each cell in the row of totals shows the saturated
sum of its column. Beyond the range the overflow check stops the display before any line of the
table; without the check there would be a table, and its last cell would show a wrapped sum. -/
theorem activity_total_row (s : Selection) (rows : List Row) (h : ∀ r ∈ rows, r.WellFormed) :
    let report := s.report rows
    (listedTokens report.series ≤ Count.greatest →
      activityTable? report = some (sumTable report.series) ∧
        (activityLines report).complete = true) ∧
    (Count.greatest < listedTokens report.series → activityLines report = .missing) := by
  intro report
  have htable : activityTable? report =
      if listedTokens report.series ≤ Count.greatest then some (sumTable report.series) else none :=
    activityTable?_ofRows fun r hr => h r (List.mem_of_mem_filter hr)
  refine ⟨fun hle => ?_, fun hlt => ?_⟩
  · rw [if_pos hle] at htable
    refine ⟨htable, ?_⟩
    rw [activityLines, htable]
    rfl
  · rw [if_neg (Int.not_le.2 hlt)] at htable
    rw [activityLines, htable]

/-- Rows of two types of call, the first one with as many generated tokens as there can be. -/
def twoTypes (tokens : Int) : List Row :=
  let row := { Row.empty with
    totalRows := .ofInt Count.greatest, cacheHits := .ofInt Count.greatest }
  [{ row with callType := some "a", generatedTokens := .ofInt Count.greatest },
    { row with callType := some "b", generatedTokens := .ofInt tokens }]

/-- The hits saturate in the row of totals. -/
theorem activity_total_row_of_two_types :
    let report := Selection.all.report (twoTypes 0)
    (∀ r ∈ twoTypes 0, r.WellFormed) ∧ activityTable? report = some (sumTable report.series) ∧
      sumRow report.series =
        ["Total", "0", "9,223,372,036,854,775,807", "0", "9,223,372,036,854,775,807"].map
          String.toList := by
  intro report
  have hrows : ∀ r ∈ twoTypes 0, r.WellFormed := by decide
  obtain ⟨hfits, -⟩ := activity_total_row .all _ hrows
  exact ⟨hrows, (hfits (by decide)).1, by decide⟩

/-- A token more, and the overflow check leaves no table. -/
theorem activityLines_of_one_more_token :
    let report := Selection.all.report (twoTypes 1)
    (∀ r ∈ twoTypes 1, r.WellFormed) ∧ report.series.length = 2 ∧
      (Count.sum (report.series.map SeriesPoint.generatedTokens)).toInt = Count.greatest ∧
      activityTable? report = none ∧ activityLines report = .missing := by
  decide

end Display

end CacheActivity
