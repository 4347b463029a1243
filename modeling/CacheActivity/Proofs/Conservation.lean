import CacheActivity.Proofs.Grouping
import Mathlib.Algebra.Order.BigOperators.Group.List
import Mathlib.Algebra.Order.Group.Abs
import Mathlib.Algebra.Order.Group.Int
import Mathlib.Algebra.Ring.Int.Defs
import Mathlib.Data.List.Nodup

/-!
# Conservation of counts

Counts saturate, so the points of a report need not add up to its totals. They do where the
absolute values of all counts add up to a count (`CountsFit`): no sum over some of the rows
saturates then, in whatever order (`Count.toInt_sum_map`), and a sum over all points is the sum over
all rows (`sum_groups`).
-/

namespace CacheActivity

namespace Count

theorem abs_clamp_le (z : Int) : |clamp z| ≤ |z| := by
  refine abs_le.2 ⟨?_, ?_⟩
  · have := neg_abs_le z
    have := abs_nonneg z
    unfold clamp greatest
    omega
  · have := le_abs_self z
    have := abs_nonneg z
    unfold clamp least
    omega

theorem clamp_of_abs_le {z : Int} (h : |z| ≤ greatest) : clamp z = z := by
  obtain ⟨h₁, h₂⟩ := abs_le.1 h
  refine clamp_of_mem ?_ h₂
  unfold greatest at h₁
  unfold least
  omega

theorem abs_sum_le (zs : List Int) : |zs.sum| ≤ (zs.map fun z => |z|).sum := by
  induction zs with
  | nil => simp
  | cons z zs ih =>
    simp only [List.sum_cons, List.map_cons]
    exact (abs_add_le z zs.sum).trans (by omega)

/-- Counts whose absolute values add up to a count add up without saturating. -/
theorem toInt_sum {cs : List Count} (h : (cs.map fun c => |c.toInt|).sum ≤ greatest) :
    (sum cs).toInt = (cs.map toInt).sum := by
  induction cs using List.reverseRecOn with
  | nil => rfl
  | append_singleton cs c ih =>
    rw [List.map_append, List.sum_append, List.map_cons, List.map_nil, List.sum_singleton] at h
    -- The bound holds of every front of the list, so no sum on the way saturates.
    have hcs : (cs.map fun c => |c.toInt|).sum ≤ greatest := by
      have := abs_nonneg c.toInt
      omega
    have hsum : |(cs.map toInt).sum| ≤ (cs.map fun c => |c.toInt|).sum := by
      have := abs_sum_le (cs.map toInt)
      rwa [List.map_map] at this
    rw [sum_concat, toInt_add, ih hcs, clamp_of_abs_le ((abs_add_le _ _).trans (by omega))]
    simp

theorem toInt_sum_map {α : Type} {xs : List α} {f : α → Count} {bound : α → Int}
    (hf : ∀ x ∈ xs, |(f x).toInt| ≤ bound x) (h : (xs.map bound).sum ≤ greatest) :
    (sum (xs.map f)).toInt = (xs.map fun x => (f x).toInt).sum := by
  rw [toInt_sum, List.map_map]
  · rfl
  · rw [List.map_map]
    exact (List.sum_le_sum hf).trans h

end Count

namespace Usage

/-- The counts of some rows are small enough to be added up exactly, in any order. -/
structure CountsFit (rows : List Row) : Prop where
  requests : (rows.map fun r => |r.totalRows.toInt| + |r.cacheHits.toInt|).sum ≤ Count.greatest
  cached : (rows.map fun r => |r.cachedTokens.toInt|).sum ≤ Count.greatest
  generated : (rows.map fun r => |r.generatedTokens.toInt|).sum ≤ Count.greatest

namespace CountsFit

variable {rows : List Row}

theorem sublist {part : List Row} (h : CountsFit rows) (hs : part.Sublist rows) :
    CountsFit part := by
  have hsum : ∀ bound : Row → Int, (∀ r, 0 ≤ bound r) →
      (part.map bound).sum ≤ (rows.map bound).sum := by
    intro bound hb
    refine List.Sublist.sum_le_sum (hs.map bound) ?_
    intro z hz
    obtain ⟨r, -, rfl⟩ := List.mem_map.1 hz
    exact hb r
  refine ⟨(hsum _ fun r => ?_).trans h.requests, (hsum _ fun r => ?_).trans h.cached,
    (hsum _ fun r => ?_).trans h.generated⟩
  · exact add_nonneg (abs_nonneg _) (abs_nonneg _)
  · exact abs_nonneg _
  · exact abs_nonneg _

/-- What the cache did not answer is the exact difference. -/
theorem toInt_apiRequests (h : CountsFit rows) {r : Row} (hr : r ∈ rows) :
    (r.totalRows.sub r.cacheHits).toInt = r.totalRows.toInt - r.cacheHits.toInt := by
  have hone : |r.totalRows.toInt| + |r.cacheHits.toInt|
      ≤ (rows.map fun r => |r.totalRows.toInt| + |r.cacheHits.toInt|).sum := by
    refine List.single_le_sum ?_ _ (List.mem_map.2 ⟨r, hr, rfl⟩)
    intro z hz
    obtain ⟨r', -, rfl⟩ := List.mem_map.1 hz
    exact add_nonneg (abs_nonneg _) (abs_nonneg _)
  rw [Count.toInt_sub]
  exact Count.clamp_of_abs_le ((abs_sub _ _).trans (hone.trans h.requests))

theorem sum_cacheHits (h : CountsFit rows) :
    (Count.sum (rows.map Row.cacheHits)).toInt = (rows.map fun r => r.cacheHits.toInt).sum := by
  refine Count.toInt_sum_map (fun r _ => ?_) h.requests
  exact le_add_of_nonneg_left (abs_nonneg _)

theorem sum_cachedTokens (h : CountsFit rows) :
    (Count.sum (rows.map Row.cachedTokens)).toInt
      = (rows.map fun r => r.cachedTokens.toInt).sum :=
  Count.toInt_sum_map (fun _ _ => le_rfl) h.cached

theorem sum_generatedTokens (h : CountsFit rows) :
    (Count.sum (rows.map Row.generatedTokens)).toInt
      = (rows.map fun r => r.generatedTokens.toInt).sum :=
  Count.toInt_sum_map (fun _ _ => le_rfl) h.generated

theorem sum_apiRequests (h : CountsFit rows) :
    (Count.sum (rows.map fun r => r.totalRows.sub r.cacheHits)).toInt
      = (rows.map fun r => r.totalRows.toInt - r.cacheHits.toInt).sum := by
  rw [Count.toInt_sum_map (fun r _ => ?_) h.requests]
  · exact congrArg List.sum (List.map_congr_left fun r hr => h.toInt_apiRequests hr)
  · exact (Count.abs_clamp_le _).trans (abs_sub _ _)

end CountsFit

/-- Summing up key by key is summing up, whatever keys without items there are besides. -/
theorem sum_fibers {α : Type} (key : α → String) (f : α → Int) {keys : List String}
    (hd : keys.Nodup) {xs : List α} (h : ∀ x ∈ xs, key x ∈ keys) :
    (keys.map fun k => ((xs.filter (key · = k)).map f).sum).sum = (xs.map f).sum := by
  induction xs with
  | nil => simp
  | cons x xs ih =>
    have hstep : ∀ k, (((x :: xs).filter (key · = k)).map f).sum
        = if k = key x then f x + ((xs.filter (key · = k)).map f).sum
          else ((xs.filter (key · = k)).map f).sum := by
      intro k
      by_cases hk : k = key x
      · simp [hk]
      · simp [hk, Ne.symm hk]
    have hcount : keys.count (key x) = 1 := List.count_eq_one_of_mem hd (h x List.mem_cons_self)
    simp only [hstep]
    rw [List.sum_map_ite_eq, hcount, ih fun y hy => h y (List.mem_cons_of_mem x hy)]
    simp

theorem sum_groups (f : Row → Int) {labels : List String} (hd : labels.Nodup) {rows : List Row}
    (h : ∀ r ∈ rows, r.label ∈ labels) :
    (labels.map fun label => ((rowsUnder label rows).map f).sum).sum = (rows.map f).sum :=
  sum_fibers Row.label f hd h

/-- A counter that is exact on every group adds up to the exact sum over all rows. -/
theorem Series.sum_counter {rows : List Row} (counter : SeriesPoint → Count) (f : Row → Int)
    (h : ∀ label, (counter (.ofRows label (rowsUnder label rows))).toInt
      = ((rowsUnder label rows).map f).sum) :
    ((Series.ofRows rows).map fun p => (counter p).toInt).sum = (rows.map f).sum := by
  rw [Series.ofRows_eq_groups, List.map_map, ← sum_groups f (nodup_firstSeen _)
    (fun r hr => mem_firstSeen.2 (List.mem_map.2 ⟨r, hr, rfl⟩))]
  exact congrArg List.sum (List.map_congr_left fun label _ => h label)

theorem sum_sub_add_sum {α : Type} (f g : α → Int) (xs : List α) :
    (xs.map fun x => f x - g x).sum + (xs.map g).sum = (xs.map f).sum := by
  rw [← List.sum_map_add]
  simp

theorem CountsFit.totalRequests {rows : List Row} (h : CountsFit rows) (name : String) :
    (SeriesPoint.ofRows name rows).totalRequests.toInt
      = (rows.map fun r => r.totalRows.toInt).sum := by
  have hall : |(rows.map fun r => r.totalRows.toInt).sum| ≤ Count.greatest := by
    refine (Count.abs_sum_le _).trans ?_
    rw [List.map_map]
    refine (List.sum_le_sum fun r _ => ?_).trans h.requests
    exact le_add_of_nonneg_right (abs_nonneg _)
  have hapi := h.sum_apiRequests
  have hhits := h.sum_cacheHits
  simp only [SeriesPoint.totalRequests, SeriesPoint.ofRows, Count.toInt_add]
  rw [hapi, hhits, sum_sub_add_sum]
  exact Count.clamp_of_abs_le hall

/-- Where the counts fit, no request and no token is lost or counted twice between the points and
the totals of a report. -/
theorem report_conserves (s : Selection) (rows : List Row)
    (h : CountsFit (rows.filter s.accepts)) :
    let kept := rows.filter s.accepts
    let report := s.report rows
    let hits := (report.series.map fun p => p.cacheHits.toInt).sum
    let requests := (report.series.map fun p => p.apiRequests.toInt).sum
    (hits = report.totals.cacheHits.toInt ∧ report.summary.cacheHits = toString hits) ∧
      requests = report.totals.apiRequests.toInt ∧
      (report.series.map fun p => p.cachedTokens.toInt).sum = report.totals.cachedTokens.toInt ∧
      (report.series.map fun p => p.generatedTokens.toInt).sum
        = (kept.map fun r => r.generatedTokens.toInt).sum ∧
      requests + report.totals.cacheHits.toInt = (kept.map fun r => r.totalRows.toInt).sum ∧
      ∀ p ∈ report.series, p.totalRequests.toInt
        = ((rowsUnder p.name kept).map fun r => r.totalRows.toInt).sum := by
  intro kept report hits requests
  have hgroup : ∀ label, CountsFit (rowsUnder label kept) := fun _ => h.sublist List.filter_sublist
  have htotals : report.totals = .sums kept := Totals.ofRows_eq_sums kept
  have hhits : hits = (kept.map fun r => r.cacheHits.toInt).sum :=
    Series.sum_counter SeriesPoint.cacheHits _ fun label => (hgroup label).sum_cacheHits
  have hrequests : requests = (kept.map fun r => r.totalRows.toInt - r.cacheHits.toInt).sum :=
    Series.sum_counter SeriesPoint.apiRequests _ fun label => (hgroup label).sum_apiRequests
  have hcached : (report.series.map fun p => p.cachedTokens.toInt).sum
      = (kept.map fun r => r.cachedTokens.toInt).sum :=
    Series.sum_counter SeriesPoint.cachedTokens _ fun label => (hgroup label).sum_cachedTokens
  have htotalHits : report.totals.cacheHits.toInt = (kept.map fun r => r.cacheHits.toInt).sum := by
    rw [htotals]
    exact h.sum_cacheHits
  refine ⟨⟨hhits.trans htotalHits.symm, ?_⟩, ?_, ?_, ?_, ?_, ?_⟩
  · rw [hhits, ← htotalHits]
    rfl
  · rw [hrequests, htotals]
    exact h.sum_apiRequests.symm
  · rw [hcached, htotals]
    exact h.sum_cachedTokens.symm
  · exact Series.sum_counter SeriesPoint.generatedTokens _
      fun label => (hgroup label).sum_generatedTokens
  · rw [hrequests, htotalHits, sum_sub_add_sum]
  · intro p hp
    rw [show report.series = _ from Series.ofRows_eq_groups kept] at hp
    obtain ⟨label, -, rfl⟩ := List.mem_map.1 hp
    exact (hgroup label).totalRequests label

/-- The counts of the first label have both signs, and those of the row left out would saturate. -/
theorem report_conserves_of_mixed_signs :
    let s : Selection := ⟨.all, .ofList ["m1"]⟩
    let many : Row := { Row.empty with
      model := "m1", totalRows := .ofInt 7, cacheHits := .ofInt 9, cachedTokens := .ofInt 4 }
    let huge : Row := { Row.empty with model := "m2", totalRows := .ofInt Count.greatest }
    let chat : Row := { Row.empty with
      model := "m1", callType := some "chat", totalRows := .ofInt 5, generatedTokens := .ofInt 3 }
    let few : Row := { Row.empty with
      model := "m1", totalRows := .ofInt (-3), cacheHits := .ofInt (-1) }
    let rows := [many, huge, chat, few]
    CountsFit (rows.filter s.accepts) ∧
      ((s.report rows).series.map fun p => p.apiRequests.toInt).sum = 1 ∧
      ((s.report rows).series.map fun p => p.apiRequests.toInt).sum
          + (s.report rows).totals.cacheHits.toInt
        = ((rows.filter s.accepts).map fun r => r.totalRows.toInt).sum := by
  intro s many huge chat few rows
  have hfit : CountsFit (rows.filter s.accepts) := ⟨by decide, by decide, by decide⟩
  exact ⟨hfit, by decide, (report_conserves s rows hfit).2.2.2.2.1⟩

end Usage

end CacheActivity
