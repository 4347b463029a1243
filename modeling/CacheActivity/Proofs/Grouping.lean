import CacheActivity.Usage.Coercion
import CacheActivity.Usage.Selection
import Mathlib.Data.List.Induction

/-!
# Reports as groups of rows

A series is built row by row, with the points of all labels open at once. It is the rows grouped
by label (`Series.ofRows_eq_groups`): a point for each label in first-seen order, whose counters are
saturated sums over the rows of that label alone. The totals are saturated sums over all rows.
-/

namespace CacheActivity.Usage

section FirstSeen

variable {α : Type} [DecidableEq α]

theorem firstSeen_concat (xs : List α) (x : α) :
    firstSeen (xs ++ [x]) = note (firstSeen xs) x := by
  rw [firstSeen_append]
  rfl

/-- What is appended to a list adds its new values at the end, in their own order. -/
theorem firstSeen_append_eq_filter (xs ys : List α) :
    firstSeen (xs ++ ys) = firstSeen xs ++ (firstSeen ys).filter (· ∉ xs) := by
  induction ys using List.reverseRecOn with
  | nil => simp
  | append_singleton ys y ih =>
    rw [← List.append_assoc, firstSeen_concat, ih, firstSeen_concat]
    unfold note
    by_cases hx : y ∈ xs <;> by_cases hy : y ∈ ys <;> simp [hx, hy]

/-- Where a value comes first in a list is where it stands in the first-seen order. -/
theorem pairwise_idxOf_firstSeen (xs : List α) :
    (firstSeen xs).Pairwise fun x y => xs.idxOf x < xs.idxOf y := by
  induction xs using List.reverseRecOn with
  | nil => exact List.Pairwise.nil
  | append_singleton xs z ih =>
    have hkeep : ∀ x ∈ firstSeen xs, (xs ++ [z]).idxOf x = xs.idxOf x := by
      intro x hx
      rw [List.idxOf_append, if_pos (mem_firstSeen.1 hx)]
    have hold : (firstSeen xs).Pairwise fun x y => (xs ++ [z]).idxOf x < (xs ++ [z]).idxOf y := by
      refine ih.imp_of_mem ?_
      intro x y hx hy h
      rw [hkeep x hx, hkeep y hy]
      exact h
    rw [firstSeen_concat]
    unfold note
    split
    · exact hold
    · rename_i hz
      refine List.pairwise_append.2 ⟨hold, List.pairwise_singleton _ _, ?_⟩
      intro x hx y hy
      rw [List.mem_singleton.1 hy, hkeep x hx, List.idxOf_append,
        if_neg (fun h => hz (mem_firstSeen.2 h))]
      have := List.idxOf_lt_length_of_mem (mem_firstSeen.1 hx)
      omega

end FirstSeen

/-- The rows under a label. -/
def rowsUnder (label : String) (rows : List Row) : List Row := rows.filter (·.label = label)

/-- The point of some rows, each counter summed up on its own. -/
def SeriesPoint.ofRows (name : String) (rows : List Row) : SeriesPoint where
  name := name
  apiRequests := .sum (rows.map fun r => r.totalRows.sub r.cacheHits)
  cacheHits := .sum (rows.map Row.cacheHits)
  cachedTokens := .sum (rows.map Row.cachedTokens)
  generatedTokens := .sum (rows.map Row.generatedTokens)

/-- The totals of some rows, each counter summed up on its own. -/
def Totals.sums (rows : List Row) : Totals where
  cacheHits := .sum (rows.map Row.cacheHits)
  cachedTokens := .sum (rows.map Row.cachedTokens)
  apiRequests := .sum (rows.map fun r => r.totalRows.sub r.cacheHits)

@[simp] theorem SeriesPoint.name_ofRows (name : String) (rows : List Row) :
    (SeriesPoint.ofRows name rows).name = name := rfl

theorem SeriesPoint.ofRows_nil (name : String) : SeriesPoint.ofRows name [] = .blank name := rfl

theorem SeriesPoint.ofRows_concat (name : String) (rows : List Row) (r : Row) :
    SeriesPoint.ofRows name (rows ++ [r]) = (SeriesPoint.ofRows name rows).add r := by
  simp only [ofRows, add, List.map_append, List.map_cons, List.map_nil, Count.sum_concat,
    Row.apiRequests]

theorem rowsUnder_concat (label : String) (rows : List Row) (r : Row) :
    rowsUnder label (rows ++ [r])
      = if r.label = label then rowsUnder label rows ++ [r] else rowsUnder label rows := by
  unfold rowsUnder
  rw [List.filter_append]
  split <;> simp [*]

theorem rowsUnder_eq_nil {label : String} {rows : List Row} (h : label ∉ rows.map Row.label) :
    rowsUnder label rows = [] := by
  refine List.filter_eq_nil_iff.2 ?_
  intro r hr hl
  exact h (List.mem_map.2 ⟨r, hr, of_decide_eq_true hl⟩)

theorem Totals.ofRows_eq_sums (rows : List Row) : Totals.ofRows rows = .sums rows := by
  induction rows using List.reverseRecOn with
  | nil => rfl
  | append_singleton rows r ih =>
    unfold ofRows at ih ⊢
    rw [List.foldl_append, ih]
    simp only [List.foldl_cons, List.foldl_nil, add, sums, List.map_append, List.map_cons,
      List.map_nil, Count.sum_concat, Row.apiRequests]

/-- A row whose label is new opens a point at the end. -/
theorem Series.add_of_not_mem {r : Row} {s : Series} (h : r.label ∉ s.map SeriesPoint.name) :
    Series.add r s = s ++ [(SeriesPoint.blank r.label).add r] := by
  induction s with
  | nil => rfl
  | cons p s ih =>
    simp only [List.map_cons, List.mem_cons, not_or] at h
    rw [Series.add, if_neg (fun e => h.1 e.symm), ih h.2, List.cons_append]

/-- A row whose label has a point changes that point and no other. -/
theorem Series.add_of_mem {r : Row} {s : Series} (hd : (s.map SeriesPoint.name).Nodup)
    (h : r.label ∈ s.map SeriesPoint.name) :
    Series.add r s = s.map fun p => if p.name = r.label then p.add r else p := by
  induction s with
  | nil => simp at h
  | cons p s ih =>
    rw [List.map_cons, List.nodup_cons] at hd
    rw [Series.add, List.map_cons]
    split
    · rename_i hp
      have hrest : s.map (fun q => if q.name = r.label then q.add r else q) = s := by
        refine (List.map_congr_left ?_).trans (List.map_id s)
        intro q hq
        exact if_neg fun hq' => hd.1 (List.mem_map.2 ⟨q, hq, hq'.trans hp.symm⟩)
      rw [hrest]
    · rename_i hp
      rw [List.map_cons, List.mem_cons] at h
      rw [ih hd.2 (h.resolve_left fun e => hp e.symm)]

/-- The series of some rows are their groups by label. -/
theorem Series.ofRows_eq_groups (rows : List Row) :
    Series.ofRows rows = (firstSeen (rows.map Row.label)).map
      fun label => SeriesPoint.ofRows label (rowsUnder label rows) := by
  induction rows using List.reverseRecOn with
  | nil => rfl
  | append_singleton rows r ih =>
    have hnames : ((Series.ofRows rows).map SeriesPoint.name) = firstSeen (rows.map Row.label) := by
      rw [ih, List.map_map]
      exact List.map_id'' (fun _ => rfl) _
    have hstep : Series.ofRows (rows ++ [r]) = Series.add r (Series.ofRows rows) := by
      simp [Series.ofRows, List.foldl_append]
    rw [hstep, List.map_append, List.map_cons, List.map_nil, firstSeen_concat]
    -- The last row joins the point of its label, or opens a point behind all others.
    unfold note
    split
    · rename_i hmem
      rw [Series.add_of_mem (by rw [hnames]; exact nodup_firstSeen _) (by rw [hnames]; exact hmem),
        ih, List.map_map]
      refine List.map_congr_left ?_
      intro label _
      simp only [Function.comp_apply, SeriesPoint.name_ofRows, rowsUnder_concat,
        eq_comm (a := label)]
      split
      · rw [SeriesPoint.ofRows_concat]
      · rfl
    · rename_i hnew
      rw [Series.add_of_not_mem (by rw [hnames]; exact hnew), ih, List.map_append, List.map_cons,
        List.map_nil, rowsUnder_concat, if_pos rfl,
        rowsUnder_eq_nil (fun h => hnew (mem_firstSeen.2 h)), SeriesPoint.ofRows_concat,
        SeriesPoint.ofRows_nil]
      congr 1
      refine List.map_congr_left ?_
      intro label hlabel
      have hne : r.label ≠ label := fun e => hnew (e ▸ hlabel)
      rw [rowsUnder_concat, if_neg hne]

theorem Row.label_eq_unknownLabel_iff {r : Row} :
    r.label = unknownLabel ↔
      r.callType = none ∨ r.callType = some "" ∨ r.callType = some unknownLabel := by
  unfold label
  rcases r.callType with _ | t
  · simp
  · by_cases ht : t = ""
    · simp [ht]
    · simp [ht]

theorem Row.label_of_callType {r : Row} {t : String} (h : r.callType = some t) (ht : t ≠ "") :
    r.label = t := by
  simp [label, h, ht]

/-- Types of call that are left out, null, empty, or read like the label for unknown ones. -/
def unknownCallTypes : List (Option Json.Value) :=
  [none, some .null, some (.text ""), some (.text Row.unknownLabel)]

theorem Row.label_ofMembers {ms : Json.Members}
    (h : Json.Members.get? "call_type" ms ∈ unknownCallTypes) :
    (Row.ofMembers ms).label = unknownLabel := by
  rw [label_eq_unknownLabel_iff]
  simp only [unknownCallTypes, List.mem_cons, List.not_mem_nil, or_false] at h
  rcases h with h | h | h | h <;> simp [ofMembers, h, textOf?]

/-- A report is made of the accepted rows alone: a point for each of their labels, where the label
comes first, over the rows with that label; and totals over all of them. -/
theorem report_groups_rows (s : Selection) (rows : List Row) :
    let kept := rows.filter s.accepts
    let labels := kept.map Row.label
    let report := s.report rows
    let names := report.series.map SeriesPoint.name
    (names.Nodup ∧ (∀ name, name ∈ names ↔ name ∈ labels) ∧
        names.Pairwise fun a b => labels.idxOf a < labels.idxOf b) ∧
      report.series = names.map (fun name => SeriesPoint.ofRows name (rowsUnder name kept)) ∧
      report.totals = .sums kept ∧
      report.summary.cacheHits = toString report.totals.cacheHits.toInt ∧
      report.summary.cachedTokens = toString report.totals.cachedTokens.toInt ∧
      (∀ r : Row, r.label = Row.unknownLabel ↔
        r.callType = none ∨ r.callType = some "" ∨ r.callType = some Row.unknownLabel) ∧
      (∀ (r : Row) (t : String), r.callType = some t → t ≠ "" → r.label = t) ∧
      (∀ ms : Json.Members, Json.Members.get? "call_type" ms ∈ unknownCallTypes →
        (Row.ofMembers ms).label = Row.unknownLabel) ∧
      ∀ others : List Row, others.filter s.accepts = kept → s.report others = report := by
  intro kept labels report names
  have hseries : report.series = (firstSeen labels).map
      fun name => SeriesPoint.ofRows name (rowsUnder name kept) := Series.ofRows_eq_groups kept
  have hnames : names = firstSeen labels := by
    show report.series.map SeriesPoint.name = _
    rw [hseries, List.map_map]
    exact List.map_id'' (fun _ => rfl) _
  refine ⟨?_, ?_, Totals.ofRows_eq_sums kept, rfl, rfl, fun _ => Row.label_eq_unknownLabel_iff,
    fun _ _ => Row.label_of_callType, fun _ => Row.label_ofMembers, ?_⟩
  · rw [hnames]
    exact ⟨nodup_firstSeen labels, fun _ => mem_firstSeen, pairwise_idxOf_firstSeen labels⟩
  · rw [hnames, hseries]
  · intro others hothers
    show Report.ofRows (others.filter s.accepts) = Report.ofRows kept
    rw [hothers]

/-- The first row saturates, the second is not accepted, and the last one joins the first. -/
theorem report_groups_rows_of_two_labels :
    let s : Selection := ⟨.ofList ["k1"], .all⟩
    let huge : Row := { Row.empty with
      apiKey := "k1", totalRows := .ofInt Count.greatest, cacheHits := .ofInt (-1) }
    let other : Row := { Row.empty with apiKey := "k2", callType := some "chat" }
    let chat : Row := { Row.empty with
      apiKey := "k1", callType := some "chat", totalRows := .ofInt 2 }
    let blank : Row := { Row.empty with
      apiKey := "k1", callType := some "", totalRows := .ofInt (-5) }
    [huge, chat, blank].filter s.accepts = [huge, other, chat, blank].filter s.accepts ∧
      s.report [huge, chat, blank] = s.report [huge, other, chat, blank] ∧
      (s.report [huge, other, chat, blank]).series.map
        (fun p => (p.name, p.apiRequests.toInt, p.cacheHits.toInt))
        = [("Unknown", Count.greatest - 5, -1), ("chat", 2, 0)] ∧
      chat.label = "chat" ∧ (Row.ofMembers [("call_type", .null)]).label = "Unknown" := by
  intro s huge other chat blank
  have hkept : [huge, chat, blank].filter s.accepts =
      [huge, other, chat, blank].filter s.accepts := by decide
  obtain ⟨-, -, -, -, -, -, hlabel, hnull, hothers⟩ :=
    report_groups_rows s [huge, other, chat, blank]
  refine ⟨hkept, hothers _ hkept, by decide, hlabel chat "chat" rfl (by decide), hnull _ ?_⟩
  simp [unknownCallTypes, Json.Members.get?_cons]

end CacheActivity.Usage
