import CacheActivity.Proofs.Conservation

/-!
# Saturated sums of well-formed rows

A sum that saturates depends on the order of its terms in general. It does not where no term is
negative: such a sum never comes down from the largest count, so it is the exact sum cut off there
(`Count.toInt_sum_of_nonneg`), and cutting off the sums of groups first changes nothing
(`Count.capped_groups`). Reports of well-formed rows therefore do not depend on the order of the
rows, and their points add up to their totals even where both saturate.
-/

namespace CacheActivity

namespace Count

/-- The exact sum, cut off at the largest count. -/
def capped (zs : List Int) : Int := min greatest zs.sum

theorem capped_nonneg {zs : List Int} (h : ∀ z ∈ zs, 0 ≤ z) : 0 ≤ capped zs :=
  le_min (by decide) (List.sum_nonneg h)

theorem capped_perm {ys zs : List Int} (h : ys.Perm zs) : capped ys = capped zs := by
  rw [capped, capped, h.sum_eq]

theorem toInt_sum_of_nonneg {cs : List Count} (h : ∀ c ∈ cs, 0 ≤ c.toInt) :
    (sum cs).toInt = capped (cs.map toInt) := by
  induction cs using List.reverseRecOn with
  | nil => rfl
  | append_singleton cs c ih =>
    have hc : 0 ≤ c.toInt := h c (by simp)
    have hcs : ∀ c ∈ cs, 0 ≤ c.toInt := fun c hc => h c (List.mem_append_left _ hc)
    have hsum : 0 ≤ (cs.map toInt).sum := by
      refine List.sum_nonneg fun z hz => ?_
      obtain ⟨c, hc, rfl⟩ := List.mem_map.1 hz
      exact hcs c hc
    rw [sum_concat, toInt_add, ih hcs]
    simp only [capped, List.map_append, List.sum_append, List.map_cons, List.map_nil,
      List.sum_singleton]
    -- What is above the range stays there, since nothing is taken away again.
    unfold clamp least greatest
    omega

theorem sum_append_of_nonneg {cs ds : List Count} (hcs : ∀ c ∈ cs, 0 ≤ c.toInt)
    (hds : ∀ d ∈ ds, 0 ≤ d.toInt) : sum (cs ++ ds) = (sum cs).add (sum ds) := by
  have hnonneg : ∀ {cs : List Count}, (∀ c ∈ cs, 0 ≤ c.toInt) → 0 ≤ (cs.map toInt).sum := by
    intro cs h
    exact List.sum_nonneg (List.forall_mem_map.2 h)
  have hc := hnonneg hcs
  have hd := hnonneg hds
  refine ext ?_
  rw [toInt_sum_of_nonneg (List.forall_mem_append.2 ⟨hcs, hds⟩), toInt_add,
    toInt_sum_of_nonneg hcs, toInt_sum_of_nonneg hds]
  simp only [capped, List.map_append, List.sum_append]
  unfold clamp least greatest
  omega

theorem toInt_sum_map_of_nonneg {α : Type} {xs : List α} {f : α → Count} {g : α → Int}
    (hg : ∀ x ∈ xs, (f x).toInt = g x) (h : ∀ x ∈ xs, 0 ≤ g x) :
    (sum (xs.map f)).toInt = capped (xs.map g) := by
  rw [toInt_sum_of_nonneg, List.map_map]
  · exact congrArg capped (List.map_congr_left hg)
  · intro c hc
    obtain ⟨x, hx, rfl⟩ := List.mem_map.1 hc
    rw [hg x hx]
    exact h x hx

theorem capped_groups {α : Type} {xs : List α} {parts : α → List Int}
    (h : ∀ x ∈ xs, ∀ z ∈ parts x, 0 ≤ z) :
    capped (xs.map fun x => capped (parts x)) = capped (xs.map fun x => (parts x).sum) := by
  induction xs with
  | nil => rfl
  | cons x xs ih =>
    have hx : 0 ≤ (parts x).sum := List.sum_nonneg (h x List.mem_cons_self)
    have hxs : ∀ x ∈ xs, ∀ z ∈ parts x, 0 ≤ z := fun y hy => h y (List.mem_cons_of_mem x hy)
    have hcapped : 0 ≤ (xs.map fun x => capped (parts x)).sum := by
      refine List.sum_nonneg fun z hz => ?_
      obtain ⟨y, hy, rfl⟩ := List.mem_map.1 hz
      exact capped_nonneg (hxs y hy)
    have hexact : 0 ≤ (xs.map fun x => (parts x).sum).sum := by
      refine List.sum_nonneg fun z hz => ?_
      obtain ⟨y, hy, rfl⟩ := List.mem_map.1 hz
      exact List.sum_nonneg (hxs y hy)
    have ih := ih hxs
    simp only [capped, List.map_cons, List.sum_cons] at ih hcapped ⊢
    omega

end Count

namespace Usage

section WellFormed

variable {rows : List Row} (h : ∀ r ∈ rows, r.WellFormed)
include h

theorem sum_apiRequests_of_wellFormed :
    (Count.sum (rows.map fun r => r.totalRows.sub r.cacheHits)).toInt
      = Count.capped (rows.map fun r => r.totalRows.toInt - r.cacheHits.toInt) := by
  refine Count.toInt_sum_map_of_nonneg (fun r hr => ?_) fun r hr => ?_
  · have := (h r hr).hits_nonneg
    have := (h r hr).hits_le
    have := r.totalRows.le_greatest
    rw [Count.toInt_sub]
    exact Count.clamp_of_mem (by unfold Count.least; omega) (by unfold Count.greatest; omega)
  · have := (h r hr).hits_le
    omega

theorem sum_cacheHits_of_wellFormed : (Count.sum (rows.map Row.cacheHits)).toInt
    = Count.capped (rows.map fun r => r.cacheHits.toInt) :=
  Count.toInt_sum_map_of_nonneg (fun _ _ => rfl) fun r hr => (h r hr).hits_nonneg

theorem sum_cachedTokens_of_wellFormed : (Count.sum (rows.map Row.cachedTokens)).toInt
    = Count.capped (rows.map fun r => r.cachedTokens.toInt) :=
  Count.toInt_sum_map_of_nonneg (fun _ _ => rfl) fun r hr => (h r hr).cached_nonneg

theorem sum_generatedTokens_of_wellFormed : (Count.sum (rows.map Row.generatedTokens)).toInt
    = Count.capped (rows.map fun r => r.generatedTokens.toInt) :=
  Count.toInt_sum_map_of_nonneg (fun _ _ => rfl) fun r hr => (h r hr).generated_nonneg

end WellFormed

variable {rows rows' : List Row}

theorem wellFormed_rowsUnder (h : ∀ r ∈ rows, r.WellFormed) (label : String) :
    ∀ r ∈ rowsUnder label rows, r.WellFormed :=
  fun r hr => h r (List.mem_of_mem_filter hr)

/-- The counters of a point are the exact sums over its rows, cut off at the largest count. -/
theorem SeriesPoint.toInt_ofRows (h : ∀ r ∈ rows, r.WellFormed) (name : String) :
    let p := SeriesPoint.ofRows name rows
    p.apiRequests.toInt = Count.capped (rows.map fun r => r.totalRows.toInt - r.cacheHits.toInt) ∧
      p.cacheHits.toInt = Count.capped (rows.map fun r => r.cacheHits.toInt) ∧
      p.cachedTokens.toInt = Count.capped (rows.map fun r => r.cachedTokens.toInt) ∧
      p.generatedTokens.toInt = Count.capped (rows.map fun r => r.generatedTokens.toInt) :=
  ⟨sum_apiRequests_of_wellFormed h, sum_cacheHits_of_wellFormed h,
    sum_cachedTokens_of_wellFormed h, sum_generatedTokens_of_wellFormed h⟩

theorem Totals.toInt_ofRows (h : ∀ r ∈ rows, r.WellFormed) :
    let t := Totals.ofRows rows
    t.cacheHits.toInt = Count.capped (rows.map fun r => r.cacheHits.toInt) ∧
      t.cachedTokens.toInt = Count.capped (rows.map fun r => r.cachedTokens.toInt) ∧
      t.apiRequests.toInt
        = Count.capped (rows.map fun r => r.totalRows.toInt - r.cacheHits.toInt) := by
  intro t
  have ht : t = .sums rows := Totals.ofRows_eq_sums rows
  rw [ht]
  exact ⟨sum_cacheHits_of_wellFormed h, sum_cachedTokens_of_wellFormed h,
    sum_apiRequests_of_wellFormed h⟩

theorem SeriesPoint.ofRows_perm (h : ∀ r ∈ rows, r.WellFormed) (hp : rows'.Perm rows)
    (name : String) : SeriesPoint.ofRows name rows' = SeriesPoint.ofRows name rows := by
  have h' : ∀ r ∈ rows', r.WellFormed := fun r hr => h r (hp.mem_iff.1 hr)
  obtain ⟨hapi', hhits', hcached', hgenerated'⟩ := toInt_ofRows h' name
  obtain ⟨hapi, hhits, hcached, hgenerated⟩ := toInt_ofRows h name
  have hsame := fun f : Row → Int => Count.capped_perm (hp.map f)
  rw [SeriesPoint.mk.injEq]
  refine ⟨rfl, Count.ext ?_, Count.ext ?_, Count.ext ?_, Count.ext ?_⟩
  · exact hapi'.trans ((hsame _).trans hapi.symm)
  · exact hhits'.trans ((hsame _).trans hhits.symm)
  · exact hcached'.trans ((hsame _).trans hcached.symm)
  · exact hgenerated'.trans ((hsame _).trans hgenerated.symm)

theorem Totals.ofRows_perm (h : ∀ r ∈ rows, r.WellFormed) (hp : rows'.Perm rows) :
    Totals.ofRows rows' = Totals.ofRows rows := by
  have h' : ∀ r ∈ rows', r.WellFormed := fun r hr => h r (hp.mem_iff.1 hr)
  obtain ⟨hhits', hcached', hapi'⟩ := toInt_ofRows h'
  obtain ⟨hhits, hcached, hapi⟩ := toInt_ofRows h
  have hsame := fun f : Row → Int => Count.capped_perm (hp.map f)
  rw [Totals.mk.injEq]
  refine ⟨Count.ext ?_, Count.ext ?_, Count.ext ?_⟩
  · exact hhits'.trans ((hsame _).trans hhits.symm)
  · exact hcached'.trans ((hsame _).trans hcached.symm)
  · exact hapi'.trans ((hsame _).trans hapi.symm)

theorem firstSeen_perm {α : Type} [DecidableEq α] {xs ys : List α} (hp : xs.Perm ys) :
    (firstSeen xs).Perm (firstSeen ys) := by
  rw [List.perm_ext_iff_of_nodup (nodup_firstSeen xs) (nodup_firstSeen ys)]
  intro x
  rw [mem_firstSeen, mem_firstSeen, hp.mem_iff]

/-- Rows in another order give the same points in another order. -/
theorem Series.ofRows_perm (h : ∀ r ∈ rows, r.WellFormed) (hp : rows'.Perm rows) :
    (Series.ofRows rows').Perm (Series.ofRows rows) := by
  rw [Series.ofRows_eq_groups, Series.ofRows_eq_groups]
  refine ((firstSeen_perm (hp.map Row.label)).map _).trans (.of_eq ?_)
  refine List.map_congr_left fun label _ => ?_
  exact SeriesPoint.ofRows_perm (wellFormed_rowsUnder h label) (hp.filter _) label

/-- A counter that is cut off on every group adds up to the cut-off sum over all rows, whatever
the order of the points. -/
theorem Series.sum_capped (counter : SeriesPoint → Count) (f : Row → Int)
    (hf : ∀ r ∈ rows, 0 ≤ f r)
    (hcounter : ∀ label, (counter (.ofRows label (rowsUnder label rows))).toInt
      = Count.capped ((rowsUnder label rows).map f))
    {points : List SeriesPoint} (hp : points.Perm (Series.ofRows rows)) :
    (Count.sum (points.map counter)).toInt = Count.capped (rows.map f) := by
  have hgroup : ∀ label, ∀ z ∈ (rowsUnder label rows).map f, 0 ≤ z := by
    intro label z hz
    obtain ⟨r, hr, rfl⟩ := List.mem_map.1 hz
    exact hf r (List.mem_of_mem_filter hr)
  have hpoint : ∀ p ∈ points, 0 ≤ (counter p).toInt := by
    intro p hm
    rw [hp.mem_iff, Series.ofRows_eq_groups] at hm
    obtain ⟨label, -, rfl⟩ := List.mem_map.1 hm
    rw [hcounter]
    exact Count.capped_nonneg (hgroup label)
  calc (Count.sum (points.map counter)).toInt
      = Count.capped (points.map fun p => (counter p).toInt) :=
        Count.toInt_sum_map_of_nonneg (fun _ _ => rfl) hpoint
    _ = Count.capped ((Series.ofRows rows).map fun p => (counter p).toInt) :=
        Count.capped_perm (hp.map _)
    _ = Count.capped ((firstSeen (rows.map Row.label)).map
          fun label => Count.capped ((rowsUnder label rows).map f)) := by
        rw [Series.ofRows_eq_groups, List.map_map]
        exact congrArg Count.capped (List.map_congr_left fun label _ => hcounter label)
    _ = Count.capped (rows.map f) := by
        rw [Count.capped_groups fun label _ => hgroup label, Count.capped, Count.capped,
          sum_groups f (nodup_firstSeen _)
            fun r hr => mem_firstSeen.2 (List.mem_map.2 ⟨r, hr, rfl⟩)]

/-- The counters of a report of well-formed rows are exact sums, cut off at the largest count. So
the order of the rows matters only for the order of the points, and the points add up to the totals
in whatever order. -/
theorem report_capped (s : Selection) (rows : List Row) (h : ∀ r ∈ rows, r.WellFormed) :
    let kept := rows.filter s.accepts
    let report := s.report rows
    let capped := fun (f : Row → Int) (part : List Row) => min Count.greatest (part.map f).sum
    let requests := fun r : Row => r.totalRows.toInt - r.cacheHits.toInt
    (∀ p ∈ report.series, let own := rowsUnder p.name kept
        p.apiRequests.toInt = capped requests own ∧
          p.cacheHits.toInt = capped (fun r => r.cacheHits.toInt) own ∧
          p.cachedTokens.toInt = capped (fun r => r.cachedTokens.toInt) own ∧
          p.generatedTokens.toInt = capped (fun r => r.generatedTokens.toInt) own) ∧
      (report.totals.cacheHits.toInt = capped (fun r => r.cacheHits.toInt) kept ∧
        report.totals.cachedTokens.toInt = capped (fun r => r.cachedTokens.toInt) kept ∧
        report.totals.apiRequests.toInt = capped requests kept) ∧
      (∀ others : List Row, others.Perm rows →
        (s.report others).totals = report.totals ∧ (s.report others).summary = report.summary ∧
          (s.report others).series.Perm report.series) ∧
      ∀ points : List SeriesPoint, points.Perm report.series →
        Count.sum (points.map SeriesPoint.cacheHits) = report.totals.cacheHits ∧
          Count.sum (points.map SeriesPoint.apiRequests) = report.totals.apiRequests ∧
          Count.sum (points.map SeriesPoint.cachedTokens) = report.totals.cachedTokens := by
  intro kept report capped requests
  have hkept : ∀ r ∈ kept, r.WellFormed := fun r hr => h r (List.mem_of_mem_filter hr)
  have hunder : ∀ label, _ := fun label =>
    SeriesPoint.toInt_ofRows (wellFormed_rowsUnder hkept label) label
  obtain ⟨hhits, hcached, hapi⟩ := Totals.toInt_ofRows hkept
  refine ⟨fun p hp => ?_, ⟨hhits, hcached, hapi⟩, fun others hperm => ?_, fun points hpoints => ?_⟩
  · rw [show report.series = _ from Series.ofRows_eq_groups kept] at hp
    obtain ⟨label, -, rfl⟩ := List.mem_map.1 hp
    exact hunder label
  · have hfilter : (others.filter s.accepts).Perm kept := hperm.filter _
    have htotals : (s.report others).totals = report.totals := Totals.ofRows_perm hkept hfilter
    exact ⟨htotals, congrArg Totals.summary htotals, Series.ofRows_perm hkept hfilter⟩
  · refine ⟨Count.ext ?_, Count.ext ?_, Count.ext ?_⟩
    · exact (Series.sum_capped SeriesPoint.cacheHits _ (fun r hr => (hkept r hr).hits_nonneg)
        (fun label => (hunder label).2.1) hpoints).trans hhits.symm
    · exact (Series.sum_capped SeriesPoint.apiRequests requests
        (fun r hr => sub_nonneg.2 (hkept r hr).hits_le)
        (fun label => (hunder label).1) hpoints).trans hapi.symm
    · exact (Series.sum_capped SeriesPoint.cachedTokens _
        (fun r hr => (hkept r hr).cached_nonneg)
        (fun label => (hunder label).2.2.1) hpoints).trans hcached.symm

/-- Two rows of one label go beyond the range, and the third one has a label of its own. -/
theorem report_capped_of_huge_rows :
    let huge : Row := { Row.empty with totalRows := .ofInt Count.greatest, cacheHits := .ofInt 5 }
    let most : Row := { Row.empty with
      totalRows := .ofInt Count.greatest, cacheHits := .ofInt (Count.greatest - 2) }
    let chat : Row := { Row.empty with
      callType := some "chat", totalRows := .ofInt 9, cacheHits := .ofInt 8 }
    let report := Selection.all.report [huge, chat, most]
    (∀ r ∈ [huge, chat, most], r.WellFormed) ∧
      report.series.map (fun p => (p.cacheHits.toInt, p.apiRequests.toInt))
        = [(Count.greatest, Count.greatest - 3), (8, 1)] ∧
      (Selection.all.report [chat, most, huge]).totals = report.totals ∧
      Count.sum ((report.series.reverse).map SeriesPoint.cacheHits) = report.totals.cacheHits := by
  intro huge most chat report
  have hrows : ∀ r ∈ [huge, chat, most], r.WellFormed := by
    intro r hr
    simp only [List.mem_cons, List.not_mem_nil, or_false] at hr
    rcases hr with rfl | rfl | rfl <;> exact ⟨by decide, by decide, by decide, by decide⟩
  obtain ⟨-, -, hperm, hsum⟩ := report_capped .all [huge, chat, most] hrows
  exact ⟨hrows, by decide, (hperm [chat, most, huge] (by decide)).1,
    (hsum _ (List.reverse_perm _)).1⟩

end Usage

end CacheActivity
