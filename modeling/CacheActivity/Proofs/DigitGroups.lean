import CacheActivity.Display.Activity
import CacheActivity.Proofs.CountTexts
import CacheActivity.Usage.Selection

/-!
# Counts with their digits in groups

A comma goes wherever a multiple of three digits is left, which makes a first group of up to three
digits and groups of three behind it (`exists_groups`). The digits are those of the decimal text, so
that text comes back without the commas (`filter_grouped`). It is read as the count again, which is
why the card of a summary and the table show the same figures (`grouped_shows_count`).
-/

namespace CacheActivity.Display

open Calendar (Window)
open Text (joinWith)
open Usage (Row Report Selection)

/-- Groups of digits: up to three of them in the first group, and three in every other one. -/
structure AreGroups (first : List Char) (rest : List (List Char)) : Prop where
  first_ne_nil : first ≠ []
  first_length : first.length ≤ 3
  rest_length : ∀ g ∈ rest, g.length = 3
  isDigit : ∀ g ∈ first :: rest, ∀ c ∈ g, c.isDigit = true

namespace AreGroups

variable {d : Char} {first : List Char} {rest : List (List Char)}

theorem single (hd : d.isDigit = true) : AreGroups [d] [] where
  first_ne_nil := List.cons_ne_nil d []
  first_length := Nat.le_add_left 1 2
  rest_length := List.forall_mem_nil _
  isDigit := List.forall_mem_singleton.2 (List.forall_mem_singleton.2 hd)

/-- A digit in front of a full group opens another one. -/
theorem cons_group (h : AreGroups first rest) (hfull : first.length = 3) (hd : d.isDigit = true) :
    AreGroups [d] (first :: rest) where
  first_ne_nil := List.cons_ne_nil d []
  first_length := Nat.le_add_left 1 2
  rest_length := List.forall_mem_cons.2 ⟨hfull, h.rest_length⟩
  isDigit := List.forall_mem_cons.2 ⟨List.forall_mem_singleton.2 hd, h.isDigit⟩

/-- A digit in front of a group with room for it. -/
theorem cons_digit (h : AreGroups first rest) (hroom : first.length < 3) (hd : d.isDigit = true) :
    AreGroups (d :: first) rest where
  first_ne_nil := List.cons_ne_nil d first
  first_length := hroom
  rest_length := h.rest_length
  isDigit :=
    have ⟨hfirst, hrest⟩ := List.forall_mem_cons.1 h.isDigit
    List.forall_mem_cons.2 ⟨List.forall_mem_cons.2 ⟨hd, hfirst⟩, hrest⟩

end AreGroups

theorem exists_groups {ds : List Char} (hne : ds ≠ []) (h : ∀ c ∈ ds, c.isDigit = true) :
    ∃ first rest, AreGroups first rest ∧ first.length % 3 = ds.length % 3 ∧
      groupDigits ds = joinWith ',' (first :: rest) := by
  -- Commas go by the number of digits behind them, which the first group knows up to threes.
  induction ds with
  | nil => exact absurd rfl hne
  | cons d ds ih =>
    obtain ⟨hd, hds⟩ := List.forall_mem_cons.1 h
    by_cases hnil : ds = []
    · subst hnil
      exact ⟨[d], [], .single hd, rfl, rfl⟩
    obtain ⟨first, rest, hgroups, hlength, htext⟩ := ih hnil hds
    have hpos := List.length_pos_iff.2 hgroups.first_ne_nil
    have hle := hgroups.first_length
    by_cases hthree : ds.length % 3 = 0
    · have hfull : first.length = 3 := by omega
      refine ⟨[d], first :: rest, hgroups.cons_group hfull hd, ?_, ?_⟩
      · rw [List.length_cons, List.length_cons, List.length_nil]
        omega
      · rw [groupDigits, if_pos ⟨hnil, hthree⟩, htext,
          Text.joinWith_cons (List.cons_ne_nil first rest)]
        rfl
    · refine ⟨d :: first, rest, hgroups.cons_digit (by omega) hd, ?_, ?_⟩
      · rw [List.length_cons, List.length_cons]
        omega
      · rw [groupDigits, if_neg fun hcomma => hthree hcomma.2, htext,
          Text.joinWith_cons_eq_append, Text.joinWith_cons_eq_append]
        rfl

section Counts

variable (a : Count)

theorem grouped_eq :
    grouped a.toInt = a.wholeText.sign ++ groupDigits a.wholeText.digits := rfl

theorem exists_groups_of_grouped :
    ∃ first rest, AreGroups first rest ∧
      grouped a.toInt = a.wholeText.sign ++ joinWith ',' (first :: rest) := by
  obtain ⟨first, rest, hgroups, -, htext⟩ :=
    exists_groups a.wholeText.digits_ne_nil a.wholeText.isDigit_of_mem_digits
  exact ⟨first, rest, hgroups, by rw [grouped_eq, htext]⟩

theorem filter_grouped : (grouped a.toInt).filter (· ≠ ',') = a.text.toList := by
  have hdigits : ',' ∉ a.wholeText.digits := fun hmem =>
    absurd (a.wholeText.isDigit_of_mem_digits _ hmem) (by decide)
  have hsign : a.wholeText.sign.filter (· ≠ ',') = a.wholeText.sign := by
    show (if a.toInt < 0 then ['-'] else []).filter (· ≠ ',') = if a.toInt < 0 then ['-'] else []
    split <;> rfl
  rw [grouped_eq, List.filter_append, filter_groupDigits hdigits, hsign, Count.toList_text]
  rfl

theorem grouped_injective : Function.Injective fun a : Count => grouped a.toInt := by
  intro a b h
  have htext : a.text.toList = b.text.toList := by
    rw [← filter_grouped a, ← filter_grouped b]
    exact congrArg (List.filter (· ≠ ',')) h
  exact Count.text_injective (String.toList_inj.1 htext)

theorem groupedText_text : groupedText a.text = grouped a.toInt := by
  have hrange : (Count.least ≤ a.toInt && a.toInt ≤ Count.greatest) = true := by
    rw [Bool.and_eq_true, decide_eq_true_eq, decide_eq_true_eq]
    exact ⟨a.least_le, a.le_greatest⟩
  rw [groupedText, Count.integer?_text, Option.filter_some, if_pos hrange]

end Counts

theorem not_mem_grouped {c : Char} (hdigit : c.isDigit = false) (hcomma : c ≠ ',') (hsign : c ≠ '-')
    (z : Int) : c ∉ grouped z := by
  have hgroups (ds : List Char) (h : c ∉ ds) : c ∉ groupDigits ds := by
    induction ds with
    | nil => exact h
    | cons d ds ih =>
      rw [List.mem_cons, not_or] at h
      rw [groupDigits]
      split <;> simp [h.1, hcomma, ih h.2]
  rw [grouped, List.mem_append, not_or]
  refine ⟨?_, hgroups _ fun hmem => ?_⟩
  · split <;> simp [hsign]
  · have := Nat.isDigit_of_mem_toDigits (by decide) (by decide) hmem
    simp [hdigit] at this

/-! ## The card and the table -/

/-- The row of totals is on one line of the table. -/
theorem exists_total_line {r : Report} {t : Table} (h : activityTable? r = some t)
    (hs : r.series ≠ []) :
    ∃ generated, ∃ line ∈ t.lines, Table.Shows (totalRow r generated) line := by
  obtain ⟨generated, -, rfl⟩ := Option.map_eq_some_iff.1 h
  have hfull : ¬r.series.isEmpty = true := fun hempty => hs (List.isEmpty_iff.1 hempty)
  rw [if_neg hfull]
  generalize ht : (⟨activityHeader, r.series.map pointRow ++ [totalRow r generated]⟩ : Table) = t
  have hrow : totalRow r generated ∈ t.rows := by
    rw [← ht]
    exact List.mem_append_right _ List.mem_cons_self
  have hlength : t.columnWidths.length = (totalRow r generated).length := by
    rw [← ht]
    rfl
  have hbreak : ∀ cell ∈ totalRow r generated, '\n' ∉ cell := by
    simp [totalRow, not_mem_grouped]
  obtain ⟨line, hline, hshows⟩ := Table.exists_shows hlength (List.cons_ne_nil _ _) hbreak
  exact ⟨generated, line, Table.mem_lines hrow hline, hshows⟩

theorem mem_activityLines {r : Report} {t : Table} {l : Line} (h : activityTable? r = some t)
    (hl : l ∈ t.lines) : l ∈ (activityLines r).lines := by
  rw [activityLines, h]
  exact List.mem_append_left _ hl

theorem mem_pageLines_of_card (time : String) (w : Window) {r : Report} {l : Line}
    (hl : l ∈ cardLines r.summary) : l ∈ (pageLines time w r).lines := by
  have hcard : l ∈ headLines time w ++ [] :: cardLines r.summary ++ [[]] :=
    List.mem_append_left _ (List.mem_append_right _ (List.mem_cons_of_mem _ hl))
  exact Shown.mem_append_left _ (Shown.mem_append_left _ hcard)

theorem mem_pageLines_of_activity (time : String) (w : Window) {r : Report} {l : Line}
    (hs : r.series ≠ []) (hl : l ∈ (activityLines r).lines) : l ∈ (pageLines time w r).lines := by
  have hfull : ¬r.series.isEmpty = true := fun hempty => hs (List.isEmpty_iff.1 hempty)
  have hseries : l ∈ (seriesLines r).lines := by
    rw [seriesLines, if_neg hfull]
    exact Shown.mem_append_right rfl hl
  exact Shown.mem_append_left _ (Shown.mem_append_right rfl hseries)

/-- A count in groups is its decimal text with commas, which are such that the first group has one
to three digits and every other one has three. So no two counts look the same, and a text of a count
is shown as the count itself. In particular the card on a page shows the hits and cached tokens that
stand on the line of totals in the table. -/
theorem grouped_shows_count :
    (∀ a : Count, (grouped a.toInt).filter (· ≠ ',') = a.text.toList ∧
      (∃ first rest, AreGroups first rest ∧ grouped a.toInt =
        (if a.toInt < 0 then ['-'] else []) ++ joinWith ',' (first :: rest)) ∧
      groupedText a.text = grouped a.toInt) ∧
    (Function.Injective fun a : Count => grouped a.toInt) ∧
    ∀ (time : String) (w : Window) (r : Report),
      let hits := grouped r.totals.cacheHits.toInt
      let tokens := grouped r.totals.cachedTokens.toInt
      "│ ✅ Cache Hits: ".toList ++ hits ++ "  │  💾 Cached Tokens: ".toList ++ tokens ++
          "  │  📈 Hit Ratio: ".toList ++ r.summary.hitRatio.toList ++ "% │".toList ∈
        (pageLines time w r).lines ∧
      ∀ t, activityTable? r = some t → r.series ≠ [] → ∃ requests generated line,
        Table.Shows ["Total".toList, requests, hits, tokens, generated] line ∧
          line ∈ (activityLines r).lines ∧ line ∈ (pageLines time w r).lines := by
  refine ⟨fun a => ?_, grouped_injective, fun time w r => ⟨?_, fun t ht hs => ?_⟩⟩
  · exact ⟨filter_grouped a, exists_groups_of_grouped a, groupedText_text a⟩
  · rw [← groupedText_text, ← groupedText_text]
    exact mem_pageLines_of_card time w
      (List.mem_cons_of_mem _ (List.mem_cons_of_mem _ List.mem_cons_self))
  · obtain ⟨generated, line, hline, hshows⟩ := exists_total_line ht hs
    have hactivity := mem_activityLines ht hline
    exact ⟨_, _, line, hshows, hactivity, mem_pageLines_of_activity time w hs hactivity⟩

/-- A row with the least count there is for its hits, so that the other requests saturate. -/
def leastHits : Row :=
  { Row.empty with cacheHits := .ofInt Count.least, cachedTokens := .ofInt 1234567 }

theorem grouped_shows_count_of_leastHits :
    let date : Calendar.Date := ⟨2024, 6, 1, by decide, by decide, by decide⟩
    let r := Selection.all.report [leastHits]
    let page := pageLines "2024-06-02 12:00:00" ⟨date, date, Int.le_refl _⟩ r
    groupedText "-9223372036854775808" = "-9,223,372,036,854,775,808".toList ∧
    "│ ✅ Cache Hits: ".toList ++ "-9,223,372,036,854,775,808".toList ++
      "  │  💾 Cached Tokens: ".toList ++ "1,234,567".toList ++ "  │  📈 Hit Ratio: ".toList ++
        "0".toList ++ "% │".toList ∈ page.lines ∧
    (activityTable? r).isSome = true ∧ ∃ requests generated line,
      Table.Shows ["Total".toList, requests, "-9,223,372,036,854,775,808".toList,
        "1,234,567".toList, generated] line ∧
      line ∈ (activityLines r).lines ∧ line ∈ page.lines := by
  intro date r page
  have hpoints : r.series ≠ [] := by decide
  have hhits : grouped r.totals.cacheHits.toInt = "-9,223,372,036,854,775,808".toList := by decide
  have htokens : grouped r.totals.cachedTokens.toInt = "1,234,567".toList := by decide
  have hratio : r.summary.hitRatio = "0" := by decide
  have htable : activityTable? r =
    some ⟨activityHeader, r.series.map pointRow ++ [totalRow r .zero]⟩ := rfl
  obtain ⟨hcount, -, hpage⟩ := grouped_shows_count
  obtain ⟨-, -, htext⟩ := hcount leastHits.cacheHits
  obtain ⟨hcard, htotal⟩ := hpage "2024-06-02 12:00:00" ⟨date, date, Int.le_refl _⟩ r
  replace htotal := htotal _ htable hpoints
  rw [hhits, htokens] at hcard htotal
  rw [hratio] at hcard
  exact ⟨htext, hcard, htable ▸ rfl, htotal⟩

end CacheActivity.Display
