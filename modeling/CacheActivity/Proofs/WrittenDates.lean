import CacheActivity.Proofs.DateSpellings
import CacheActivity.Proofs.TrimmedTexts
import CacheActivity.Proofs.WindowParts

/-!
# Dates that were written

A date is written in one way and read in three: with dashes and blanks around it, without dashes,
and as the name of a capture. Every date is read back from its text (`readable_text`). Years from
`0` to `9999` are written in four digits, which is a documented spelling with dashes and without
(`inDigits_charsWith`). Other years have a sign in front, and then all digits of the year count, up
to the next dash.
-/

namespace CacheActivity.Calendar.Date

open Json (NoDigit)
open Text (isSpace)

variable {count n : Nat} {z : Int} {d : Date} {separator rest cs before after : List Char}

theorem isDigit_of_mem_padded : ∀ c ∈ padded count n, c.isDigit = true :=
  Json.isDigit_of_mem_zeros

theorem digitsValue_padded (count n : Nat) : Text.digitsValue (padded count n) = n :=
  Json.digitsValue_zeros _ _

theorem padded_ne_nil (count n : Nat) : padded count n ≠ [] :=
  List.append_ne_nil_of_right_ne_nil _ Nat.toDigits_ne_nil

theorem digits_padded (hpos : 0 < count) (h : n < 10 ^ count) : Digits count (padded count n) := by
  have hlength : (Nat.toDigits 10 n).length ≤ count :=
    (Nat.length_toDigits_le_iff (by decide) hpos).2 h
  refine ⟨isDigit_of_mem_padded, ?_⟩
  rw [padded, List.length_append, List.length_replicate, Nat.sub_add_cancel hlength]

theorem digits_month (d : Date) : Digits 2 (padded 2 d.month) :=
  digits_padded (by decide) (Nat.lt_of_le_of_lt d.month_mem.2 (by decide))

theorem monthLength_le (year : Int) (month : Nat) : monthLength year month ≤ 31 := by
  unfold monthLength
  repeat' split
  all_goals decide

theorem digits_day (d : Date) : Digits 2 (padded 2 d.day) := by
  have hle : d.day ≤ 31 := Nat.le_trans d.day_mem.2 (monthLength_le _ _)
  exact digits_padded (by decide) (Nat.lt_of_le_of_lt hle (by decide))

/-- That a year is written in four digits. -/
def HasPlainYear (d : Date) : Prop := 0 ≤ d.year ∧ d.year ≤ 9999

theorem HasPlainYear.yearChars_eq (h : d.HasPlainYear) :
    yearChars d.year = padded 4 d.year.natAbs := by
  rw [yearChars, if_neg (Int.not_lt.2 h.1), if_neg (Int.not_lt.2 h.2), List.nil_append]

/-- Any other year has a sign, and is read as far as its digits go. -/
theorem year_of_signed (h : ¬d.HasPlainYear) (hrest : NoDigit rest) :
    Year (yearChars d.year ++ rest) d.year rest := by
  have hsigned : ∀ negative : Bool, Year
      ((if negative then '-' else '+') :: (padded 4 d.year.natAbs ++ rest))
      (if negative then -(d.year.natAbs : Int) else d.year.natAbs) rest := fun negative => by
    have hyear := Year.signed negative (List.forall_mem_nil _) isDigit_of_mem_padded
      (padded_ne_nil 4 d.year.natAbs) hrest
    rwa [digitsValue_padded] at hyear
  unfold HasPlainYear at h
  rcases Int.lt_or_le d.year 0 with hneg | hnonneg
  · have hvalue : d.year = -(d.year.natAbs : Int) := by omega
    have hyear : Year ('-' :: (padded 4 d.year.natAbs ++ rest)) (-(d.year.natAbs : Int)) rest :=
      hsigned true
    rw [← hvalue] at hyear
    rw [yearChars, if_pos hneg]
    exact hyear
  · have hlarge : 9999 < d.year := by omega
    have hyear : Year ('+' :: (padded 4 d.year.natAbs ++ rest)) (d.year.natAbs : Int) rest :=
      hsigned false
    rw [Int.natAbs_of_nonneg hnonneg] at hyear
    rw [yearChars, if_neg (Int.not_lt.2 hnonneg), if_pos hlarge]
    exact hyear

theorem inDigits_charsWith (h : d.HasPlainYear) (separator : List Char) :
    InDigits separator (d.charsWith separator) d := by
  have hyear : Digits 4 (padded 4 d.year.natAbs) := by
    unfold HasPlainYear at h
    exact digits_padded (by decide) (by omega)
  have hvalue : d.year = (Text.digitsValue (padded 4 d.year.natAbs) : Int) := by
    rw [digitsValue_padded, Int.natAbs_of_nonneg h.1]
  simp only [charsWith, h.yearChars_eq, List.append_assoc]
  exact .mk hyear d.digits_month d.digits_day hvalue (digitsValue_padded 2 d.month).symm
    (digitsValue_padded 2 d.day).symm

/-- A dash ends the digits of a year, so that all of them count behind a sign. -/
theorem lax_of_signed (h : ¬d.HasPlainYear) : Lax ['-'] (d.charsWith ['-']) d := by
  let cs'' := padded 2 d.day
  let cs' := padded 2 d.month ++ (['-'] ++ cs'')
  have hdash : NoDigit (['-'] ++ cs') := by
    rintro c ⟨⟩
    decide
  have hyear := year_of_signed h hdash
  have hmonth := d.digits_month.number (by decide) (['-'] ++ cs'')
  have hday := d.digits_day.number (by decide) []
  rw [digitsValue_padded] at hmonth hday
  rw [List.append_nil] at hday
  simpa only [charsWith, List.append_assoc] using Lax.mk hyear hmonth hday

theorem readable_text (d : Date) : Readable (d.charsWith ['-']) d := by
  by_cases h : d.HasPlainYear
  · exact Documented.readable (.inr (inDigits_charsWith h ['-']))
  · exact .inl ⟨by simp [charsWith], lax_of_signed h⟩

theorem readable_compact (h : d.HasPlainYear) : Readable (d.charsWith []) d :=
  Documented.readable (.inl (inDigits_charsWith h []))

theorem not_isSpace_dash : ∀ c ∈ ['-'], isSpace c = false := List.forall_mem_singleton.2 rfl

theorem not_isSpace_of_mem_charsWith (hs : ∀ c ∈ separator, isSpace c = false) :
    ∀ c ∈ d.charsWith separator, isSpace c = false := by
  have hpadded : ∀ {count n}, ∀ c ∈ padded count n, isSpace c = false := fun c hc =>
    Json.not_isSpace_of_isDigit (isDigit_of_mem_padded c hc)
  have hsign : ∀ c ∈ yearChars d.year, isSpace c = false := by
    unfold yearChars
    refine List.forall_mem_append.2 ⟨?_, hpadded⟩
    split
    · exact not_isSpace_dash
    · split
      · exact List.forall_mem_singleton.2 rfl
      · exact List.forall_mem_nil _
  simp only [charsWith, List.forall_mem_append]
  exact ⟨⟨⟨⟨hsign, hs⟩, hpadded⟩, hs⟩, hpadded⟩

/-- Blanks around a spelling do not matter. -/
theorem parse_of_readable (hbefore : ∀ c ∈ before, isSpace c = true)
    (hafter : ∀ c ∈ after, isSpace c = true) (hcs : ∀ c ∈ cs, isSpace c = false)
    (h : Readable cs d) : parse (String.ofList (before ++ cs ++ after)) = .ok d := by
  rw [parse_eq_ok_iff, String.toList_ofList, Text.trim_of_spaces hbefore hafter hcs]
  exact h

theorem parse_text (d : Date) : parse d.text = .ok d := by
  have hread := parse_of_readable (List.forall_mem_nil _) (List.forall_mem_nil _)
    (not_isSpace_of_mem_charsWith not_isSpace_dash) (readable_text d)
  rwa [List.nil_append, List.append_nil] at hread

theorem readDashed?_text (d : Date) : readDashed? d.text = some d := by
  rw [readDashed?, text, String.toList_ofList, readWith?_eq_some_iff]
  rcases readable_text d with ⟨-, h⟩ | ⟨hdash, -⟩
  · exact h
  · exact absurd (by simp [charsWith]) hdash

end CacheActivity.Calendar.Date

namespace CacheActivity.Calendar.Window

theorem parse_bounds (w : Window) : parse w.bounds.1 w.bounds.2 = .ok w := by
  show (do ofDates (← Date.parse w.first.text) (← Date.parse w.last.text)) = _
  rw [Date.parse_text, Date.parse_text]
  exact ofDates_eq_ok w.ordered

end CacheActivity.Calendar.Window

namespace CacheActivity.Capture

open Calendar (Date Window)
open Files (Disk Place)
open Text (isSpace)

section Named

variable {date : Date} {place : Place} {extension path : String} {d : Disk} {root : Place}
  {text? : Option String} {w : Window} {c : Daily}

theorem Daily.named_text (hext : extension ∈ Daily.extensions)
    (hname : place.getLast? = some (date.text ++ "." ++ extension)) :
    Daily.Named ⟨date, place⟩ :=
  ⟨date.text, extension, hext, hname, date.readDashed?_text⟩

/-- A file with a date for its stem is a capture of that date, and of no other. -/
theorem mem_dailies_of_text (hpath : d.locate path = .ok root)
    (hext : extension ∈ Daily.extensions)
    (hname : place.getLast? = some (date.text ++ "." ++ extension))
    (hfile : d.itemAt? (root ++ place) = some (.file text?)) :
    c ∈ dailies d path root w ∧ c.place = place ↔
      w.Contains date ∧ d.WayOpen path root place ∧ c = ⟨date, place⟩ := by
  have hnamed := Daily.named_text hext hname
  constructor
  · rintro ⟨hc, rfl⟩
    obtain ⟨heligible, hway⟩ := (mem_dailies hpath).1 hc
    have hof : ∀ {c' : Daily}, c'.place = c.place → c'.Named → Daily.ofPlace? c.place = some c' :=
      fun hplace hn => (Daily.ofPlace?_eq_some_iff heligible.isName).2 ⟨hplace, hn⟩
    have hsame : c = ⟨date, c.place⟩ :=
      Option.some_inj.1 ((hof rfl heligible.isFor.named).symm.trans (hof rfl hnamed))
    have hdate : c.date = date := congrArg Daily.date hsame
    exact ⟨hdate ▸ heligible.isFor.contained, hway, hsame⟩
  · rintro ⟨hcontained, hway, rfl⟩
    exact ⟨(mem_dailies hpath).2 ⟨⟨⟨hnamed, hcontained⟩, text?, hfile⟩, hway⟩, rfl⟩

end Named

/-- A date is read back from its text, whatever blanks are around it, and from its text without
dashes where its year has four digits. A file below a folder with that text for its stem and the
extension of a capture is listed for just those windows that contain the date, if the way to it is
open, and then with this date. So every window is the one between its bounds. -/
theorem written_dates_are_read :
    (∀ (date : Date) (before after : List Char), (∀ c ∈ before, isSpace c = true) →
      (∀ c ∈ after, isSpace c = true) →
      Date.parse (String.ofList (before ++ date.text.toList ++ after)) = .ok date ∧
      (0 ≤ date.year ∧ date.year ≤ 9999 →
        Date.parse (String.ofList (before ++ date.charsWith [] ++ after)) = .ok date)) ∧
    (∀ (date : Date) (d : Disk) (path : String) (root place : Place) (extension : String)
      (text? : Option String), d.locate path = .ok root → extension ∈ Daily.extensions →
      place.getLast? = some (date.text ++ "." ++ extension) →
      d.itemAt? (root ++ place) = some (.file text?) →
      ∀ (w : Window) (c : Daily), c ∈ dailies d path root w ∧ c.place = place ↔
        w.Contains date ∧ d.WayOpen path root place ∧ c = ⟨date, place⟩) ∧
    ∀ w : Window, Window.parse w.bounds.1 w.bounds.2 = .ok w := by
  refine ⟨fun date before after hbefore hafter => ⟨?_, fun hplain => ?_⟩,
    fun date d path root place extension text? hpath hext hname hfile w c =>
      mem_dailies_of_text hpath hext hname hfile, Window.parse_bounds⟩
  · rw [Date.text, String.toList_ofList]
    exact Date.parse_of_readable hbefore hafter
      (Date.not_isSpace_of_mem_charsWith Date.not_isSpace_dash) date.readable_text
  · exact Date.parse_of_readable hbefore hafter
      (Date.not_isSpace_of_mem_charsWith (List.forall_mem_nil _)) (Date.readable_compact hplain)

def farAway : Date := ⟨-12345, 12, 31, by decide, by decide, by decide⟩

def yearFour : Date := ⟨4, 10, 30, by decide, by decide, by decide⟩

/-- A year with a sign and five digits, and a year with three zeros in front. -/
theorem written_dates_are_read_of_far_away :
    farAway.text = "-12345-12-31" ∧ Date.parse "\t-12345-12-31 \n" = .ok farAway ∧
    String.ofList (yearFour.charsWith []) = "00041030" ∧ Date.parse "00041030" = .ok yearFour ∧
    (asDocument ∈ dailies sampleArchive "cap" ["cap"] oneDay ∧
      asDocument.place = ["sub", "2024-05-01.json"]) ∧
    Window.parse (Window.ofDay farAway).bounds.1 "-12345-12-31" = .ok (.ofDay farAway) := by
  obtain ⟨hread, hlisted, hwindow⟩ := written_dates_are_read
  have hfar := (hread farAway ['\t'] [' ', '\n'] (List.forall_mem_singleton.2 rfl)
    (List.forall_mem_cons.2 ⟨rfl, List.forall_mem_singleton.2 rfl⟩)).1
  have hfour := (hread yearFour [] [] (List.forall_mem_nil _) (List.forall_mem_nil _)).2
    (by decide)
  have hopen : sampleArchive.WayOpen "cap" ["cap"] asDocument.place :=
    ((mem_dailies locate_cap).1 (mem_dailies_sampleArchive.2 List.mem_cons_self)).2
  have hmember := (hlisted firstOfMay sampleArchive "cap" ["cap"] asDocument.place "json"
    (some "[\x7b\x7d]") locate_cap (by decide) rfl rfl oneDay asDocument).2
    ⟨by decide, hopen, rfl⟩
  exact ⟨rfl, hfar, rfl, hfour, hmember, hwindow (.ofDay farAway)⟩

/-- A folder with a path that is too long, or that cannot be listed, hides the capture of the day
that was asked for. -/
theorem dailies_miss_hidden_captures :
    let path := "cap" ++ String.ofList (List.replicate 4090 '/')
    let place := ["sub", firstOfMay.text ++ ".json"]
    oneDay.Contains firstOfMay ∧
    (sampleArchive.locate path = .ok ["cap"] ∧
      sampleArchive.itemAt? (["cap"] ++ place) = some (.file (some "[\x7b\x7d]")) ∧
      ∀ c ∈ dailies sampleArchive path ["cap"] oneDay, c.place ≠ place) ∧
    shutArchive.locate "cap" = .ok ["cap"] ∧
      shutArchive.itemAt? (["cap"] ++ place) = some (.file (some "[\x7b\x7d]")) ∧
      ∀ c ∈ dailies shutArchive "cap" ["cap"] oneDay, c.place ≠ place := by
  intro path place
  have hnone : dailies sampleArchive path ["cap"] oneDay = [] :=
    dailies_eq_nil_of_long locate_longPath join_longPath_long
  refine ⟨by decide, ⟨locate_longPath, rfl, ?_⟩, rfl, rfl, ?_⟩
  · rw [hnone]
    exact List.forall_mem_nil _
  · rw [dailies_shutArchive]
    exact List.forall_mem_nil _

end CacheActivity.Capture
