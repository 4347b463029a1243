import CacheActivity.Proofs.DailyFetch

/-!
# Windows in parts

Windows that lie one behind another can have the dates of one window between them (`Tiles`): two
windows that meet between two days, or the single days of a window. Captures are in the order of
their dates first, so those of the whole window are those of its parts, one part after the other
(`dailies_of_tiles`), and fetching for the window is fetching for each of the parts
(`fetch_of_tiles`).
-/

namespace CacheActivity.Calendar.Window

/-- That windows lie one behind another, and that their dates are those of one window. -/
structure Tiles (tiles : List Window) (w : Window) : Prop where
  apart : tiles.Pairwise fun u v => u.last < v.first
  contains_iff : ∀ date, w.Contains date ↔ ∃ v ∈ tiles, v.Contains date

variable {w : Window}

theorem tiles_pair {front back : Window} (hfirst : w.first = front.first)
    (hlast : w.last = back.last) (hnext : back.first.dayNumber = front.last.dayNumber + 1) :
    Tiles [front, back] w := by
  have hfront := front.ordered
  have hback := back.ordered
  refine ⟨List.pairwise_pair.2 ?_, fun date => ?_⟩
  · rw [Date.lt_def]
    omega
  · simp only [List.mem_cons, List.not_mem_nil, or_false, exists_eq_or_imp, exists_eq_left,
      Contains, Date.le_def, hfirst, hlast] at *
    omega

theorem ofDates_eq_ok {a b : Date} (h : a ≤ b) : ofDates a b = .ok ⟨a, b, h⟩ := dif_pos h

def ofDay (date : Date) : Window := ⟨date, date, Date.le_refl date⟩

def days (w : Window) : List Date :=
  (List.range (w.span.toNat + 1)).filterMap fun n : Nat =>
    Date.ofDayNumber? (w.first.dayNumber + n)

theorem contains_ofDay {day date : Date} : (ofDay day).Contains date ↔ date = day := by
  rw [← Date.dayNumber_inj]
  simp only [Contains, ofDay, Date.le_def]
  omega

theorem mem_days {date : Date} : date ∈ w.days ↔ w.Contains date := by
  have hordered := w.ordered
  simp only [days, List.mem_filterMap, List.mem_range, Date.ofDayNumber?_eq_some_iff, Contains,
    span, Date.le_def] at *
  constructor
  · rintro ⟨n, hn, hdate⟩
    omega
  · intro h
    exact ⟨(date.dayNumber - w.first.dayNumber).toNat, by omega, by omega⟩

theorem pairwise_days (w : Window) : w.days.Pairwise (· < ·) := by
  refine List.Pairwise.filterMap _ ?_ List.pairwise_lt_range
  intro m n hmn a ha b hb
  rw [Date.ofDayNumber?_eq_some_iff] at ha hb
  rw [Date.lt_def]
  omega

theorem tiles_days (w : Window) : Tiles (w.days.map ofDay) w := by
  refine ⟨List.pairwise_map.2 (pairwise_days w), fun date => ?_⟩
  simp only [List.mem_map, exists_exists_and_eq_and, contains_ofDay, exists_eq_right', mem_days]

end CacheActivity.Calendar.Window

namespace CacheActivity.Capture

open Calendar (Date Window)
open Files (Disk Place)
open Usage (Row)

variable {d : Disk} {path : String} {root : Place} {w : Window} {tiles : List Window}

theorem dailies_of_tiles (h : d.locate path = .ok root) (ht : Window.Tiles tiles w) :
    dailies d path root w = tiles.flatMap (dailies d path root) := by
  refine Daily.eq_of_pairwise_before (pairwise_dailies ..) ?_ fun c => ?_
  · rw [List.pairwise_flatMap]
    -- Between parts the date alone decides, whatever the paths are.
    refine ⟨fun v _ => pairwise_dailies .., ht.apart.imp fun {u v} huv a ha b hb => .inl ?_⟩
    have hu := ((mem_dailies h).1 ha).1.isFor.contained.2
    have hv := ((mem_dailies h).1 hb).1.isFor.contained.1
    simp only [Date.le_def, Date.lt_def] at *
    omega
  · simp only [List.mem_flatMap, mem_dailies h]
    constructor
    · rintro ⟨hc, hway⟩
      obtain ⟨v, hv, hdate⟩ := (ht.contains_iff _).1 hc.isFor.contained
      exact ⟨v, hv, ⟨⟨hc.isFor.named, hdate⟩, hc.isFile⟩, hway⟩
    · rintro ⟨v, hv, hc, hway⟩
      have hdate := (ht.contains_iff _).2 ⟨v, hv, hc.isFor.contained⟩
      exact ⟨⟨⟨hc.isFor.named, hdate⟩, hc.isFile⟩, hway⟩

section Fetching

variable (hpath : d.locate path = .ok root) {access : Files.Access}
  (hfolder : d.itemAt? root = some (.folder access))
include hpath hfolder

theorem fetch_of_tiles (ht : Window.Tiles tiles w) :
    fetch d path w = List.flatten <$> tiles.mapM (fetch d path) := by
  have hfetch : fetch d path = fun v => List.flatten <$>
      (dailies d path root v).mapM fun c => fetchFile d (c.path path) :=
    funext fun v => fetch_of_folder hpath hfolder
  rw [fetch_of_folder hpath hfolder, dailies_of_tiles hpath ht, hfetch]
  exact flatten_mapM_flatMap ..

theorem fetch_eq_ok_iff_of_pair {front back : Window} (ht : Window.Tiles [front, back] w)
    {rows : List Row} : fetch d path w = .ok rows ↔ ∃ xs ys,
      fetch d path front = .ok xs ∧ fetch d path back = .ok ys ∧ rows = xs ++ ys := by
  rw [fetch_of_tiles hpath hfolder ht, flatten_mapM_eq_ok_iff]
  simp only [List.forall₂_cons_left_iff, List.forall₂_nil_left_iff]
  constructor
  · rintro ⟨_, ⟨xs, _, hxs, ⟨ys, _, hys, rfl, rfl⟩, rfl⟩, rfl⟩
    exact ⟨xs, ys, hxs, hys, by simp⟩
  · rintro ⟨xs, ys, hxs, hys, rfl⟩
    exact ⟨_, ⟨xs, _, hxs, ⟨ys, _, hys, rfl, rfl⟩, rfl⟩, by simp⟩

/-- Fetching for a window that is cut between two days is fetching for both parts, and the rows of
the second part come behind those of the first. So the rows of any window are those of its days, one
day after the other. -/
theorem fetch_splits :
    (∀ a b c : Date, a ≤ b → b < c → ∃ next whole front back,
      next.dayNumber = b.dayNumber + 1 ∧ Window.ofDates a c = .ok whole ∧
        Window.ofDates a b = .ok front ∧ Window.ofDates next c = .ok back ∧
        ∀ rows, fetch d path whole = .ok rows ↔ ∃ xs ys,
          fetch d path front = .ok xs ∧ fetch d path back = .ok ys ∧ rows = xs ++ ys) ∧
    ∀ w : Window, (w.days.Pairwise (· < ·) ∧ ∀ date, date ∈ w.days ↔ w.Contains date) ∧
      ∀ rows, fetch d path w = .ok rows ↔
        ∃ parts, List.Forall₂ (fun day part => fetch d path (.ofDay day) = .ok part) w.days parts ∧
          rows = parts.flatten := by
  refine ⟨fun a b c hab hbc => ?_, fun w => ⟨⟨w.pairwise_days, fun _ => Window.mem_days⟩, ?_⟩⟩
  · simp only [Date.lt_def] at hbc
    obtain ⟨next, hnext⟩ := Date.exists_dayNumber_eq
      (show b.dayNumber ≤ b.dayNumber + 1 by omega) (show b.dayNumber + 1 ≤ c.dayNumber by omega)
    have hac : a ≤ c := Date.le_trans hab (Date.le_def.2 (by omega))
    have hrest : next ≤ c := Date.le_def.2 (by omega)
    have htiles : Window.Tiles [⟨a, b, hab⟩, ⟨next, c, hrest⟩] ⟨a, c, hac⟩ :=
      Window.tiles_pair rfl rfl hnext
    exact ⟨next, _, _, _, hnext, Window.ofDates_eq_ok hac, Window.ofDates_eq_ok hab,
      Window.ofDates_eq_ok hrest, fun rows => fetch_eq_ok_iff_of_pair hpath hfolder htiles⟩
  · intro rows
    rw [fetch_of_tiles hpath hfolder w.tiles_days, flatten_mapM_eq_ok_iff]
    simp only [List.forall₂_map_left_iff]

end Fetching

def rowOf (key : String) : Row := { Row.empty with apiKey := key }

def secondOfMay : Date := { firstOfMay with day := 2, day_mem := by decide }

/-- Two captures of one day, and one of the next day whose path comes first. -/
def twoDays : Disk :=
  ⟨[], [(["cap"], .folder .full), (["cap", "a"], .folder .full), (["cap", "y"], .folder .full),
    (["cap", "z"], .folder .full),
    (["cap", "y", "2024-05-01.json"], .file (some "[\x7b\"api_key\":\"k1\"\x7d]")),
    (["cap", "z", "2024-05-01.json"], .file (some "[\x7b\"api_key\":\"k2\"\x7d]")),
    (["cap", "a", "2024-05-02.json"], .file (some "[\x7b\"api_key\":\"k3\"\x7d]"))],
    by decide, by decide⟩

theorem locate_twoDays : twoDays.locate "cap" = .ok ["cap"] := rfl

theorem fetch_firstOfMay :
    fetch twoDays "cap" (.ofDay firstOfMay) = .ok [rowOf "k1", rowOf "k2"] := by
  have hfound : (((twoDays.filesUnder ["cap"]).filter
      (twoDays.opensDownTo "cap")).filterMap Daily.ofPlace?).filter
        (fun c => decide ((Window.ofDay firstOfMay).Contains c.date)) =
      [⟨firstOfMay, ["y", "2024-05-01.json"]⟩, ⟨firstOfMay, ["z", "2024-05-01.json"]⟩] := by rfl
  rw [fetch_of_folder locate_twoDays rfl, dailies, hfound,
    List.mergeSort_of_pairwise (List.pairwise_pair.2 (by decide))]
  rfl

theorem fetch_secondOfMay : fetch twoDays "cap" (.ofDay secondOfMay) = .ok [rowOf "k3"] := by
  have hfound : (((twoDays.filesUnder ["cap"]).filter
      (twoDays.opensDownTo "cap")).filterMap Daily.ofPlace?).filter
        (fun c => decide ((Window.ofDay secondOfMay).Contains c.date)) =
      [⟨secondOfMay, ["a", "2024-05-02.json"]⟩] := by rfl
  rw [fetch_of_folder locate_twoDays rfl, dailies, hfound,
    List.mergeSort_singleton]
  rfl

/-- The window is cut behind a day with two captures. -/
theorem fetch_splits_of_two_days :
    twoDays.locate "cap" = .ok ["cap"] ∧ twoDays.itemAt? ["cap"] = some (.folder .full) ∧
      firstOfMay < secondOfMay ∧
      fetch twoDays "cap" ⟨firstOfMay, secondOfMay, by decide⟩ =
        .ok [rowOf "k1", rowOf "k2", rowOf "k3"] := by
  have hfolder : twoDays.itemAt? ["cap"] = some (.folder .full) := rfl
  obtain ⟨next, whole, front, back, hnext, hwhole, hfront, hback, hrows⟩ :=
    (fetch_splits locate_twoDays hfolder).1 firstOfMay firstOfMay secondOfMay (Date.le_refl _)
      (by decide)
  obtain rfl : next = secondOfMay := Date.dayNumber_inj.1 hnext
  cases hwhole
  cases hfront
  cases hback
  exact ⟨locate_twoDays, hfolder, by decide,
    (hrows _).2 ⟨_, _, fetch_firstOfMay, fetch_secondOfMay, rfl⟩⟩

end CacheActivity.Capture
