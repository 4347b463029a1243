import CacheActivity.Calendar.Text
import CacheActivity.Proofs.Grammar

/-!
# Spellings of dates

The documented spellings of a date are `YYYYMMDD` and `YYYY-MM-DD`, with blanks around them at will
(`Documented`). Each of them is read as its date, and what is not read is named in the fault as it
stands. But more is read than is documented (`Readable`): numbers may be short, have blanks in front
of them, and years may have a sign. `parse_reads_dates` says exactly what counts as a date.
-/

namespace CacheActivity.Calendar.Date

open Json (NoDigit)
open Text (isSpace digitsValue)

variable {limit month day n : Nat} {year z : Int} {d : Date}
  {separator cs ds rest blanks : List Char}

structure Digits (count : Nat) (ds : List Char) : Prop where
  isDigit : ∀ c ∈ ds, c.isDigit = true
  length : ds.length = count

/-- A date in four digits of a year, two of a month and two of a day, with a separator between. -/
inductive InDigits (separator : List Char) : List Char → Date → Prop
  | mk {y m n : List Char} {d : Date} : Digits 4 y → Digits 2 m → Digits 2 n →
      d.year = digitsValue y → d.month = digitsValue m → d.day = digitsValue n →
      InDigits separator (y ++ (separator ++ (m ++ (separator ++ n)))) d

/-- `YYYYMMDD` and `YYYY-MM-DD`. -/
def Documented (cs : List Char) (d : Date) : Prop := InDigits [] cs d ∨ InDigits ['-'] cs d

/-! ## Spellings that are read -/

/-- A number at the front of a text: blanks, and digits up to a limit, as many as there are. -/
inductive Number (limit : Nat) : List Char → Nat → List Char → Prop
  | mk {blanks ds rest : List Char} : (∀ c ∈ blanks, isSpace c = true) →
      (∀ c ∈ ds, c.isDigit = true) → ds ≠ [] → ds.length ≤ limit →
      (ds.length < limit → NoDigit rest) →
      Number limit (blanks ++ (ds ++ rest)) (digitsValue ds) rest

/-- A year at the front of a text: a number of four digits at most, or a sign and all digits. -/
inductive Year : List Char → Int → List Char → Prop
  | plain {cs : List Char} {n : Nat} {rest : List Char} : Number 4 cs n rest → Year cs n rest
  | signed {blanks ds rest : List Char} (negative : Bool) : (∀ c ∈ blanks, isSpace c = true) →
      (∀ c ∈ ds, c.isDigit = true) → ds ≠ [] → NoDigit rest →
      Year (blanks ++ ((if negative then '-' else '+') :: (ds ++ rest)))
        (if negative then -(digitsValue ds : Int) else digitsValue ds) rest

/-- A year, a month and a day with a separator between them. -/
inductive Lax (separator : List Char) : List Char → Date → Prop
  | mk {cs cs' cs'' : List Char} {d : Date} : Year cs d.year (separator ++ cs') →
      Number 2 cs' d.month (separator ++ cs'') → Number 2 cs'' d.day [] → Lax separator cs d

/-- The spellings that are read: a dash anywhere asks for dashes between the numbers, and without
one there have to be eight bytes. -/
def Readable (cs : List Char) (d : Date) : Prop :=
  '-' ∈ cs ∧ Lax ['-'] cs d ∨
    '-' ∉ cs ∧ Text.byteLength cs = compactLength ∧ Lax [] cs d

/-- What a fault says of the spellings that it wanted. -/
def wantedForms : List String := ["YYYYMMDD", "YYYYMMDD or YYYY-MM-DD"]

theorem of?_eq_some_iff : of? year month day = some d ↔
    d.year = year ∧ d.month = month ∧ d.day = day := by
  unfold of?
  constructor
  · intro h
    split at h
    · cases h
      exact ⟨rfl, rfl, rfl⟩
    · cases h
  · rintro ⟨rfl, rfl, rfl⟩
    exact dif_pos ⟨d.year_mem, d.month_mem, d.day_mem⟩

theorem exists_blanks (cs : List Char) :
    ∃ blanks, (∀ c ∈ blanks, isSpace c = true) ∧ cs = blanks ++ Text.trimStart cs :=
  ⟨cs.takeWhile isSpace, fun c hc => List.all_eq_true.1 List.all_takeWhile c hc,
    List.takeWhile_append_dropWhile.symm⟩

theorem trimStart_of_blanks (h : ∀ c ∈ blanks, isSpace c = true) {c : Char}
    (hc : isSpace c = false) (cs : List Char) : Text.trimStart (blanks ++ c :: cs) = c :: cs := by
  rw [Text.trimStart_append_of_forall h, Text.trimStart, List.dropWhile_cons_of_neg (by simp [hc])]

theorem trimStart_of_digits (h : ∀ c ∈ blanks, isSpace c = true)
    (hds : ∀ c ∈ ds, c.isDigit = true) (hne : ds ≠ []) (rest : List Char) :
    Text.trimStart (blanks ++ (ds ++ rest)) = ds ++ rest := by
  cases ds with
  | nil => exact absurd rfl hne
  | cons c ds =>
    exact trimStart_of_blanks h (Json.not_isSpace_of_isDigit (hds c List.mem_cons_self)) _

theorem number?_eq_some_iff : number? cs = some (n, rest) ↔
    ∃ ds, cs = ds ++ rest ∧ (∀ c ∈ ds, c.isDigit = true) ∧ ds ≠ [] ∧ NoDigit rest ∧
      n = digitsValue ds := by
  constructor
  · intro h
    obtain ⟨ds, tail, rfl, hds, htail⟩ := Json.exists_digits cs
    rw [number?, Json.takeWhile_digits hds htail, List.drop_left] at h
    split_ifs at h with hne
    cases h
    exact ⟨ds, rfl, hds, fun he => hne (List.isEmpty_iff.2 he), htail, rfl⟩
  · rintro ⟨ds, rfl, hds, hne, hrest, rfl⟩
    rw [number?, Json.takeWhile_digits hds hrest, List.drop_left,
      if_neg (by rwa [List.isEmpty_iff])]

theorem takeWhile_take (hds : ∀ c ∈ ds, c.isDigit = true) (hle : ds.length ≤ limit)
    (hrest : ds.length < limit → NoDigit rest) :
    ((ds ++ rest).take limit).takeWhile Char.isDigit = ds := by
  obtain ⟨room, rfl⟩ := Nat.exists_eq_add_of_le hle
  rw [List.take_length_add_append]
  refine Json.takeWhile_digits hds fun c hc => ?_
  cases room with
  | zero => cases hc
  | succ room =>
    refine hrest (by omega) c ?_
    rwa [List.head?_take, if_neg (Nat.succ_ne_zero room)] at hc

theorem shortNumber?_eq_some_iff : shortNumber? limit cs = some (n, rest) ↔
    ∃ ds, cs = ds ++ rest ∧ (∀ c ∈ ds, c.isDigit = true) ∧ ds ≠ [] ∧ ds.length ≤ limit ∧
      (ds.length < limit → NoDigit rest) ∧ n = digitsValue ds := by
  constructor
  · intro h
    obtain ⟨ds, tail, rfl, hds, htail⟩ := Json.exists_digits cs
    have hsplit : ds ++ tail = ds.take limit ++ (ds.drop limit ++ tail) := by
      rw [← List.append_assoc, List.take_append_drop]
    have htake : ∀ c ∈ ds.take limit, c.isDigit = true := fun c hc =>
      hds c (List.mem_of_mem_take hc)
    have hlength : (ds.take limit).length ≤ limit := List.length_take_le limit ds
    -- Digits are left behind only where the limit was reached.
    have hstop : (ds.take limit).length < limit → NoDigit (ds.drop limit ++ tail) := by
      intro hlt
      rw [List.length_take] at hlt
      rwa [List.drop_eq_nil_of_le (by omega)]
    rw [hsplit, shortNumber?, takeWhile_take htake hlength hstop, List.drop_left] at h
    split_ifs at h with hne
    cases h
    exact ⟨_, hsplit, htake, fun he => hne (List.isEmpty_iff.2 he), hlength, hstop, rfl⟩
  · rintro ⟨ds, rfl, hds, hne, hle, hstop, rfl⟩
    rw [shortNumber?, takeWhile_take hds hle hstop, List.drop_left,
      if_neg (by rwa [List.isEmpty_iff])]

theorem shortNumber?_trimStart_iff :
    shortNumber? limit (Text.trimStart cs) = some (n, rest) ↔ Number limit cs n rest := by
  rw [shortNumber?_eq_some_iff]
  constructor
  · rintro ⟨ds, htrim, hds, hne, hle, hstop, rfl⟩
    obtain ⟨blanks, hblanks, hcs⟩ := exists_blanks cs
    rw [hcs, htrim]
    exact .mk hblanks hds hne hle hstop
  · rintro ⟨hblanks, hds, hne, hle, hstop⟩
    exact ⟨_, trimStart_of_digits hblanks hds hne _, hds, hne, hle, hstop, rfl⟩

theorem year?_eq_some_iff : year? cs = some (z, rest) ↔ Year cs z rest := by
  constructor
  · intro h
    obtain ⟨blanks, hblanks, hcs⟩ := exists_blanks cs
    unfold year? at h
    split at h
    · rename_i cs' htrim
      obtain ⟨⟨n, _⟩, hnumber, ⟨⟩⟩ := Option.map_eq_some_iff.1 h
      obtain ⟨ds, rfl, hds, hne, hstop, rfl⟩ := number?_eq_some_iff.1 hnumber
      rw [hcs, htrim]
      exact .signed true hblanks hds hne hstop
    · rename_i cs' htrim
      obtain ⟨⟨n, _⟩, hnumber, ⟨⟩⟩ := Option.map_eq_some_iff.1 h
      obtain ⟨ds, rfl, hds, hne, hstop, rfl⟩ := number?_eq_some_iff.1 hnumber
      rw [hcs, htrim]
      exact .signed false hblanks hds hne hstop
    · obtain ⟨⟨n, _⟩, hnumber, ⟨⟩⟩ := Option.map_eq_some_iff.1 h
      exact .plain (shortNumber?_trimStart_iff.1 hnumber)
  · intro h
    cases h with
    | @plain _ n _ hnumber =>
      have hshort := shortNumber?_trimStart_iff.2 hnumber
      have hdigit : ∀ c ∈ (Text.trimStart cs).head?, c.isDigit = true := by
        obtain ⟨ds, htrim, hds, hne, -⟩ := shortNumber?_eq_some_iff.1 hshort
        rw [htrim, List.head?_append_of_ne_nil _ hne]
        exact fun c hc => hds c (List.mem_of_mem_head? hc)
      unfold year?
      split
      · rename_i cs' hsign
        cases hdigit '-' (by rw [hsign]; rfl)
      · rename_i cs' hsign
        cases hdigit '+' (by rw [hsign]; rfl)
      · rw [hshort]
        rfl
    | @signed blanks ds rest negative hblanks hds hne hstop =>
      have hnumber : number? (ds ++ rest) = some (digitsValue ds, rest) :=
        number?_eq_some_iff.2 ⟨ds, rfl, hds, hne, hstop, rfl⟩
      cases negative with
      | true =>
        have htrim := trimStart_of_blanks hblanks (c := '-') rfl (ds ++ rest)
        simp [year?, htrim, hnumber]
      | false =>
        have htrim := trimStart_of_blanks hblanks (c := '+') rfl (ds ++ rest)
        simp [year?, htrim, hnumber]

theorem after?_eq_some_iff : after? separator cs = some rest ↔ cs = separator ++ rest := by
  unfold after?
  constructor
  · intro h
    split_ifs at h with hprefix
    obtain ⟨t, rfl⟩ := List.isPrefixOf_iff_prefix.1 hprefix
    cases h
    rw [List.drop_left]
  · rintro rfl
    rw [if_pos (List.isPrefixOf_iff_prefix.2 (List.prefix_append _ _)), List.drop_left]

theorem readWith?_eq_some_iff : readWith? separator cs = some d ↔ Lax separator cs d := by
  have hsteps : readWith? separator cs = some d ↔ ∃ year cs₁ cs₂ month cs₃ cs₄ day cs₅,
      Year cs year cs₁ ∧ cs₁ = separator ++ cs₂ ∧ Number 2 cs₂ month cs₃ ∧
        cs₃ = separator ++ cs₄ ∧ Number 2 cs₄ day cs₅ ∧ cs₅ = [] ∧
          d.year = year ∧ d.month = month ∧ d.day = day := by
    simp only [readWith?, Option.bind_eq_bind, Option.bind_eq_some_iff, Prod.exists,
      year?_eq_some_iff, after?_eq_some_iff, twoDigits?, shortNumber?_trimStart_iff,
      Option.ite_none_right_eq_some, List.isEmpty_iff, of?_eq_some_iff]
    simp only [← exists_and_left]
  rw [hsteps]
  constructor
  · rintro ⟨_, _, cs₂, _, _, cs₄, _, _, hyear, rfl, hmonth, rfl, hday, rfl, rfl, rfl, rfl⟩
    exact .mk hyear hmonth hday
  · rintro ⟨hyear, hmonth, hday⟩
    exact ⟨_, _, _, _, _, _, _, _, hyear, rfl, hmonth, rfl, hday, rfl, rfl, rfl, rfl⟩

theorem Digits.number {count : Nat} (h : Digits count ds) (hpos : 0 < count) (rest : List Char) :
    Number count (ds ++ rest) (digitsValue ds) rest := by
  show Number count ([] ++ (ds ++ rest)) (digitsValue ds) rest
  refine .mk (List.forall_mem_nil _) h.isDigit ?_ (Nat.le_of_eq h.length) ?_
  · exact List.ne_nil_of_length_pos (h.length ▸ hpos)
  · exact fun hlt => absurd h.length (Nat.ne_of_lt hlt)

theorem utf8Size_of_isDigit {c : Char} (h : c.isDigit = true) : c.utf8Size = 1 := by
  have hle : c.toNat ≤ 57 := (Char.isDigit_iff_toNat.1 h).2
  exact Char.utf8Size_eq_one_iff.2 (UInt32.le_iff_toNat_le.2 (Nat.le_trans hle (by decide)))

theorem InDigits.lax (h : InDigits separator cs d) : Lax separator cs d := by
  obtain @⟨y, m, n, _, hy, hm, hn, hyear, hmonth, hday⟩ := h
  have hyear' := Year.plain (hy.number (by decide) (separator ++ (m ++ (separator ++ n))))
  have hmonth' := hm.number (by decide) (separator ++ n)
  have hday' := hn.number (by decide) []
  rw [← hyear] at hyear'
  rw [← hmonth] at hmonth'
  rw [← hday, List.append_nil] at hday'
  exact .mk hyear' hmonth' hday'

theorem InDigits.length_eq (h : InDigits separator cs d) :
    cs.length = 8 + 2 * separator.length := by
  obtain ⟨hy, hm, hn, -, -, -⟩ := h
  simp only [List.length_append, hy.length, hm.length, hn.length]
  omega

theorem InDigits.isDigit (h : InDigits [] cs d) : ∀ c ∈ cs, c.isDigit = true := by
  obtain ⟨hy, hm, hn, -, -, -⟩ := h
  simp only [List.nil_append, List.forall_mem_append]
  exact ⟨hy.isDigit, hm.isDigit, hn.isDigit⟩

theorem InDigits.dash_not_mem (h : InDigits [] cs d) : '-' ∉ cs := fun hmem => by
  cases h.isDigit '-' hmem

theorem Documented.readable (h : Documented cs d) : Readable cs d := by
  rcases h with h | h
  · have hds := h.isDigit
    refine .inr ⟨h.dash_not_mem, ?_, h.lax⟩
    rw [Text.byteLength_eq_length fun c hc => utf8Size_of_isDigit (hds c hc), h.length_eq]
    rfl
  · refine .inl ⟨?_, h.lax⟩
    obtain ⟨-, -, -, -, -, -⟩ := h
    simp

theorem parse_eq_ok_iff {s : String} : Date.parse s = .ok d ↔ Readable (Text.trim s.toList) d := by
  simp only [Date.parse, Readable, List.contains_iff_mem, ne_eq, ite_not, ← readWith?_eq_some_iff]
  split_ifs with hdash hlength
  · cases readWith? ['-'] (Text.trim s.toList) <;> simp [hdash]
  · cases readWith? [] (Text.trim s.toList) <;> simp [hdash, hlength]
  · simp [hdash, hlength]

theorem parse_eq_error {s : String} {f : Fault} (h : Date.parse s = .error f) :
    ∃ form ∈ wantedForms, f = .date s form := by
  simp only [Date.parse] at h
  split_ifs at h
  · cases hread : readWith? ['-'] (Text.trim s.toList) <;> rw [hread] at h <;> cases h
    exact ⟨_, by simp [wantedForms], rfl⟩
  · cases h
    exact ⟨_, by simp [wantedForms], rfl⟩
  · cases hread : readWith? [] (Text.trim s.toList) <;> rw [hread] at h <;> cases h
    exact ⟨_, by simp [wantedForms], rfl⟩

/-- Blanks around it left out, a text in one of the documented spellings is read as the date that it
spells, and the texts that are read are those with a readable spelling. Any other text is named in
the fault as it stands. -/
theorem parse_reads_dates (s : String) :
    (∀ d, Documented (Text.trim s.toList) d → Date.parse s = .ok d) ∧
    (∀ d, Date.parse s = .ok d ↔ Readable (Text.trim s.toList) d) ∧
    ((∀ d, ¬Readable (Text.trim s.toList) d) →
      ∃ form ∈ wantedForms, Date.parse s = .error (.date s form)) := by
  refine ⟨fun d h => parse_eq_ok_iff.2 h.readable, fun d => parse_eq_ok_iff, fun h => ?_⟩
  cases hparse : Date.parse s with
  | ok d => exact absurd (parse_eq_ok_iff.1 hparse) (h d)
  | error f =>
    obtain ⟨form, hform, rfl⟩ := parse_eq_error hparse
    exact ⟨form, hform, rfl⟩

def leapDay : Date := ⟨2028, 2, 29, by decide, by decide, by decide⟩

theorem parse_reads_dates_of_leap_day :
    Documented "2028-02-29".toList leapDay ∧ Date.parse " 2028-02-29\n" = .ok leapDay ∧
    (∀ d, ¬Readable "yesterday".toList d) ∧
    ∃ form ∈ wantedForms, Date.parse "yesterday" = .error (.date "yesterday" form) := by
  have hyear : Digits 4 ['2', '0', '2', '8'] := ⟨List.all_eq_true.1 rfl, rfl⟩
  have hmonth : Digits 2 ['0', '2'] := ⟨List.all_eq_true.1 rfl, rfl⟩
  have hday : Digits 2 ['2', '9'] := ⟨List.all_eq_true.1 rfl, rfl⟩
  have hdocumented : Documented "2028-02-29".toList leapDay :=
    .inr (.mk hyear hmonth hday rfl rfl rfl)
  have hother : ∀ d, ¬Readable "yesterday".toList d := by
    rintro d (⟨hdash, -⟩ | ⟨-, hlength, -⟩)
    · revert hdash
      decide
    · revert hlength
      decide
  exact ⟨hdocumented, (parse_reads_dates " 2028-02-29\n").1 leapDay hdocumented, hother,
    (parse_reads_dates "yesterday").2.2 hother⟩

/-- A month and a day of one digit are read, which no documented spelling has. -/
theorem parse_of_short_numbers :
    Date.parse "2024-1-5" = .ok ⟨2024, 1, 5, by decide, by decide, by decide⟩ ∧
      ∀ d, ¬Documented (Text.trim "2024-1-5".toList) d := by
  refine ⟨rfl, ?_⟩
  rintro d (h | h)
  · have hdash : '-' ∉ Text.trim "2024-1-5".toList := h.dash_not_mem
    revert hdash
    decide
  · cases h.length_eq

end CacheActivity.Calendar.Date
