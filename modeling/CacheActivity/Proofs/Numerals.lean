import CacheActivity.Json.Numeral

/-!
# Numerals

A numeral is an optional minus, digits without a zero in front of others, an optional fraction and
an optional power of ten (`Numeral`). Which number it stands for is found on its digits alone
(`Numeral.number?`), and there is none where the double that they come to is not finite. Reading a
numeral, whatever ends it, gives that number or complains that it is out of range
(`Numeral.answers`), and whatever is read as a number is a numeral (`numeral_of_readNumber`).
-/

namespace CacheActivity.Json

/-- That a text does not go on with a digit. -/
def NoDigit (cs : List Char) : Prop := ∀ c ∈ cs.head?, c.isDigit = false

section Digits

variable {ds tail : List Char}

theorem exists_digits (cs : List Char) :
    ∃ ds tail, cs = ds ++ tail ∧ (∀ d ∈ ds, d.isDigit = true) ∧ NoDigit tail := by
  refine ⟨cs.takeWhile Char.isDigit, cs.dropWhile Char.isDigit,
    List.takeWhile_append_dropWhile.symm, fun d hd => List.all_eq_true.1 List.all_takeWhile d hd,
    fun c hc => ?_⟩
  have := List.head?_dropWhile_not Char.isDigit cs
  rw [Option.mem_def.1 hc] at this
  simpa using this

theorem absorb_append (limit : Nat) (ds : List Char) (ht : NoDigit tail) (n : Nat) :
    absorb limit n (ds ++ tail) = ((absorb limit n ds).1, (absorb limit n ds).2 ++ tail) := by
  induction ds generalizing n with
  | nil =>
    cases tail with
    | nil => rfl
    | cons c tail =>
      have hc : c.isDigit = false := ht c rfl
      simp [absorb, hc]
  | cons d ds ih =>
    simp only [List.cons_append, absorb]
    split
    · exact ih _
    · rfl

theorem absorb_suffix (limit n : Nat) (ds : List Char) : (absorb limit n ds).2 <:+ ds := by
  induction ds generalizing n with
  | nil => exact List.suffix_refl _
  | cons d ds ih =>
    rw [absorb]
    split
    · exact (ih _).trans (List.suffix_cons d ds)
    · exact List.suffix_refl _

theorem dropWhile_digits (hd : ∀ d ∈ ds, d.isDigit = true) (ht : NoDigit tail) :
    (ds ++ tail).dropWhile Char.isDigit = tail := by
  rw [List.dropWhile_append_of_pos hd]
  cases tail with
  | nil => rfl
  | cons c tail => rw [List.dropWhile_cons_of_neg (by simp [ht c rfl])]

theorem takeWhile_digits (hd : ∀ d ∈ ds, d.isDigit = true) (ht : NoDigit tail) :
    (ds ++ tail).takeWhile Char.isDigit = ds := by
  rw [List.takeWhile_append_of_pos hd]
  cases tail with
  | nil => simp
  | cons c tail => rw [List.takeWhile_cons_of_neg (by simp [ht c rfl]), List.append_nil]

theorem head_digits (hd : ∀ d ∈ ds, d.isDigit = true) (ht : NoDigit tail) :
    ((ds ++ tail).head?.map Char.isDigit).getD false = true ↔ ds ≠ [] := by
  cases ds with
  | nil =>
    cases tail with
    | nil => simp
    | cons c tail => simp [ht c rfl]
  | cons d ds => simp [hd d]

theorem isDigit_of_mem_zeros {zeros n : Nat} :
    ∀ d ∈ List.replicate zeros '0' ++ Nat.toDigits 10 n, d.isDigit = true := by
  intro d hd
  rcases List.mem_append.1 hd with hd | hd
  · rw [List.eq_of_mem_replicate hd]
    decide
  · exact Nat.isDigit_of_mem_toDigits (by decide) (by decide) hd

theorem digitsValue_zeros (zeros n : Nat) :
    Text.digitsValue (List.replicate zeros '0' ++ Nat.toDigits 10 n) = n := by
  have hvalue : ∀ ds, Text.digitsValue ds = Nat.ofDigitChars 10 ds 0 := fun _ =>
    Nat.ofDigitChars_eq_foldl.symm
  rw [hvalue, Nat.ofDigitChars_append, Nat.ofDigitChars_replicate_zero, Nat.mul_zero,
    Nat.ofDigitChars_ten_toDigits]

end Digits

/-- Digits, one at least. -/
structure Digits where
  chars : List Char
  ne_nil : chars ≠ []
  isDigit : ∀ d ∈ chars, d.isDigit = true

/-- The signs that may stand before the digits of a power of ten, and whether they turn it. -/
def powerSigns : List (List Char × Bool) := [([], false), (['+'], false), (['-'], true)]

structure Power where
  mark : Char
  sign : List Char
  downwards : Bool
  digits : Digits
  mark_eq : mark = 'e' ∨ mark = 'E'
  sign_mem : (sign, downwards) ∈ powerSigns

structure Numeral where
  negative : Bool
  whole : Digits
  fraction : Option Digits
  power : Option Power
  zero_alone : whole.chars.head? = some '0' → whole.chars = ['0']

/-- A power of ten behind its mark. -/
def Power.unmarked (e : Power) : List Char := e.sign ++ e.digits.chars

def fractionChars : Option Digits → List Char
  | none => []
  | some ds => '.' :: ds.chars

def powerChars : Option Power → List Char
  | none => []
  | some e => e.mark :: e.unmarked

/-- A numeral behind its sign. -/
def Numeral.unsigned (x : Numeral) : List Char :=
  x.whole.chars ++ (fractionChars x.fraction ++ powerChars x.power)

def Numeral.chars (x : Numeral) : List Char := (if x.negative then ['-'] else []) ++ x.unsigned

/-- The number of a significand and a power of ten, with a further power written behind it. One of
more than 31 bits takes the significand to zero or beyond all doubles. -/
def scaled? (negative : Bool) (significand : Nat) (power : Int) : Option Power → Option Number
  | none => (toDouble? negative significand power).map .double
  | some e =>
    let taken := absorb maxPower 0 e.digits.chars
    if taken.2 = [] then
      (toDouble? negative significand
        (if e.downwards then power - taken.1 else power + taken.1)).map .double
    else if significand ≠ 0 ∧ !e.downwards then none
    else some (.double (.zero negative))

/-- The number of a numeral, or `none` where it is no finite double. The digits are taken into a
significand of 64 bits as long as they fit. Those left of the whole part are counted as powers of
ten, and those left of the fraction make no difference. -/
def Numeral.number? (x : Numeral) : Option Number :=
  let whole := absorb maxSignificand 0 x.whole.chars
  match x.fraction with
  | some ds =>
    let all := absorb maxSignificand whole.1 ds.chars
    scaled? x.negative all.1 (whole.2.length - (ds.chars.length - all.2.length : Nat)) x.power
  | none =>
    if x.power.isNone ∧ whole.2 = [] then some (wholeNumber x.negative whole.1)
    else scaled? x.negative whole.1 whole.2.length x.power

/-- A character that can stand in a numeral. -/
def isNumeric (c : Char) : Bool := c.isDigit || decide (c ∈ ['+', '-', '.', 'e', 'E'])

theorem isNumeric_of_isDigit {c : Char} (h : c.isDigit = true) : isNumeric c = true := by
  simp [isNumeric, h]

/-- That a text does not go on with a numeral. -/
def Stops (cs : List Char) : Prop := ∀ c ∈ cs.head?, isNumeric c = false

theorem Stops.noDigit {cs : List Char} (h : Stops cs) : NoDigit cs := by
  intro c hc
  have := h c hc
  simp only [isNumeric, Bool.or_eq_false_iff] at this
  exact this.1

/-- That a text goes on with the mark of a power of ten. -/
def StartsPower (cs : List Char) : Prop := cs.head? = some 'e' ∨ cs.head? = some 'E'

instance (cs : List Char) : Decidable (StartsPower cs) := inferInstanceAs (Decidable (_ ∨ _))

theorem Stops.not_startsPower {cs : List Char} (h : Stops cs) : ¬StartsPower cs := by
  rintro (he | he)
  · exact absurd (h _ he) (by decide)
  · exact absurd (h _ he) (by decide)

theorem exists_mark {cs : List Char} (h : StartsPower cs) :
    ∃ mark tail, cs = mark :: tail ∧ (mark = 'e' ∨ mark = 'E') := by
  rcases h with he | he <;> obtain ⟨tail, rfl⟩ := List.head?_eq_some_iff.1 he
  · exact ⟨_, tail, rfl, .inl rfl⟩
  · exact ⟨_, tail, rfl, .inr rfl⟩

section Chars

theorem Digits.isNumeric_of_mem (ds : Digits) : ∀ c ∈ ds.chars, isNumeric c = true := fun c hc =>
  isNumeric_of_isDigit (ds.isDigit c hc)

theorem Power.isNumeric_of_mem (e : Power) : ∀ c ∈ e.mark :: e.unmarked, isNumeric c = true := by
  have hmark : isNumeric e.mark = true := by
    rcases e.mark_eq with h | h <;> rw [h] <;> decide
  have hsign : ∀ c ∈ e.sign, isNumeric c = true := by
    have hmem := e.sign_mem
    simp only [powerSigns, List.mem_cons, Prod.mk.injEq, List.not_mem_nil, or_false] at hmem
    rcases hmem with ⟨hs, -⟩ | ⟨hs, -⟩ | ⟨hs, -⟩ <;> rw [hs] <;> exact List.all_eq_true.1 rfl
  exact List.forall_mem_cons.2
    ⟨hmark, List.forall_mem_append.2 ⟨hsign, e.digits.isNumeric_of_mem⟩⟩

theorem Numeral.isNumeric_of_mem (x : Numeral) : ∀ c ∈ x.chars, isNumeric c = true := by
  obtain ⟨negative, whole, fraction, power, -⟩ := x
  refine List.forall_mem_append.2 ⟨?_, List.forall_mem_append.2 ⟨whole.isNumeric_of_mem,
    List.forall_mem_append.2 ⟨?_, ?_⟩⟩⟩
  · cases negative
    · exact List.forall_mem_nil _
    · exact List.forall_mem_singleton.2 (by decide)
  · cases fraction with
    | none => exact List.forall_mem_nil _
    | some ds => exact List.forall_mem_cons.2 ⟨by decide, ds.isNumeric_of_mem⟩
  · cases power with
    | none => exact List.forall_mem_nil _
    | some e => exact e.isNumeric_of_mem

theorem Numeral.exists_head (x : Numeral) : ∃ d t, x.unsigned = d :: t ∧ d.isDigit = true := by
  obtain ⟨d, t, ht⟩ := List.exists_cons_of_ne_nil x.whole.ne_nil
  exact ⟨d, t ++ (fractionChars x.fraction ++ powerChars x.power), by rw [unsigned, ht]; rfl,
    x.whole.isDigit d (ht ▸ List.mem_cons_self)⟩

theorem Digits.exists_last (front : List Char) (ds : Digits) :
    ∃ t d, front ++ ds.chars = t ++ [d] ∧ d.isDigit = true :=
  ⟨front ++ ds.chars.dropLast, ds.chars.getLast ds.ne_nil,
    by rw [List.append_assoc, List.dropLast_concat_getLast],
    ds.isDigit _ (List.getLast_mem ds.ne_nil)⟩

/-- The last character of a numeral is a digit, of whichever part comes last. -/
theorem Numeral.exists_last (x : Numeral) : ∃ t d, x.chars = t ++ [d] ∧ d.isDigit = true := by
  obtain ⟨negative, whole, fraction, power, -⟩ := x
  simp only [chars, unsigned]
  generalize (if negative then ['-'] else []) = sign
  cases power with
  | some e =>
    obtain ⟨t, d, ht, hd⟩ := e.digits.exists_last
      (sign ++ (whole.chars ++ (fractionChars fraction ++ e.mark :: e.sign)))
    exact ⟨t, d, by rw [← ht]; simp [powerChars, Power.unmarked], hd⟩
  | none =>
    cases fraction with
    | some ds =>
      obtain ⟨t, d, ht, hd⟩ := ds.exists_last (sign ++ (whole.chars ++ ['.']))
      exact ⟨t, d, by rw [← ht]; simp [fractionChars, powerChars], hd⟩
    | none =>
      obtain ⟨t, d, ht, hd⟩ := whole.exists_last sign
      exact ⟨t, d, by rw [← ht]; simp [fractionChars, powerChars], hd⟩

end Chars

/-- That a text cannot go on with a numeral that has such a fraction and such a power. -/
structure Ends (fraction : Option Digits) (power : Option Power) (tail : List Char) : Prop where
  noDigit : NoDigit tail
  noPower : power = none → ¬StartsPower tail
  noPoint : fraction = none → power = none → tail.head? ≠ some '.'

/-- That a reader gives the number that there is and stops at a text, or complains that there is
none. -/
def Answers (answer : Except SyntaxError (Number × Cursor)) (number : Option Number)
    (tail : List Char) : Prop :=
  match number with
  | some n => ∃ q, answer = .ok (n, ⟨tail, q⟩)
  | none => ∃ q, answer = .error ⟨.numberOutOfRange, q⟩

section Reading

variable {negative : Bool} {significand dropped : Nat} {power : Int} {n : Number} {c k : Cursor}
  {tail : List Char} {fraction : Option Digits} {e : Option Power}

theorem Stops.ends (h : Stops tail) (fraction : Option Digits) (power : Option Power) :
    Ends fraction power tail :=
  ⟨h.noDigit, fun _ => h.not_startsPower, fun _ _ hpoint => absurd (h _ hpoint) (by decide)⟩

theorem Ends.noDigit_powerChars (h : Ends fraction e tail) : NoDigit (powerChars e ++ tail) := by
  cases e with
  | none => exact h.noDigit
  | some e =>
    rintro _ ⟨⟩
    rcases e.mark_eq with he | he <;> rw [he] <;> decide

theorem Ends.noDigit_fractionChars (h : Ends fraction e tail) :
    NoDigit (fractionChars fraction ++ (powerChars e ++ tail)) := by
  cases fraction with
  | none => exact h.noDigit_powerChars
  | some ds =>
    rintro _ ⟨⟩
    decide

theorem answers_finishDouble (negative : Bool) (significand : Nat) (power : Int)
    (tail : List Char) (p : Position) :
    Answers (finishDouble negative significand power ⟨tail, p⟩)
      ((toDouble? negative significand power).map .double) tail := by
  unfold finishDouble
  cases toDouble? negative significand power with
  | none => exact ⟨p, rfl⟩
  | some x => exact ⟨p, rfl⟩

theorem readPower_eq (negative : Bool) (significand : Nat) (power : Int) {downwards : Bool}
    {sign ds tail : List Char} (hs : (sign, downwards) ∈ powerSigns)
    (hd : ∀ d ∈ ds, d.isDigit = true) (hne : ds ≠ []) (ht : NoDigit tail) (p : Position) :
    ∃ q q', readPower negative significand power ⟨sign ++ ds ++ tail, p⟩ =
      let taken := absorb maxPower 0 ds
      if taken.2 = [] then
        finishDouble negative significand
          (if downwards then power - taken.1 else power + taken.1) ⟨tail, q⟩
      else if significand ≠ 0 ∧ !downwards then .error ⟨.numberOutOfRange, q'⟩
      else .ok (.double (.zero negative), ⟨tail, q⟩) := by
  have hleft := fun d h => hd d ((absorb_suffix maxPower 0 ds).subset h)
  have hrest := dropWhile_digits hleft ht
  have hhead := head_digits hleft ht
  have habsorb := absorb_append maxPower ds ht 0
  obtain ⟨d, ds', rfl⟩ := List.exists_cons_of_ne_nil hne
  have hdig : (!d.isDigit) = false := by simp [hd d List.mem_cons_self]
  have hplus : d ≠ '+' := by rintro rfl; cases hdig
  have hminus : d ≠ '-' := by rintro rfl; cases hdig
  generalize absorb maxPower 0 (d :: ds') = taken at *
  simp only [powerSigns, List.mem_cons, List.not_mem_nil, or_false, Prod.mk.injEq] at hs
  unfold readPower
  rcases hs with ⟨rfl, rfl⟩ | ⟨rfl, rfl⟩ | ⟨rfl, rfl⟩
  all_goals
    simp only [List.nil_append, List.cons_append] at habsorb ⊢
    simp only [hplus, hminus, hdig, habsorb, hhead, hrest, Cursor.jump, Cursor.fail, Cursor.step,
      List.cons.injEq, false_and, Bool.false_eq_true, imp_self, implies_true, if_false]
    by_cases hr : taken.2 = []
    · simp only [hr, List.nil_append, ne_eq, not_true, if_true, if_false]
      exact ⟨_, p, rfl⟩
    · simp only [hr, ne_eq, not_false_eq_true, if_true, if_false]
      exact ⟨_, _, rfl⟩

theorem Power.answers (negative : Bool) (significand : Nat) (power : Int) (e : Power)
    (ht : NoDigit tail) (p : Position) :
    Answers (readPower negative significand power ⟨e.unmarked ++ tail, p⟩)
      (scaled? negative significand power (some e)) tail := by
  obtain ⟨q, q', heq⟩ := readPower_eq negative significand power e.sign_mem e.digits.isDigit
    e.digits.ne_nil ht p
  rw [unmarked, heq, scaled?]
  simp only
  split
  · exact answers_finishDouble _ _ _ tail q
  · split
    · exact ⟨q', rfl⟩
    · exact ⟨q, rfl⟩

def readFractionEnd (negative : Bool) (significand : Nat) (power : Int) : Reader Number := fun c =>
  if StartsPower c.rest then readPower negative significand power c.step
  else finishDouble negative significand power c

theorem answers_readFractionEnd (negative : Bool) (significand : Nat) (power : Int)
    (h : Ends fraction e tail) (p : Position) :
    Answers (readFractionEnd negative significand power ⟨powerChars e ++ tail, p⟩)
      (scaled? negative significand power e) tail := by
  cases e with
  | none =>
    have hread : readFractionEnd negative significand power ⟨tail, p⟩ = _ := if_neg (h.noPower rfl)
    exact hread ▸ answers_finishDouble _ _ _ tail p
  | some e =>
    have hstarts : StartsPower (powerChars (some e) ++ tail) :=
      e.mark_eq.imp (congrArg some ·) (congrArg some ·)
    have hread : readFractionEnd negative significand power ⟨powerChars (some e) ++ tail, p⟩ = _ :=
      if_pos hstarts
    exact hread ▸ e.answers negative significand power h.noDigit _

theorem readFraction_eq (negative : Bool) (significand : Nat) (power : Int)
    {ds tail : List Char} (hd : ∀ d ∈ ds, d.isDigit = true) (hne : ds ≠ []) (ht : NoDigit tail)
    (p : Position) :
    ∃ q, readFraction negative significand power ⟨ds ++ tail, p⟩ =
      let taken := absorb maxSignificand significand ds
      readFractionEnd negative taken.1 (power - (ds.length - taken.2.length : Nat)) ⟨tail, q⟩ := by
  have hlen : ¬tail.length = (ds ++ tail).length := by simpa using hne
  have hrest := dropWhile_digits (fun d h => hd d ((absorb_suffix maxSignificand significand
    ds).subset h)) ht
  have htaken : (ds ++ tail).length - ((absorb maxSignificand significand ds).2 ++ tail).length
      = ds.length - (absorb maxSignificand significand ds).2.length := by
    simp only [List.length_append]
    omega
  unfold readFraction readFractionEnd
  simp only [absorb_append maxSignificand ds ht, hrest, htaken, if_neg hlen, Cursor.jump]
  refine ⟨⟨p.line, p.column + ((ds ++ tail).length - tail.length)⟩, ?_⟩
  split
  · rw [if_pos (.inl rfl)]
  · rw [if_pos (.inr rfl)]
  · rename_i he hE
    rw [if_neg]
    intro h
    obtain ⟨mark, ys, rfl, rfl | rfl⟩ := exists_mark h
    · exact he ys rfl
    · exact hE ys rfl

theorem readTail_eq (negative : Bool) (significand dropped : Nat) {c : Cursor}
    (hpoint : c.rest.head? ≠ some '.') (hpower : ¬StartsPower c.rest) :
    readTail negative significand dropped c =
      if dropped = 0 then .ok (wholeNumber negative significand, c)
      else finishDouble negative significand dropped c := by
  obtain ⟨cs, p⟩ := c
  unfold readTail
  split
  · exact absurd (congrArg List.head? ‹_›) hpoint
  · exact absurd (.inl (congrArg List.head? ‹_›)) hpower
  · exact absurd (.inr (congrArg List.head? ‹_›)) hpower
  · rfl

theorem readTail_mark (negative : Bool) (significand dropped : Nat) {mark : Char}
    (h : mark = 'e' ∨ mark = 'E') (cs : List Char) (p : Position) :
    readTail negative significand dropped ⟨mark :: cs, p⟩ =
      readPower negative significand dropped ⟨cs, p.past mark⟩ := by
  rcases h with rfl | rfl <;> rfl

theorem Numeral.answers_readTail (x : Numeral) (h : Ends x.fraction x.power tail) (p : Position) :
    let whole := absorb maxSignificand 0 x.whole.chars
    Answers (readTail x.negative whole.1 whole.2.length
      ⟨fractionChars x.fraction ++ (powerChars x.power ++ tail), p⟩) x.number? tail := by
  obtain ⟨negative, whole, fraction, e, hzero⟩ := x
  replace h : Ends fraction e tail := h
  simp only [number?]
  generalize absorb maxSignificand 0 whole.chars = taken
  cases fraction with
  | some ds =>
    obtain ⟨q, heq⟩ := readFraction_eq negative taken.1 taken.2.length ds.isDigit ds.ne_nil
      h.noDigit_powerChars (p.past '.')
    have hread : readTail negative taken.1 taken.2.length
        ⟨fractionChars (some ds) ++ (powerChars e ++ tail), p⟩ = _ := heq
    rw [hread]
    exact answers_readFractionEnd _ _ _ h q
  | none =>
    cases e with
    | some e =>
      rw [if_neg (by simp)]
      have hread :=
        readTail_mark negative taken.1 taken.2.length e.mark_eq (e.unmarked ++ tail) p
      have hanswers := e.answers negative taken.1 taken.2.length h.noDigit (p.past e.mark)
      exact hread ▸ hanswers
    | none =>
      have hread := readTail_eq negative taken.1 taken.2.length (c := ⟨tail, p⟩)
        (h.noPoint rfl rfl) (h.noPower rfl)
      simp only [fractionChars, powerChars, List.nil_append, hread, List.length_eq_zero_iff,
        Option.isNone_none, true_and]
      split
      · exact ⟨p, rfl⟩
      · exact answers_finishDouble _ _ _ tail p

theorem readNumber_zero (negative : Bool) {tail : List Char} (ht : NoDigit tail) (p : Position) :
    ∃ q, readNumber negative ⟨'0' :: tail, p⟩ = readTail negative 0 0 ⟨tail, q⟩ := by
  have hhead := head_digits (List.forall_mem_nil _) ht
  simp only [List.nil_append, ne_eq, not_true, iff_false] at hhead
  exact ⟨_, if_neg hhead⟩

theorem readNumber_eq (negative : Bool) {ds tail : List Char} (hd : ∀ d ∈ ds, d.isDigit = true)
    (hne : ds ≠ []) (hzero : ds.head? ≠ some '0') (ht : NoDigit tail) (p : Position) :
    ∃ q, readNumber negative ⟨ds ++ tail, p⟩ =
      let taken := absorb maxSignificand 0 ds
      readTail negative taken.1 taken.2.length ⟨tail, q⟩ := by
  have hleft := fun d h => hd d ((absorb_suffix maxSignificand 0 ds).subset h)
  have habsorb := absorb_append maxSignificand ds ht 0
  have htake := takeWhile_digits hleft ht
  obtain ⟨d, ds', rfl⟩ := List.exists_cons_of_ne_nil hne
  have hdig : (!d.isDigit) = false := by simp [hd d List.mem_cons_self]
  unfold readNumber
  split
  · rename_i h
    cases h
  · rename_i h
    exact absurd (by rw [(List.cons.inj h).1]; rfl) hzero
  · rename_i d' cs _ h
    obtain ⟨rfl, rfl⟩ := List.cons.inj h
    simp only [hdig, Bool.false_eq_true, if_false, habsorb, htake, List.drop_left, Cursor.jump]
    exact ⟨_, rfl⟩

/-- Reading a numeral gives its number, or complains that it has none. -/
theorem Numeral.answers (x : Numeral) (h : Ends x.fraction x.power tail) (p : Position) :
    Answers (readNumber x.negative ⟨x.unsigned ++ tail, p⟩) x.number? tail := by
  have htail := h.noDigit_fractionChars
  suffices ∃ q, readNumber x.negative ⟨x.unsigned ++ tail, p⟩ =
      let whole := absorb maxSignificand 0 x.whole.chars
      readTail x.negative whole.1 whole.2.length
        ⟨fractionChars x.fraction ++ (powerChars x.power ++ tail), q⟩ by
    obtain ⟨q, heq⟩ := this
    exact heq ▸ x.answers_readTail h q
  rw [unsigned, List.append_assoc, List.append_assoc]
  by_cases hzero : x.whole.chars.head? = some '0'
  · rw [x.zero_alone hzero]
    exact readNumber_zero x.negative htail p
  · exact readNumber_eq x.negative x.whole.isDigit x.whole.ne_nil hzero htail p

theorem exists_digits_of_readPower (h : readPower negative significand power c = .ok (n, k)) :
    ∃ sign downwards ds tail, (sign, downwards) ∈ powerSigns ∧ c.rest = sign ++ ds ++ tail ∧
      (∀ d ∈ ds, d.isDigit = true) ∧ ds ≠ [] ∧ NoDigit tail := by
  obtain ⟨cs, p⟩ := c
  unfold readPower at h
  simp only at h
  split at h
  · cases h
  · rename_i d cs' hcs
    split at h
    · cases h
    · rename_i hd
      obtain ⟨ds, tail, hsplit, hdigits, ht⟩ := exists_digits (d :: cs')
      have hne : ds ≠ [] := by
        rintro rfl
        rw [List.nil_append] at hsplit
        subst hsplit
        simp [ht d rfl] at hd
      split at hcs
      · simp only [Cursor.step] at hcs
        exact ⟨['+'], false, ds, tail, by simp [powerSigns], by simp [hcs, hsplit], hdigits, hne,
          ht⟩
      · simp only [Cursor.step] at hcs
        exact ⟨['-'], true, ds, tail, by simp [powerSigns], by simp [hcs, hsplit], hdigits, hne,
          ht⟩
      · exact ⟨[], false, ds, tail, by simp [powerSigns], by simp [← hsplit, ← hcs], hdigits, hne,
          ht⟩

theorem exists_power {mark : Char} (hmark : mark = 'e' ∨ mark = 'E')
    (h : readPower negative significand power c = .ok (n, k)) :
    ∃ e tail, mark :: c.rest = powerChars (some e) ++ tail ∧ NoDigit tail := by
  obtain ⟨sign, downwards, ds, tail, hs, hrest, hd, hne, ht⟩ := exists_digits_of_readPower h
  exact ⟨⟨mark, sign, downwards, ⟨ds, hne, hd⟩, hmark, hs⟩, tail, congrArg (mark :: ·) hrest, ht⟩

theorem exists_digits_of_readFraction
    (h : readFraction negative significand power c = .ok (n, k)) :
    ∃ ds tail, c.rest = ds ++ tail ∧ (∀ d ∈ ds, d.isDigit = true) ∧ ds ≠ [] ∧ NoDigit tail := by
  obtain ⟨ds, tail, hrest, hd, ht⟩ := exists_digits c.rest
  refine ⟨ds, tail, hrest, hd, ?_, ht⟩
  obtain ⟨cs, p⟩ := c
  subst hrest
  rintro rfl
  have habsorb := absorb_append maxSignificand [] ht significand
  have hdrop := dropWhile_digits (List.forall_mem_nil _) ht
  simp only [List.nil_append] at habsorb hdrop
  simp [readFraction, habsorb, absorb, hdrop, Cursor.failNext] at h

/-- What is read behind the whole part is a fraction and a power, if any. -/
theorem exists_ends (ht : NoDigit c.rest)
    (h : readTail negative significand dropped c = .ok (n, k)) :
    ∃ fraction e tail, c.rest = fractionChars fraction ++ (powerChars e ++ tail) ∧
      Ends fraction e tail := by
  obtain ⟨cs, p⟩ := c
  by_cases hpoint : cs.head? = some '.'
  · obtain ⟨cs, rfl⟩ := List.head?_eq_some_iff.1 hpoint
    obtain ⟨ds, tail, rfl, hd, hne, htail⟩ := exists_digits_of_readFraction
      (c := ⟨cs, p.past '.'⟩) h
    obtain ⟨q, heq⟩ := readFraction_eq negative significand dropped hd hne htail (p.past '.')
    have hend := heq.symm.trans h
    by_cases hpower : StartsPower tail
    · obtain ⟨mark, cs, rfl, hmark⟩ := exists_mark hpower
      rw [readFractionEnd, if_pos hpower] at hend
      obtain ⟨e, tail, hcs, htail⟩ := exists_power hmark hend
      exact ⟨some ⟨ds, hne, hd⟩, some e, tail, congrArg (fun cs => '.' :: (ds ++ cs)) hcs, htail,
        nofun, nofun⟩
    · exact ⟨some ⟨ds, hne, hd⟩, none, tail, rfl, htail, fun _ => hpower, nofun⟩
  · by_cases hpower : StartsPower cs
    · obtain ⟨mark, cs, rfl, hmark⟩ := exists_mark hpower
      rw [readTail_mark _ _ _ hmark] at h
      obtain ⟨e, tail, hcs, htail⟩ := exists_power hmark h
      exact ⟨none, some e, tail, hcs, htail, nofun, nofun⟩
    · exact ⟨none, none, cs, rfl, ht, fun _ => hpower, fun _ _ => hpoint⟩

theorem exists_digit_of_readNumber (h : readNumber negative c = .ok (n, k)) :
    ∃ d cs, c.rest = d :: cs ∧ d.isDigit = true := by
  unfold readNumber at h
  split at h
  · cases h
  · exact ⟨_, _, ‹_›, by decide⟩
  · split at h
    · cases h
    · rename_i hd
      exact ⟨_, _, ‹_›, by simpa using hd⟩

/-- What is read as a number starts with digits, a zero alone, and something may follow them. -/
theorem exists_whole (h : readNumber negative c = .ok (n, k)) :
    ∃ (whole : Digits) (tail : List Char), c.rest = whole.chars ++ tail ∧ NoDigit tail ∧
      (whole.chars.head? = some '0' → whole.chars = ['0']) ∧
      ∃ significand dropped q, readTail negative significand dropped ⟨tail, q⟩ = .ok (n, k) := by
  obtain ⟨cs, p⟩ := c
  by_cases hzero : cs.head? = some '0'
  · obtain ⟨tail, rfl⟩ := List.head?_eq_some_iff.1 hzero
    have ht : NoDigit tail := by
      intro c hc
      rw [readNumber] at h
      simp only [Option.mem_def.1 hc, Option.map_some, Option.getD_some] at h
      split at h
      · cases h
      · simp_all
    obtain ⟨q, heq⟩ := readNumber_zero negative ht p
    exact ⟨⟨['0'], List.cons_ne_nil _ _, List.forall_mem_singleton.2 (by decide)⟩, tail, rfl, ht,
      fun _ => rfl, 0, 0, q, heq.symm.trans h⟩
  · obtain ⟨ds, tail, rfl, hd, ht⟩ := exists_digits cs
    have hne : ds ≠ [] := by
      rintro rfl
      obtain ⟨d, cs, rfl, hdigit⟩ := exists_digit_of_readNumber h
      rw [ht d rfl] at hdigit
      cases hdigit
    have hhead : ds.head? ≠ some '0' := fun he =>
      hzero (by rw [List.head?_append, he, Option.some_or])
    obtain ⟨q, heq⟩ := readNumber_eq negative hd hne hhead ht p
    exact ⟨⟨ds, hne, hd⟩, tail, rfl, ht, fun h => absurd h hhead, _, _, q, heq.symm.trans h⟩

/-- What is read as a number is a numeral that has it. -/
theorem numeral_of_readNumber (h : readNumber negative c = .ok (n, k)) :
    ∃ x : Numeral, x.negative = negative ∧ c.rest = x.unsigned ++ k.rest ∧
      x.number? = some n := by
  obtain ⟨whole, tail, hrest, ht, hzero, _, _, q, htail⟩ := exists_whole h
  obtain ⟨fraction, e, tail, rfl, hends⟩ := exists_ends (c := ⟨_, q⟩) ht htail
  obtain ⟨cs, p⟩ := c
  let x : Numeral := ⟨negative, whole, fraction, e, hzero⟩
  have hcs : cs = x.unsigned ++ tail := by
    rw [show cs = _ from hrest, Numeral.unsigned, List.append_assoc, List.append_assoc]
  have hanswers := x.answers hends p
  subst hcs
  cases hnumber : x.number? with
  | none =>
    rw [hnumber] at hanswers
    obtain ⟨_, herror⟩ := hanswers
    cases herror.symm.trans h
  | some m =>
    rw [hnumber] at hanswers
    obtain ⟨_, hok⟩ := hanswers
    cases hok.symm.trans h
    exact ⟨x, rfl, rfl, hnumber⟩

end Reading

end CacheActivity.Json
