import CacheActivity.Json.Quoted
import CacheActivity.Proofs.Attempts

/-!
# What quoted texts stand for

`Quoted t s` says that the characters `t` between two quotes stand for the text `s`, by the letters
and the UTF-16 units that escapes are made of. Not all that can be written so stands for a text,
since half of a pair of units alone stands for no character (`Inside`). Reading a quoted text goes
up to the quote that ends it and finds what its characters stand for (`quoted_of_readText`,
`readText_of_quoted`), and a text that is written in quotes stands for itself (`quoted_escape`).
-/

namespace CacheActivity.Json

/-- The letters behind a backslash, and what they stand for. -/
def escapeLetters : List (Char × Char) :=
  [('"', '"'), ('\\', '\\'), ('/', '/'), ('b', '\x08'), ('f', '\x0c'), ('n', '\n'), ('r', '\r'),
    ('t', '\t')]

/-- The hexadecimal digits and their values. -/
def hexDigits : List (Char × Nat) :=
  "0123456789".toList.zipIdx ++ ("abcdef".toList.zipIdx 10 ++ "ABCDEF".toList.zipIdx 10)

/-- Four hexadecimal digits and the number that they stand for. -/
inductive HexUnit : List Char → Nat → Prop
  | digits {a b c d : Char} {i j k l : Nat} : (a, i) ∈ hexDigits → (b, j) ∈ hexDigits →
      (c, k) ∈ hexDigits → (d, l) ∈ hexDigits →
      HexUnit [a, b, c, d] (4096 * i + 256 * j + 16 * k + l)

/-- The characters behind a backslash that stand for a character: a letter, the number of the
character, or two halves of its number. -/
inductive Escape : List Char → Char → Prop
  | letter {e ch : Char} : (e, ch) ∈ escapeLetters → Escape [e] ch
  | unit {u : List Char} {ch : Char} : HexUnit u ch.toNat → Escape ('u' :: u) ch
  | pair {u u' : List Char} {high low : Nat} {ch : Char} : HexUnit u (0xD800 + high) →
      HexUnit u' (0xDC00 + low) → high < 0x400 → low < 0x400 →
      ch.toNat = 0x10000 + high * 0x400 + low → Escape ('u' :: u ++ '\\' :: 'u' :: u') ch

/-- The characters between two quotes that stand for a text. -/
inductive Quoted : List Char → List Char → Prop
  | nil : Quoted [] []
  | plain {c : Char} {t s : List Char} : c ≠ '"' → c ≠ '\\' → ¬c < ' ' → Quoted t s →
      Quoted (c :: t) (c :: s)
  | escape {c : Char} {e t s : List Char} : Escape e c → Quoted t s →
      Quoted ('\\' :: e ++ t) (c :: s)

/-- The characters behind a backslash, whether or not they stand for a character. -/
inductive IsEscape : List Char → Prop
  | letter {e ch : Char} : (e, ch) ∈ escapeLetters → IsEscape [e]
  | unit {u : List Char} {n : Nat} : HexUnit u n → IsEscape ('u' :: u)

/-- The characters between two quotes, with escapes of some kind. -/
inductive Inside (escape : List Char → Prop) : List Char → Prop
  | nil : Inside escape []
  | plain {c : Char} {t : List Char} : c ≠ '"' → c ≠ '\\' → ¬c < ' ' → Inside escape t →
      Inside escape (c :: t)
  | escape {e t : List Char} : escape e → Inside escape t → Inside escape ('\\' :: e ++ t)

theorem exists_quoted_iff {t : List Char} :
    (∃ s, Quoted t s) ↔ Inside (fun e => ∃ ch, Escape e ch) t := by
  constructor
  · rintro ⟨s, h⟩
    induction h with
    | nil => exact .nil
    | plain hquote hslash hspace _ ih => exact .plain hquote hslash hspace ih
    | escape he _ ih => exact .escape ⟨_, he⟩ ih
  · intro h
    induction h with
    | nil => exact ⟨[], .nil⟩
    | plain hquote hslash hspace _ ih =>
      obtain ⟨s, hs⟩ := ih
      exact ⟨_, .plain hquote hslash hspace hs⟩
    | escape he _ ih =>
      obtain ⟨ch, hch⟩ := he
      obtain ⟨s, hs⟩ := ih
      exact ⟨_, .escape hch hs⟩

/-- The two halves of a number are two escapes. -/
theorem Quoted.inside {t s : List Char} (h : Quoted t s) : Inside IsEscape t := by
  induction h with
  | nil => exact .nil
  | plain hquote hslash hspace _ ih => exact .plain hquote hslash hspace ih
  | escape he _ ih =>
    cases he with
    | letter he => exact .escape (.letter he) ih
    | unit hu => exact .escape (.unit hu) ih
    | pair hu hu' =>
      have hboth := Inside.escape (IsEscape.unit hu) (Inside.escape (IsEscape.unit hu') ih)
      simpa using hboth

section Units

variable {u : List Char} {c d e ch : Char} {n v : Nat}

theorem unescape?_eq_some_iff : unescape? e = some ch ↔ (e, ch) ∈ escapeLetters := by
  unfold unescape? escapeLetters
  split <;> simp_all [eq_comm]

theorem toNat_lt_of_le (h : c ≤ d) (hd : d.toNat < 128) : c.toNat < 128 :=
  Nat.lt_of_le_of_lt (UInt32.le_iff_toNat_le.1 h) hd

theorem toNat_lt_of_hexValue (h : (Text.hexValue? c).isSome) : c.toNat < 128 := by
  unfold Text.hexValue? at h
  split at h
  · rename_i hdigit
    simp only [Char.isDigit, Bool.and_eq_true, decide_eq_true_eq] at hdigit
    exact toNat_lt_of_le (d := '9') hdigit.2 (by decide)
  · split at h
    · exact toNat_lt_of_le (And.right ‹_›) (by decide)
    · split at h
      · exact toNat_lt_of_le (And.right ‹_›) (by decide)
      · cases h

theorem hexValue?_eq_some_iff : Text.hexValue? c = some v ↔ (c, v) ∈ hexDigits := by
  have htable : ∀ n < 128, ∀ v ∈ Text.hexValue? (Char.ofNat n), (Char.ofNat n, v) ∈ hexDigits := by
    decide
  have hvalues : ∀ d ∈ hexDigits, Text.hexValue? d.1 = some d.2 := by decide
  refine ⟨fun h => ?_, hvalues (c, v)⟩
  have hmem := htable c.toNat (toNat_lt_of_hexValue (h ▸ rfl)) v
  rw [Char.ofNat_toNat] at hmem
  exact hmem h

theorem hexUnit?_eq_some_iff : hexUnit? u = some n ↔ HexUnit u n := by
  constructor
  · intro h
    unfold hexUnit? at h
    split at h
    · rename_i a b c d
      simp only [bind, Option.bind_eq_some_iff, hexValue?_eq_some_iff, pure, Option.some.injEq] at h
      obtain ⟨i, ha, j, hb, k, hc, l, hd, hn⟩ := h
      have hvalue : n = 4096 * i + 256 * j + 16 * k + l := by omega
      exact hvalue ▸ .digits ha hb hc hd
    · cases h
  · rintro ⟨ha, hb, hc, hd⟩
    simp only [hexUnit?, hexValue?_eq_some_iff.2 ha, hexValue?_eq_some_iff.2 hb,
      hexValue?_eq_some_iff.2 hc, hexValue?_eq_some_iff.2 hd, bind, Option.bind_some, pure,
      Option.some.injEq]
    omega

theorem HexUnit.length_eq (h : HexUnit u n) : u.length = 4 := by
  cases h
  rfl

theorem HexUnit.lt (h : HexUnit u n) : n < 0x10000 := by
  have hlt : ∀ d ∈ hexDigits, d.2 < 16 := by decide
  cases h with
  | digits ha hb hc hd =>
    have := hlt _ ha
    have := hlt _ hb
    have := hlt _ hc
    have := hlt _ hd
    omega

/-- No character is half of a pair. -/
theorem not_surrogate (c : Char) :
    isLowSurrogate c.toNat = false ∧ isHighSurrogate c.toNat = false := by
  have hvalid : c.toNat < 0xD800 ∨ 0xDFFF < c.toNat ∧ c.toNat < 0x110000 := c.valid
  simp only [isLowSurrogate, isHighSurrogate, Bool.and_eq_false_iff, decide_eq_false_iff_not]
  omega

theorem toNat_ofNat (h : n.isValidChar) : (Char.ofNat n).toNat = n := by
  rw [Char.ofNat, dif_pos h]
  rfl

end Units

section Reading

variable {c k : Cursor} {ch : Char} {u : List Char} {n : Nat}

theorem readUnit_of_hexUnit (h : HexUnit u n) (rest : List Char) (p : Position) :
    ∃ q, readUnit ⟨u ++ rest, p⟩ = .ok (n, ⟨rest, q⟩) := by
  have htake : (u ++ rest).take 4 = u := by rw [← h.length_eq, List.take_left]
  have hdrop : (u ++ rest).drop 4 = rest := by rw [← h.length_eq, List.drop_left]
  simp only [readUnit, htake, hdrop, hexUnit?_eq_some_iff.2 h]
  exact ⟨_, rfl⟩

theorem hexUnit_of_readUnit (h : readUnit c = .ok (n, k)) :
    ∃ u, c.rest = u ++ k.rest ∧ HexUnit u n := by
  unfold readUnit at h
  simp only at h
  split at h
  · rename_i m hm
    cases h
    exact ⟨_, (List.take_append_drop 4 c.rest).symm, hexUnit?_eq_some_iff.1 hm⟩
  · cases h

theorem readLowSurrogate_of_hexUnit {high low : Nat} (h : HexUnit u (0xDC00 + low))
    (hlow : low < 0x400) (hch : ch.toNat = 0x10000 + high * 0x400 + low) (rest : List Char)
    (p : Position) : ∃ q, readLowSurrogate (0xD800 + high) ⟨'\\' :: 'u' :: (u ++ rest), p⟩ =
      .ok (ch, ⟨rest, q⟩) := by
  obtain ⟨q, hq⟩ := readUnit_of_hexUnit h rest ((p.past '\\').past 'u')
  have hhalf : isLowSurrogate (0xDC00 + low) = true := by simp [isLowSurrogate]; omega
  have hjoin : joinSurrogates (0xD800 + high) (0xDC00 + low) = ch := by
    rw [joinSurrogates, Nat.add_sub_cancel_left, Nat.add_sub_cancel_left, ← hch, Char.ofNat_toNat]
  refine ⟨q, ?_⟩
  simp only [readLowSurrogate, Cursor.step, hq, bind, Except.bind, hhalf, if_true, hjoin]

theorem readEscape_of_escape {e : List Char} (h : Escape e ch) (rest : List Char) (p : Position) :
    ∃ q, readEscape ⟨e ++ rest, p⟩ = .ok (ch, ⟨rest, q⟩) := by
  cases h with
  | @letter e _ he =>
    refine ⟨p.past e, ?_⟩
    rw [← unescape?_eq_some_iff] at he
    unfold readEscape
    split
    · cases ‹_ = []›
    · rename_i hcs
      cases hcs
      cases he
    · rename_i hcs
      cases hcs
      simp only [he, Cursor.step, List.cons_append, List.nil_append]
  | unit hu =>
    obtain ⟨q, hq⟩ := readUnit_of_hexUnit hu rest (p.past 'u')
    obtain ⟨hlow, hhigh⟩ := not_surrogate ch
    refine ⟨q, ?_⟩
    simp only [readEscape, List.cons_append, Cursor.step, hq, bind, Except.bind, hlow, hhigh,
      Bool.false_eq_true, if_false, Char.ofNat_toNat]
  | @pair u u' high low _ hu hu' hhigh hlow hch =>
    obtain ⟨q, hq⟩ := readUnit_of_hexUnit hu ('\\' :: 'u' :: (u' ++ rest)) (p.past 'u')
    obtain ⟨q', hq'⟩ := readLowSurrogate_of_hexUnit hu' hlow hch rest q
    have hhalf : isHighSurrogate (0xD800 + high) = true := by simp [isHighSurrogate]; omega
    have hother : isLowSurrogate (0xD800 + high) = false := by simp [isLowSurrogate]; omega
    refine ⟨q', ?_⟩
    simp only [readEscape, List.cons_append, List.append_assoc, Cursor.step, hq, bind, Except.bind,
      hhalf, hother, Bool.false_eq_true, if_false, if_true, hq']

theorem unit_of_readLowSurrogate {high : Nat} (h : readLowSurrogate high c = .ok (ch, k)) :
    ∃ u low, c.rest = '\\' :: 'u' :: u ++ k.rest ∧ HexUnit u low ∧ isLowSurrogate low = true ∧
      ch = joinSurrogates high low := by
  obtain ⟨cs, p⟩ := c
  unfold readLowSurrogate at h
  split at h
  · cases h
  · cases h
  · rename_i cs hcs
    replace hcs : _ = '\\' :: 'u' :: cs := hcs
    subst hcs
    obtain ⟨⟨low, c'⟩, hunit, hlow⟩ := bind_eq_ok h
    obtain ⟨u, hrest, hu⟩ := hexUnit_of_readUnit hunit
    replace hrest : cs = _ := hrest
    subst hrest
    simp only at hlow
    split at hlow
    · rw [Except.ok.injEq, Prod.mk.injEq] at hlow
      obtain ⟨rfl, rfl⟩ := hlow
      exact ⟨u, low, rfl, hu, ‹_›, rfl⟩
    · cases hlow
  · cases h
  · cases h

theorem escape_pair {u u' : List Char} {high low : Nat} (hu : HexUnit u high)
    (hu' : HexUnit u' low) (hhigh : isHighSurrogate high = true)
    (hlow : isLowSurrogate low = true) :
    Escape ('u' :: u ++ '\\' :: 'u' :: u') (joinSurrogates high low) := by
  simp only [isHighSurrogate, isLowSurrogate, Bool.and_eq_true, decide_eq_true_eq] at hhigh hlow
  obtain ⟨i, rfl⟩ := Nat.exists_eq_add_of_le hhigh.1
  obtain ⟨j, rfl⟩ := Nat.exists_eq_add_of_le hlow.1
  refine .pair hu hu' (by omega) (by omega) ?_
  rw [joinSurrogates, Nat.add_sub_cancel_left, Nat.add_sub_cancel_left, toNat_ofNat]
  exact .inr ⟨by omega, by omega⟩

theorem escape_of_readEscape (h : readEscape c = .ok (ch, k)) :
    ∃ e, c.rest = e ++ k.rest ∧ Escape e ch := by
  obtain ⟨cs, p⟩ := c
  unfold readEscape at h
  split at h
  · cases h
  · rename_i cs hcs
    replace hcs : _ = 'u' :: cs := hcs
    subst hcs
    obtain ⟨⟨n, c'⟩, hunit, hbehind⟩ := bind_eq_ok h
    obtain ⟨u, hrest, hu⟩ := hexUnit_of_readUnit hunit
    replace hrest : cs = _ := hrest
    subst hrest
    simp only at hbehind
    split at hbehind
    · cases hbehind
    · rename_i hlow
      split at hbehind
      · rename_i hhigh
        obtain ⟨u', low, hrest, hu', hlow', hch⟩ := unit_of_readLowSurrogate hbehind
        rw [hch]
        exact ⟨'u' :: u ++ '\\' :: 'u' :: u', by simp [hrest], escape_pair hu hu' hhigh hlow'⟩
      · rename_i hhigh
        rw [Except.ok.injEq, Prod.mk.injEq] at hbehind
        obtain ⟨rfl, rfl⟩ := hbehind
        have hvalid : n.isValidChar := by
          have hlt := hu.lt
          simp only [isLowSurrogate, isHighSurrogate, Bool.and_eq_true, decide_eq_true_eq]
            at hlow hhigh
          exact (Nat.lt_or_ge n 0xD800).imp_right fun h => ⟨by omega, by omega⟩
        exact ⟨'u' :: u, rfl, .unit ((toNat_ofNat hvalid).symm ▸ hu)⟩
  · rename_i e cs _ hcs
    replace hcs : _ = e :: cs := hcs
    subst hcs
    split at h
    · cases h
      exact ⟨[e], rfl, .letter (unescape?_eq_some_iff.1 ‹_›)⟩
    · cases h

theorem quoted_of_readChars {fuel : Nat} {s : List Char} (h : readChars fuel c = .ok (s, k)) :
    ∃ t, c.rest = t ++ '"' :: k.rest ∧ Quoted t s := by
  induction fuel generalizing c s with
  | zero => cases h
  | succ fuel ih =>
    obtain ⟨cs, p⟩ := c
    unfold readChars at h
    split at h
    · cases h
    · rename_i cs hcs
      replace hcs : _ = '"' :: cs := hcs
      subst hcs
      cases h
      exact ⟨[], rfl, .nil⟩
    · rename_i cs hcs
      replace hcs : _ = '\\' :: cs := hcs
      subst hcs
      obtain ⟨⟨ch, c₁⟩, hescape, h₁⟩ := bind_eq_ok h
      obtain ⟨⟨chs, c₂⟩, hchars, h₂⟩ := bind_eq_ok h₁
      cases h₂
      obtain ⟨e, he, hch⟩ := escape_of_readEscape hescape
      obtain ⟨t, ht, hchs⟩ := ih hchars
      replace he : cs = e ++ c₁.rest := he
      exact ⟨'\\' :: e ++ t, by simp [he, ht], .escape hch hchs⟩
    · rename_i ch cs hquote hslash hcs
      replace hcs : _ = ch :: cs := hcs
      subst hcs
      split at h
      · cases h
      · obtain ⟨⟨chs, c₁⟩, hchars, h₁⟩ := bind_eq_ok h
        cases h₁
        obtain ⟨t, ht, hchs⟩ := ih hchars
        exact ⟨ch :: t, congrArg (ch :: ·) ht, .plain hquote hslash ‹_› hchs⟩

theorem readChars_of_quoted {fuel : Nat} {t s : List Char} (h : Quoted t s)
    (hfuel : t.length < fuel) (rest : List Char) (p : Position) :
    ∃ q, readChars fuel ⟨t ++ '"' :: rest, p⟩ = .ok (s, ⟨rest, q⟩) := by
  induction h generalizing fuel p with
  | nil =>
    obtain ⟨fuel, rfl⟩ := Nat.exists_eq_succ_of_ne_zero (Nat.ne_of_gt hfuel)
    exact ⟨_, rfl⟩
  | @plain c t s hquote hslash hspace _ ih =>
    obtain ⟨fuel, rfl⟩ := Nat.exists_eq_succ_of_ne_zero (Nat.ne_of_gt (Nat.zero_lt_of_lt hfuel))
    have hleft : t.length < fuel := by simpa using hfuel
    obtain ⟨q, hq⟩ := ih hleft (p.past c)
    refine ⟨q, ?_⟩
    unfold readChars
    split
    · cases ‹_ = []›
    · rename_i hcs
      cases hcs
      exact absurd rfl hquote
    · rename_i hcs
      cases hcs
      exact absurd rfl hslash
    · rename_i hcs
      cases hcs
      simp only [hspace, if_false, Cursor.step, List.cons_append, hq]
      rfl
  | @escape c e t s he _ ih =>
    obtain ⟨fuel, rfl⟩ := Nat.exists_eq_succ_of_ne_zero (Nat.ne_of_gt (Nat.zero_lt_of_lt hfuel))
    obtain ⟨q, hq⟩ := readEscape_of_escape he (t ++ '"' :: rest) (p.past '\\')
    have hleft : t.length < fuel := by
      simp at hfuel
      omega
    obtain ⟨q', hq'⟩ := ih hleft q
    exact ⟨q', by simp [readChars, Cursor.step, hq, hq', bind, Except.bind, pure, Except.pure]⟩

theorem quoted_of_readText {s : String} (h : readText c = .ok (s, k)) :
    ∃ t, c.rest = t ++ '"' :: k.rest ∧ Quoted t s.toList := by
  obtain ⟨⟨chs, c'⟩, hchars, h'⟩ := bind_eq_ok h
  cases h'
  obtain ⟨t, ht, hchs⟩ := quoted_of_readChars hchars
  exact ⟨t, ht, by rwa [String.toList_ofList]⟩

theorem readText_of_quoted {t s : List Char} (h : Quoted t s) (rest : List Char) (p : Position) :
    ∃ q, readText ⟨t ++ '"' :: rest, p⟩ = .ok (String.ofList s, ⟨rest, q⟩) := by
  have hfuel : t.length < (t ++ '"' :: rest).length + 1 := by
    simp only [List.length_append, List.length_cons]
    omega
  obtain ⟨q, hq⟩ := readChars_of_quoted h hfuel rest p
  exact ⟨q, by simp only [readText, hq]; rfl⟩

end Reading

theorem Quoted.append {t t' s s' : List Char} (h : Quoted t s) (h' : Quoted t' s') :
    Quoted (t ++ t') (s ++ s') := by
  induction h with
  | nil => exact h'
  | plain hquote hslash hspace _ ih => exact .plain hquote hslash hspace ih
  | escape he _ ih =>
    rw [List.append_assoc]
    exact .escape he ih

theorem hexUnit_control : ∀ n < 32,
    HexUnit ['0', '0', hexDigit (n / 16), hexDigit (n % 16)] n := by
  have hunit : ∀ n < 32, hexUnit? ['0', '0', hexDigit (n / 16), hexDigit (n % 16)] = some n := by
    decide
  exact fun n hn => hexUnit?_eq_some_iff.1 (hunit n hn)

theorem quoted_escapeChar (c : Char) : Quoted (escapeChar c) [c] := by
  have hescape : ∀ {e : Char}, (e, c) ∈ escapeLetters → Quoted ['\\', e] [c] := fun he =>
    .escape (.letter he) .nil
  unfold escapeChar
  split
  · exact hescape (by decide)
  · exact hescape (by decide)
  · exact hescape (by decide)
  · exact hescape (by decide)
  · exact hescape (by decide)
  · exact hescape (by decide)
  · exact hescape (by decide)
  · rename_i hquote hslash _ _ _ _ _
    split
    · rename_i hcontrol
      exact .escape (.unit (hexUnit_control c.toNat hcontrol)) .nil
    · rename_i hcontrol
      exact .plain hquote hslash hcontrol .nil

/-- A text in quotes stands for itself. -/
theorem quoted_escape (s : List Char) : Quoted (s.flatMap escapeChar) s := by
  induction s with
  | nil => exact .nil
  | cons c s ih => exact (quoted_escapeChar c).append ih

end CacheActivity.Json
