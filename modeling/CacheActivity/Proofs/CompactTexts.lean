import CacheActivity.Proofs.ReadingComplete

/-!
# Compact texts

The compact text of a value spells the value, so it is read as that value again (`read_compact`).
What it takes is that numbers are whole and in the range of numerals, that no key comes twice, and
that there are not too many levels (`Plain`). The text goes on one line, whatever line breaks there
are in the texts of the value (`Plain.lineFeed_not_mem`).
-/

namespace CacheActivity.Json

open Text (joinWith joinWith_cons_eq_append)

section Numerals

variable {n : Nat} {ds : List Char}

theorem absorb_of_le {limit : Nat} (hd : ∀ d ∈ ds, d.isDigit = true)
    (h : Nat.ofDigitChars 10 ds n ≤ limit) :
    absorb limit n ds = (Nat.ofDigitChars 10 ds n, []) := by
  induction ds generalizing n with
  | nil => simp [absorb]
  | cons d ds ih =>
    obtain ⟨hdigit, hd⟩ := List.forall_mem_cons.1 hd
    rw [Nat.ofDigitChars_cons] at h ⊢
    -- More digits only make the number larger.
    have hle : 10 * n + Text.digitValue d ≤ limit := by
      rw [Nat.ofDigitChars_eq_ofDigitChars_zero] at h
      have hpow : 1 ≤ 10 ^ ds.length := Nat.one_le_pow _ _ (by decide)
      calc 10 * n + Text.digitValue d ≤ 10 ^ ds.length * (10 * n + Text.digitValue d) :=
            Nat.le_mul_of_pos_left _ hpow
        _ ≤ limit := Nat.le_trans (Nat.le_add_right _ _) h
    rw [absorb, if_pos ⟨hdigit, hle⟩]
    exact ih hd h

theorem head?_toDigits_ne (h : 0 < n) : (Nat.toDigits 10 n).head? ≠ some '0' := by
  induction n using Nat.strongRecOn with
  | ind n ih =>
    rw [Nat.toDigits_eq_if (by decide)]
    split
    · simp only [List.head?_cons, ne_eq, Option.some.injEq, Nat.digitChar_eq_zero]
      omega
    · rw [List.head?_append_of_ne_nil _ Nat.toDigits_ne_nil]
      exact ih (n / 10) (by omega) (by omega)

def Numeral.ofNat (negative : Bool) (n : Nat) : Numeral where
  negative
  whole := ⟨Nat.toDigits 10 n, Nat.toDigits_ne_nil, fun _ hd =>
    Nat.isDigit_of_mem_toDigits (by decide) (by decide) hd⟩
  fraction := none
  power := none
  zero_alone h := by
    rcases Nat.eq_zero_or_pos n with rfl | hpos
    · rfl
    · exact absurd h (head?_toDigits_ne hpos)

theorem Numeral.chars_ofNat (negative : Bool) (n : Nat) :
    (ofNat negative n).chars = (if negative then ['-'] else []) ++ Nat.toDigits 10 n :=
  congrArg (_ ++ ·) (List.append_nil _)

theorem Numeral.number?_ofNat (negative : Bool) (h : n ≤ maxSignificand) :
    (ofNat negative n).number? = some (wholeNumber negative n) := by
  have hvalue : Nat.ofDigitChars 10 (Nat.toDigits 10 n) 0 = n := Nat.ofDigitChars_ten_toDigits
  have habsorb := absorb_of_le (ofNat negative n).whole.isDigit (hvalue.symm ▸ h)
  rw [number?, habsorb]
  exact congrArg (fun n => some (wholeNumber negative n)) hvalue

theorem spells_writeInt (d : Nat) {z : Int} (hleast : -(maxNegative : Int) ≤ z)
    (hgreatest : z ≤ maxSignificand) : Spells d (writeInt z) (.whole z) := by
  have hmax : maxNegative ≤ maxSignificand := by decide
  have hnumber : wholeNumber (decide (z < 0)) z.natAbs = .whole z := by
    by_cases hz : z < 0
    · rw [wholeNumber, if_neg (by simp [hz]), if_pos (by omega)]
      congr 1
      omega
    · rw [wholeNumber, if_pos (by simp [hz])]
      congr 1
      omega
  have hspells := Spells.number (d := d)
    (Numeral.number?_ofNat (decide (z < 0)) (by omega : z.natAbs ≤ maxSignificand))
  rw [Numeral.chars_ofNat, hnumber] at hspells
  simpa [writeInt, Value.whole] using hspells

end Numerals

section Breaks

theorem lineFeed_not_mem_escapeChar (c : Char) : '\n' ∉ escapeChar c := by
  have hhex : ∀ n < 16, '\n' ≠ hexDigit n := by decide
  unfold escapeChar
  split
  -- Characters with a letter of their own behind the backslash.
  iterate 7
    · decide
  split
  · rename_i hcontrol
    have hlt : c.toNat < 32 := hcontrol
    simp [hhex (c.toNat / 16) (by omega), hhex (c.toNat % 16) (by omega)]
  · rename_i hcontrol
    rw [List.mem_singleton]
    rintro rfl
    exact hcontrol (by decide)

theorem lineFeed_not_mem_quote (s : String) : '\n' ∉ quote s := by
  simp [quote, lineFeed_not_mem_escapeChar]

theorem lineFeed_not_mem_writeInt (z : Int) : '\n' ∉ writeInt z := by
  have hdigits : '\n' ∉ Nat.toDigits 10 z.natAbs := fun h =>
    absurd (Nat.isDigit_of_mem_toDigits (by decide) (by decide) h) (by decide)
  unfold writeInt
  split <;> simp [hdigits]

end Breaks

section Parts

theorem itemChars_eq (vs : List Value) : itemChars vs = joinWith ',' (vs.map Value.chars) := by
  induction vs with
  | nil => rfl
  | cons v vs ih =>
    rw [itemChars, ih]
    cases vs with
    | nil => simp [joinWith]
    | cons w vs => simp [joinWith]

theorem memberChars_eq (ms : Members) :
    memberChars ms = joinWith ',' (ms.map fun m => quote m.1 ++ ':' :: m.2.chars) := by
  induction ms with
  | nil => rfl
  | cons m ms ih =>
    rw [memberChars, ih]
    cases ms with
    | nil => simp [joinWith]
    | cons l ms => simp [joinWith]

theorem Members.put_of_not_mem {key : String} {ms : Members} (h : key ∉ keys ms) (v : Value) :
    put key v ms = ms ++ [(key, v)] := by
  induction ms with
  | nil => rfl
  | cons m ms ih =>
    simp only [keys, List.map_cons, List.mem_cons, not_or] at h
    rw [put, if_neg fun he => h.1 he.symm, ih h.2, List.cons_append]

theorem Members.foldl_put_of_nodup {seen ms : Members} (h : (keys (seen ++ ms)).Nodup) :
    ms.foldl (fun ms m => put m.1 m.2 ms) seen = seen ++ ms := by
  induction ms generalizing seen with
  | nil => simp
  | cons m ms ih =>
    rw [List.append_cons] at h ⊢
    have hkey : m.1 ∉ keys seen := by
      rw [keys, List.map_append, List.map_append, List.nodup_append, List.nodup_append] at h
      exact fun hm => h.1.2.2 _ hm _ List.mem_cons_self rfl
    rw [List.foldl_cons, put_of_not_mem hkey]
    exact ih h

theorem Members.ofPairs_of_nodup {ms : Members} (h : (keys ms).Nodup) : ofPairs ms = ms :=
  foldl_put_of_nodup (List.nil_append ms ▸ h)

end Parts

section Values

variable {d : Nat} {v : Value}

/-- That all numbers of a value are whole and in the range of numerals, that no key comes twice in
an object, and that there are at most so many arrays and objects inside one another. -/
inductive Plain : Nat → Value → Prop
  | null {d : Nat} : Plain d .null
  | bool {d : Nat} (b : Bool) : Plain d (.bool b)
  | text {d : Nat} (s : String) : Plain d (.text s)
  | whole {d : Nat} {z : Int} : -(maxNegative : Int) ≤ z → z ≤ maxSignificand → Plain d (.whole z)
  | array {d : Nat} {vs : List Value} : (∀ v ∈ vs, Plain d v) → Plain (d + 1) (.array vs)
  | object {d : Nat} {ms : Members} : (Members.keys ms).Nodup → (∀ m ∈ ms, Plain d m.2) →
      Plain (d + 1) (.object ms)

def Value.piece (v : Value) : Piece := .bare v.chars v

@[simp] theorem Value.chars_piece (v : Value) : v.piece.chars = v.chars := Piece.chars_bare ..

/-- A member with no blanks around its key and its value. -/
def Member.ofPair (m : String × Value) : Member := .ofPiece m.1 m.2.piece

@[simp] theorem Member.chars_ofPair (m : String × Value) :
    (ofPair m).chars = quote m.1 ++ ':' :: m.2.chars := by
  rw [ofPair, chars_ofPiece, m.2.chars_piece]

theorem Value.toList_compact (v : Value) : v.compact.toList = v.chars := String.toList_ofList

theorem read_compact_of_spells (h : Spells depthLimit v.chars v) : read v.compact = .ok v :=
  read_eq_ok_iff.2 ⟨v.piece, by rw [v.toList_compact, v.chars_piece], rfl, h⟩

theorem spells_items {vs : List Value} (h : ∀ v ∈ vs, Spells d v.chars v) :
    Spells (d + 1) (Value.array vs).chars (.array vs) := by
  have hchars : (vs.map Value.piece).map Piece.chars = vs.map Value.chars := by simp
  have hvalues : (vs.map Value.piece).map Piece.value = vs := by
    rw [List.map_map]
    exact List.map_id vs
  have hpieces : ∀ x ∈ vs.map Value.piece, Spells d x.text x.value := List.forall_mem_map.2 h
  have harray := spells_array hpieces
  rw [hchars, hvalues, ← itemChars_eq] at harray
  rw [Value.chars]
  exact harray

theorem spells_members {ms : Members} (hkeys : (Members.keys ms).Nodup)
    (h : ∀ m ∈ ms, Spells d m.2.chars m.2) :
    Spells (d + 1) (Value.object ms).chars (.object ms) := by
  by_cases hne : ms = []
  · subst hne
    exact .emptyObject .nil
  · have hchars : (ms.map Member.ofPair).map Member.chars =
        ms.map fun m => quote m.1 ++ ':' :: m.2.chars := by simp
    have hpairs : (ms.map Member.ofPair).map Member.pair = ms := by
      rw [List.map_map]
      exact List.map_id ms
    have hmembers : ∀ l ∈ ms.map Member.ofPair, Spells d l.text l.value := List.forall_mem_map.2 h
    have hobject := Spells.object (fun he => hne (List.map_eq_nil_iff.1 he)) hmembers
    rw [hchars, hpairs, ← memberChars_eq, Members.ofPairs_of_nodup hkeys] at hobject
    rw [Value.chars]
    exact hobject

/-- The compact text of a value spells it. -/
theorem Plain.spells (h : Plain d v) : Spells d v.chars v := by
  induction h with
  | null => exact .null
  | bool b => exact .bool b
  | text s => exact .text (quoted_escape s.toList)
  | whole hleast hgreatest => exact spells_writeInt _ hleast hgreatest
  | array _ ih => exact spells_items ih
  | object hkeys _ ih => exact spells_members hkeys ih

theorem read_compact (h : Plain depthLimit v) : read v.compact = .ok v :=
  read_compact_of_spells h.spells

theorem read_compact_text (s : String) : read (Value.text s).compact = .ok (.text s) :=
  read_compact (.text s)

theorem lineFeed_not_mem_joinWith {ps : List (List Char)} (h : ∀ p ∈ ps, '\n' ∉ p) :
    '\n' ∉ joinWith ',' ps := by
  cases ps with
  | nil => simp [joinWith]
  | cons p ps =>
    obtain ⟨hp, hps⟩ := List.forall_mem_cons.1 h
    rw [joinWith_cons_eq_append]
    simpa [hp] using hps

/-- The compact text of a value is on one line. -/
theorem Plain.lineFeed_not_mem (h : Plain d v) : '\n' ∉ v.chars := by
  induction h with
  | null => decide
  | bool b => cases b <;> decide
  | text s => exact lineFeed_not_mem_quote s
  | @whole _ z _ _ => exact lineFeed_not_mem_writeInt z
  | @array _ vs _ ih =>
    have hitems : '\n' ∉ itemChars vs := by
      rw [itemChars_eq]
      exact lineFeed_not_mem_joinWith (by simpa using ih)
    simp [Value.chars, hitems]
  | @object _ ms _ _ ih =>
    have hmembers : '\n' ∉ memberChars ms := by
      rw [memberChars_eq]
      refine lineFeed_not_mem_joinWith ?_
      simp only [List.forall_mem_map, List.mem_append, List.mem_cons, not_or]
      exact fun m hm => ⟨lineFeed_not_mem_quote m.1, by decide, ih m hm⟩
    simp [Value.chars, hmembers]

end Values

end CacheActivity.Json
