import CacheActivity.Json.Skip
import CacheActivity.Proofs.Nesting

/-!
# What is spelled is passed over

Passing over a value checks less than reading it, so every text that spells a value is passed over
to its end (`skipValue_of_spells`). The levels that passing over counts down never run out, since no
text opens more brackets than it has characters.
-/

namespace CacheActivity.Json

open Text (joinWith)

section Numbers

variable {tail : List Char} {fraction : Option Digits} {e : Option Power}

theorem Power.skips (e : Power) (ht : NoDigit tail) (p : Position) :
    ∃ q, skipPower ⟨e.unmarked ++ tail, p⟩ = .ok ((), ⟨tail, q⟩) := by
  obtain ⟨mark, sign, downwards, ⟨ds, hne, hd⟩, -, hs⟩ := e
  have hrest := dropWhile_digits hd ht
  obtain ⟨d, ds, rfl⟩ := List.exists_cons_of_ne_nil hne
  have hdigit := hd d List.mem_cons_self
  have hplus : d ≠ '+' := ne_of_isDigit hdigit (by decide)
  have hminus : d ≠ '-' := ne_of_isDigit hdigit (by decide)
  simp only [powerSigns, List.mem_cons, List.not_mem_nil, or_false, Prod.mk.injEq] at hs
  rw [List.cons_append] at hrest
  unfold skipPower unmarked
  rcases hs with ⟨rfl, -⟩ | ⟨rfl, -⟩ | ⟨rfl, -⟩
  all_goals
    simp only [List.nil_append, List.cons_append, hplus, hminus, hdigit, hrest, Cursor.step,
      Cursor.jump, List.cons.injEq, false_and, if_true, imp_self, implies_true]
    exact ⟨_, rfl⟩

theorem skipPowerIfAny_of_ends (h : Ends fraction e tail) (p : Position) :
    ∃ q, skipPowerIfAny ⟨powerChars e ++ tail, p⟩ = .ok ((), ⟨tail, q⟩) := by
  cases e with
  | some e =>
    obtain ⟨q, hq⟩ := e.skips h.noDigit (p.past e.mark)
    refine ⟨q, ?_⟩
    unfold skipPowerIfAny
    rcases e.mark_eq with hmark | hmark <;> rw [hmark] at hq <;>
      simpa only [powerChars, hmark, List.cons_append, Cursor.step] using hq
  | none =>
    unfold skipPowerIfAny
    split
    · exact absurd (.inl (congrArg List.head? ‹_›)) (h.noPower rfl)
    · exact absurd (.inr (congrArg List.head? ‹_›)) (h.noPower rfl)
    · exact ⟨p, rfl⟩

theorem skipFraction_of_ends {ds : Digits} (h : Ends (some ds) e tail) (p : Position) :
    ∃ q, skipFraction ⟨ds.chars ++ (powerChars e ++ tail), p⟩ = .ok ((), ⟨tail, q⟩) := by
  have hlength : ¬(powerChars e ++ tail).length = (ds.chars ++ (powerChars e ++ tail)).length := by
    generalize powerChars e ++ tail = behind
    simpa using ds.ne_nil
  unfold skipFraction
  simp only [dropWhile_digits ds.isDigit h.noDigit_powerChars, if_neg hlength, Cursor.jump]
  exact skipPowerIfAny_of_ends h _

def skipTail : Reader Unit := fun c =>
  match c.rest with
  | '.' :: _ => skipFraction c.step
  | _ => skipPowerIfAny c

theorem skipTail_of_ends (h : Ends fraction e tail) (p : Position) :
    ∃ q, skipTail ⟨fractionChars fraction ++ (powerChars e ++ tail), p⟩ =
      .ok ((), ⟨tail, q⟩) := by
  cases fraction with
  | some ds => exact skipFraction_of_ends h (p.past '.')
  | none =>
    have hpoint : (powerChars e ++ tail).head? ≠ some '.' := by
      cases e with
      | none => exact h.noPoint rfl rfl
      | some e => rcases e.mark_eq with he | he <;> simp [powerChars, he]
    obtain ⟨q, hq⟩ := skipPowerIfAny_of_ends h p
    refine ⟨q, ?_⟩
    unfold skipTail
    split
    · exact absurd (congrArg List.head? ‹_›) hpoint
    · exact hq

theorem skipNumber_digits {ds : List Char} (hd : ∀ d ∈ ds, d.isDigit = true) (hne : ds ≠ [])
    (hzero : ds.head? = some '0' → ds = ['0']) (ht : NoDigit tail) (p : Position) :
    ∃ q, skipNumber ⟨ds ++ tail, p⟩ = skipTail ⟨tail, q⟩ := by
  have hrest := dropWhile_digits hd ht
  obtain ⟨d, ds, rfl⟩ := List.exists_cons_of_ne_nil hne
  obtain ⟨hdigit, hds⟩ := List.forall_mem_cons.1 hd
  have hlone : ¬(d = '0' ∧ ((ds ++ tail).head?.map Char.isDigit).getD false = true) := by
    rintro ⟨rfl, hhead⟩
    rw [head_digits hds ht] at hhead
    exact hhead (List.cons.inj (hzero rfl)).2
  rw [List.cons_append] at hrest
  simp only [skipNumber, List.cons_append, hdigit, Bool.not_true, Bool.false_eq_true, if_false,
    if_neg hlone, hrest, Cursor.jump]
  exact ⟨_, rfl⟩

/-- Any numeral is passed over, whether or not it has a number. -/
theorem Numeral.skips (x : Numeral) : Reads skipNumber x.unsigned () := by
  intro rest hstop p
  have h := hstop.ends x.fraction x.power
  obtain ⟨q, hq⟩ := skipNumber_digits x.whole.isDigit x.whole.ne_nil x.zero_alone
    h.noDigit_fractionChars p
  obtain ⟨q', hq'⟩ := skipTail_of_ends h q
  refine ⟨q', ?_⟩
  rw [unsigned, List.append_assoc, List.append_assoc, hq, hq']

end Numbers

section Quotes

variable {fuel : Nat} {t s : List Char}

theorem skipEscape_of_isEscape {e : List Char} (h : IsEscape e) (rest : List Char)
    (p : Position) : ∃ q, skipEscape ⟨e ++ rest, p⟩ = .ok ((), ⟨rest, q⟩) := by
  cases h with
  | unit hu =>
    obtain ⟨q, hq⟩ := readUnit_of_hexUnit hu rest (p.past 'u')
    refine ⟨q, ?_⟩
    simp only [skipEscape, List.cons_append, Cursor.step, hq]
    rfl
  | @letter e ch he =>
    refine ⟨p.past e, ?_⟩
    rw [← unescape?_eq_some_iff] at he
    unfold skipEscape
    split
    · cases ‹_ = []›
    · -- The letter of a unit is none of the others.
      rename_i hcs
      cases hcs
      cases he
    · rename_i hcs
      cases hcs
      rw [he, Option.isSome_some, if_pos rfl]
      rfl

theorem skipChars_plain {c : Char} (hquote : c ≠ '"') (hslash : c ≠ '\\') (hspace : ¬c < ' ')
    (cs : List Char) (p : Position) :
    skipChars (fuel + 1) ⟨c :: cs, p⟩ = skipChars fuel ⟨cs, p.past c⟩ := by
  rw [skipChars]
  split
  · cases ‹_ = []›
  · rename_i hcs
    cases hcs
    exact absurd rfl hquote
  · rename_i hcs
    cases hcs
    exact absurd rfl hslash
  · rename_i hcs
    cases hcs
    rw [if_neg hspace, Cursor.step]

theorem skipChars_escape {e : List Char} (h : IsEscape e) (cs : List Char) (p : Position) :
    ∃ q, skipChars (fuel + 1) ⟨'\\' :: (e ++ cs), p⟩ = skipChars fuel ⟨cs, q⟩ := by
  obtain ⟨q, hq⟩ := skipEscape_of_isEscape h cs (p.past '\\')
  refine ⟨q, ?_⟩
  simp only [skipChars, Cursor.step, hq]
  rfl

/-- Whatever is valid between two quotes is passed over, half of a pair of units too. -/
theorem skipChars_of_inside (h : Inside IsEscape t) (hfuel : t.length ≤ fuel) (rest : List Char)
    (p : Position) : ∃ q, skipChars (fuel + 1) ⟨t ++ '"' :: rest, p⟩ = .ok ((), ⟨rest, q⟩) := by
  induction h generalizing fuel p with
  | nil => exact ⟨_, rfl⟩
  | @plain c t hquote hslash hspace _ ih =>
    cases fuel with
    | zero => exact absurd hfuel (by simp)
    | succ fuel =>
      obtain ⟨q, hq⟩ := ih (Nat.le_of_succ_le_succ hfuel) (p.past c)
      exact ⟨q, (skipChars_plain hquote hslash hspace _ p).trans hq⟩
  | @escape e t he _ ih =>
    simp only [List.cons_append, List.length_cons, List.length_append] at hfuel
    cases fuel with
    | zero => exact absurd hfuel (by omega)
    | succ fuel =>
      obtain ⟨q, hq⟩ := skipChars_escape he (t ++ '"' :: rest) p
      have hleft : t.length ≤ fuel := by omega
      obtain ⟨q', hq'⟩ := ih hleft q
      rw [List.cons_append, List.cons_append, List.append_assoc]
      exact ⟨q', hq.trans hq'⟩

theorem skipText_of_quoted (h : Quoted t s) (rest : List Char) (p : Position) :
    ∃ q, skipText ⟨t ++ '"' :: rest, p⟩ = .ok ((), ⟨rest, q⟩) := by
  refine skipChars_of_inside h.inside ?_ rest p
  simp only [List.length_append, List.length_cons]
  omega

end Quotes

section Parts

variable {fuel : Nat} {item : Reader Unit} {t bs : List Char}

theorem skipItems_of_pieces {xs : List Piece} (ht : Reads item t ()) (hbs : Blanks bs)
    (hall : ∀ x ∈ xs, Reads item (x.before ++ x.text) ()) (hfuel : xs.length < fuel)
    (rest : List Char) (p : Position) :
    ∃ q, skipItems item fuel ⟨t ++ bs ++ (xs.flatMap (fun x => ',' :: x.chars) ++ ']' :: rest), p⟩ =
      .ok ((), ⟨rest, q⟩) := by
  induction xs generalizing t bs fuel p with
  | nil =>
    obtain ⟨fuel, rfl⟩ := Nat.exists_eq_succ_of_ne_zero (Nat.ne_of_gt hfuel)
    obtain ⟨k, q, hk, hq⟩ := ht.skipBlanks hbs (by decide : isNumeric ']' = false) (by decide)
      rest p
    refine ⟨q.past ']', ?_⟩
    rw [List.flatMap_nil, List.nil_append]
    simp only [skipItems, hk, hq, bind, Except.bind, pure, Except.pure, Cursor.step]
  | cons x xs ih =>
    obtain ⟨fuel, rfl⟩ := Nat.exists_eq_succ_of_ne_zero (Nat.ne_of_gt (Nat.zero_lt_of_lt hfuel))
    obtain ⟨hx, hall⟩ := List.forall_mem_cons.1 hall
    obtain ⟨k, q, hk, hq⟩ := ht.skipBlanks hbs (by decide : isNumeric ',' = false) (by decide)
      (x.chars ++ (xs.flatMap (fun x => ',' :: x.chars) ++ ']' :: rest)) p
    obtain ⟨q', hq'⟩ := ih hx x.blanks_after hall (Nat.lt_of_succ_lt_succ hfuel) (q.past ',')
    refine ⟨q', ?_⟩
    rw [flatMap_comma_cons]
    simp only [skipItems, hk, hq, bind, Except.bind, Cursor.step]
    exact hq'

/-- A member is passed over up to the character behind it, which says if another one follows. -/
theorem skipMembers_member (m : Member) (hm : Reads item (m.before ++ m.text) ()) {ch : Char}
    (hnumeric : isNumeric ch = false) (hblank : isBlank ch = false) (cs : List Char)
    (p : Position) : ∃ q,
      (ch = '\x7d' → skipMembers item (fuel + 1) ⟨m.chars ++ ch :: cs, p⟩ = .ok ((), ⟨cs, q⟩)) ∧
      (ch = ',' → skipMembers item (fuel + 1) ⟨m.chars ++ ch :: cs, p⟩ =
        skipMembers item fuel ⟨cs, q⟩) := by
  obtain ⟨q₁, hq₁⟩ := skipBlanks_append m.blanks_beforeKey (m.noBlank_fromKey (ch :: cs)) p
  obtain ⟨q₂, hq₂⟩ := skipText_of_quoted m.quoted
    (m.afterKey ++ ':' :: (m.toPiece.chars ++ ch :: cs)) (q₁.past '"')
  obtain ⟨q₃, hq₃⟩ := readColon_of_blanks m.blanks_afterKey (m.toPiece.chars ++ ch :: cs) q₂
  obtain ⟨k, q₄, hk, hq₄⟩ := hm.skipBlanks m.blanks_after hnumeric hblank cs q₃
  rw [m.fromKey_append] at hq₁
  replace hk : item ⟨m.toPiece.chars ++ ch :: cs, q₃⟩ = .ok ((), k) := hk
  refine ⟨q₄.past ch, ?_, ?_⟩
  all_goals
    rintro rfl
    simp only [skipMembers, Member.chars, List.append_assoc, m.fromKey_append, hq₁, Cursor.step,
      hq₂, hq₃, hk, hq₄, bind, Except.bind, pure, Except.pure]

theorem skipMembers_of_members {m : Member} {ms : List Member}
    (hall : ∀ l ∈ m :: ms, Reads item (l.before ++ l.text) ()) (hfuel : ms.length < fuel)
    (rest : List Char) (p : Position) :
    ∃ q, skipMembers item fuel
        ⟨m.chars ++ (ms.flatMap (fun l => ',' :: l.chars) ++ '\x7d' :: rest), p⟩ =
      .ok ((), ⟨rest, q⟩) := by
  induction ms generalizing m fuel p with
  | nil =>
    obtain ⟨fuel, rfl⟩ := Nat.exists_eq_succ_of_ne_zero (Nat.ne_of_gt hfuel)
    obtain ⟨q, hq, -⟩ := skipMembers_member m (hall m List.mem_cons_self)
      (by decide : isNumeric '\x7d' = false) (by decide) rest p
    exact ⟨q, hq rfl⟩
  | cons l ls ih =>
    obtain ⟨fuel, rfl⟩ := Nat.exists_eq_succ_of_ne_zero (Nat.ne_of_gt (Nat.zero_lt_of_lt hfuel))
    obtain ⟨hm, hall⟩ := List.forall_mem_cons.1 hall
    let behind := ls.flatMap (fun l => ',' :: l.chars) ++ '\x7d' :: rest
    obtain ⟨q, -, hq⟩ := skipMembers_member m hm (by decide : isNumeric ',' = false) (by decide)
      (l.chars ++ behind) p
    obtain ⟨q', hq'⟩ := ih hall (Nat.lt_of_succ_lt_succ hfuel) q
    have hsplit : (l :: ls).flatMap (fun l => ',' :: l.chars) ++ '\x7d' :: rest =
        ',' :: (l.chars ++ behind) := flatMap_comma_cons Member.chars l ls _
    rw [hsplit, hq rfl]
    exact ⟨q', hq'⟩

end Parts

section Values

variable {d : Nat} {t bs : List Char} {v : Value} {inner : Reader Unit}

theorem skipWith_blanks (inner : Reader Unit) {cs : List Char} (hbs : Blanks bs)
    (hno : NoBlank cs) (p : Position) :
    ∃ q, skipWith inner ⟨bs ++ cs, p⟩ = skipWith inner ⟨cs, q⟩ := by
  obtain ⟨q, hq⟩ := skipBlanks_append hbs hno p
  exact ⟨q, by simp only [skipWith, hq, skipBlanks_of_noBlank hno]⟩

theorem skipLevels_eq (d : Nat) : ∃ inner, skipLevels d = skipWith inner := by
  cases d with
  | zero => exact ⟨_, rfl⟩
  | succ d => exact ⟨_, rfl⟩

theorem reads_skipLevels (h : ∀ inner, Reads (skipWith inner) t ()) :
    Reads (skipLevels d) t () := by
  obtain ⟨inner, hinner⟩ := skipLevels_eq d
  exact hinner ▸ h inner

theorem skipLevels_behind_blanks (h : Reads (skipLevels d) t ()) (hspells : Spells d t v)
    (hbs : Blanks bs) : Reads (skipLevels d) (bs ++ t) () := by
  obtain ⟨inner, hinner⟩ := skipLevels_eq d
  rw [hinner] at h ⊢
  intro rest hstop p
  obtain ⟨q, hq⟩ := skipWith_blanks inner hbs (hspells.noBlank rest) p
  rw [List.append_assoc, hq]
  exact h rest hstop q

theorem skips_null (inner : Reader Unit) : Reads (skipWith inner) ['n', 'u', 'l', 'l'] () := by
  intro rest _ p
  obtain ⟨q, hq⟩ := readWord_append ['u', 'l', 'l'] rest (p.past 'n')
  refine ⟨q, ?_⟩
  simp only [List.cons_append, List.nil_append] at hq ⊢
  simp only [skipWith, skipBlanks_cons (by decide : isBlank 'n' = false), Cursor.step, hq]

theorem skips_bool (b : Bool) (inner : Reader Unit) : Reads (skipWith inner) (writeBool b) () := by
  intro rest _ p
  cases b with
  | false =>
    obtain ⟨q, hq⟩ := readWord_append ['a', 'l', 's', 'e'] rest (p.past 'f')
    refine ⟨q, ?_⟩
    simp only [writeBool, Bool.false_eq_true, if_false, List.cons_append, List.nil_append] at hq ⊢
    simp only [skipWith, skipBlanks_cons (by decide : isBlank 'f' = false), Cursor.step, hq]
  | true =>
    obtain ⟨q, hq⟩ := readWord_append ['r', 'u', 'e'] rest (p.past 't')
    refine ⟨q, ?_⟩
    simp only [writeBool, if_true, List.cons_append, List.nil_append] at hq ⊢
    simp only [skipWith, skipBlanks_cons (by decide : isBlank 't' = false), Cursor.step, hq]

theorem skips_text {s : List Char} (h : Quoted t s) (inner : Reader Unit) :
    Reads (skipWith inner) ('"' :: t ++ ['"']) () := by
  intro rest _ p
  obtain ⟨q, hq⟩ := skipText_of_quoted h rest (p.past '"')
  refine ⟨q, ?_⟩
  simp only [List.append_assoc, List.cons_append, List.nil_append]
  simp only [skipWith, skipBlanks_cons (by decide : isBlank '"' = false), Cursor.step, hq]

theorem skips_number (x : Numeral) (inner : Reader Unit) :
    Reads (skipWith inner) x.chars () := by
  intro rest hstop p
  unfold Numeral.chars
  cases x.negative with
  | true =>
    obtain ⟨q, hq⟩ := x.skips rest hstop (p.past '-')
    refine ⟨q, ?_⟩
    simp only [if_true, List.cons_append, List.nil_append]
    simp only [skipWith, skipBlanks_cons (by decide : isBlank '-' = false), Cursor.step, hq]
  | false =>
    obtain ⟨d, t, ht, hd⟩ := x.exists_head
    obtain ⟨q, hq⟩ := x.skips rest hstop p
    refine ⟨q, ?_⟩
    rw [ht] at hq
    simp only [Bool.false_eq_true, if_false, List.nil_append, ht, List.cons_append] at hq ⊢
    simp only [skipWith, skipBlanks_cons (not_isBlank_of_isDigit hd)]
    split
    · cases ‹_ = []›
    all_goals rename_i cs hcs; cases hcs
    · exact absurd hd (by decide)
    · exact absurd hd (by decide)
    · exact absurd hd (by decide)
    · exact absurd hd (by decide)
    · exact absurd hd (by decide)
    · exact absurd hd (by decide)
    · exact absurd hd (by decide)
    · rw [if_pos hd, hq]

theorem skips_emptyArray (hbs : Blanks bs) (inner : Reader Unit) :
    Reads (skipWith inner) ('[' :: bs ++ [']']) () := by
  intro rest _ p
  obtain ⟨q, hq⟩ := skipBlanks_append hbs (noBlank_cons (by decide) rest : NoBlank (']' :: rest))
    (p.past '[')
  refine ⟨q.past ']', ?_⟩
  simp only [List.append_assoc, List.cons_append, List.nil_append]
  simp only [skipWith, skipBlanks_cons (by decide : isBlank '[' = false), Cursor.step, hq]

theorem skips_emptyObject (hbs : Blanks bs) (inner : Reader Unit) :
    Reads (skipWith inner) ('\x7b' :: bs ++ ['\x7d']) () := by
  intro rest _ p
  obtain ⟨q, hq⟩ := skipBlanks_append hbs
    (noBlank_cons (by decide) rest : NoBlank ('\x7d' :: rest)) (p.past '\x7b')
  refine ⟨q.past '\x7d', ?_⟩
  simp only [List.append_assoc, List.cons_append, List.nil_append]
  simp only [skipWith, skipBlanks_cons (by decide : isBlank '\x7b' = false), Cursor.step, hq]

theorem skips_array {x : Piece} {xs : List Piece} (hspells : Spells d x.text x.value)
    (hx : Reads inner x.text ()) (hall : ∀ y ∈ xs, Reads inner (y.before ++ y.text) ()) :
    Reads (skipWith inner) ('[' :: joinWith ',' ((x :: xs).map Piece.chars) ++ [']']) () := by
  intro rest _ p
  let behind := xs.flatMap (fun y => ',' :: y.chars) ++ ']' :: rest
  obtain ⟨q, hq⟩ := skipBlanks_append x.blanks_before (hspells.noBlank (x.after ++ behind))
    (p.past '[')
  have hfuel : xs.length < (x.text ++ x.after ++ behind).length :=
    length_lt_of_parts Piece.chars xs rest _ ']'
  obtain ⟨q', hq'⟩ := skipItems_of_pieces hx x.blanks_after hall hfuel rest q
  refine ⟨q', ?_⟩
  obtain ⟨ch, cs, hcs, -, hch⟩ := hspells.head
  have hsplit : '[' :: joinWith ',' ((x :: xs).map Piece.chars) ++ [']'] ++ rest =
      '[' :: (x.before ++ (x.text ++ (x.after ++ behind))) := by
    rw [← x.chars_append, ← joinWith_map_cons]
    simp
  rw [List.append_assoc] at hq'
  rw [hsplit]
  simp only [skipWith, skipBlanks_cons (by decide : isBlank '[' = false), Cursor.step, hq]
  rw [hcs] at hq' ⊢
  simp only [List.cons_append] at hq' ⊢
  simpa [hch] using hq'

theorem skips_object {m : Member} {ms : List Member}
    (hall : ∀ l ∈ m :: ms, Reads inner (l.before ++ l.text) ()) :
    Reads (skipWith inner) ('\x7b' :: joinWith ',' ((m :: ms).map Member.chars) ++ ['\x7d'])
      () := by
  intro rest _ p
  let behind := ms.flatMap (fun l => ',' :: l.chars) ++ '\x7d' :: rest
  obtain ⟨q, hq⟩ := skipBlanks_append m.blanks_beforeKey (m.noBlank_fromKey behind) (p.past '\x7b')
  -- The blanks in front of the first key are passed over before the members are.
  have hfirst : ∀ l ∈ m.behind .nil :: ms, Reads inner (l.before ++ l.text) () :=
    List.forall_mem_cons.2 (List.forall_mem_cons.1 hall)
  have hfuel : ms.length < (m.fromKey ++ behind).length + 1 :=
    Nat.lt_succ_of_lt (length_lt_of_parts Member.chars ms rest _ '\x7d')
  obtain ⟨q', hq'⟩ := skipMembers_of_members hfirst hfuel rest q
  refine ⟨q', ?_⟩
  have hsplit : '\x7b' :: joinWith ',' ((m :: ms).map Member.chars) ++ ['\x7d'] ++ rest =
      '\x7b' :: (m.beforeKey ++ (m.fromKey ++ behind)) := by
    rw [← m.chars_append, ← joinWith_map_cons]
    simp
  obtain ⟨cs, hcs⟩ := m.exists_fromKey behind
  replace hq' : skipMembers inner ((m.fromKey ++ behind).length + 1) ⟨m.fromKey ++ behind, q⟩ = _ :=
    hq'
  rw [hcs] at hq hq'
  rw [hsplit, hcs]
  simp only [skipWith, skipBlanks_cons (by decide : isBlank '\x7b' = false), Cursor.step, hq]
  exact hq'

theorem skipLevels_of_spells (h : Spells d t v) : Reads (skipLevels d) t () := by
  induction h with
  | null => exact reads_skipLevels skips_null
  | bool b => exact reads_skipLevels (skips_bool b)
  | text hquoted => exact reads_skipLevels (skips_text hquoted)
  | @number _ x => exact reads_skipLevels (skips_number x)
  | emptyArray hbs => exact skips_emptyArray hbs _
  | array hne hall ih =>
    obtain ⟨x, xs, rfl⟩ := List.exists_cons_of_ne_nil hne
    refine skips_array (hall x List.mem_cons_self) (ih x List.mem_cons_self) fun y hy => ?_
    have hy := List.mem_cons_of_mem x hy
    exact skipLevels_behind_blanks (ih y hy) (hall y hy) y.blanks_before
  | emptyObject hbs => exact skips_emptyObject hbs _
  | object hne hall ih =>
    obtain ⟨m, ms, rfl⟩ := List.exists_cons_of_ne_nil hne
    exact skips_object fun l hl =>
      skipLevels_behind_blanks (ih l hl) (hall l hl) l.blanks_before

/-- What is spelled is passed over, with blanks in front of it. -/
theorem skipValue_of_spells (h : Spells d t v) (hbs : Blanks bs) :
    Reads skipValue (bs ++ t) () := by
  intro rest hstop p
  have hlevels : Spells (bs ++ t ++ rest).length t v := by
    refine h.of_nesting (Nat.le_trans (nesting_le_length t) ?_)
    simp only [List.length_append]
    omega
  exact skipLevels_behind_blanks (skipLevels_of_spells hlevels) hlevels hbs rest hstop p

end Values

end CacheActivity.Json
