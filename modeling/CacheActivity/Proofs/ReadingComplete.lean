import CacheActivity.Proofs.ReadingSound

/-!
# What is spelled is read

A spelling is read as its value, whatever stops behind it (`readValue_of_spells`). With the other
direction this makes the reader the decision of the grammar: `read_eq_ok_iff` is about a whole text,
with the blanks around the value.
-/

namespace CacheActivity.Json

open Text (joinWith joinWith_cons_eq_append)

/-- That a reader gives something for a text in front, whatever stops behind it. -/
def Reads {α : Type} (r : Reader α) (t : List Char) (a : α) : Prop :=
  ∀ rest, Stops rest → ∀ p, ∃ q, r ⟨t ++ rest, p⟩ = .ok (a, ⟨rest, q⟩)

section Parts

variable {α : Type} (chars : α → List Char) (x : α) (xs : List α) (rest : List Char)

theorem length_le_length_flatMap : xs.length ≤ (xs.flatMap fun x => ',' :: chars x).length := by
  induction xs with
  | nil => exact Nat.le_refl _
  | cons x xs ih =>
    simp only [List.flatMap_cons, List.length_append, List.length_cons]
    omega

/-- There are fewer parts than characters, so a loop over the characters gets to the last one. -/
theorem length_lt_of_parts (front : List Char) (stop : Char) :
    xs.length < (front ++ (xs.flatMap (fun x => ',' :: chars x) ++ stop :: rest)).length := by
  have := length_le_length_flatMap chars xs
  simp only [List.length_append, List.length_cons]
  omega

theorem flatMap_comma_cons : (x :: xs).flatMap (fun x => ',' :: chars x) ++ rest =
    ',' :: (chars x ++ (xs.flatMap (fun x => ',' :: chars x) ++ rest)) := by
  rw [List.flatMap_cons, List.cons_append, List.cons_append, List.append_assoc]

theorem joinWith_map_cons : joinWith ',' ((x :: xs).map chars) ++ rest =
    chars x ++ (xs.flatMap (fun x => ',' :: chars x) ++ rest) := by
  rw [List.map_cons, joinWith_cons_eq_append, List.flatMap_map, List.append_assoc]

theorem Piece.chars_append (x : Piece) :
    x.chars ++ rest = x.before ++ (x.text ++ (x.after ++ rest)) := by
  rw [chars, List.append_assoc, List.append_assoc]

theorem Member.chars_append (m : Member) : m.chars ++ rest = m.beforeKey ++ (m.fromKey ++ rest) :=
  List.append_assoc ..

end Parts

section Complete

variable {d fuel : Nat} {item : Reader Value} {t bs : List Char} {v : Value}

theorem readWord_append (ws rest : List Char) (p : Position) :
    ∃ q, readWord ws ⟨ws ++ rest, p⟩ = .ok ((), ⟨rest, q⟩) := by
  induction ws generalizing p with
  | nil => exact ⟨p, rfl⟩
  | cons w ws ih =>
    obtain ⟨q, hq⟩ := ih (p.past w)
    exact ⟨q, by simpa only [readWord, List.cons_append, if_true, Cursor.step] using hq⟩

theorem Reads.skipBlanks {α : Type} {r : Reader α} {a : α} (h : Reads r t a) (hbs : Blanks bs)
    {ch : Char} (hnumeric : isNumeric ch = false) (hblank : isBlank ch = false) (cs : List Char)
    (p : Position) :
    ∃ k q, r ⟨t ++ bs ++ ch :: cs, p⟩ = .ok (a, k) ∧ k.skipBlanks = ⟨ch :: cs, q⟩ := by
  obtain ⟨q, hq⟩ := h _ (hbs.stops (stops_cons hnumeric cs)) p
  obtain ⟨q', hq'⟩ := skipBlanks_append hbs (noBlank_cons hblank cs) q
  exact ⟨_, q', by rw [List.append_assoc, hq], hq'⟩

theorem readItems_of_pieces {x : Piece} {xs : List Piece}
    (hall : ∀ y ∈ x :: xs, Spells d y.text y.value ∧ Reads item y.text y.value)
    (hfuel : xs.length < fuel) (rest : List Char) (p : Position) :
    ∃ q, readItems item fuel
        ⟨x.text ++ x.after ++ (xs.flatMap (fun y => ',' :: y.chars) ++ ']' :: rest), p⟩ =
      .ok ((x :: xs).map Piece.value, ⟨rest, q⟩) := by
  induction xs generalizing x fuel p with
  | nil =>
    obtain ⟨fuel, rfl⟩ := Nat.exists_eq_succ_of_ne_zero (Nat.ne_of_gt hfuel)
    obtain ⟨k, q, hk, hq⟩ := (hall x List.mem_cons_self).2.skipBlanks x.blanks_after
      (by decide : isNumeric ']' = false) (by decide) rest p
    refine ⟨q.past ']', ?_⟩
    rw [List.flatMap_nil, List.nil_append]
    simp only [readItems, hk, hq, bind, Except.bind, pure, Except.pure, Cursor.step,
      List.map_cons, List.map_nil]
  | cons y ys ih =>
    obtain ⟨fuel, rfl⟩ := Nat.exists_eq_succ_of_ne_zero (Nat.ne_of_gt (Nat.zero_lt_of_lt hfuel))
    obtain ⟨hx, hall⟩ := List.forall_mem_cons.1 hall
    have hy := (hall y List.mem_cons_self).1
    let behind := ys.flatMap (fun y => ',' :: y.chars) ++ ']' :: rest
    obtain ⟨k, q, hk, hq⟩ := hx.2.skipBlanks x.blanks_after (by decide : isNumeric ',' = false)
      (by decide) (y.before ++ (y.text ++ (y.after ++ behind))) p
    obtain ⟨q', hq'⟩ := skipBlanks_append y.blanks_before (hy.noBlank (y.after ++ behind))
      (q.past ',')
    obtain ⟨q'', hq''⟩ := ih hall (Nat.lt_of_succ_lt_succ hfuel) q'
    refine ⟨q'', ?_⟩
    obtain ⟨ch, cs, hcs, -, hch⟩ := hy.head
    rw [List.append_assoc] at hq''
    have hsplit : (y :: ys).flatMap (fun y => ',' :: y.chars) ++ ']' :: rest =
        ',' :: (y.before ++ (y.text ++ (y.after ++ behind))) := by
      rw [flatMap_comma_cons, y.chars_append]
    rw [hsplit]
    simp only [readItems, hk, hq, bind, Except.bind, Cursor.step, hq']
    rw [hcs] at hq'' ⊢
    simp only [List.cons_append] at hq'' ⊢
    rw [hq'']
    simp [hch, pure, Except.pure]

theorem readArray_of_pieces {items : List Piece} (hne : items ≠ [])
    (hall : ∀ y ∈ items, Spells d y.text y.value ∧ Reads item y.text y.value)
    (rest : List Char) (p : Position) :
    ∃ q, readArray item ⟨joinWith ',' (items.map Piece.chars) ++ ']' :: rest, p⟩ =
      .ok (items.map Piece.value, ⟨rest, q⟩) := by
  obtain ⟨x, xs, rfl⟩ := List.exists_cons_of_ne_nil hne
  have hx := (hall x List.mem_cons_self).1
  let behind := xs.flatMap (fun y => ',' :: y.chars) ++ ']' :: rest
  obtain ⟨q, hq⟩ := skipBlanks_append x.blanks_before (hx.noBlank (x.after ++ behind)) p
  have hfuel : xs.length < (x.text ++ (x.after ++ behind)).length := by
    rw [← List.append_assoc]
    exact length_lt_of_parts Piece.chars xs rest _ ']'
  obtain ⟨q', hq'⟩ := readItems_of_pieces hall hfuel rest q
  refine ⟨q', ?_⟩
  obtain ⟨ch, cs, hcs, -, hch⟩ := hx.head
  have hsplit : joinWith ',' ((x :: xs).map Piece.chars) ++ ']' :: rest =
      x.before ++ (x.text ++ (x.after ++ behind)) := by
    rw [joinWith_map_cons, x.chars_append]
  rw [List.append_assoc] at hq'
  rw [hsplit]
  simp only [readArray, hq]
  rw [hcs] at hq' ⊢
  simp only [List.cons_append] at hq' ⊢
  simpa [hch] using hq'

theorem Member.fromKey_append (m : Member) (rest : List Char) : m.fromKey ++ rest =
    '"' :: (m.keyText ++ '"' :: (m.afterKey ++ ':' :: (m.toPiece.chars ++ rest))) := by
  simp [fromKey]

theorem readColon_of_blanks (hbs : Blanks bs) (cs : List Char) (p : Position) :
    ∃ q, readColon ⟨bs ++ ':' :: cs, p⟩ = .ok ((), ⟨cs, q⟩) := by
  obtain ⟨q, hq⟩ := skipBlanks_append hbs (noBlank_cons (by decide) cs : NoBlank (':' :: _)) p
  exact ⟨q.past ':', by simp only [readColon, hq, Cursor.step]⟩

theorem readKey_of_member (m : Member) (rest : List Char) (p : Position) :
    ∃ q, readKey ⟨m.fromKey ++ rest, p⟩ = .ok (m.key, ⟨m.toPiece.chars ++ rest, q⟩) := by
  obtain ⟨q, hq⟩ := readText_of_quoted m.quoted
    (m.afterKey ++ ':' :: (m.toPiece.chars ++ rest)) (p.past '"')
  obtain ⟨q', hq'⟩ := readColon_of_blanks m.blanks_afterKey (m.toPiece.chars ++ rest) q
  refine ⟨q', ?_⟩
  rw [m.fromKey_append]
  simp only [readKey, Cursor.step, hq, hq', bind, Except.bind, pure, Except.pure,
    String.ofList_toList]

theorem Member.exists_fromKey (m : Member) (rest : List Char) :
    ∃ cs, m.fromKey ++ rest = '"' :: cs := ⟨_, rfl⟩

theorem readMemberEnd_of_comma {k : Cursor} {q : Position} (m : Member) (rest : List Char)
    (hk : k.skipBlanks = ⟨',' :: (m.chars ++ rest), q⟩) :
    ∃ q', readMemberEnd k = .ok (false, ⟨m.fromKey ++ rest, q'⟩) := by
  obtain ⟨q', hq'⟩ := skipBlanks_append m.blanks_beforeKey (m.noBlank_fromKey rest) (q.past ',')
  obtain ⟨cs, hcs⟩ := m.exists_fromKey rest
  refine ⟨q', ?_⟩
  rw [hcs] at hq' ⊢
  simp only [readMemberEnd, hk, Cursor.step, Member.chars, List.append_assoc, hcs, hq']

theorem readMembers_of_members {m : Member} {ms : List Member}
    (hall : ∀ l ∈ m :: ms, Reads item (l.before ++ l.text) l.value)
    (hfuel : ms.length < fuel) (rest : List Char) (p : Position) :
    ∃ q, readMembers item fuel
        ⟨m.fromKey ++ (ms.flatMap (fun l => ',' :: l.chars) ++ '\x7d' :: rest), p⟩ =
      .ok ((m :: ms).map Member.pair, ⟨rest, q⟩) := by
  induction ms generalizing m fuel p with
  | nil =>
    obtain ⟨fuel, rfl⟩ := Nat.exists_eq_succ_of_ne_zero (Nat.ne_of_gt hfuel)
    obtain ⟨q, hq⟩ := readKey_of_member m ('\x7d' :: rest) p
    obtain ⟨k, q', hk, hq'⟩ := (hall m List.mem_cons_self).skipBlanks m.blanks_after
      (by decide : isNumeric '\x7d' = false) (by decide) rest q
    refine ⟨q'.past '\x7d', ?_⟩
    rw [List.flatMap_nil, List.nil_append]
    simp only [readMembers, hq, Piece.chars, hk, readMemberEnd, hq', bind, Except.bind, pure,
      Except.pure, Cursor.step, if_true, List.map_cons, List.map_nil, Member.pair]
  | cons l ls ih =>
    obtain ⟨fuel, rfl⟩ := Nat.exists_eq_succ_of_ne_zero (Nat.ne_of_gt (Nat.zero_lt_of_lt hfuel))
    obtain ⟨hm, hall⟩ := List.forall_mem_cons.1 hall
    let behind := ls.flatMap (fun l => ',' :: l.chars) ++ '\x7d' :: rest
    obtain ⟨q₁, hq₁⟩ := readKey_of_member m (',' :: (l.chars ++ behind)) p
    obtain ⟨k, q₂, hk, hskip⟩ := hm.skipBlanks m.blanks_after (by decide : isNumeric ',' = false)
      (by decide) (l.chars ++ behind) q₁
    obtain ⟨q₃, hend⟩ := readMemberEnd_of_comma l behind hskip
    obtain ⟨q₄, hq₄⟩ := ih hall (Nat.lt_of_succ_lt_succ hfuel) q₃
    refine ⟨q₄, ?_⟩
    have hsplit : (l :: ls).flatMap (fun l => ',' :: l.chars) ++ '\x7d' :: rest =
        ',' :: (l.chars ++ behind) := flatMap_comma_cons Member.chars l ls _
    rw [hsplit]
    simp only [readMembers, hq₁, Piece.chars, hk, hend, behind, hq₄, bind, Except.bind, pure,
      Except.pure, Bool.false_eq_true, if_false, List.map_cons, Member.pair]

theorem readObject_of_members {members : List Member} (hne : members ≠ [])
    (hall : ∀ m ∈ members, Reads item (m.before ++ m.text) m.value) (rest : List Char)
    (p : Position) :
    ∃ q, readObject item ⟨joinWith ',' (members.map Member.chars) ++ '\x7d' :: rest, p⟩ =
      .ok (Members.ofPairs (members.map Member.pair), ⟨rest, q⟩) := by
  obtain ⟨m, ms, rfl⟩ := List.exists_cons_of_ne_nil hne
  let behind := ms.flatMap (fun l => ',' :: l.chars) ++ '\x7d' :: rest
  obtain ⟨q, hq⟩ := skipBlanks_append m.blanks_beforeKey (m.noBlank_fromKey behind) p
  have hfuel : ms.length < (m.fromKey ++ behind).length :=
    length_lt_of_parts Member.chars ms rest _ '\x7d'
  obtain ⟨q', hq'⟩ := readMembers_of_members hall hfuel rest q
  refine ⟨q', ?_⟩
  have hsplit : joinWith ',' ((m :: ms).map Member.chars) ++ '\x7d' :: rest =
      m.beforeKey ++ (m.fromKey ++ behind) := by
    rw [joinWith_map_cons, m.chars_append]
  obtain ⟨cs, hcs⟩ := m.exists_fromKey behind
  replace hq' : readMembers item (m.fromKey ++ behind).length ⟨m.fromKey ++ behind, q⟩ = _ := hq'
  rw [hcs] at hq hq'
  rw [hsplit, hcs]
  simp only [readObject, hq, hq', bind, Except.bind, pure, Except.pure]
  rfl

theorem skipBlanks_of_noBlank {cs : List Char} (h : NoBlank cs) (p : Position) :
    (Cursor.mk cs p).skipBlanks = ⟨cs, p⟩ := by
  cases cs with
  | nil => rfl
  | cons c cs => simp [Cursor.skipBlanks, Cursor.skipBlanks.go, h c rfl]

theorem readWith_blanks (inner : Option (Reader Value)) {cs : List Char} (hbs : Blanks bs)
    (hno : NoBlank cs) (p : Position) :
    ∃ q, readWith inner ⟨bs ++ cs, p⟩ = readWith inner ⟨cs, q⟩ := by
  obtain ⟨q, hq⟩ := skipBlanks_append hbs hno p
  exact ⟨q, by simp only [readWith, hq, skipBlanks_of_noBlank hno]⟩

theorem readValue_eq (d : Nat) : ∃ inner, readValue d = readWith inner := by
  cases d with
  | zero => exact ⟨_, rfl⟩
  | succ d => exact ⟨_, rfl⟩

theorem reads_readValue (h : ∀ inner, Reads (readWith inner) t v) : Reads (readValue d) t v := by
  obtain ⟨inner, hinner⟩ := readValue_eq d
  exact hinner ▸ h inner

theorem Reads.behind_blanks (h : Reads (readValue d) t v) (hspells : Spells d t v)
    (hbs : Blanks bs) : Reads (readValue d) (bs ++ t) v := by
  obtain ⟨inner, hinner⟩ := readValue_eq d
  rw [hinner] at h ⊢
  intro rest hstop p
  obtain ⟨q, hq⟩ := readWith_blanks inner hbs (hspells.noBlank rest) p
  rw [List.append_assoc, hq]
  exact h rest hstop q

theorem skipBlanks_cons {ch : Char} (h : isBlank ch = false) (cs : List Char) (p : Position) :
    (Cursor.mk (ch :: cs) p).skipBlanks = ⟨ch :: cs, p⟩ :=
  skipBlanks_of_noBlank (noBlank_cons h cs) p

theorem reads_null (inner : Option (Reader Value)) :
    Reads (readWith inner) ['n', 'u', 'l', 'l'] .null := by
  intro rest _ p
  obtain ⟨q, hq⟩ := readWord_append ['u', 'l', 'l'] rest (p.past 'n')
  refine ⟨q, ?_⟩
  simp only [List.cons_append, List.nil_append] at hq ⊢
  simp only [readWith, skipBlanks_cons (by decide : isBlank 'n' = false), Cursor.step, hq]
  rfl

theorem reads_bool (b : Bool) (inner : Option (Reader Value)) :
    Reads (readWith inner) (writeBool b) (.bool b) := by
  intro rest _ p
  cases b with
  | false =>
    obtain ⟨q, hq⟩ := readWord_append ['a', 'l', 's', 'e'] rest (p.past 'f')
    refine ⟨q, ?_⟩
    simp only [writeBool, Bool.false_eq_true, if_false, List.cons_append, List.nil_append] at hq ⊢
    simp only [readWith, skipBlanks_cons (by decide : isBlank 'f' = false), Cursor.step, hq]
    rfl
  | true =>
    obtain ⟨q, hq⟩ := readWord_append ['r', 'u', 'e'] rest (p.past 't')
    refine ⟨q, ?_⟩
    simp only [writeBool, if_true, List.cons_append, List.nil_append] at hq ⊢
    simp only [readWith, skipBlanks_cons (by decide : isBlank 't' = false), Cursor.step, hq]
    rfl

theorem reads_text {s : String} (h : Quoted t s.toList) (inner : Option (Reader Value)) :
    Reads (readWith inner) ('"' :: t ++ ['"']) (.text s) := by
  intro rest _ p
  obtain ⟨q, hq⟩ := readText_of_quoted h rest (p.past '"')
  refine ⟨q, ?_⟩
  simp only [List.append_assoc, List.cons_append, List.nil_append]
  simp only [readWith, skipBlanks_cons (by decide : isBlank '"' = false), Cursor.step, hq,
    String.ofList_toList]
  rfl

theorem Numeral.reads {x : Numeral} {n : Number} (h : x.number? = some n) :
    Reads (readNumber x.negative) x.unsigned n := by
  intro rest hstop p
  have hanswers := x.answers (hstop.ends _ _) p
  rwa [h] at hanswers

theorem reads_number {x : Numeral} {n : Number} (hn : x.number? = some n)
    (inner : Option (Reader Value)) : Reads (readWith inner) x.chars (.number n) := by
  intro rest hstop p
  have hreads := x.reads hn
  unfold Numeral.chars
  generalize x.negative = negative at hreads ⊢
  cases negative with
  | true =>
    obtain ⟨q, hq⟩ := hreads rest hstop (p.past '-')
    refine ⟨q, ?_⟩
    simp only [if_true, List.cons_append, List.nil_append]
    simp only [readWith, skipBlanks_cons (by decide : isBlank '-' = false), Cursor.step, hq]
    rfl
  | false =>
    obtain ⟨d, t, ht, hd⟩ := x.exists_head
    obtain ⟨q, hq⟩ := hreads rest hstop p
    refine ⟨q, ?_⟩
    rw [ht] at hq
    simp only [Bool.false_eq_true, if_false, List.nil_append, ht, List.cons_append] at hq ⊢
    simp only [readWith, skipBlanks_cons (not_isBlank_of_isDigit hd)]
    split
    · cases ‹_ = []›
    all_goals rename_i cs hcs; cases hcs
    · exact absurd hd (by decide)
    · exact absurd hd (by decide)
    · exact absurd hd (by decide)
    · exact absurd hd (by decide)
    · exact absurd hd (by decide)
    · exact absurd hd (by decide)
    · exact absurd hd (by decide)
    · rw [if_pos hd, hq]
      rfl

theorem readWith_array {vs : List Value} {rest : List Char} {p q : Position}
    (h : readArray item ⟨t ++ ']' :: rest, p.past '['⟩ = .ok (vs, ⟨rest, q⟩)) :
    readWith (some item) ⟨'[' :: t ++ [']'] ++ rest, p⟩ = .ok (.array vs, ⟨rest, q⟩) := by
  simp only [List.append_assoc, List.cons_append, List.nil_append]
  simp only [readWith, skipBlanks_cons (by decide : isBlank '[' = false), Cursor.step, h]
  rfl

theorem readWith_object {ms : Members} {rest : List Char} {p q : Position}
    (h : readObject item ⟨t ++ '\x7d' :: rest, p.past '\x7b'⟩ = .ok (ms, ⟨rest, q⟩)) :
    readWith (some item) ⟨'\x7b' :: t ++ ['\x7d'] ++ rest, p⟩ = .ok (.object ms, ⟨rest, q⟩) := by
  simp only [List.append_assoc, List.cons_append, List.nil_append]
  simp only [readWith, skipBlanks_cons (by decide : isBlank '\x7b' = false), Cursor.step, h]
  rfl

/-- What is spelled is read. -/
theorem readValue_of_spells (h : Spells d t v) : Reads (readValue d) t v := by
  induction h with
  | null => exact reads_readValue reads_null
  | bool b => exact reads_readValue (reads_bool b)
  | text hquoted => exact reads_readValue (reads_text hquoted)
  | number hn => exact reads_readValue (reads_number hn)
  | @emptyArray d bs hbs =>
    intro rest _ p
    obtain ⟨q, hq⟩ := skipBlanks_append hbs (noBlank_cons (by decide) rest : NoBlank (']' :: rest))
      (p.past '[')
    refine ⟨q.past ']', readWith_array ?_⟩
    simp only [readArray, hq, Cursor.step]
  | array hne hall ih =>
    intro rest _ p
    obtain ⟨q, hq⟩ := readArray_of_pieces hne (fun y hy => ⟨hall y hy, ih y hy⟩) rest (p.past '[')
    exact ⟨q, readWith_array hq⟩
  | @emptyObject d bs hbs =>
    intro rest _ p
    obtain ⟨q, hq⟩ := skipBlanks_append hbs
      (noBlank_cons (by decide) rest : NoBlank ('\x7d' :: rest)) (p.past '\x7b')
    refine ⟨q.past '\x7d', readWith_object ?_⟩
    simp only [readObject, hq, Cursor.step]
  | object hne hall ih =>
    intro rest _ p
    obtain ⟨q, hq⟩ := readObject_of_members hne
      (fun m hm => (ih m hm).behind_blanks (hall m hm) m.blanks_before) rest (p.past '\x7b')
    exact ⟨q, readWith_object hq⟩

end Complete

section Whole

variable {s : String} {v : Value}

theorem expectEnd_eq_ok_iff {c : Cursor} : expectEnd c = .ok () ↔ Blanks c.rest := by
  obtain ⟨bs, hbs, hrest, hno⟩ := exists_blanks c
  unfold expectEnd
  simp only
  split
  · rename_i hnil
    rw [hnil, List.append_nil] at hrest
    exact iff_of_true rfl (hrest ▸ hbs)
  · rename_i hcons
    refine iff_of_false (by rintro ⟨⟩) fun hall => ?_
    obtain ⟨c, cs, hcs⟩ := List.exists_cons_of_ne_nil hcons
    rw [hcs] at hrest hno
    have := hall c (by simp [hrest])
    rw [hno c rfl] at this
    cases this

/-- The texts of a value are its spellings with blanks around them. -/
theorem read_eq_ok_iff : read s = .ok v ↔
    ∃ x : Piece, s.toList = x.chars ∧ x.value = v ∧ Spells depthLimit x.text x.value := by
  constructor
  · intro h
    obtain ⟨⟨v, c⟩, hv, h₁⟩ := bind_eq_ok h
    obtain ⟨⟨⟩, hend, h₂⟩ := bind_eq_ok h₁
    cases h₂
    obtain ⟨bs, t, hbs, hrest, hspells⟩ := sound_readValue depthLimit hv
    exact ⟨⟨⟨bs, t, c.rest, hbs, expectEnd_eq_ok_iff.1 hend⟩, v⟩, hrest, rfl, hspells⟩
  · rintro ⟨x, hx, rfl, hspells⟩
    have hreads := (readValue_of_spells hspells).behind_blanks hspells x.blanks_before
    have hstop : Stops x.after := List.append_nil x.after ▸ x.blanks_after.stops Stops.nil
    obtain ⟨q, hq⟩ := hreads x.after hstop .start
    have hend : expectEnd ⟨x.after, q⟩ = .ok () := expectEnd_eq_ok_iff.2 x.blanks_after
    simp only [read, readAll, hx, Piece.chars, Cursor.start, hq, bind, Except.bind, hend]
    rfl

/-- A text is read where it stands for a value and is not too deep. -/
theorem exists_read_eq_ok_iff : (∃ v, read s = .ok v) ↔ Decodable depthLimit s.toList := by
  simp only [read_eq_ok_iff]
  constructor
  · rintro ⟨v, x, hx, -, hspells⟩
    exact ⟨x.toPadded, hx, exists_spells_iff.1 ⟨_, hspells⟩⟩
  · rintro ⟨x, hx, hformed⟩
    obtain ⟨v, hspells⟩ := exists_spells_iff.2 hformed
    exact ⟨v, ⟨x, v⟩, hx, rfl, hspells⟩

end Whole

end CacheActivity.Json
