import CacheActivity.Yaml.Writer

/-!
# Plain scalars

A plain scalar is a row of words with blanks between them. In front of the next key it is read as it
is written, line break included (`readPlain_line`), and a key is read up to its colon
(`readPlain_key`). The texts that are written plain are such rows (`IsPlain.of_allowsPlain`).
-/

namespace CacheActivity.Yaml

theorem Mark.on_append (m : Mark) (xs ys : List Char) : m.on (xs ++ ys) = (m.on xs).on ys := by
  simp [on, Text.byteLength_append, Nat.add_assoc]

@[simp] theorem Mark.column_on (m : Mark) (xs : List Char) :
    (m.on xs).column = m.column + xs.length := rfl

@[simp] theorem Mark.column_newLine (m : Mark) (xs : List Char) : (m.newLine xs).column = 0 := rfl

theorem Cursor.pass_append (xs rest : List Char) (m : Mark) :
    (⟨xs ++ rest, m⟩ : Cursor).pass xs.length = ⟨rest, m.on xs⟩ := by
  simp [pass]

/-- What stands behind a member: nothing, or the key of another one. -/
def KeyNext (rest : List Char) : Prop := ∀ c ∈ rest.head?, c.isAlpha = true

namespace KeyNext

variable {c : Char} {rest : List Char}

theorem ne (h : KeyNext (c :: rest)) {d : Char} (hd : d.isAlpha = false) : c ≠ d := by
  rintro rfl
  exact absurd (h c rfl) (by simp [hd])

theorem isBlank_eq (h : KeyNext (c :: rest)) : isBlank c = false := by
  simp [isBlank, h.ne (d := ' ') (by decide), h.ne (d := '\t') (by decide)]

theorem isBreak_eq (h : KeyNext (c :: rest)) : isBreak c = false := by
  simp [isBreak, h.ne (d := '\n') (by decide), h.ne (d := '\r') (by decide),
    h.ne (d := '\u0085') (by decide), h.ne (d := '\u2028') (by decide),
    h.ne (d := '\u2029') (by decide)]

theorem blankNext_or {rest : List Char} (h : KeyNext rest) :
    blankNext rest = false ∨ rest = [] := by
  cases rest with
  | nil => exact .inr rfl
  | cons c cs => exact .inl (by simp [blankNext, h.isBlank_eq, h.isBreak_eq])

theorem startsWithIndicator_eq (h : KeyNext (c :: rest)) :
    startsWithIndicator (c :: rest) = false := by
  have hlead : c ∉ leadingIndicators := fun hc => by
    have hnone : leadingIndicators.all (!·.isAlpha) = true := rfl
    exact h.ne (by simpa using List.all_eq_true.1 hnone c hc) rfl
  simp [startsWithIndicator, hlead, h.ne (d := '?') (by decide), h.ne (d := ':') (by decide),
    h.ne (d := '-') (by decide)]

theorem documentMarkerNext_eq (h : KeyNext (c :: rest)) :
    documentMarkerNext (c :: rest) = false := by
  unfold documentMarkerNext
  split
  · rename_i heq
    obtain ⟨rfl, -⟩ := List.cons.inj heq
    simp [h.ne (d := '-') (by decide), h.ne (d := '.') (by decide)]
  · rfl

end KeyNext

section Gaps

variable (activity : Activity) (since : Mark) (indentation : Nat)

theorem Gap.read_of_text (g : Gap) {rest : List Char} (h : blankNext rest = false ∨ rest = [])
    (m : Mark) : g.read activity since indentation rest m = .ok (g, ⟨rest, m⟩) := by
  cases rest with
  | nil => rfl
  | cons c cs =>
    obtain ⟨hblank, hbreak⟩ : isBlank c = false ∧ isBreak c = false := by
      simpa [blankNext] using h
    have hne : c ≠ '\r' := by
      rintro rfl
      cases hbreak
    simp [read, hblank, hbreak, hne]

theorem Gap.read_blank (g : Gap) (rest : List Char) (m : Mark) :
    g.read activity since indentation (' ' :: rest) m =
      (g.addBlank ' ').read activity since indentation rest (m.on [' ']) := by
  rw [read]
  · simp [isBlank]
  · rintro _ ⟨⟩

theorem Gap.read_break (g : Gap) {c : Char} (h : isBreak c = true) (hc : c ≠ '\r')
    (rest : List Char) (m : Mark) :
    g.read activity since indentation (c :: rest) m =
      (g.addBreak (breakText c)).read activity since indentation rest (m.newLine [c]) := by
  have hblank : isBlank c = false := by
    refine Bool.eq_false_iff.2 fun hblank => ?_
    rcases (by simpa [isBlank] using hblank : c = ' ' ∨ c = '\t') with rfl | rfl <;> cases h
  rw [read]
  · simp [hblank, h]
  · rintro _ rfl
    exact absurd rfl hc

/-- Blanks on a line that has no break before them. -/
theorem Gap.read_blanks {bs : List Char} (h : ∀ b ∈ bs, b = ' ') (front rest : List Char)
    (m : Mark) : (⟨front, false, [], []⟩ : Gap).read activity since indentation (bs ++ rest) m =
      (⟨front ++ bs, false, [], []⟩ : Gap).read activity since indentation rest (m.on bs) := by
  induction bs generalizing front m with
  | nil => simp [Mark.on, Text.byteLength]
  | cons b bs ih =>
    obtain ⟨rfl, hbs⟩ := List.forall_mem_cons.1 h
    rw [List.cons_append, Gap.read_blank]
    refine (ih hbs _ _).trans ?_
    rw [List.append_assoc, ← Mark.on_append]
    rfl

end Gaps

/-- What can stand in a plain scalar from here on, up to its last word. `gap` says that a blank
stands in front. -/
inductive PlainRest : Bool → List Char → Prop
  | done : PlainRest false []
  | blank {gap : Bool} {cs : List Char} (h : PlainRest true cs) : PlainRest gap (' ' :: cs)
  | char {gap : Bool} {c : Char} {cs : List Char} (hblank : isBlank c = false)
      (hbreak : isBreak c = false) (hcolon : c = ':' → blankNext cs = false)
      (hhash : gap = true → c ≠ '#') (h : PlainRest false cs) : PlainRest gap (c :: cs)

/-- A plain scalar that takes one line. -/
structure IsPlain (cs : List Char) : Prop where
  start : startsWithIndicator cs = false
  head : blankNext cs = false
  rest : PlainRest true cs

theorem blankNext_append {cs : List Char} (h : blankNext cs = false) (rest : List Char) :
    blankNext (cs ++ rest) = false := by
  cases cs with
  | nil => cases h
  | cons c cs => exact h

theorem plainRun_cons {c : Char} {cs : List Char} (hblank : isBlank c = false)
    (hbreak : isBreak c = false) (hcolon : c = ':' → blankNext cs = false) :
    plainRun false (c :: cs) = c :: plainRun false cs := by
  have hstops : plainStops false (c :: cs) = false := by
    have hclash : colonClash false (c :: cs) = false := by
      unfold colonClash
      split <;> rfl
    by_cases hc : c = ':'
    · simp [plainStops, hblank, hbreak, hclash, hcolon hc]
    · simp [plainStops, hblank, hbreak, hclash, hc]
  rw [plainRun, hstops]
  rfl

/-- The word that a row starts with. -/
theorem PlainRest.exists_word {gap : Bool} {cs : List Char} (h : PlainRest gap cs) :
    ∃ w tail, cs = w ++ tail ∧ (∀ rest, plainRun false (w ++ (tail ++ '\n' :: rest)) = w) ∧
      (tail = [] ∨ ∃ tail', tail = ' ' :: tail' ∧ PlainRest true tail') := by
  induction h with
  | done => exact ⟨[], [], rfl, fun _ => rfl, .inl rfl⟩
  | blank h => exact ⟨[], _, rfl, fun _ => rfl, .inr ⟨_, rfl, h⟩⟩
  | @char _ c _ hblank hbreak hcolon _ _ ih =>
    obtain ⟨w, tail, rfl, hrun, htail⟩ := ih
    refine ⟨c :: w, tail, rfl, fun rest => ?_, htail⟩
    have hcolon' (hc : c = ':') : blankNext (w ++ (tail ++ '\n' :: rest)) = false := by
      rw [← List.append_assoc]
      exact blankNext_append (hcolon hc) _
    rw [List.cons_append, plainRun_cons hblank hbreak hcolon', hrun]

theorem PlainRest.exists_blanks {gap : Bool} {cs : List Char} (h : PlainRest gap cs)
    (hgap : gap = true) : ∃ bs tail, cs = bs ++ tail ∧ (∀ b ∈ bs, b = ' ') ∧
      blankNext tail = false ∧ PlainRest true tail := by
  induction h with
  | done => cases hgap
  | blank _ ih =>
    obtain ⟨bs, tail, rfl, hbs, htail, h⟩ := ih rfl
    exact ⟨' ' :: bs, tail, rfl, List.forall_mem_cons.2 ⟨rfl, hbs⟩, htail, h⟩
  | char hblank hbreak hcolon hhash h =>
    subst hgap
    exact ⟨[], _, rfl, List.forall_mem_nil _, by simp [blankNext, hblank, hbreak],
      .char hblank hbreak hcolon hhash h⟩

theorem colonClash_block (cs : List Char) : colonClash false cs = false := by
  unfold colonClash
  split <;> rfl

/-- The next word of a scalar, and the gap behind it. -/
theorem readPlainFrom_word {w behind : List Char} (hrun : plainRun false (w ++ behind) = w)
    (hw : w ≠ []) (hhash : (w ++ behind).head? ≠ some '#') (hbehind : blankNext behind = true)
    (hne : behind ≠ []) {since m : Mark} (hm : 0 < m.column) {gap : Gap} {c : Cursor}
    (hgap : Gap.none.read .plainScalar since 1 behind (m.on w) = .ok (gap, c)) (fuel : Nat)
    (text : List Char) (g : Gap) :
    readPlainFrom false 1 since (fuel + 1) text g ⟨w ++ behind, m⟩ =
      if c.mark.column < 1 then .ok (⟨text ++ g.fold ++ w, gap.broken⟩, c)
      else readPlainFrom false 1 since fuel (text ++ g.fold ++ w) gap c := by
  rw [readPlainFrom, if_neg (by simpa [Nat.ne_of_gt hm] using hhash)]
  simp [hrun, hw, Cursor.pass_append, colonClash_block, hbehind, hne, hgap, bind, Except.bind]

theorem read_lineEnd {rest : List Char} (hrest : KeyNext rest) (since m : Mark) :
    Gap.none.read .plainScalar since 1 ([] ++ '\n' :: rest) m =
      .ok (⟨[], true, ['\n'], []⟩, ⟨rest, m.newLine ['\n']⟩) := by
  rw [List.nil_append, Gap.read_break _ _ _ _ rfl (by decide),
    Gap.read_of_text _ _ _ _ hrest.blankNext_or]
  rfl

theorem read_blanks_text {bs next : List Char} (hbs : ∀ b ∈ ' ' :: bs, b = ' ')
    (hnext : blankNext next = false) (rest : List Char) (since m : Mark) :
    Gap.none.read .plainScalar since 1 (' ' :: (bs ++ next) ++ '\n' :: rest) m =
      .ok (⟨' ' :: bs, false, [], []⟩, ⟨next ++ '\n' :: rest, m.on (' ' :: bs)⟩) := by
  have h := Gap.read_blanks .plainScalar since 1 hbs [] (next ++ '\n' :: rest) m
  rw [Gap.read_of_text _ _ _ _ (.inl (blankNext_append hnext _))] at h
  simpa [Gap.none] using h

/-- A row of words in front of a line break and the next key. -/
theorem readPlainFrom_row {rest : List Char} (hrest : KeyNext rest) (since : Mark) (n : Nat) :
    ∀ {cs : List Char}, cs.length ≤ n → PlainRest true cs → blankNext cs = false →
      ∀ (text : List Char) (g : Gap) (m : Mark), 0 < m.column →
        readPlainFrom false 1 since (n + 1) text g ⟨cs ++ '\n' :: rest, m⟩ =
          .ok (⟨text ++ g.fold ++ cs, true⟩, ⟨rest, (m.on cs).newLine ['\n']⟩) := by
  induction n with
  | zero =>
    intro cs hn _ hnext
    rw [List.eq_nil_of_length_eq_zero (Nat.le_zero.1 hn)] at hnext
    cases hnext
  | succ n ih =>
    intro cs hn h hnext text g m hm
    have hhash : (cs ++ '\n' :: rest).head? ≠ some '#' := by
      cases h with
      | blank => cases hnext
      | char _ _ _ hhash _ => simpa using hhash rfl
    obtain ⟨w, tail, rfl, hrun, htail⟩ := h.exists_word
    have hw : w ≠ [] := by
      rintro rfl
      rcases htail with rfl | ⟨tail', rfl, -⟩ <;> cases hnext
    have hbehind : blankNext (tail ++ '\n' :: rest) = true := by
      rcases htail with rfl | ⟨tail', rfl, -⟩ <;> rfl
    rw [List.append_assoc] at hhash ⊢
    rcases htail with rfl | ⟨tail', rfl, htail'⟩
    · have hgap := read_lineEnd hrest since (m.on w)
      have hcolumn : ((m.on w).newLine ['\n']).column < 1 := Nat.zero_lt_one
      rw [readPlainFrom_word (hrun rest) hw hhash hbehind (by simp) hm hgap, if_pos hcolumn,
        List.append_nil]
    · obtain ⟨bs, next, rfl, hbs, hnext', hrow⟩ := htail'.exists_blanks rfl
      have hblanks : ∀ b ∈ ' ' :: bs, b = ' ' := List.forall_mem_cons.2 ⟨rfl, hbs⟩
      have hgap := read_blanks_text hblanks hnext' rest since (m.on w)
      have hlen : next.length ≤ n := by
        simp only [List.length_append, List.length_cons] at hn
        omega
      have hcolumn : 0 < ((m.on w).on (' ' :: bs)).column := Nat.succ_pos _
      have hmark : ((m.on w).on (' ' :: bs)).on next = m.on (w ++ ' ' :: (bs ++ next)) := by
        rw [← Mark.on_append, ← Mark.on_append, List.cons_append]
      rw [readPlainFrom_word (hrun rest) hw hhash hbehind (by simp) hm hgap,
        if_neg (Nat.not_lt.2 hcolumn), ih hlen hrow hnext' _ _ _ hcolumn, hmark]
      simp [Gap.fold]

/-- A plain scalar in front of a line break and the next key. -/
theorem readPlain_line {cs rest : List Char} (h : IsPlain cs) (hrest : KeyNext rest) {m : Mark}
    (hm : 0 < m.column) : readPlain false 1 ⟨cs ++ '\n' :: rest, m⟩ =
      .ok (⟨cs, true⟩, ⟨rest, (m.on cs).newLine ['\n']⟩) := by
  have hlen : cs.length ≤ (cs ++ '\n' :: rest).length := by simp
  exact readPlainFrom_row hrest m _ hlen h.rest h.head [] .none m hm

theorem isBlank_of_isWord {c : Char} (h : isWord c = true) : isBlank c = false := by
  refine Bool.eq_false_iff.2 fun hblank => ?_
  rcases (by simpa [isBlank] using hblank : c = ' ' ∨ c = '\t') with rfl | rfl <;> cases h

theorem isBreak_of_isWord {c : Char} (h : isWord c = true) : isBreak c = false := by
  refine Bool.eq_false_iff.2 fun hbreak => ?_
  rcases (by simpa [isBreak] using hbreak : (((c = '\n' ∨ c = '\r') ∨ c = '\u0085') ∨
    c = '\u2028') ∨ c = '\u2029') with (((rfl | rfl) | rfl) | rfl) | rfl <;> cases h

theorem ne_of_isWord {c d : Char} (h : isWord c = true) (hd : isWord d = false) : c ≠ d := by
  rintro rfl
  exact absurd h (by simp [hd])

theorem PlainRest.of_isWord {cs : List Char} (h : ∀ c ∈ cs, isWord c = true) :
    PlainRest false cs := by
  induction cs with
  | nil => exact .done
  | cons c cs ih =>
    obtain ⟨hc, hcs⟩ := List.forall_mem_cons.1 h
    exact .char (isBlank_of_isWord hc) (isBreak_of_isWord hc)
      (fun e => absurd e (ne_of_isWord hc (by decide))) (fun e => nomatch e) (ih hcs)

/-- A word that is no dash. -/
theorem IsPlain.of_isWord {cs : List Char} (h : ∀ c ∈ cs, isWord c = true) (hne : cs ≠ [])
    (hdash : cs ≠ ['-']) : IsPlain cs := by
  obtain ⟨c, cs, rfl⟩ := List.exists_cons_of_ne_nil hne
  obtain ⟨hc, hcs⟩ := List.forall_mem_cons.1 h
  have hcolon : c ≠ ':' := ne_of_isWord hc (by decide)
  have hindicator : c ∉ leadingIndicators := fun hd => by
    have hnone : leadingIndicators.all (!isWord ·) = true := rfl
    exact absurd hc (by simpa using List.all_eq_true.1 hnone c hd)
  have hnext (e : c = '-') : blankNext cs = false := by
    obtain ⟨d, ds, rfl⟩ : ∃ d ds, cs = d :: ds := by
      refine List.exists_cons_of_ne_nil ?_
      rintro rfl
      exact hdash (by rw [e])
    have hd := hcs d List.mem_cons_self
    simp [blankNext, isBlank_of_isWord hd, isBreak_of_isWord hd]
  refine ⟨?_, by simp [blankNext, isBlank_of_isWord hc, isBreak_of_isWord hc], ?_⟩
  · simpa [startsWithIndicator, hindicator, hcolon, ne_of_isWord hc (d := '?') (by decide)]
      using hnext
  · exact .char (isBlank_of_isWord hc) (isBreak_of_isWord hc) (fun e => absurd e hcolon)
      (fun _ => ne_of_isWord hc (by decide)) (.of_isWord hcs)

/-- A key in front of its colon. -/
theorem readPlain_key {c : Char} {cs : List Char} (hc : c.isAlpha = true)
    (h : ∀ d ∈ c :: cs, isWord d = true) (n : Nat) (rest : List Char) (m : Mark) :
    readPlain false n ⟨c :: cs ++ ':' :: ' ' :: rest, m⟩ =
      .ok (⟨c :: cs, false⟩, ⟨':' :: ' ' :: rest, m.on (c :: cs)⟩) := by
  have hrun : plainRun false (c :: cs ++ ':' :: ' ' :: rest) = c :: cs := by
    clear hc
    generalize c :: cs = w at h
    induction w with
    | nil => rfl
    | cons d w ih =>
      obtain ⟨hd, hw⟩ := List.forall_mem_cons.1 h
      rw [List.cons_append, plainRun_cons (isBlank_of_isWord hd) (isBreak_of_isWord hd)
        (fun e => absurd e (ne_of_isWord hd (by decide))), ih hw]
  have hkey : KeyNext (c :: (cs ++ ':' :: ' ' :: rest)) := by simpa [KeyNext] using hc
  rw [readPlain, readPlainFrom,
    if_neg (by simp [hkey.documentMarkerNext_eq, hkey.ne (d := '#') (by decide)])]
  simp only [hrun, Cursor.pass_append, colonClash_block]
  rfl

/-! ## Texts that are written plain -/

theorem isBlank_of_isPrintable {c : Char} (h : isPrintable c = true) (hc : c ≠ ' ') :
    isBlank c = false := by
  have htab : c ≠ '\t' := by
    rintro rfl
    exact absurd h (by decide)
  simp [isBlank, hc, htab]

theorem PlainRest.of_inner {gap : Bool} {c : Char} {cs : List Char}
    (hprint : ∀ d ∈ c :: cs, isPrintable d = true) (hbreak : ∀ d ∈ c :: cs, isBreak d = false)
    (hinner : hasInnerIndicator (c :: cs) = false) (hlast : (c :: cs).getLast? ≠ some ' ')
    (hcolon : c = ':' → blankNext cs = false) (hhash : gap = true → c ≠ '#') :
    PlainRest gap (c :: cs) := by
  induction cs generalizing gap c with
  | nil =>
    have hc : c ≠ ' ' := by simpa using hlast
    exact .char (isBlank_of_isPrintable (hprint _ List.mem_cons_self) hc)
      (hbreak _ List.mem_cons_self) hcolon hhash .done
  | cons d ds ih =>
    obtain ⟨hprintc, hprintd⟩ := List.forall_mem_cons.1 hprint
    obtain ⟨hbreakc, hbreakd⟩ := List.forall_mem_cons.1 hbreak
    have hlastd : (d :: ds).getLast? ≠ some ' ' := by simpa using hlast
    obtain ⟨⟨hcolond, hhashd⟩, hinnerd⟩ : ((d = ':' → blankNext ds = false) ∧
        (d = '#' → isBlank c = false ∧ isBreak c = false)) ∧
        hasInnerIndicator (d :: ds) = false := by
      simpa [hasInnerIndicator] using hinner
    by_cases hc : c = ' '
    · subst hc
      exact .blank (ih hprintd hbreakd hinnerd hlastd hcolond fun _ hd => nomatch (hhashd hd).1)
    · exact .char (isBlank_of_isPrintable hprintc hc) hbreakc hcolon hhash
        (ih hprintd hbreakd hinnerd hlastd hcolond fun e => nomatch e)

theorem IsPlain.of_allowsPlain {cs : List Char} (hne : cs ≠ []) (h : allowsPlain cs = true) :
    IsPlain cs := by
  obtain ⟨c, cs, rfl⟩ := List.exists_cons_of_ne_nil hne
  simp only [allowsPlain, Bool.and_eq_true, Bool.not_eq_true'] at h
  obtain ⟨⟨⟨⟨⟨⟨hprint, hbreak⟩, -⟩, hstart⟩, hinner⟩, hhead⟩, hlast⟩ := h
  have hprint : ∀ d ∈ c :: cs, isPrintable d = true := by simpa using hprint
  have hbreak : ∀ d ∈ c :: cs, isBreak d = false := by simpa using hbreak
  have hlast : (c :: cs).getLast? ≠ some ' ' := by
    intro e
    rw [e] at hlast
    cases hlast
  have hc : c ≠ ' ' := by
    rintro rfl
    cases hhead
  have hindicator : leadingIndicators.contains c = false ∧
      (c = '?' ∨ c = ':' ∨ c = '-' → blankNext cs = false) := by
    simpa [startsWithIndicator, or_assoc] using hstart
  refine ⟨hstart, ?_, .of_inner hprint hbreak hinner hlast
    (fun e => hindicator.2 (.inr (.inl e))) fun _ e => ?_⟩
  · simp [blankNext, isBlank_of_isPrintable (hprint _ List.mem_cons_self) hc,
      hbreak _ List.mem_cons_self]
  · rw [e] at hindicator
    exact absurd hindicator.1 (by decide)

end CacheActivity.Yaml
