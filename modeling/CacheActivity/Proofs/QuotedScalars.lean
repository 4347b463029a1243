import CacheActivity.Proofs.PlainScalars

/-!
# Quoted scalars

What stands between quotes is a row of units, each of which is read as one character, and of gaps
between them (`Inside`). Reading a quoted scalar gives the characters and the folded gaps
(`readQuoted_of_inside`), and that is the text that was written, between single quotes
(`inside_of_allowsSingleQuotes`) as well as between double ones (`inside_double`).
-/

namespace CacheActivity.Yaml

/-- The number that a further digit to a base makes of one. -/
def digitStep (base n : Nat) (c : Char) : Option Nat :=
  match Text.hexValue? c with
  | some d => if d < base then some (base * n + d) else none
  | none => none

theorem inBase?_of_ne_nil (base : Nat) {cs : List Char} (hne : cs ≠ []) :
    Text.inBase? base cs = cs.foldlM (digitStep base) 0 := by
  rw [Text.inBase?, if_neg (by simpa using hne)]
  rfl

theorem hexStep_digitChar (n : Nat) {d : Nat} (hd : d < 16) :
    digitStep 16 n d.digitChar.toUpper = some (16 * n + d) := by
  have hvalue : ∀ d < 16, Text.hexValue? (Nat.digitChar d).toUpper = some d := by decide
  simp [digitStep, hvalue d hd, hd]

theorem foldlM_toDigits (n : Nat) :
    ((Nat.toDigits 16 n).map Char.toUpper).foldlM (digitStep 16) 0 = some n := by
  induction n using Nat.strongRecOn with
  | ind n ih =>
    rw [Nat.toDigits_eq_if (by decide)]
    split
    · rename_i h
      simpa using hexStep_digitChar 0 h
    · rename_i h
      have hlt : n / 16 < n := by omega
      have hlast := hexStep_digitChar (n / 16) (Nat.mod_lt n (by decide : 0 < 16))
      rw [Nat.div_add_mod] at hlast
      rw [List.map_append, List.foldlM_append, ih _ hlt]
      simp [hlast]

theorem foldlM_zeros (k : Nat) : (List.replicate k '0').foldlM (digitStep 16) 0 = some 0 := by
  induction k with
  | zero => rfl
  | succ k ih => exact ih

theorem length_hexDigits {length n : Nat} (h : (Nat.toDigits 16 n).length ≤ length) :
    (hexDigits length n).length = length := by
  simp only [hexDigits, List.length_append, List.length_replicate, List.length_map]
  omega

theorem hexDigits_ne_nil (length n : Nat) : hexDigits length n ≠ [] :=
  List.append_ne_nil_of_right_ne_nil _ (by simp [Nat.toDigits_ne_nil])

theorem inBase?_hexDigits (length n : Nat) : Text.inBase? 16 (hexDigits length n) = some n := by
  rw [inBase?_of_ne_nil 16 (hexDigits_ne_nil length n)]
  simp [hexDigits, foldlM_zeros, foldlM_toDigits]

section Units

variable {single : Bool} {since : Mark}

theorem length_lt_of_readEscape {c k : Cursor} {text : List Char}
    (h : readEscape since c = .ok (text, k)) : k.rest.length < c.rest.length := by
  unfold readEscape at h
  split at h
  · rename_i letter cs hrest
    split at h
    · cases h
      simp only [Cursor.pass, hrest, List.length_drop, List.length_cons]
      omega
    · dsimp only at h
      split at h
      · cases h
      · split at h
        · cases h
          simp only [Cursor.pass, hrest, List.length_drop, List.length_cons]
          omega
        · cases h
    · cases h
  · cases h

/-- A run ends before its fuel does. -/
theorem readQuotedRun_fuel {n n' : Nat} {text : List Char} {c : Cursor}
    (h : c.rest.length < n) (h' : c.rest.length < n') :
    readQuotedRun single since n text c = readQuotedRun single since n' text c := by
  induction n generalizing n' text c with
  | zero => omega
  | succ n ih =>
    obtain ⟨n', rfl⟩ : ∃ k, n' = k + 1 := ⟨n' - 1, by omega⟩
    rw [readQuotedRun, readQuotedRun]
    split
    · rfl
    · rename_i ch cs hrest
      have hlen : c.rest.length = cs.length + 1 := by rw [hrest]; rfl
      have hpass (k : Nat) (hk : 0 < k) (text : List Char) :
          readQuotedRun single since n text (c.pass k) =
            readQuotedRun single since n' text (c.pass k) := by
        refine ih ?_ ?_ <;> simp only [Cursor.pass, List.length_drop] <;> omega
      rw [hpass 1 Nat.one_pos, hpass 2 Nat.two_pos]
      cases he : readEscape since c with
      | error e => rfl
      | ok p =>
        have hlt := length_lt_of_readEscape he
        have hescape : readQuotedRun single since n (text ++ p.1) p.2 =
            readQuotedRun single since n' (text ++ p.1) p.2 := ih (by omega) (by omega)
        simp only [bind, Except.bind, hescape]

variable (single) in
/-- Characters that are read as one character, whatever stands behind them. -/
structure IsUnit (e : List Char) (c : Char) : Prop where
  next : blankNext e = false
  read (since : Mark) (n : Nat) (text rest : List Char) (m : Mark) :
    readQuotedRun single since (n + 1) text ⟨e ++ rest, m⟩ =
      readQuotedRun single since n (text ++ [c]) ⟨rest, m.on e⟩

theorem IsUnit.length_pos {e : List Char} {c : Char} (h : IsUnit single e c) : 0 < e.length := by
  refine List.length_pos_iff.2 ?_
  rintro rfl
  cases h.next

theorem IsUnit.single_char {c : Char} (hblank : isBlank c = false) (hbreak : isBreak c = false)
    (hc : c ≠ '\'') : IsUnit true [c] c where
  next := by simp [blankNext, hblank, hbreak]
  read since n text rest m := by
    simp [readQuotedRun, hblank, hbreak, hc, Cursor.pass]

theorem IsUnit.apostrophe : IsUnit true ['\'', '\''] '\'' where
  next := rfl
  read since n text rest m := by
    simp [readQuotedRun, isBlank, isBreak, Cursor.pass]

theorem IsUnit.double_char {c : Char} (hblank : isBlank c = false) (hbreak : isBreak c = false)
    (hc : c ≠ '"') (hc' : c ≠ '\\') : IsUnit false [c] c where
  next := by simp [blankNext, hblank, hbreak]
  read since n text rest m := by
    simp [readQuotedRun, hblank, hbreak, hc, hc', Cursor.pass]

/-- An escape is a unit if the reader of escapes takes it for its character. -/
theorem IsUnit.escape {letter : Char} {ds : List Char} {c : Char} (hbreak : isBreak letter = false)
    (h : ∀ since rest m, readEscape since ⟨'\\' :: letter :: ds ++ rest, m⟩ =
      .ok ([c], ⟨rest, m.on ('\\' :: letter :: ds)⟩)) :
    IsUnit false ('\\' :: letter :: ds) c where
  next := rfl
  read since n text rest m := by
    have h := h since rest m
    have hslash : (isBlank '\\' || isBreak '\\') = false := rfl
    rw [List.cons_append, List.cons_append] at h
    simp [readQuotedRun, hslash, breakNext, hbreak, h, bind, Except.bind]

end Units

theorem readEscape_letter {letter c : Char} (h : escapeText? letter = some [c]) (since : Mark)
    (rest : List Char) (m : Mark) : readEscape since ⟨['\\', letter] ++ rest, m⟩ =
      .ok ([c], ⟨rest, m.on ['\\', letter]⟩) := by
  simp [readEscape, h, Cursor.pass]

theorem readEscape_code {letter c : Char} {length : Nat} (htext : escapeText? letter = none)
    (hcode : codeLength? letter = some length)
    (hdigits : (Nat.toDigits 16 c.toNat).length ≤ length) (since : Mark) (rest : List Char)
    (m : Mark) :
    readEscape since ⟨'\\' :: letter :: hexDigits length c.toNat ++ rest, m⟩ =
      .ok ([c], ⟨rest, m.on ('\\' :: letter :: hexDigits length c.toNat)⟩) := by
  have hlen := length_hexDigits hdigits
  have htake : (hexDigits length c.toNat ++ rest).take length = hexDigits length c.toNat :=
    List.take_left' hlen
  have hdrop : (hexDigits length c.toNat ++ rest).drop length = rest := List.drop_left' hlen
  have hchar : charOfCode? c.toNat = some c := by
    simp [charOfCode?, show c.toNat.isValidChar from c.valid]
  simp only [readEscape, List.cons_append, htext, hcode, Cursor.pass, List.drop_succ_cons,
    List.drop_zero, htake, hdrop, hlen, if_pos, inBase?_hexDigits, hchar]
  rw [← Mark.on_append]
  rfl

/-- A character that is no blank is written between double quotes as a unit. -/
theorem isUnit_escapeChar {c : Char} (hc : c ≠ ' ') : IsUnit false (escapeChar c) c := by
  unfold escapeChar
  cases h : escapeLetter? c with
  | some letter =>
    have htext : escapeText? letter = some [c] ∧ isBreak letter = false := by
      unfold escapeLetter? at h
      split at h <;> cases h <;> exact ⟨rfl, rfl⟩
    exact .escape htext.2 (readEscape_letter htext.1)
  | none =>
    have hne {d : Char} (hd : escapeLetter? d ≠ none) : c ≠ d := by
      rintro rfl
      exact hd h
    dsimp only
    split
    · rename_i hprint
      have hbreak : isBreak c = false := by
        simp [isBreak, hne (d := '\n') (by decide), hne (d := '\r') (by decide),
          hne (d := '\u0085') (by decide), hne (d := '\u2028') (by decide),
          hne (d := '\u2029') (by decide)]
      exact .double_char (isBlank_of_isPrintable hprint hc) hbreak (hne (by decide))
        (hne (by decide))
    · have hle {k : Nat} (hk : 0 < k) (h : c.toNat < 16 ^ k) :
          (Nat.toDigits 16 c.toNat).length ≤ k := (Nat.length_toDigits_le_iff (by decide) hk).2 h
      split
      · exact .escape rfl (readEscape_code rfl rfl (hle (by decide) (by omega)))
      · split
        · exact .escape rfl (readEscape_code rfl rfl (hle (by decide) (by omega)))
        · exact .escape rfl (readEscape_code rfl rfl (hle (by decide) c.val.toNat_lt))

/-! ## Between quotes -/

/-- What stands between quotes behind a gap, and the text of both. A line behind a break is
indented. -/
inductive Inside (single : Bool) : Gap → List Char → List Char → Prop
  | close (g : Gap) : Inside single g [] g.fold
  | unit {g : Gap} {e : List Char} {c : Char} {cs text : List Char} (h : IsUnit single e c)
      (hcs : Inside single .none cs text) : Inside single g (e ++ cs) (g.fold ++ c :: text)
  | blank {g : Gap} {cs text : List Char} (hcs : Inside single (g.addBlank ' ') cs text) :
      Inside single g (' ' :: cs) text
  | lineBreak {g : Gap} {c d : Char} {cs text : List Char} (h : isBreak c = true) (hc : c ≠ '\r')
      (hd : d = ' ' ∨ isBreak d = true)
      (hcs : Inside single (g.addBreak (breakText c)) (d :: cs) text) :
      Inside single g (c :: d :: cs) text

section Reading

variable {single : Bool} {since : Mark}

def quoteChar (single : Bool) : Char := if single then '\'' else '"'

variable (single since) in
/-- Goes on with a quoted scalar in a gap. -/
def resumeQuoted (fuel : Nat) (text : List Char) (g : Gap) (c : Cursor) :
    Except SyntaxError (List Char × Cursor) := do
  let (g, c) ← g.read .quotedScalar since 0 c.rest c.mark
  readQuotedFrom single since fuel (text ++ g.fold) c

theorem resumeQuoted_of_text {cs : List Char} (h : blankNext cs = false) (fuel : Nat)
    (text : List Char) (g : Gap) (m : Mark) :
    resumeQuoted single since fuel text g ⟨cs, m⟩ =
      readQuotedFrom single since fuel (text ++ g.fold) ⟨cs, m⟩ := by
  rw [resumeQuoted, Gap.read_of_text _ _ _ _ (.inl h)]
  rfl

variable (single since) in
/-- Goes on with a quoted scalar behind a run. -/
def behindRun (fuel : Nat) :
    List Char × QuotedStop × Cursor → Except SyntaxError (List Char × Cursor)
  | (text, .quote, c) => .ok (text, c.pass 1)
  | (text, .gap, c) => resumeQuoted single since fuel text .none c
  | (text, .escapedBreak, c) => resumeQuoted single since fuel text .escaped c

theorem readQuotedFrom_succ {cs : List Char} (hne : cs ≠ []) {m : Mark} (hm : 0 < m.column)
    (fuel : Nat) (text : List Char) :
    readQuotedFrom single since (fuel + 1) text ⟨cs, m⟩ =
      readQuotedRun single since (cs.length + 1) text ⟨cs, m⟩ >>= behindRun single since fuel := by
  rw [readQuotedFrom, if_neg (by simp [Nat.ne_of_gt hm]), if_neg hne]
  refine congrArg (readQuotedRun single since (cs.length + 1) text ⟨cs, m⟩ >>= ·) ?_
  funext ⟨text, stop, c⟩
  cases stop <;> rfl

variable (single since) in
/-- Where a gap may start, going on behind the last character is going on in a gap. -/
theorem exists_resumeQuoted {cs : List Char} (hne : cs ≠ []) {m : Mark} (hm : 0 < m.column)
    (fuel : Nat) (text : List Char) :
    ∃ n, fuel ≤ n ∧ readQuotedFrom single since (fuel + 1) text ⟨cs, m⟩ =
      resumeQuoted single since n text .none ⟨cs, m⟩ := by
  cases hnext : blankNext cs with
  | false =>
    refine ⟨fuel + 1, Nat.le_succ _, ?_⟩
    rw [resumeQuoted_of_text hnext]
    simp [Gap.none, Gap.fold]
  | true =>
    obtain ⟨c, cs, rfl⟩ := List.exists_cons_of_ne_nil hne
    have hrun : readQuotedRun single since ((c :: cs).length + 1) text ⟨c :: cs, m⟩ =
        .ok (text, .gap, ⟨c :: cs, m⟩) := by
      rw [readQuotedRun]
      exact if_pos hnext
    refine ⟨fuel, Nat.le_refl _, ?_⟩
    rw [readQuotedFrom_succ hne hm, hrun]
    rfl

theorem readQuotedFrom_unit {e : List Char} {c : Char} (h : IsUnit single e c) {cs : List Char}
    (hne : cs ≠ []) {m : Mark} (hm : 0 < m.column) (fuel : Nat) (text : List Char) :
    readQuotedFrom single since (fuel + 1) text ⟨e ++ cs, m⟩ =
      readQuotedFrom single since (fuel + 1) (text ++ [c]) ⟨cs, m.on e⟩ := by
  have hlen := h.length_pos
  have hfuel : cs.length < (e ++ cs).length := by
    rw [List.length_append]
    omega
  rw [readQuotedFrom_succ (by simp [hne]) hm, readQuotedFrom_succ hne (Nat.lt_of_lt_of_le hm
    (Nat.le_add_right _ _)), h.read]
  exact congrArg (· >>= _) (readQuotedRun_fuel hfuel (Nat.lt_succ_self _))

theorem readQuotedFrom_close {cs : List Char} (hcs : cs.head? ≠ some '\'') {m : Mark}
    (hm : 0 < m.column) (fuel : Nat) (text : List Char) :
    readQuotedFrom single since (fuel + 1) text ⟨quoteChar single :: cs, m⟩ =
      .ok (text, ⟨cs, m.on [quoteChar single]⟩) := by
  rw [readQuotedFrom_succ (List.cons_ne_nil _ _) hm]
  cases single <;>
    simp [readQuotedRun, quoteChar, isBlank, isBreak, hcs, Cursor.pass, behindRun, bind,
      Except.bind]

variable (since) in
/-- The inside of a quoted scalar, from one of its gaps on, and its closing quote. -/
theorem Inside.resume {g : Gap} {inside text tail : List Char} (h : Inside single g inside text)
    (htail : tail.head? ≠ some '\'') (fuel : Nat) (front : List Char) (m : Mark)
    (hfuel : inside.length < fuel) (hm : 0 < m.column ∨ blankNext inside = true ∧ inside ≠ []) :
    ∃ m', resumeQuoted single since fuel front g ⟨inside ++ quoteChar single :: tail, m⟩ =
      .ok (front ++ text, ⟨tail, m'⟩) := by
  have hquote : blankNext (quoteChar single :: tail) = false := by cases single <;> rfl
  induction h generalizing fuel front m with
  | close g =>
    obtain ⟨fuel, rfl⟩ := Nat.exists_eq_add_of_lt hfuel
    have hm : 0 < m.column := hm.resolve_right fun h => h.2 rfl
    exact ⟨_, (resumeQuoted_of_text hquote _ _ _ _).trans (readQuotedFrom_close htail hm _ _)⟩
  | @unit g e c cs text hunit _ ih =>
    have hm : 0 < m.column := hm.resolve_right fun h => by
      rw [blankNext_append hunit.next] at h
      cases h.1
    have he : 0 < e.length := hunit.length_pos
    have hm' : 0 < (m.on e).column := Nat.lt_of_lt_of_le hm (Nat.le_add_right _ _)
    rw [List.length_append] at hfuel
    obtain ⟨fuel, rfl⟩ : ∃ n, fuel = n + 1 := ⟨fuel - 1, by omega⟩
    rw [List.append_assoc, resumeQuoted_of_text (blankNext_append hunit.next _),
      readQuotedFrom_unit hunit (by simp) hm]
    have htext : front ++ (g.fold ++ c :: text) = front ++ g.fold ++ [c] ++ text := by simp
    rw [htext]
    have hne : cs ++ quoteChar single :: tail ≠ [] := by simp
    obtain ⟨n, hn, hresume⟩ := exists_resumeQuoted single since hne hm' fuel
      (front ++ g.fold ++ [c])
    rw [hresume]
    exact ih n _ _ (by omega) (.inl hm')
  | @blank g cs text _ ih =>
    obtain ⟨m', h⟩ := ih fuel front (m.on [' ']) (by simpa using Nat.lt_of_succ_lt hfuel)
      (.inl (Nat.succ_pos _))
    refine ⟨m', ?_⟩
    rw [← h]
    exact congrArg (· >>= _) (Gap.read_blank _ _ _ _ _ _)
  | @lineBreak g c d cs text hbreak hc hd _ ih =>
    have hnext : blankNext (d :: cs) = true := by
      rcases hd with rfl | hd
      · rfl
      · simp [blankNext, hd]
    obtain ⟨m', h⟩ := ih fuel front (m.newLine [c]) (Nat.lt_of_succ_lt hfuel)
      (.inr ⟨hnext, List.cons_ne_nil _ _⟩)
    refine ⟨m', ?_⟩
    rw [← h]
    exact congrArg (· >>= _) (Gap.read_break _ _ _ _ hbreak hc _ _)

end Reading

theorem readQuoted_of_inside {single : Bool} {inside text tail : List Char}
    (h : Inside single .none inside text) (htail : tail.head? ≠ some '\'') (m : Mark) :
    ∃ m', readQuoted single ⟨quoteChar single :: (inside ++ quoteChar single :: tail), m⟩ =
      .ok (text, ⟨tail, m'⟩) := by
  have hm : 0 < (m.on [quoteChar single]).column := Nat.succ_pos _
  have hne : inside ++ quoteChar single :: tail ≠ [] := by simp
  obtain ⟨n, hn, hresume⟩ := exists_resumeQuoted single m hne hm
    (quoteChar single :: (inside ++ quoteChar single :: tail)).length []
  have hlen : inside.length < n := by
    refine Nat.lt_of_lt_of_le ?_ hn
    rw [List.length_cons, List.length_append]
    omega
  obtain ⟨m', hread⟩ := h.resume m htail n [] _ hlen (.inl hm)
  exact ⟨m', hresume.trans hread⟩

theorem inside_double (cs bs : List Char) :
    Inside false ⟨bs, false, [], []⟩ (cs.flatMap escapeChar) (bs ++ cs) := by
  induction cs generalizing bs with
  | nil =>
    rw [List.append_nil]
    exact .close ⟨bs, false, [], []⟩
  | cons c cs ih =>
    rw [List.flatMap_cons]
    by_cases hc : c = ' '
    · subst hc
      have h := ih (bs ++ [' '])
      rw [List.append_assoc] at h
      exact .blank h
    · exact .unit (g := ⟨bs, false, [], []⟩) (isUnit_escapeChar hc) (ih [])

/-- The gap in front of what is left of a text between single quotes: blanks, which no break comes
behind, or breaks, which no blank comes behind. -/
inductive Fits : Gap → List Char → Prop
  | blanks {bs cs : List Char} (h : bs ≠ [] → ∀ c ∈ cs.head?, isBreak c = false) :
      Fits ⟨bs, false, [], []⟩ cs
  | breaks {b : Char} {os cs : List Char} (hb : b ≠ '\n') (h : cs.head? ≠ some ' ') :
      Fits ⟨[], true, [b], os⟩ cs

theorem hasPair_cons {p q : Char → Bool} {c : Char} {cs : List Char}
    (h : hasPair p q (c :: cs) = false) :
    (p c = true → ∀ d ∈ cs.head?, q d = false) ∧ hasPair p q cs = false := by
  cases cs with
  | nil => simp [hasPair]
  | cons d cs => simpa [hasPair] using h

theorem exists_singleQuotedChars_broken (cs : List Char) :
    ∃ d ds, singleQuotedChars true cs = d :: ds ∧ (d = ' ' ∨ isBreak d = true) := by
  cases cs with
  | nil => exact ⟨' ', [' '], rfl, .inl rfl⟩
  | cons c cs =>
    rw [singleQuotedChars]
    split
    · rename_i h
      exact ⟨c, _, rfl, .inr h⟩
    · exact ⟨' ', _, rfl, .inl rfl⟩

section Single

variable {c : Char} {cs : List Char} {g : Gap}

theorem inside_break (hprint : isPrintable c = true) (hbreak : isBreak c = true) (hline : c ≠ '\n')
    (hspace : cs.head? ≠ some ' ') (hfits : Fits g (c :: cs))
    (ih : ∀ {g}, Fits g cs → Inside true g (singleQuotedChars g.broken cs) (g.fold ++ cs)) :
    Inside true g (singleQuotedChars g.broken (c :: cs)) (g.fold ++ c :: cs) := by
  have hne {d : Char} (hd : isPrintable d = false) : c ≠ d := by
    rintro rfl
    exact absurd hprint (by simp [hd])
  have htext : breakText c = [c] := by
    refine if_pos ?_
    simpa [isBreak, hline, hne (d := '\r') rfl, hne (d := '\u0085') rfl] using hbreak
  obtain ⟨d, ds, hchars, hd⟩ := exists_singleQuotedChars_broken cs
  rw [singleQuotedChars, if_pos hbreak, hchars]
  refine .lineBreak hbreak (hne rfl) hd ?_
  rw [htext, ← hchars]
  cases hfits with
  | @blanks bs _ hnext =>
    have hbs : bs = [] := Decidable.byContradiction fun hbs =>
      absurd hbreak (by simp [hnext hbs c rfl])
    subst hbs
    have hgap : Fits ⟨[], true, [c], []⟩ cs := .breaks hline hspace
    have h := ih hgap
    simpa [Gap.fold, Gap.addBreak, hline] using h
  | @breaks b os _ hb _ =>
    have hgap : Fits ⟨[], true, [b], os ++ [c]⟩ cs := .breaks hb hspace
    have h := ih hgap
    simpa [Gap.fold, Gap.addBreak, hb] using h

theorem inside_char (hprint : isPrintable c = true) (hbreak : isBreak c = false)
    (hblank : c = ' ' → ∀ d ∈ cs.head?, isBreak d = false) (hfits : Fits g (c :: cs))
    (ih : ∀ {g}, Fits g cs → Inside true g (singleQuotedChars g.broken cs) (g.fold ++ cs)) :
    Inside true g (singleQuotedChars g.broken (c :: cs)) (g.fold ++ c :: cs) := by
  have hchars (broken : Bool) : singleQuotedChars broken (c :: cs) =
      (if broken then lineIndent else []) ++ ((if c = '\'' then ['\'', '\''] else [c]) ++
        singleQuotedChars false cs) := by
    simp [singleQuotedChars, hbreak]
  rw [hchars]
  by_cases hspace : c = ' '
  · subst hspace
    cases hfits with
    | breaks _ h => exact absurd rfl h
    | @blanks bs =>
      have h : Inside true ⟨bs ++ [' '], false, [], []⟩ (singleQuotedChars false cs)
          (bs ++ [' '] ++ cs) := ih (.blanks fun _ => hblank rfl)
      rw [List.append_assoc] at h
      exact .blank h
  · have hunit : IsUnit true (if c = '\'' then ['\'', '\''] else [c]) c := by
      split
      · rename_i h
        rw [h]
        exact .apostrophe
      · rename_i h
        exact .single_char (isBlank_of_isPrintable hprint hspace) hbreak h
    have h := Inside.unit (g := g) hunit (ih (.blanks fun h => absurd rfl h))
    cases hfits with
    | blanks => exact h
    | breaks => exact .blank (.blank h)

end Single

theorem inside_single {g : Gap} {cs : List Char} (hprint : ∀ c ∈ cs, isPrintable c = true)
    (hline : ∀ c ∈ cs, c ≠ '\n') (hpairs : hasPair (· = ' ') isBreak cs = false)
    (hpairs' : hasPair isBreak (· = ' ') cs = false) (hfits : Fits g cs) :
    Inside true g (singleQuotedChars g.broken cs) (g.fold ++ cs) := by
  induction cs generalizing g with
  | nil =>
    rw [List.append_nil]
    cases hfits with
    | blanks => exact .close _
    | breaks => exact .blank (.blank (.close _))
  | cons c cs ih =>
    obtain ⟨hprintc, hprint⟩ := List.forall_mem_cons.1 hprint
    obtain ⟨hlinec, hline⟩ := List.forall_mem_cons.1 hline
    obtain ⟨hblank, hpairs⟩ := hasPair_cons hpairs
    obtain ⟨hbreak, hpairs'⟩ := hasPair_cons hpairs'
    have ih {g : Gap} (h : Fits g cs) := ih hprint hline hpairs hpairs' h
    cases hc : isBreak c with
    | true =>
      have hspace : cs.head? ≠ some ' ' := fun e => by simpa using hbreak hc ' ' e
      exact inside_break hprintc hc hlinec hspace hfits ih
    | false =>
      exact inside_char hprintc hc (fun e => hblank (by simp [e])) hfits ih

/-- Texts that may stand between single quotes are read from there. -/
theorem inside_of_allowsSingleQuotes {cs : List Char} (hline : '\n' ∉ cs)
    (h : allowsSingleQuotes cs = true) :
    Inside true .none (singleQuotedChars false cs) cs := by
  simp only [allowsSingleQuotes, Bool.and_eq_true, Bool.not_eq_true', List.all_eq_true] at h
  exact inside_single h.1.1 (fun c hc e => hline (e ▸ hc)) h.1.2 h.2
    (.blanks fun h => absurd rfl h)

end CacheActivity.Yaml
