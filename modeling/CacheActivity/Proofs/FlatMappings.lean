import CacheActivity.Proofs.WrittenScalars
import CacheActivity.Yaml.Event

/-!
# Mappings without indentation

A line of a mapping is a key, a colon and a blank, and a value. From the start of such a line the
tokens of a member are handed out, and the scan is at the start of the next one (`hands_entry`). So
a text of such lines has the tokens of its members and no error (`tokens_entries`).
-/

namespace CacheActivity.Yaml

namespace Scan

section Steps

variable {s s' s'' : Scan}

/-- That at most so many steps hand out tokens of some kinds and lead from one scan to another. -/
def Hands (n : Nat) (ks : List TokenKind) (s s' : Scan) : Prop :=
  ∃ k ≤ n, ∃ ts : List Token, ts.map Token.kind = ks ∧
    ∀ fuel, run (k + fuel) s = (ts ++ (run fuel s').1, (run fuel s').2)

theorem Hands.of_run (h : ∀ fuel, run fuel s = run fuel s') : Hands 0 [] s s' :=
  ⟨0, Nat.le_refl _, [], rfl, fun fuel => by simp [h]⟩

theorem Hands.trans {n n' : Nat} {ks ks' : List TokenKind} (h : Hands n ks s s')
    (h' : Hands n' ks' s' s'') : Hands (n + n') (ks ++ ks') s s'' := by
  obtain ⟨k, hk, ts, rfl, hrun⟩ := h
  obtain ⟨k', hk', ts', rfl, hrun'⟩ := h'
  refine ⟨k + k', Nat.add_le_add hk hk', ts ++ ts', List.map_append, fun fuel => ?_⟩
  rw [Nat.add_assoc, hrun, hrun']
  simp

theorem Hands.mono {n n' : Nat} {ks : List TokenKind} (h : Hands n ks s s') (hn : n ≤ n') :
    Hands n' ks s s' := by
  obtain ⟨k, hk, h⟩ := h
  exact ⟨k, Nat.le_trans hk hn, h⟩

theorem Hands.of_advance (hstale : s.dropAllStale = .ok s) (hready : s.isReady = false)
    (h : s.advance = .ok s') : Hands 1 [] s s' := by
  refine ⟨1, Nat.le_refl _, [], rfl, fun fuel => ?_⟩
  have hsame : (if s.queue.isEmpty then .ok s else s.dropAllStale) = .ok s := by
    rw [hstale, ite_self]
  rw [Nat.add_comm, run, hsame]
  simp [hready, h]

/-- Where no key can start, all tokens that wait are handed out. -/
theorem Hands.of_queue (c : Cursor) {ts : List Token} (hkinds : ∀ t ∈ ts, t.kind ≠ .streamEnd)
    (n : Nat) (i : Int) (o : List Int) (b : Bool) (cut : Option SyntaxError) :
    Hands ts.length (ts.map Token.kind) ⟨c, ts, n, i, o, none, [], b, cut⟩
      ⟨c, [], n + ts.length, i, o, none, [], b, cut⟩ := by
  refine ⟨ts.length, Nat.le_refl _, ts, rfl, fun fuel => ?_⟩
  induction ts generalizing n with
  | nil => rw [List.length_nil, Nat.zero_add, List.nil_append, Nat.add_zero]
  | cons t ts ih =>
    obtain ⟨ht, hts⟩ := List.forall_mem_cons.1 hkinds
    have hsame : (if (t :: ts).isEmpty then Except.ok (ε := SyntaxError)
        (⟨c, t :: ts, n, i, o, none, [], b, cut⟩ : Scan)
        else dropAllStale ⟨c, t :: ts, n, i, o, none, [], b, cut⟩) =
          .ok ⟨c, t :: ts, n, i, o, none, [], b, cut⟩ := rfl
    have hready : isReady ⟨c, t :: ts, n, i, o, none, [], b, cut⟩ = true := rfl
    rw [List.length_cons, Nat.add_right_comm, run]
    simp only [hsame, hready, ht, if_false, ih hts]
    rw [List.cons_append, Nat.add_assoc, Nat.add_comm 1]

end Steps

theorem toNextToken_of_text {s : Scan} {c : Char} {cs : List Char} (hrest : s.cursor.rest = c :: cs)
    (hnext : blankNext (c :: cs) = false) (hhash : c ≠ '#')
    (horder : s.mark.column = 0 → c ≠ byteOrderMark) (fuel : Nat) :
    s.toNextToken (fuel + 1) = s := by
  obtain ⟨⟨_, m⟩, _, _, _, _, _, _, _, _⟩ := s
  subst hrest
  obtain ⟨⟨hspace, htab⟩, hbreak⟩ : (c ≠ ' ' ∧ c ≠ '\t') ∧ isBreak c = false := by
    simpa [blankNext, isBlank] using hnext
  have horder : (decide (m.column = 0) && decide (c = byteOrderMark)) = false := by
    by_cases hm : m.column = 0
    · simp [horder hm]
    · simp [hm]
  have hpass : (⟨c :: cs, m⟩ : Cursor).pass 0 = ⟨c :: cs, m⟩ := rfl
  simp [toNextToken, horder, Cursor.passWhile, hspace, htab, hpass, hhash, breakNext, hbreak]

theorem closeBlocks_of_le {s : Scan} {column : Int} (h : s.indent ≤ column) :
    s.closeBlocks column = s := by
  have hclosing : closing column s.indent s.outer = (0, s.indent, s.outer) := by
    cases s.outer with
    | nil => rfl
    | cons o os => rw [closing, if_neg (Int.not_lt.2 h)]
  unfold closeBlocks
  split
  · rfl
  · simp [hclosing]

theorem advance_congr {s s' : Scan} (h : s.toNextToken (s.cursor.rest.length + 1) =
    s'.toNextToken (s'.cursor.rest.length + 1)) : s.advance = s'.advance := by
  unfold advance
  rw [h]

theorem run_of_advance {s s' : Scan} (hq : s.queue = []) (h : s.advance = .ok s') (fuel : Nat) :
    run (fuel + 1) s = run fuel s' := by
  simp [run, hq, h]

theorem run_congr {s s' : Scan} (hq : s.queue = []) (hq' : s'.queue = [])
    (h : s.advance = s'.advance) (fuel : Nat) : run fuel s = run fuel s' := by
  cases fuel with
  | zero => rfl
  | succ fuel => simp [run, hq, hq', h]

theorem advance_of_dispatch {s s' next : Scan} (c : Char) (cs : List Char)
    (hs : s.toNextToken (s.cursor.rest.length + 1) = s') (hcut : s'.cut = none)
    (hstale : s'.dropAllStale = .ok s') (hclose : s'.closeBlocks s'.mark.column = s')
    (hrest : s'.cursor.rest = c :: cs) (hnext : s'.dispatch c cs = .ok next)
    (hcut' : next.cut = none) : s.advance = .ok next := by
  have hneed (n : Nat) : s'.need n = .ok () := by simp [need, hcut]
  have hneed' : next.need 1 = .ok () := by simp [need, hcut']
  simp [advance, hs, hneed, hstale, hclose, hrest, hnext, hneed', bind, Except.bind]

theorem dispatch_plain {s : Scan} {c : Char} {cs : List Char} (hflow : s.inFlow = false)
    (hstart : s.mark.column = 0 → documentMarkerNext (c :: cs) = false)
    (hindicator : startsWithIndicator (c :: cs) = false) (hnext : blankNext (c :: cs) = false) :
    s.dispatch c cs = s.scanPlain := by
  obtain ⟨hlead, hmark⟩ : c ∉ leadingIndicators ∧
      (c = '?' ∨ c = ':' ∨ c = '-' → blankNext cs = false) := by
    simpa [startsWithIndicator, or_assoc] using hindicator
  have hblank {d : Char} (hd : d = '?' ∨ d = ':' ∨ d = '-') :
      (decide (c = d) && blankNext cs) = false := by
    by_cases hc : c = d
    · simp [hmark (hc ▸ hd)]
    · simp [hc]
  have hdocument : (decide (s.mark.column = 0) && documentMarkerNext (c :: cs)) = false := by
    by_cases hm : s.mark.column = 0
    · simp [hstart hm]
    · simp [hm]
  have hplain : startsPlain false c cs = true := by
    obtain ⟨hblankc, hbreakc⟩ : isBlank c = false ∧ isBreak c = false := by
      simpa [blankNext] using hnext
    by_cases hc : c = '?' ∨ c = ':' ∨ c = '-'
    · have hbehind := hmark hc
      cases cs with
      | nil => cases hbehind
      | cons d ds =>
        obtain ⟨hblankd, -⟩ : isBlank d = false ∧ isBreak d = false := by
          simpa [blankNext] using hbehind
        rcases hc with rfl | rfl | rfl <;> simp [startsPlain, hbehind, hblankd]
    · have hindicators : c ∉ indicators := by
        simp only [indicators, leadingIndicators, List.mem_cons, not_or] at hlead hc ⊢
        tauto
      simp [startsPlain, hblankc, hbreakc, hindicators]
  simp only [leadingIndicators, List.mem_cons, List.not_mem_nil, or_false, not_or] at hlead
  simp only [dispatch, hdocument, hlead, hflow, hblank (.inl rfl),
    hblank (.inr (.inl rfl)), hblank (.inr (.inr rfl)), hplain, Bool.false_or, Bool.false_and,
    Bool.and_false, decide_false, Bool.false_eq_true, if_false, if_true]

/-- At the start of a line, in a mapping or in front of one. -/
def member (opened : Bool) (rest : List Char) (m : Mark) (n : Nat) : Scan :=
  ⟨⟨rest, m⟩, [], n, if opened then 0 else -1, if opened then [-1] else [], none, [], true, none⟩

/-- Behind the colon of a member. -/
def value (rest : List Char) (m : Mark) (n : Nat) : Scan :=
  ⟨⟨rest, m⟩, [], n, 0, [-1], none, [], false, none⟩

/-- The name of a member. -/
structure IsKey (key : List Char) : Prop where
  head : ∃ c cs, key = c :: cs ∧ c.isAlpha = true
  word : ∀ c ∈ key, isWord c = true
  short : Text.byteLength key ≤ keyLimit

section Members

variable {opened : Bool} {key rest : List Char}

def keyToken (key : List Char) (m : Mark) : Token := ⟨.scalar .plain key, m, m.on key⟩

/-- Behind a key. -/
def behindKey (opened : Bool) (key rest : List Char) (m : Mark) (n : Nat) : Scan :=
  ⟨⟨':' :: ' ' :: rest, m.on key⟩, [keyToken key m], n, if opened then 0 else -1,
    if opened then [-1] else [], some ⟨n, m, opened⟩, [], false, none⟩

theorem advance_key (hkey : IsKey key) {m : Mark} (hm : m.column = 0) (n : Nat) :
    (member opened (key ++ ':' :: ' ' :: rest) m n).advance =
      .ok (behindKey opened key rest m n) := by
  obtain ⟨c, cs, rfl, hc⟩ := hkey.head
  have hnext : KeyNext (c :: (cs ++ ':' :: ' ' :: rest)) := by simpa [KeyNext] using hc
  have htext : blankNext (c :: (cs ++ ':' :: ' ' :: rest)) = false := by
    simp [blankNext, hnext.isBlank_eq, hnext.isBreak_eq]
  refine advance_of_dispatch c (cs ++ ':' :: ' ' :: rest)
    (toNextToken_of_text rfl htext (hnext.ne (by decide)) (fun _ => hnext.ne (by decide)) _) rfl
    rfl ?_ rfl ?_ rfl
  · exact closeBlocks_of_le (by cases opened <;> simp [member, mark, hm])
  · rw [dispatch_plain rfl (fun _ => hnext.documentMarkerNext_eq) hnext.startsWithIndicator_eq
      htext]
    have hread (i : Nat) : readPlain false i ⟨c :: (cs ++ ':' :: ' ' :: rest), m⟩ =
        .ok (⟨c :: cs, false⟩, ⟨':' :: ' ' :: rest, m.on (c :: cs)⟩) :=
      readPlain_key hc hkey.word i rest m
    cases opened <;> simp [scanPlain, member, noteKey, dropKey, inFlow, mark, hread, hm, push,
      behindKey, keyToken, bind, Except.bind]

/-- The tokens up to the value of a member. -/
def keyTokens (opened : Bool) (key : List Char) (m : Mark) : List Token :=
  (if opened then [] else [⟨.blockMappingStart, m, m⟩]) ++
    [⟨.key, m, m⟩, keyToken key m, ⟨.value, m.on key, (m.on key).on [':']⟩]

theorem dropAllStale_behindKey (hkey : IsKey key) (m : Mark) (n : Nat) :
    (behindKey opened key rest m n).dropAllStale = .ok (behindKey opened key rest m n) := by
  have hstale : isStale (m.on key) ⟨n, m, opened⟩ = false := by
    have hshort := hkey.short
    simp only [isStale, Mark.on]
    simp
    omega
  simp [dropAllStale, dropStale, behindKey, mark, hstale, bind, Except.bind]
  rfl

theorem advance_colon (hkey : IsKey key) (rest : List Char) {m : Mark} (hm : m.column = 0)
    (n : Nat) : (behindKey opened key rest m n).advance =
      .ok ⟨⟨' ' :: rest, (m.on key).on [':']⟩, keyTokens opened key m, n, 0, [-1], none, [], false,
        none⟩ := by
  have hcolumn : 0 < (m.on key).column := by
    obtain ⟨c, cs, rfl, -⟩ := hkey.head
    exact Nat.succ_pos _
  refine advance_of_dispatch ':' (' ' :: rest)
    (toNextToken_of_text rfl rfl (by decide) (fun _ => by decide) _) rfl
    (dropAllStale_behindKey hkey m n) ?_ rfl ?_ rfl
  · exact closeBlocks_of_le (by cases opened <;> simp [behindKey, mark] <;> omega)
  · have hdocument : documentMarkerNext (':' :: ' ' :: rest) = false := by
      cases rest <;> rfl
    have hscan : (behindKey opened key rest m n).dispatch ':' (' ' :: rest) =
        (behindKey opened key rest m n).scanValue := by
      simp [dispatch, behindKey, inFlow, blankNext, isBlank, hdocument]
    rw [hscan]
    cases opened <;> simp [scanValue, behindKey, insertAt, openBlock, inFlow, indicator, push,
      keyTokens, keyToken, mark, hm, Cursor.pass]

theorem hands_key (opened : Bool) (hkey : IsKey key) (rest : List Char) {m : Mark}
    (hm : m.column = 0) (n : Nat) :
    ∃ m' n', 0 < m'.column ∧ Hands 6
      ((if opened then [] else [.blockMappingStart]) ++ [.key, .scalar .plain key, .value])
      (member opened (key ++ ':' :: ' ' :: rest) m n) (value (' ' :: rest) m' n') := by
  have hready : (behindKey opened key rest m n).isReady = false := by simp [isReady, behindKey]
  have hkinds : (keyTokens opened key m).map Token.kind =
      (if opened then [] else [.blockMappingStart]) ++ [.key, .scalar .plain key, .value] := by
    cases opened <;> rfl
  have hlen : (keyTokens opened key m).length ≤ 4 := by cases opened <;> simp [keyTokens]
  have hmore : ∀ t ∈ keyTokens opened key m, t.kind ≠ .streamEnd := by
    cases opened <;> simp [keyTokens, keyToken]
  have hscan := (Hands.of_advance rfl rfl (advance_key hkey hm n)).trans
    (Hands.of_advance (dropAllStale_behindKey hkey m n) hready
      (advance_colon hkey rest hm n))
  have hhand := Hands.of_queue ⟨' ' :: rest, (m.on key).on [':']⟩ hmore n 0 [-1] false none
  rw [hkinds] at hhand
  exact ⟨_, _, Nat.succ_pos _, (hscan.trans hhand).mono (by omega)⟩

end Members

theorem isPlain_of_styleOf {cs : List Char} (h : styleOf cs = .plain) : IsPlain cs := by
  obtain ⟨hmeaning, hallows⟩ := allowsPlain_of_styleOf h
  refine .of_allowsPlain ?_ hallows
  rintro rfl
  exact absurd hmeaning (by decide)

section Values

variable {rest : List Char} (hrest : KeyNext rest)

/-- A value is what the token that starts behind the blank says. -/
theorem hands_value {c : Char} {cs : List Char} (hnext : blankNext (c :: cs) = false)
    (hhash : c ≠ '#') {m : Mark} {n : Nat} {k : Cursor} {t : Token} (ht : t.kind ≠ .streamEnd)
    {allowed : Bool} (h : (value (c :: cs) (m.on [' ']) n).dispatch c cs =
      .ok ⟨k, [t], n, 0, [-1], none, [], allowed, none⟩) :
    Hands 2 [t.kind] (value (' ' :: c :: cs) m n)
      ⟨k, [], n + 1, 0, [-1], none, [], allowed, none⟩ := by
  have hblank : (value (' ' :: c :: cs) m n).toNextToken ((c :: cs).length + 1 + 1) =
      value (c :: cs) (m.on [' ']) n := by
    obtain ⟨⟨hspace, htab⟩, hbreak⟩ : (c ≠ ' ' ∧ c ≠ '\t') ∧ isBreak c = false := by
      simpa [blankNext, isBlank] using hnext
    simp [toNextToken, value, byteOrderMark, Cursor.passWhile, Cursor.pass, inFlow, hspace, htab,
      hhash, breakNext, hbreak]
  have hscan : (value (' ' :: c :: cs) m n).advance =
      .ok ⟨k, [t], n, 0, [-1], none, [], allowed, none⟩ :=
    advance_of_dispatch c cs hblank rfl rfl (closeBlocks_of_le (by simp [value, mark]; omega)) rfl
      h rfl
  have hmore : ∀ t' ∈ [t], t'.kind ≠ .streamEnd := by simpa using ht
  exact (Hands.of_advance rfl rfl hscan).trans
    (Hands.of_queue k hmore n 0 [-1] allowed none)

include hrest in
theorem hands_plain {cs : List Char} (h : IsPlain cs) (m : Mark) (n : Nat) :
    ∃ m' n', m'.column = 0 ∧ Hands 2 [.scalar .plain cs]
      (value (' ' :: (cs ++ '\n' :: rest)) m n) (member true rest m' n') := by
  obtain ⟨c, cs, rfl⟩ : ∃ c cs', cs = c :: cs' := by
    cases cs with
    | nil => cases h.head
    | cons c cs => exact ⟨c, cs, rfl⟩
  have hnext : blankNext (c :: (cs ++ '\n' :: rest)) = false := h.head
  have hhash : c ≠ '#' := by
    rintro rfl
    cases h.start
  have hindicator : startsWithIndicator (c :: (cs ++ '\n' :: rest)) = false := by
    have hline : blankNext (cs ++ '\n' :: rest) = blankNext cs := by cases cs <;> rfl
    rw [startsWithIndicator, hline]
    exact h.start
  have hread : readPlain false 1 ⟨c :: (cs ++ '\n' :: rest), m.on [' ']⟩ =
      .ok (⟨c :: cs, true⟩, ⟨rest, ((m.on [' ']).on (c :: cs)).newLine ['\n']⟩) :=
    readPlain_line h hrest (Nat.succ_pos _)
  refine ⟨((m.on [' ']).on (c :: cs)).newLine ['\n'], n + 1, rfl, ?_⟩
  have hscan : (value (c :: (cs ++ '\n' :: rest)) (m.on [' ']) n).scanPlain = .ok
      ⟨⟨rest, ((m.on [' ']).on (c :: cs)).newLine ['\n']⟩,
        [⟨.scalar .plain (c :: cs), m.on [' '], ((m.on [' ']).on (c :: cs)).newLine ['\n']⟩], n, 0,
        [-1], none, [], true, none⟩ := by
    simp [scanPlain, value, noteKey, inFlow, hread, push, mark, bind, Except.bind]
  refine hands_value hnext hhash (by simp) ((dispatch_plain rfl ?_ hindicator hnext).trans hscan)
  exact fun h => absurd h (Nat.succ_ne_zero _)

include hrest in
theorem toNextToken_member (opened : Bool) (m : Mark) (n fuel : Nat) :
    (member opened rest m n).toNextToken (fuel + 1) = member opened rest m n := by
  cases rest with
  | nil => simp [toNextToken, member, Cursor.passWhile, Cursor.pass, Mark.on, Text.byteLength]
  | cons c cs =>
    have htext : blankNext (c :: cs) = false := by
      simp [blankNext, hrest.isBlank_eq, hrest.isBreak_eq]
    exact toNextToken_of_text rfl htext (hrest.ne (by decide)) (fun _ => hrest.ne (by decide)) _

/-- The rest of a line that has nothing left on it. -/
theorem hands_lineEnd (m : Mark) (n : Nat) :
    Hands 0 [] (value ('\n' :: rest) m n) (member true rest (m.newLine ['\n']) n) := by
  have hnext : (value ('\n' :: rest) m n).toNextToken (('\n' :: rest).length + 1) =
      (member true rest (m.newLine ['\n']) n).toNextToken (rest.length + 1) := by
    rw [toNextToken]
    simp [value, member, Cursor.passWhile, Cursor.pass, breakNext, isBreak, byteOrderMark,
      Cursor.passBreak, Cursor.takeBreak, Mark.on, Mark.newLine, Text.byteLength, inFlow]
  have hadvance : (value ('\n' :: rest) m n).advance =
      (member true rest (m.newLine ['\n']) n).advance :=
    advance_congr hnext
  exact .of_run (run_congr rfl rfl hadvance)

variable (rest) in
theorem hands_quoted {single : Bool} {inside cs : List Char} (h : Inside single .none inside cs)
    (m : Mark) (n : Nat) : ∃ m' n', m'.column = 0 ∧
      Hands 2 [.scalar (if single then .singleQuoted else .doubleQuoted) cs]
        (value (' ' :: quoteChar single :: (inside ++ quoteChar single :: '\n' :: rest)) m n)
        (member true rest m' n') := by
  have htail : ('\n' :: rest).head? ≠ some '\'' := by simp
  obtain ⟨k, hread⟩ := readQuoted_of_inside h htail (m.on [' '])
  refine ⟨k.newLine ['\n'], n + 1, rfl, ?_⟩
  have hscan : (value (quoteChar single :: (inside ++ quoteChar single :: '\n' :: rest))
      (m.on [' ']) n).dispatch (quoteChar single)
        (inside ++ quoteChar single :: '\n' :: rest) = .ok ⟨⟨'\n' :: rest, k⟩,
          [⟨.scalar (if single then .singleQuoted else .doubleQuoted) cs, m.on [' '], k⟩], n, 0,
          [-1], none, [], false, none⟩ := by
    generalize inside ++ quoteChar single :: '\n' :: rest = body at hread ⊢
    cases single <;>
      simp [dispatch, value, inFlow, mark, scanContent, noteKey, push, bind, Except.bind,
        quoteChar] at hread ⊢ <;>
      simp [hread]
  exact (hands_value (by cases single <;> rfl) (by cases single <;> decide) (by simp) hscan).trans
    (hands_lineEnd k (n + 1))

include hrest in
theorem hands_literal {cs : List Char} (hprint : ∀ c ∈ cs, isPrintable c = true) (hne : cs ≠ [])
    (m : Mark) (n : Nat) : ∃ m' n', m'.column = 0 ∧ Hands 2 [.scalar .literal cs]
      (value (' ' :: '|' :: (blockHints cs ++ '\n' ::
        (blockChars true cs ++ addedBreak cs ++ rest))) m n) (member true rest m' n') := by
  obtain ⟨k, hk, hread⟩ := readBlock_of_literal hprint hne hrest (m.on [' '])
  generalize blockHints cs ++ '\n' :: (blockChars true cs ++ addedBreak cs ++ rest) = body
    at hread ⊢
  have hscan : (value ('|' :: body) (m.on [' ']) n).scanBlockScalar .literal =
      .ok ⟨⟨rest, k⟩, [⟨.scalar .literal cs, m.on [' '], k⟩], n, 0, [-1], none, [], true,
        none⟩ := by
    simp [scanBlockScalar, dropKey, value, hread, push, mark, bind, Except.bind]
  have hdispatch : (value ('|' :: body) (m.on [' ']) n).dispatch '|' body =
      (value ('|' :: body) (m.on [' ']) n).scanBlockScalar .literal := by
    simp [dispatch, value, inFlow, mark]
  exact ⟨k, n + 1, hk, hands_value rfl (by decide) (by simp) (hdispatch.trans hscan)⟩

include hrest in
theorem hands_writeScalar (cs : List Char) (m : Mark) (n : Nat) :
    ∃ m' n', m'.column = 0 ∧ Hands 2 [.scalar (styleOf cs) cs]
      (value (' ' :: (writeScalar cs ++ rest)) m n) (member true rest m' n') := by
  unfold writeScalar
  cases hstyle : styleOf cs with
  | plain =>
    simp only [List.append_assoc, List.singleton_append]
    exact hands_plain hrest (isPlain_of_styleOf hstyle) m n
  | singleQuoted =>
    obtain ⟨hline, hallows⟩ := allowsSingleQuotes_of_styleOf hstyle
    have h := hands_quoted rest (inside_of_allowsSingleQuotes hline hallows) m n
    simpa [quoteChar] using h
  | doubleQuoted =>
    have h := hands_quoted rest (inside_double cs []) m n
    simpa [quoteChar] using h
  | literal =>
    obtain ⟨hline, hallows⟩ := allowsLiteral_of_styleOf hstyle
    have h := hands_literal hrest (isPrintable_of_allowsLiteral hallows)
      (List.ne_nil_of_mem hline) m n
    simpa [addedBreak] using h
  | folded => exact absurd hstyle (styleOf_ne_folded cs)

end Values

/-! ## Whole mappings -/

/-- That a text is what a scalar is written as behind a key. -/
def Writes (chars : List Char) (style : Style) (text : List Char) : Prop :=
  ∀ rest, KeyNext rest → ∀ m n, ∃ m' n', m'.column = 0 ∧ Hands 2 [.scalar style text]
    (value (' ' :: (chars ++ rest)) m n) (member true rest m' n')

structure Written where
  style : Style
  text : List Char
  chars : List Char
  writes : Writes chars style text
  printable : ∀ c ∈ chars, isPrintable c = true

structure Entry where
  key : List Char
  isKey : IsKey key
  value : Written

namespace Entry

def line (e : Entry) : List Char := e.key ++ ':' :: ' ' :: e.value.chars

def kinds (e : Entry) : List TokenKind :=
  [.key, .scalar .plain e.key, .value, .scalar e.value.style e.value.text]

theorem keyNext_lines (es : List Entry) : KeyNext (es.flatMap line) := by
  cases es with
  | nil => simp [KeyNext]
  | cons e es =>
    obtain ⟨c, cs, hkey, hc⟩ := e.isKey.head
    simpa [KeyNext, line, hkey] using hc

end Entry

theorem hands_entry (opened : Bool) (e : Entry) {rest : List Char} (hrest : KeyNext rest)
    {m : Mark} (hm : m.column = 0) (n : Nat) :
    ∃ m' n', m'.column = 0 ∧ Hands 8
      ((if opened then [] else [.blockMappingStart]) ++ e.kinds)
      (member opened (e.line ++ rest) m n) (member true rest m' n') := by
  obtain ⟨k, n', -, hkey⟩ := hands_key opened e.isKey (e.value.chars ++ rest) hm n
  obtain ⟨m', n'', hm', hvalue⟩ := e.value.writes rest hrest k n'
  refine ⟨m', n'', hm', ?_⟩
  have h := hkey.trans hvalue
  simpa [Entry.line, Entry.kinds] using h

theorem hands_entries (es : List Entry) {m : Mark} (hm : m.column = 0) (n : Nat) :
    ∃ m' n', Hands (8 * es.length) (es.flatMap Entry.kinds)
      (member true (es.flatMap Entry.line) m n) (member true [] m' n') := by
  induction es generalizing m n with
  | nil => exact ⟨m, n, .of_run fun _ => rfl⟩
  | cons e es ih =>
    obtain ⟨k, n', hk, hfirst⟩ := hands_entry true e (Entry.keyNext_lines es) hm n
    obtain ⟨m', n'', hrest⟩ := ih hk n'
    refine ⟨m', n'', ?_⟩
    have h := hfirst.trans hrest
    rw [List.flatMap_cons, List.flatMap_cons]
    exact h.mono (by simp only [List.length_cons]; omega)

theorem run_end (m : Mark) (n fuel : Nat) : ∃ ts, ts.map Token.kind = [.blockEnd, .streamEnd] ∧
    run (fuel + 3) (member true [] m n) = (ts, none) := by
  have hnext : (member true [] m n).toNextToken 1 = member true [] m n :=
    toNextToken_member (by simp [KeyNext]) true m n 0
  have hclose : (member true [] m n).closeBlocks (member true [] m n).mark.column =
      member true [] m n := closeBlocks_of_le (by simp [member, mark])
  have hadvance : (member true [] m n).advance = (member true [] m n).endStream := by
    have hneed (k : Nat) : (member true [] m n).need k = .ok () := rfl
    have hstale : (member true [] m n).dropAllStale = .ok (member true [] m n) := rfl
    have hlen : (member true [] m n).cursor.rest.length + 1 = 1 := rfl
    simp only [advance, hlen, hnext, hneed, hstale, hclose, bind, Except.bind]
    rfl
  have hend : (member true [] m n).endStream = .ok ⟨⟨[], Cursor.endMark ⟨[], m⟩⟩,
      [⟨.blockEnd, Cursor.endMark ⟨[], m⟩, Cursor.endMark ⟨[], m⟩⟩,
        ⟨.streamEnd, Cursor.endMark ⟨[], m⟩, Cursor.endMark ⟨[], m⟩⟩], n, -1, [], none, [], false,
      none⟩ := rfl
  refine ⟨[⟨.blockEnd, Cursor.endMark ⟨[], m⟩, Cursor.endMark ⟨[], m⟩⟩,
    ⟨.streamEnd, Cursor.endMark ⟨[], m⟩, Cursor.endMark ⟨[], m⟩⟩], rfl, ?_⟩
  rw [run_of_advance rfl (hadvance.trans hend)]
  rfl

/-- The tokens of a text that is a mapping. -/
theorem tokens_entries (e : Entry) (es : List Entry) :
    ∃ ts, ts.map Token.kind = .blockMappingStart :: (e :: es).flatMap Entry.kinds ++
        [.blockEnd, .streamEnd] ∧
      tokens ((e :: es).flatMap Entry.line) none = (ts, none) := by
  obtain ⟨k, n, hk, hfirst⟩ := hands_entry false e (Entry.keyNext_lines es) (m := .start) rfl 0
  obtain ⟨m, n', hrest⟩ := hands_entries es hk n
  obtain ⟨steps, hsteps, ts, hts, hrun⟩ := hfirst.trans hrest
  have hlen : 8 + 8 * es.length ≤ 8 * ((e :: es).flatMap Entry.line).length := by
    have h := length_le_flatMap (f := Entry.line) (fun _ => by simp [Entry.line]) (e :: es)
    rw [List.length_cons] at h
    omega
  obtain ⟨fuel, hfuel⟩ : ∃ fuel, enough ((e :: es).flatMap Entry.line) = steps + (fuel + 3) :=
    ⟨enough ((e :: es).flatMap Entry.line) - steps - 3, by unfold enough; omega⟩
  obtain ⟨us, hus, hend⟩ := run_end m n' fuel
  refine ⟨ts ++ us, ?_, ?_⟩
  · rw [List.map_append, hts, hus, List.flatMap_cons]
    rfl
  · rw [tokens, hfuel]
    have hstart : start ((e :: es).flatMap Entry.line) none =
        member false (e.line ++ es.flatMap Entry.line) .start 0 := rfl
    rw [hstart, hrun, hend]

end Scan

end CacheActivity.Yaml
