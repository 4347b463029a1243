import CacheActivity.Proofs.PlainScalars
import Mathlib.Data.List.Basic

/-!
# Block scalars

A text is a row of lines, each with a break and empty lines behind it, between empty lines and a
last line that has no break. A literal block indents the lines, and its first line says what to make
of the breaks at its end, so it is read as the text (`readBlock_of_literal`).
-/

namespace CacheActivity.Yaml

/-- A break that is written as it is. -/
def IsLineBreak (b : Char) : Prop := isBreak b = true ∧ isPrintable b = true

theorem IsLineBreak.ne_return {b : Char} (h : IsLineBreak b) : b ≠ '\r' := by
  rintro rfl
  exact absurd h.2 (by decide)

theorem IsLineBreak.breakText_eq {b : Char} (h : IsLineBreak b) : breakText b = [b] := by
  have hnext : b ≠ '\u0085' := by
    rintro rfl
    exact absurd h.2 (by decide)
  have hbreak := h.1
  simp only [isBreak, h.ne_return, hnext, Bool.or_eq_true, decide_eq_true_eq, or_false] at hbreak
  rcases hbreak with (rfl | rfl) | rfl <;> rfl

theorem IsLineBreak.takeBreak_eq {b : Char} (h : IsLineBreak b) (rest : List Char) (m : Mark) :
    (⟨b :: rest, m⟩ : Cursor).takeBreak = ([b], ⟨rest, m.newLine [b]⟩) := by
  unfold Cursor.takeBreak
  split
  · rename_i heq
    exact absurd (List.cons.inj heq).1 h.ne_return
  · rename_i heq
    obtain ⟨rfl, rfl⟩ := List.cons.inj heq
    simp [h.1, h.breakText_eq]
  · rename_i heq
    cases heq

theorem IsLineBreak.ne {b c : Char} (h : IsLineBreak b) (hc : isBreak c = false) : b ≠ c := by
  rintro rfl
  exact absurd h.1 (by simp [hc])

theorem length_le_flatMap {α β : Type} {f : α → List β} (h : ∀ x, f x ≠ []) (xs : List α) :
    xs.length ≤ (xs.flatMap f).length := by
  induction xs with
  | nil => exact Nat.le_refl _
  | cons x xs ih =>
    have hpos := List.length_pos_iff.2 (h x)
    rw [List.flatMap_cons, List.length_append, List.length_cons]
    omega

/-- A line, its break and the breaks of the empty lines behind it. -/
structure BlockLine where
  text : List Char
  ending : Char
  empties : List Char

namespace BlockLine

def chars (l : BlockLine) : List Char := l.text ++ l.ending :: l.empties

structure Fits (l : BlockLine) : Prop where
  ne : l.text ≠ []
  text : ∀ c ∈ l.text, isBreak c = false
  ending : IsLineBreak l.ending
  empties : ∀ b ∈ l.empties, IsLineBreak b

end BlockLine

/-- The lines of a text: the empty ones at its start, then those with a break behind them, and what
stands behind the last break. -/
theorem exists_lines {cs : List Char} (h : ∀ c ∈ cs, isPrintable c = true) :
    ∃ (front : List Char) (ls : List BlockLine) (last : List Char),
      cs = front ++ ls.flatMap BlockLine.chars ++ last ∧ (∀ b ∈ front, IsLineBreak b) ∧
        (∀ l ∈ ls, l.Fits) ∧ ∀ c ∈ last, isBreak c = false := by
  induction cs with
  | nil => exact ⟨[], [], [], rfl, by simp, by simp, by simp⟩
  | cons c cs ih =>
    obtain ⟨hprint, hcs⟩ := List.forall_mem_cons.1 h
    obtain ⟨front, ls, last, rfl, hfront, hls, hlast⟩ := ih hcs
    cases hc : isBreak c with
    | true => exact ⟨c :: front, ls, last, rfl, List.forall_mem_cons.2 ⟨⟨hc, hprint⟩, hfront⟩,
        hls, hlast⟩
    | false =>
      cases front with
      | cons b bs =>
        obtain ⟨hb, hbs⟩ := List.forall_mem_cons.1 hfront
        have hline : BlockLine.Fits ⟨[c], b, bs⟩ := ⟨by simp, by simpa using hc, hb, hbs⟩
        exact ⟨[], ⟨[c], b, bs⟩ :: ls, last, by simp [BlockLine.chars], by simp,
          List.forall_mem_cons.2 ⟨hline, hls⟩, hlast⟩
      | nil =>
        cases ls with
        | nil => exact ⟨[], [], c :: last, rfl, by simp, by simp,
            List.forall_mem_cons.2 ⟨hc, hlast⟩⟩
        | cons l ls =>
          obtain ⟨hl, hls⟩ := List.forall_mem_cons.1 hls
          have hline : BlockLine.Fits ⟨c :: l.text, l.ending, l.empties⟩ :=
            ⟨by simp, List.forall_mem_cons.2 ⟨hc, hl.text⟩, hl.ending, hl.empties⟩
          exact ⟨[], ⟨c :: l.text, l.ending, l.empties⟩ :: ls, last, by simp [BlockLine.chars],
            by simp, List.forall_mem_cons.2 ⟨hline, hls⟩, hlast⟩

theorem blockChars_breaks {bs : List Char} (h : ∀ b ∈ bs, IsLineBreak b) (cs : List Char) :
    blockChars true (bs ++ cs) = bs ++ blockChars true cs := by
  induction bs with
  | nil => rfl
  | cons b bs ih =>
    obtain ⟨hb, hbs⟩ := List.forall_mem_cons.1 h
    rw [List.cons_append, blockChars, if_pos hb.1, ih hbs]
    rfl

theorem blockChars_text {text : List Char} (h : ∀ c ∈ text, isBreak c = false) (cs : List Char) :
    blockChars false (text ++ cs) = text ++ blockChars false cs := by
  induction text with
  | nil => rfl
  | cons c text ih =>
    obtain ⟨hc, htext⟩ := List.forall_mem_cons.1 h
    simp [blockChars, hc, ih htext]

theorem blockChars_line {l : BlockLine} (h : l.Fits) (cs : List Char) :
    blockChars true (l.chars ++ cs) = lineIndent ++ l.chars ++ blockChars true cs := by
  obtain ⟨text, b, bs⟩ := l
  obtain ⟨c, text, rfl⟩ := List.exists_cons_of_ne_nil h.ne
  obtain ⟨hc, htext⟩ := List.forall_mem_cons.1 h.text
  have hb : isBreak b = true := h.ending.1
  have hbs : ∀ b ∈ bs, IsLineBreak b := h.empties
  simp [BlockLine.chars, blockChars, hc, hb, blockChars_text htext, blockChars_breaks hbs]

/-- The lines of a block as they are written. -/
def indented (ls : List BlockLine) : List Char := ls.flatMap fun l => lineIndent ++ l.chars

theorem blockChars_lines {ls : List BlockLine} (h : ∀ l ∈ ls, l.Fits) :
    blockChars true (ls.flatMap BlockLine.chars) = indented ls := by
  induction ls with
  | nil => rfl
  | cons l ls ih =>
    obtain ⟨hl, hls⟩ := List.forall_mem_cons.1 h
    rw [List.flatMap_cons, blockChars_line hl, ih hls]
    rfl

/-! ## Reading lines -/

section Reading

variable (since : Mark)

/-- That a cursor is at the text of the first of some lines, or behind all lines. -/
def AtLines (rest : List Char) : List BlockLine → Cursor → Prop
  | [], c => c.rest = rest ∧ c.mark.column = 0
  | l :: ls, c => c.rest = l.chars ++ indented ls ++ rest ∧ c.mark.column = 2

theorem AtLines.length_le {rest : List Char} {ls : List BlockLine} {c : Cursor}
    (h : AtLines rest ls c) : ls.length ≤ c.rest.length := by
  cases ls with
  | nil => exact Nat.zero_le _
  | cons l ls =>
    have hlen : ls.length ≤ (indented ls).length :=
      length_le_flatMap (fun _ => by simp [lineIndent]) ls
    rw [h.1]
    simp only [BlockLine.chars, List.length_append, List.length_cons]
    omega

theorem readEmptyLines_break {b : Char} (hb : IsLineBreak b) (rest : List Char) {m : Mark}
    (hm : m.column = 0) (fuel : Nat) (breaks : List Char) (widest : Nat) :
    readEmptyLines since (some 2) (fuel + 1) breaks widest ⟨b :: rest, m⟩ =
      readEmptyLines since (some 2) fuel (breaks ++ [b]) widest ⟨rest, m.newLine [b]⟩ := by
  have hblank : b ≠ ' ' := hb.ne rfl
  have htab : b ≠ '\t' := hb.ne rfl
  have htake : (⟨b :: rest, m⟩ : Cursor).takeBreak = ([b], ⟨rest, m.newLine [b]⟩) :=
    hb.takeBreak_eq rest m
  have hpass : (⟨b :: rest, m⟩ : Cursor).pass 0 = ⟨b :: rest, m⟩ := rfl
  rw [readEmptyLines]
  simp [hblank, htab, htake, hpass, hm, breakNext, hb.1]

theorem readEmptyLines_key {rest : List Char} (hrest : KeyNext rest) {m : Mark}
    (hm : m.column = 0) (fuel : Nat) (breaks : List Char) (widest : Nat) :
    readEmptyLines since (some 2) (fuel + 1) breaks widest ⟨rest, m⟩ =
      .ok (breaks, widest, ⟨rest, m⟩) := by
  have hpass : (⟨rest, m⟩ : Cursor).pass 0 = ⟨rest, m⟩ := rfl
  cases rest with
  | nil => simp [readEmptyLines, hpass, hm]
  | cons c cs =>
    simp [readEmptyLines, hpass, hm, breakNext, hrest.isBreak_eq,
      hrest.ne (d := ' ') (by decide), hrest.ne (d := '\t') (by decide)]

/-- The indentation of a line. If it is not known, the line does not start with a blank. -/
theorem readEmptyLines_line {indentation : Option Nat} {c : Char} {rest : List Char}
    (hc : isBreak c = false)
    (hindent : indentation = some 2 ∨ indentation = none ∧ isBlank c = false) {m : Mark}
    (hm : m.column = 0) (fuel : Nat) (breaks : List Char) (widest : Nat) :
    readEmptyLines since indentation (fuel + 1) breaks widest ⟨lineIndent ++ c :: rest, m⟩ =
      .ok (breaks, max widest 2, ⟨c :: rest, m.on lineIndent⟩) := by
  have hpass : (⟨lineIndent ++ c :: rest, m⟩ : Cursor).pass 2 = ⟨c :: rest, m.on lineIndent⟩ :=
    Cursor.pass_append lineIndent (c :: rest) m
  have hblanks : ((lineIndent ++ c :: rest).takeWhile (· = ' ')).length =
      2 + ((c :: rest).takeWhile (· = ' ')).length := by
    simp [lineIndent]
    omega
  unfold readEmptyLines
  rcases hindent with rfl | ⟨rfl, hblank⟩
  · simp only [hblanks, hm, Nat.sub_zero, Nat.min_eq_right (Nat.le_add_right _ _), hpass]
    simp [hm, lineIndent, breakNext, hc]
  · obtain ⟨hspace, htab⟩ : c ≠ ' ' ∧ c ≠ '\t' := by simpa [isBlank] using hblank
    have hnone : ((c :: rest).takeWhile (· = ' ')).length = 0 := by simp [hspace]
    simp only [hblanks, hnone, Nat.add_zero, hpass]
    simp [hm, lineIndent, breakNext, hc, htab]

variable {rest : List Char} (hrest : KeyNext rest)

include hrest in
/-- Empty lines up to the next line or to the end of the block. -/
theorem readEmptyLines_lines {ls : List BlockLine} (hls : ∀ l ∈ ls, l.Fits) {bs : List Char}
    (hbs : ∀ b ∈ bs, IsLineBreak b) {m : Mark} (hm : m.column = 0) {fuel : Nat}
    (hfuel : bs.length < fuel) (breaks : List Char) (widest : Nat) :
    ∃ widest' c, readEmptyLines since (some 2) fuel breaks widest
        ⟨bs ++ (indented ls ++ rest), m⟩ = .ok (breaks ++ bs, widest', c) ∧ AtLines rest ls c := by
  induction bs generalizing m fuel breaks with
  | nil =>
    obtain ⟨fuel, rfl⟩ := Nat.exists_eq_add_of_lt hfuel
    rw [List.append_nil]
    cases ls with
    | nil => exact ⟨_, _, readEmptyLines_key since hrest hm _ _ _, rfl, hm⟩
    | cons l ls =>
      have hl := hls l List.mem_cons_self
      obtain ⟨text, ending, empties⟩ := l
      obtain ⟨c, text, rfl⟩ := List.exists_cons_of_ne_nil hl.ne
      have hc : isBreak c = false := hl.text c List.mem_cons_self
      have hchars : [] ++ (indented (⟨c :: text, ending, empties⟩ :: ls) ++ rest) =
          lineIndent ++ c :: (text ++ ending :: empties ++ indented ls ++ rest) := by
        simp [indented, BlockLine.chars]
      rw [hchars]
      refine ⟨_, _, readEmptyLines_line since hc (.inl rfl) hm _ _ _, ?_, ?_⟩
      · simp [BlockLine.chars]
      · simp [hm, lineIndent]
  | cons b bs ih =>
    obtain ⟨hb, hbs⟩ := List.forall_mem_cons.1 hbs
    obtain ⟨fuel, rfl⟩ : ∃ n, fuel = n + 1 := ⟨fuel - 1, by omega⟩
    rw [List.cons_append, readEmptyLines_break since hb _ hm]
    have h := ih hbs (m := m.newLine [b]) rfl (Nat.lt_of_succ_lt_succ hfuel) (breaks ++ [b])
    rwa [List.append_assoc] at h

/-- What a block has given behind some lines: the text up to the last one, its break, and those of
the empty lines behind it. -/
def blockParts (text last breaks : List Char) :
    List BlockLine → List Char × List Char × List Char
  | [] => (text, last, breaks)
  | l :: ls => blockParts (text ++ last ++ breaks ++ l.text) [l.ending] l.empties ls

theorem blockParts_append_singleton (text last breaks : List Char) (ls : List BlockLine)
    (l : BlockLine) : blockParts text last breaks (ls ++ [l]) =
      (text ++ last ++ breaks ++ ls.flatMap BlockLine.chars ++ l.text, [l.ending], l.empties) := by
  induction ls generalizing text last breaks with
  | nil => simp [blockParts]
  | cons l' ls ih => simp [blockParts, ih, BlockLine.chars]

include hrest in
theorem readBlockLines_lines {ls : List BlockLine} (hls : ∀ l ∈ ls, l.Fits) {c : Cursor}
    (hc : AtLines rest ls c) {fuel : Nat} (hfuel : ls.length < fuel)
    (text last breaks : List Char) (blankBefore : Bool) :
    ∃ text' last' breaks' k, readBlockLines true since 2 fuel text last breaks blankBefore c =
        .ok (text', last', breaks', k) ∧
      blockParts text last breaks ls = (text', last', breaks') ∧ AtLines rest [] k := by
  induction ls generalizing c fuel text last breaks blankBefore with
  | nil =>
    obtain ⟨fuel, rfl⟩ := Nat.exists_eq_add_of_lt hfuel
    refine ⟨_, _, _, c, ?_, rfl, hc⟩
    rw [readBlockLines, if_pos (by simp [hc.2])]
  | cons l ls ih =>
    obtain ⟨fuel, rfl⟩ : ∃ n, fuel = n + 1 := ⟨fuel - 1, by omega⟩
    obtain ⟨hl, hls⟩ := List.forall_mem_cons.1 hls
    obtain ⟨cs, m⟩ := c
    obtain ⟨hchars, hm⟩ : cs = l.chars ++ indented ls ++ rest ∧ m.column = 2 := hc
    have hchars : cs = l.text ++ l.ending :: (l.empties ++ (indented ls ++ rest)) := by
      rw [hchars]
      simp [BlockLine.chars]
    have hline : cs.takeWhile (!isBreak ·) = l.text := by
      have htext : ∀ c ∈ l.text, (!isBreak c) = true := fun c hc => by simp [hl.text c hc]
      rw [hchars, List.takeWhile_append_of_pos htext]
      simp [hl.ending.1]
    have htake : ((⟨cs, m⟩ : Cursor).pass l.text.length).takeBreak =
        ([l.ending], ⟨l.empties ++ (indented ls ++ rest), (m.on l.text).newLine [l.ending]⟩) := by
      rw [hchars, Cursor.pass_append, hl.ending.takeBreak_eq]
    have hlen : l.empties.length < (l.empties ++ (indented ls ++ rest)).length + 1 := by
      rw [List.length_append]
      omega
    obtain ⟨widest, k, hempties, hk⟩ := readEmptyLines_lines since hrest hls hl.empties
      (m := (m.on l.text).newLine [l.ending]) rfl hlen [] 0
    obtain ⟨text', last', breaks', k', hread, hparts⟩ := ih hls hk (Nat.lt_of_succ_lt_succ hfuel)
      (text ++ last ++ breaks ++ l.text) [l.ending] l.empties
        (((⟨cs, m⟩ : Cursor).rest.head?.map isBlank).getD false)
    refine ⟨text', last', breaks', k', ?_, hparts⟩
    rw [← hread, readBlockLines, if_neg (by simp [hm, hchars])]
    simp only [hline, htake, hempties]
    rfl

end Reading

def Chomping.sign : Chomping → List Char
  | .strip => ['-']
  | .clip => []
  | .keep => ['+']

/-- What is to be made of the breaks at the end of a text. -/
def chompingOf (cs : List Char) : Chomping :=
  match cs.reverse with
  | c :: d :: _ => if !isBreak c then .strip else if isBreak d then .keep else .clip
  | [c] => if isBreak c then .keep else .strip
  | [] => .strip

/-- Whether the first line of a text would leave its indentation unclear. -/
def isUnclear (cs : List Char) : Bool := (cs.head?.map isSpaceOrBreak).getD false

theorem blockHints_eq (cs : List Char) :
    blockHints cs = (if isUnclear cs then ['2'] else []) ++ (chompingOf cs).sign := by
  unfold blockHints chompingOf
  refine congrArg _ ?_
  rcases cs.reverse with _ | ⟨c, _ | ⟨d, ds⟩⟩
  · rfl
  · cases h : isBreak c <;> simp [h, Chomping.sign]
  · cases h : isBreak c <;> cases h' : isBreak d <;> simp [h, h', Chomping.sign]

theorem readHeader_hints (since : Mark) (unclear : Bool) (k : Chomping) (rest : List Char)
    (m : Mark) : ∃ m', m'.column = 0 ∧
      readHeader since ⟨(if unclear then ['2'] else []) ++ k.sign ++ '\n' :: rest, m⟩ =
        .ok (k, if unclear then some 2 else none, ⟨rest, m'⟩) := by
  cases unclear <;> cases k <;> exact ⟨_, rfl, rfl⟩

theorem chompingOf_text (cs : List Char) {c : Char} (hc : isBreak c = false) :
    chompingOf (cs ++ [c]) = .strip := by
  unfold chompingOf
  rw [List.reverse_append]
  rcases cs.reverse with _ | ⟨d, ds⟩ <;> simp [hc]

theorem chompingOf_break (cs : List Char) {c b : Char} (hc : isBreak c = false)
    (hb : isBreak b = true) : chompingOf (cs ++ [c, b]) = .clip := by
  simp [chompingOf, hc, hb]

theorem chompingOf_breaks (cs : List Char) {bs : List Char} (hbs : ∀ b ∈ bs, IsLineBreak b)
    (hlen : 2 ≤ bs.length) : chompingOf (cs ++ bs) = .keep := by
  obtain ⟨b, d, ds, h⟩ : ∃ b d ds, bs.reverse = b :: d :: ds := by
    match hrev : bs.reverse with
    | b :: d :: ds => exact ⟨b, d, ds, rfl⟩
    | [b] =>
      rw [← List.length_reverse, hrev] at hlen
      exact absurd hlen (by simp)
    | [] =>
      rw [← List.length_reverse, hrev] at hlen
      exact absurd hlen (by simp)
  have hb : isBreak b = true := (hbs b (List.mem_reverse.1 (by simp [h]))).1
  have hd : isBreak d = true := (hbs d (List.mem_reverse.1 (by simp [h]))).1
  simp [chompingOf, h, hb, hd]

theorem chompingOf_front {bs : List Char} (hbs : ∀ b ∈ bs, IsLineBreak b) (hne : bs ≠ []) :
    chompingOf bs = .keep := by
  match bs with
  | [b] => simp [chompingOf, (hbs b List.mem_cons_self).1]
  | _ :: _ :: _ => exact chompingOf_breaks [] hbs (by simp)

/-- The break behind a text that ends without one. -/
def addedBreak (cs : List Char) : List Char :=
  if (cs.getLast?.map isBreak).getD false then [] else ['\n']

theorem addedBreak_breaks (cs : List Char) {bs : List Char} (hbs : ∀ b ∈ bs, IsLineBreak b)
    (hne : bs ≠ []) : addedBreak (cs ++ bs) = [] := by
  obtain ⟨bs, b, rfl⟩ := (List.eq_nil_or_concat' bs).resolve_left hne
  have hb : isBreak b = true := (hbs b (by simp)).1
  simp [addedBreak, ← List.append_assoc, hb]

theorem blockChars_append_break (lineStart : Bool) (cs : List Char) :
    blockChars lineStart (cs ++ ['\n']) = blockChars lineStart cs ++ ['\n'] := by
  induction cs generalizing lineStart with
  | nil => simp [blockChars, isBreak]
  | cons c cs ih =>
    simp only [List.cons_append, blockChars, ih]
    split <;> simp

def Chomping.tail (last breaks : List Char) : Chomping → List Char
  | .strip => []
  | .clip => last
  | .keep => last ++ breaks

/-- The lines of a block, and how its text comes out of them. -/
structure IsBlockOf (cs front : List Char) (ls : List BlockLine) : Prop where
  chars : blockChars true cs ++ addedBreak cs = front ++ indented ls
  breaks : ∀ b ∈ front, IsLineBreak b
  lines : ∀ l ∈ ls, l.Fits
  parts : ∀ text last breaks, blockParts [] [] front ls = (text, last, breaks) →
    text ++ (chompingOf cs).tail last breaks = cs

section Blocks

variable {front : List Char} (hfront : ∀ b ∈ front, IsLineBreak b)

include hfront in
theorem isBlockOf_breaks (hne : front ≠ []) : IsBlockOf front front [] where
  chars := by
    have hadded : addedBreak front = [] := addedBreak_breaks [] hfront hne
    have hchars := blockChars_breaks hfront []
    simpa [hadded, blockChars, indented] using hchars
  breaks := hfront
  lines := List.forall_mem_nil _
  parts _ _ _ h := by
    cases h
    rw [chompingOf_front hfront hne]
    rfl

theorem chompingOf_line (cs : List Char) {l : BlockLine} (hl : l.Fits) :
    chompingOf (cs ++ l.chars) = if l.empties = [] then .clip else .keep := by
  have hbreaks : ∀ b ∈ l.ending :: l.empties, IsLineBreak b :=
    List.forall_mem_cons.2 ⟨hl.ending, hl.empties⟩
  split
  · rename_i hnone
    obtain ⟨text, c, htext⟩ := (List.eq_nil_or_concat' l.text).resolve_left hl.ne
    have hc : isBreak c = false := hl.text c (by simp [htext])
    have hchars : cs ++ l.chars = cs ++ text ++ [c, l.ending] := by
      simp [BlockLine.chars, hnone, htext]
    rw [hchars]
    exact chompingOf_break _ hc hl.ending.1
  · rename_i hsome
    have hlen := List.length_pos_iff.2 hsome
    rw [BlockLine.chars, ← List.append_assoc]
    exact chompingOf_breaks _ hbreaks (Nat.succ_le_succ hlen)

include hfront in
/-- A text whose last line has a break. -/
theorem isBlockOf_lines {ls : List BlockLine} {l : BlockLine} (hls : ∀ x ∈ ls ++ [l], x.Fits) :
    IsBlockOf (front ++ (ls ++ [l]).flatMap BlockLine.chars) front (ls ++ [l]) := by
  have hl : l.Fits := hls l (by simp)
  have hbreaks : ∀ b ∈ l.ending :: l.empties, IsLineBreak b :=
    List.forall_mem_cons.2 ⟨hl.ending, hl.empties⟩
  have hchars : front ++ (ls ++ [l]).flatMap BlockLine.chars =
      front ++ ls.flatMap BlockLine.chars ++ l.chars := by
    simp
  refine ⟨?_, hfront, hls, fun _ _ _ h => ?_⟩
  · have hadded : addedBreak (front ++ (ls ++ [l]).flatMap BlockLine.chars) = [] := by
      rw [hchars, BlockLine.chars, ← List.append_assoc]
      exact addedBreak_breaks _ hbreaks (List.cons_ne_nil _ _)
    rw [hadded, List.append_nil, blockChars_breaks hfront, blockChars_lines hls]
  · rw [blockParts_append_singleton] at h
    cases h
    rw [hchars, chompingOf_line _ hl]
    split
    · rename_i hnone
      simp [Chomping.tail, BlockLine.chars, hnone]
    · simp [Chomping.tail, BlockLine.chars]

include hfront in
/-- A text whose last line has no break. The block adds one. -/
theorem isBlockOf_open {ls : List BlockLine} (hls : ∀ l ∈ ls, l.Fits) {last : List Char} {c : Char}
    (hlast : ∀ d ∈ last ++ [c], isBreak d = false) :
    IsBlockOf (front ++ ls.flatMap BlockLine.chars ++ (last ++ [c])) front
      (ls ++ [⟨last ++ [c], '\n', []⟩]) := by
  have hc : isBreak c = false := hlast c (by simp)
  have hline : BlockLine.Fits ⟨last ++ [c], '\n', []⟩ :=
    ⟨by simp, hlast, ⟨rfl, rfl⟩, by simp⟩
  have hls : ∀ l ∈ ls ++ [⟨last ++ [c], '\n', []⟩], l.Fits :=
    List.forall_mem_append.2 ⟨hls, List.forall_mem_singleton.2 hline⟩
  refine ⟨?_, hfront, hls, fun _ _ _ h => ?_⟩
  · have hadded : addedBreak (front ++ ls.flatMap BlockLine.chars ++ (last ++ [c])) = ['\n'] := by
      simp [addedBreak, ← List.append_assoc, hc]
    rw [hadded, ← blockChars_append_break, ← blockChars_lines hls, ← blockChars_breaks hfront]
    simp [BlockLine.chars]
  · rw [blockParts_append_singleton] at h
    cases h
    have hstrip : chompingOf (front ++ ls.flatMap BlockLine.chars ++ (last ++ [c])) = .strip := by
      rw [← List.append_assoc]
      exact chompingOf_text _ hc
    rw [hstrip]
    simp [Chomping.tail]

end Blocks

theorem exists_block {cs : List Char} (hprint : ∀ c ∈ cs, isPrintable c = true) (hne : cs ≠ []) :
    ∃ front ls, IsBlockOf cs front ls := by
  obtain ⟨front, ls, last, rfl, hfront, hls, hlast⟩ := exists_lines hprint
  rcases List.eq_nil_or_concat' last with rfl | ⟨last, c, rfl⟩
  · rw [List.append_nil] at hne ⊢
    rcases List.eq_nil_or_concat' ls with rfl | ⟨ls, l, rfl⟩
    · rw [List.flatMap_nil, List.append_nil] at hne ⊢
      exact ⟨front, [], isBlockOf_breaks hfront hne⟩
    · exact ⟨front, ls ++ [l], isBlockOf_lines hfront hls⟩
  · exact ⟨front, _, isBlockOf_open hfront hls hlast⟩

/-! ## Literal blocks -/

/-- The indentation that a block asks for, or else that of its first line. -/
theorem exists_indentation {cs body rest : List Char} {m k : Mark} {widest : Nat}
    {front : List Char} {c : Cursor} (hprint : ∀ c ∈ cs, isPrintable c = true) (hne : cs ≠ [])
    (hbody : body = blockChars true cs ++ addedBreak cs ++ rest) (hk : k.column = 0)
    (hempty : readEmptyLines m (some 2) (body.length + 1) [] 0 ⟨body, k⟩ =
      .ok (front, widest, c)) :
    ∃ given, (if isUnclear cs then some 2 else none).map
        (fun n => (if (0 : Int) ≤ 0 then (0 : Int) else 0).toNat + n) = given ∧
      given.getD (max (max widest ((0 : Int) + 1).toNat) 1) = 2 ∧
      readEmptyLines m given (body.length + 1) [] 0 ⟨body, k⟩ = .ok (front, widest, c) := by
  cases hunclear : isUnclear cs with
  | true => exact ⟨some 2, rfl, rfl, hempty⟩
  | false =>
    obtain ⟨d, ds, rfl⟩ := List.exists_cons_of_ne_nil hne
    obtain ⟨hspace, hbreak⟩ : d ≠ ' ' ∧ isBreak d = false := by
      simpa [isUnclear, isSpaceOrBreak] using hunclear
    have hblank := isBlank_of_isPrintable (hprint d List.mem_cons_self) hspace
    have hline : body =
        lineIndent ++ d :: (blockChars false ds ++ addedBreak (d :: ds) ++ rest) := by
      simp [hbody, blockChars, hbreak]
    rw [hline] at hempty ⊢
    rw [readEmptyLines_line m hbreak (.inl rfl) hk] at hempty
    have hwidest : max 0 2 = widest := congrArg (·.2.1) (Except.ok.inj hempty)
    rw [← hwidest] at hempty ⊢
    exact ⟨none, rfl, rfl, (readEmptyLines_line m hbreak (.inr ⟨rfl, hblank⟩) hk _ _ _).trans
      hempty⟩

theorem readBlock_of_literal {cs rest : List Char} (hprint : ∀ c ∈ cs, isPrintable c = true)
    (hne : cs ≠ []) (hrest : KeyNext rest) (m : Mark) : ∃ m', m'.column = 0 ∧
      readBlock true 0
        ⟨'|' :: (blockHints cs ++ '\n' :: (blockChars true cs ++ addedBreak cs ++ rest)), m⟩ =
          .ok (cs, ⟨rest, m'⟩) := by
  obtain ⟨front, ls, hblock⟩ := exists_block hprint hne
  generalize hbody : blockChars true cs ++ addedBreak cs ++ rest = body
  have hchars : body = front ++ (indented ls ++ rest) := by
    rw [← hbody, hblock.chars, List.append_assoc]
  obtain ⟨k, hk, hheader⟩ := readHeader_hints m (isUnclear cs) (chompingOf cs) body (m.on ['|'])
  rw [← blockHints_eq] at hheader
  have hlen : front.length < body.length + 1 := by
    rw [hchars, List.length_append]
    omega
  obtain ⟨widest, c, hempty, hc⟩ :=
    readEmptyLines_lines m hrest hblock.lines hblock.breaks hk hlen [] 0
  rw [← hchars, List.nil_append] at hempty
  obtain ⟨given, hmap, hindent, hempty⟩ := exists_indentation hprint hne hbody.symm hk hempty
  obtain ⟨text, last, breaks, ⟨e, n⟩, hlines, hparts, rfl, hn⟩ :=
    readBlockLines_lines m hrest hblock.lines hc (Nat.lt_succ_of_le hc.length_le) [] [] front false
  refine ⟨n, hn, ?_⟩
  have hpass : (⟨'|' :: (blockHints cs ++ '\n' :: body), m⟩ : Cursor).pass 1 =
      ⟨blockHints cs ++ '\n' :: body, m.on ['|']⟩ := rfl
  simp only [readBlock, hpass, hheader, bind, Except.bind]
  rw [hmap, hempty]
  simp only [hindent, hlines]
  have htext := hblock.parts text last breaks hparts
  refine congrArg (fun text => Except.ok (text, (⟨e, n⟩ : Cursor))) (Eq.trans ?_ htext)
  cases chompingOf cs <;> rfl

end CacheActivity.Yaml
