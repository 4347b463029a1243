import CacheActivity.Proofs.BlockScalars
import CacheActivity.Proofs.QuotedScalars

/-!
# Written scalars

The style of a text tells what the text admits. Whatever the text holds, all characters that it is
written with are printable (`isPrintable_writeScalar`).
-/

namespace CacheActivity.Yaml

theorem isPrintable_of_isWord {c : Char} (h : isWord c = true) : isPrintable c = true := by
  obtain h | rfl | rfl : c.isAlphanum = true ∨ c = '-' ∨ c = '_' := by
    simpa [isWord, or_assoc] using h
  · have hrange : 0x20 ≤ c.toNat ∧ c.toNat ≤ 0x7E := by
      -- Letters in either case, and digits.
      have h : ((decide (65 ≤ c.val ∧ c.val ≤ 90) || 97 ≤ c.val && c.val ≤ 122) ||
          48 ≤ c.val && c.val ≤ 57) = true := h
      simp only [Bool.or_eq_true, Bool.and_eq_true, decide_eq_true_eq, UInt32.le_iff_toNat_le,
        UInt32.reduceToNat] at h
      show 0x20 ≤ c.val.toNat ∧ c.val.toNat ≤ 0x7E
      omega
    simp [isPrintable, hrange]
  · rfl
  · rfl

theorem exists_digit_of_mem_toDigits {base n : Nat} (hbase : 1 < base) {c : Char}
    (h : c ∈ Nat.toDigits base n) : ∃ d < base, c = d.digitChar := by
  induction n using Nat.strongRecOn with
  | ind n ih =>
    rw [Nat.toDigits_eq_if hbase] at h
    split at h
    · rename_i hn
      exact ⟨n, hn, List.mem_singleton.1 h⟩
    · rename_i hn
      rcases List.mem_append.1 h with h | h
      · exact ih _ (Nat.div_lt_self (by omega) hbase) h
      · exact ⟨n % base, Nat.mod_lt _ (by omega), List.mem_singleton.1 h⟩

theorem isPrintable_hexDigits (length n : Nat) :
    ∀ c ∈ hexDigits length n, isPrintable c = true := by
  have hdigit : ∀ d < 16, isPrintable (Nat.digitChar d).toUpper = true := by decide
  intro c hc
  rcases List.mem_append.1 hc with hc | hc
  · rw [List.eq_of_mem_replicate hc]
    rfl
  · obtain ⟨d, hd, rfl⟩ := List.mem_map.1 hc
    obtain ⟨k, hk, rfl⟩ := exists_digit_of_mem_toDigits (by decide) hd
    exact hdigit k hk

theorem isPrintable_escapeChar (c : Char) : ∀ d ∈ escapeChar c, isPrintable d = true := by
  have hslash : isPrintable '\\' = true := rfl
  unfold escapeChar
  cases h : escapeLetter? c with
  | some letter =>
    have hletter : isPrintable letter = true := by
      unfold escapeLetter? at h
      split at h <;> cases h <;> rfl
    simp [hslash, hletter]
  | none =>
    have hcode {letter : Char} (hletter : isPrintable letter = true) (length : Nat) :
        ∀ d ∈ '\\' :: letter :: hexDigits length c.toNat, isPrintable d = true :=
      List.forall_mem_cons.2 ⟨hslash, List.forall_mem_cons.2
        ⟨hletter, isPrintable_hexDigits length c.toNat⟩⟩
    dsimp only
    split
    · simpa
    · split
      · exact hcode rfl 2
      · split
        · exact hcode rfl 4
        · exact hcode rfl 8

section Lines

variable {cs : List Char} (h : ∀ c ∈ cs, isPrintable c = true)

theorem isPrintable_indent (indented : Bool) :
    ∀ c ∈ (if indented then lineIndent else []), isPrintable c = true := by
  cases indented <;> exact List.all_eq_true.1 rfl

include h in
theorem isPrintable_singleQuotedChars (broken : Bool) :
    ∀ c ∈ singleQuotedChars broken cs, isPrintable c = true := by
  induction cs generalizing broken with
  | nil => exact isPrintable_indent broken
  | cons d cs ih =>
    obtain ⟨hd, hcs⟩ := List.forall_mem_cons.1 h
    have hchar : ∀ c ∈ (if d = '\'' then ['\'', '\''] else [d]), isPrintable c = true := by
      split
      · exact List.all_eq_true.1 rfl
      · simpa using hd
    rw [singleQuotedChars]
    split
    · exact List.forall_mem_cons.2 ⟨hd, ih hcs true⟩
    · exact List.forall_mem_append.2 ⟨List.forall_mem_append.2 ⟨isPrintable_indent broken, hchar⟩,
        ih hcs false⟩

include h in
theorem isPrintable_blockChars (lineStart : Bool) :
    ∀ c ∈ blockChars lineStart cs, isPrintable c = true := by
  induction cs generalizing lineStart with
  | nil => exact List.forall_mem_nil _
  | cons d cs ih =>
    obtain ⟨hd, hcs⟩ := List.forall_mem_cons.1 h
    rw [blockChars]
    split
    · exact List.forall_mem_cons.2 ⟨hd, ih hcs true⟩
    · exact List.forall_mem_append.2 ⟨isPrintable_indent lineStart,
        List.forall_mem_cons.2 ⟨hd, ih hcs false⟩⟩

theorem isPrintable_blockHints (cs : List Char) : ∀ c ∈ blockHints cs, isPrintable c = true := by
  have hdigit : ∀ c ∈ (if isUnclear cs then ['2'] else []), isPrintable c = true := by
    split <;> exact List.all_eq_true.1 rfl
  have hsign : ∀ c ∈ (chompingOf cs).sign, isPrintable c = true := by
    cases chompingOf cs <;> exact List.all_eq_true.1 rfl
  rw [blockHints_eq]
  exact List.forall_mem_append.2 ⟨hdigit, hsign⟩

end Lines

section Styles

variable {cs : List Char}

theorem allowsPlain_of_styleOf (h : styleOf cs = .plain) :
    meaning cs = .text ∧ allowsPlain cs = true := by
  unfold styleOf at h
  split at h
  · split at h <;> cases h
  · split at h
    · rename_i hplain
      simp only [Bool.and_eq_true, decide_eq_true_eq] at hplain
      exact ⟨hplain.1.1, hplain.2⟩
    · split at h <;> cases h

theorem allowsSingleQuotes_of_styleOf (h : styleOf cs = .singleQuoted) :
    '\n' ∉ cs ∧ allowsSingleQuotes cs = true := by
  unfold styleOf at h
  split at h
  · split at h <;> cases h
  · rename_i hline
    split at h
    · cases h
    · split at h
      · rename_i hallows
        exact ⟨by simpa using hline, hallows⟩
      · cases h

theorem allowsLiteral_of_styleOf (h : styleOf cs = .literal) :
    '\n' ∈ cs ∧ allowsLiteral cs = true := by
  unfold styleOf at h
  split at h
  · rename_i hline
    split at h
    · rename_i hallows
      exact ⟨by simpa using hline, hallows⟩
    · cases h
  · split at h
    · cases h
    · split at h <;> cases h

theorem styleOf_ne_folded (cs : List Char) : styleOf cs ≠ .folded := by
  intro h
  unfold styleOf at h
  split at h
  · split at h <;> cases h
  · split at h
    · cases h
    · split at h <;> cases h

theorem isPrintable_of_allowsPlain (h : allowsPlain cs = true) :
    ∀ c ∈ cs, isPrintable c = true := by
  simp only [allowsPlain, Bool.and_eq_true, List.all_eq_true] at h
  exact h.1.1.1.1.1.1

theorem isPrintable_of_allowsSingleQuotes (h : allowsSingleQuotes cs = true) :
    ∀ c ∈ cs, isPrintable c = true := by
  simp only [allowsSingleQuotes, Bool.and_eq_true, List.all_eq_true] at h
  exact h.1.1

theorem isPrintable_of_allowsLiteral (h : allowsLiteral cs = true) :
    ∀ c ∈ cs, isPrintable c = true := by
  simp only [allowsLiteral, Bool.and_eq_true, List.all_eq_true] at h
  exact h.1.1

end Styles

theorem isPrintable_writeScalar (cs : List Char) : ∀ c ∈ writeScalar cs, isPrintable c = true := by
  have hbreak : ∀ c ∈ ['\n'], isPrintable c = true := List.all_eq_true.1 rfl
  have hquotes {q : Char} (hq : isPrintable q = true) {inside : List Char}
      (h : ∀ c ∈ inside, isPrintable c = true) :
      ∀ c ∈ q :: inside ++ [q, '\n'], isPrintable c = true :=
    List.forall_mem_append.2 ⟨List.forall_mem_cons.2 ⟨hq, h⟩, List.forall_mem_cons.2 ⟨hq, hbreak⟩⟩
  unfold writeScalar
  cases hstyle : styleOf cs with
  | plain =>
    have hprint := isPrintable_of_allowsPlain (allowsPlain_of_styleOf hstyle).2
    exact List.forall_mem_append.2 ⟨hprint, hbreak⟩
  | singleQuoted =>
    have hprint := isPrintable_of_allowsSingleQuotes (allowsSingleQuotes_of_styleOf hstyle).2
    exact hquotes rfl (isPrintable_singleQuotedChars hprint false)
  | doubleQuoted =>
    refine hquotes rfl fun c hc => ?_
    obtain ⟨d, -, hd⟩ := List.mem_flatMap.1 hc
    exact isPrintable_escapeChar d c hd
  | literal =>
    have hprint := isPrintable_of_allowsLiteral (allowsLiteral_of_styleOf hstyle).2
    have hend : ∀ c ∈ (if (cs.getLast?.map isBreak).getD false then [] else ['\n']),
        isPrintable c = true := by
      split <;> exact List.all_eq_true.1 rfl
    have hline : ∀ c ∈ '|' :: blockHints cs, isPrintable c = true :=
      List.forall_mem_cons.2 ⟨rfl, isPrintable_blockHints cs⟩
    have hlines : ∀ c ∈ '\n' :: blockChars true cs, isPrintable c = true :=
      List.forall_mem_cons.2 ⟨rfl, isPrintable_blockChars hprint true⟩
    exact List.forall_mem_append.2 ⟨List.forall_mem_append.2 ⟨hline, hlines⟩, hend⟩
  | folded => exact absurd hstyle (styleOf_ne_folded cs)

end CacheActivity.Yaml
