import CacheActivity.Proofs.ReadingComplete

/-!
# How deep a JSON text is nested

`nesting t` is the number of arrays and objects that are open at once in a text, found in one pass
over its characters: brackets count, unless they stand in quotes. For a spelling it is the least
depth at which the text still spells its value (`Spells.nesting_le`, `Spells.of_nesting`), so it is
what decides whether the text may stand inside further brackets.
-/

namespace CacheActivity.Json

open Text (joinWith joinWith_cons_eq_append)

/-- Where a pass over a text stands: outside of quotes, inside of them, or behind a backslash inside
of them. -/
inductive Mode where
  | outside
  | quoted
  | escaped

/-- The deepest level that a text gets to from a level on. -/
def deepest : Mode → Nat → List Char → Nat
  | _, level, [] => level
  | .outside, level, c :: cs =>
    if c = '"' then deepest .quoted level cs
    else if c = '[' ∨ c = '\x7b' then deepest .outside (level + 1) cs
    else if c = ']' ∨ c = '\x7d' then max level (deepest .outside (level - 1) cs)
    else deepest .outside level cs
  | .quoted, level, c :: cs =>
    if c = '"' then deepest .outside level cs
    else if c = '\\' then deepest .escaped level cs
    else deepest .quoted level cs
  | .escaped, level, _ :: cs => deepest .quoted level cs

/-- How many arrays and objects are open at once in a text. -/
def nesting (cs : List Char) : Nat := deepest .outside 0 cs

theorem le_deepest (mode : Mode) (level : Nat) (cs : List Char) :
    level ≤ deepest mode level cs := by
  fun_induction deepest mode level cs <;> omega

theorem deepest_le (mode : Mode) (level : Nat) (cs : List Char) :
    deepest mode level cs ≤ level + cs.length := by
  fun_induction deepest mode level cs <;> simp only [List.length_cons, List.length_nil] <;> omega

theorem nesting_le_length (cs : List Char) : nesting cs ≤ cs.length := by
  have h := deepest_le .outside 0 cs
  rwa [Nat.zero_add] at h

/-- That a text opens so many brackets inside one another and closes them all. -/
def Nests (t : List Char) (n : Nat) : Prop :=
  ∀ level rest, deepest .outside level (t ++ rest) = max (level + n) (deepest .outside level rest)

section Nests

variable {t t' : List Char} {n n' : Nat}

theorem Nests.nesting_eq (h : Nests t n) : nesting t = n := by
  have := h 0 []
  simpa [nesting, deepest] using this

theorem Nests.append (h : Nests t n) (h' : Nests t' n') : Nests (t ++ t') (max n n') := by
  intro level rest
  rw [List.append_assoc, h, h', ← Nat.max_assoc, ← Nat.add_max_add_left]

def isMark (c : Char) : Bool := decide (c ∈ ['"', '[', ']', '\x7b', '\x7d'])

theorem nests_of_all (h : t.all (!isMark ·) = true) : Nests t 0 := by
  intro level rest
  rw [Nat.add_zero, Nat.max_eq_right (le_deepest _ _ _)]
  induction t with
  | nil => rfl
  | cons c t ih =>
    rw [List.all_cons, Bool.and_eq_true] at h
    obtain ⟨hc, ht⟩ := h
    simp only [isMark, List.mem_cons, List.not_mem_nil, or_false, Bool.not_eq_true',
      decide_eq_false_iff_not, not_or] at hc
    obtain ⟨h₁, h₂, h₃, h₄, h₅⟩ := hc
    simp only [List.cons_append, deepest, h₁, h₂, h₃, h₄, h₅, or_self, if_false]
    exact ih ht

theorem nests_of_class {p : Char → Bool}
    (hp : ∀ c, isMark c = true → p c = false) (h : ∀ c ∈ t, p c = true) : Nests t 0 := by
  refine nests_of_all (List.all_eq_true.2 fun c hc => ?_)
  rw [Bool.not_eq_true', ← Bool.not_eq_true]
  intro hmark
  exact Bool.false_ne_true ((hp c hmark).symm.trans (h c hc))

theorem Blanks.nests (h : Blanks t) : Nests t 0 := by
  refine nests_of_class (fun c hmark => ?_) h
  simp only [isMark, List.mem_cons, List.not_mem_nil, or_false, decide_eq_true_eq] at hmark
  rcases hmark with rfl | rfl | rfl | rfl | rfl <;> decide

theorem nests_of_isNumeric (h : ∀ c ∈ t, isNumeric c = true) : Nests t 0 := by
  refine nests_of_class (fun c hmark => ?_) h
  simp only [isMark, List.mem_cons, List.not_mem_nil, or_false, decide_eq_true_eq] at hmark
  rcases hmark with rfl | rfl | rfl | rfl | rfl <;> decide

theorem Nests.bracket (h : Nests t n) {start stop : Char} (hstart : start = '[' ∨ start = '\x7b')
    (hstop : stop = ']' ∨ stop = '\x7d') : Nests (start :: t ++ [stop]) (n + 1) := by
  intro level rest
  have hopen : start ≠ '"' := by rcases hstart with rfl | rfl <;> decide
  have hclose : stop ≠ '"' ∧ ¬(stop = '[' ∨ stop = '\x7b') := by
    rcases hstop with rfl | rfl <;> decide
  rw [List.append_assoc, List.cons_append, deepest, if_neg hopen, if_pos hstart, h,
    List.cons_append, List.nil_append, deepest, if_neg hclose.1, if_neg hclose.2, if_pos hstop]
  have := le_deepest .outside level rest
  simp only [Nat.add_sub_cancel]
  omega

theorem deepest_quoted_append (h : ∀ c ∈ t, c ≠ '"' ∧ c ≠ '\\') (level : Nat)
    (rest : List Char) : deepest .quoted level (t ++ rest) = deepest .quoted level rest := by
  induction t with
  | nil => rfl
  | cons c t ih =>
    obtain ⟨hc, ht⟩ := List.forall_mem_cons.1 h
    rw [List.cons_append, deepest, if_neg hc.1, if_neg hc.2, ih ht]

theorem deepest_quoted_hexUnit (h : HexUnit t n) (level : Nat) (rest : List Char) :
    deepest .quoted level (t ++ rest) = deepest .quoted level rest := by
  have hdigit : ∀ d ∈ hexDigits, d.1 ≠ '"' ∧ d.1 ≠ '\\' := by decide
  refine deepest_quoted_append (fun c hc => ?_) level rest
  cases h with
  | digits ha hb hc' hd =>
    simp only [List.mem_cons, List.not_mem_nil, or_false] at hc
    rcases hc with rfl | rfl | rfl | rfl
    · exact hdigit _ ha
    · exact hdigit _ hb
    · exact hdigit _ hc'
    · exact hdigit _ hd

theorem deepest_escape {e : List Char} (h : IsEscape e) (level : Nat) (rest : List Char) :
    deepest .escaped level (e ++ rest) = deepest .quoted level rest := by
  cases h with
  | letter => rfl
  | unit hu => exact deepest_quoted_hexUnit hu level rest

theorem Inside.deepest_eq (h : Inside IsEscape t) (level : Nat) (rest : List Char) :
    deepest .quoted level (t ++ '"' :: rest) = deepest .outside level rest := by
  induction h with
  | nil => rfl
  | plain hquote hslash _ _ ih => rw [List.cons_append, deepest, if_neg hquote, if_neg hslash, ih]
  | escape he _ ih =>
    rw [List.append_assoc, List.cons_append, deepest, if_neg (by decide), if_pos rfl,
      deepest_escape he, ih]

theorem Quoted.nests {s : List Char} (h : Quoted t s) : Nests ('"' :: t ++ ['"']) 0 := by
  intro level rest
  rw [List.append_assoc, List.cons_append, deepest, if_pos rfl]
  rw [List.cons_append, List.nil_append, h.inside.deepest_eq, Nat.add_zero,
    Nat.max_eq_right (le_deepest _ _ _)]

end Nests

/-! ## Spellings -/

section Lists

variable {α : Type} {chars : α → List Char} {depth : α → Nat} {d : Nat} {xs : List α}

/-- A concatenation is nested as deep as the deepest of its parts. -/
theorem exists_nests_flatMap (h : ∀ x ∈ xs, Nests (chars x) (depth x) ∧ depth x ≤ d) :
    ∃ n ≤ d, Nests (xs.flatMap chars) n ∧ ∀ x ∈ xs, depth x ≤ n := by
  induction xs with
  | nil => exact ⟨0, Nat.zero_le d, nests_of_all rfl, List.forall_mem_nil _⟩
  | cons x xs ih =>
    obtain ⟨⟨hnests, hx⟩, hxs⟩ := List.forall_mem_cons.1 h
    obtain ⟨n, hn, hnests', hle⟩ := ih hxs
    refine ⟨max (depth x) n, Nat.max_le.2 ⟨hx, hn⟩, hnests.append hnests',
      List.forall_mem_cons.2 ⟨Nat.le_max_left _ n, fun y hy => ?_⟩⟩
    exact Nat.le_trans (hle y hy) (Nat.le_max_right _ n)

theorem exists_nests_joinWith (h : ∀ x ∈ xs, Nests (chars x) (depth x) ∧ depth x ≤ d) :
    ∃ n ≤ d, Nests (joinWith ',' (xs.map chars)) n ∧ ∀ x ∈ xs, depth x ≤ n := by
  cases xs with
  | nil => exact ⟨0, Nat.zero_le d, nests_of_all rfl, List.forall_mem_nil _⟩
  | cons x xs =>
    obtain ⟨⟨hnests, hx⟩, hxs⟩ := List.forall_mem_cons.1 h
    have hcomma : Nests [','] 0 := nests_of_all (by decide)
    have hbehind : ∀ y ∈ xs, Nests (',' :: chars y) (depth y) ∧ depth y ≤ d := fun y hy =>
      ⟨Nat.zero_max (depth y) ▸ hcomma.append (hxs y hy).1, (hxs y hy).2⟩
    obtain ⟨n, hn, hnests', hle⟩ := exists_nests_flatMap hbehind
    refine ⟨max (depth x) n, Nat.max_le.2 ⟨hx, hn⟩, ?_,
      List.forall_mem_cons.2 ⟨Nat.le_max_left _ n, fun y hy => ?_⟩⟩
    · rw [List.map_cons, joinWith_cons_eq_append, List.flatMap_map]
      exact hnests.append hnests'
    · exact Nat.le_trans (hle y hy) (Nat.le_max_right _ n)

end Lists

theorem Piece.nests {x : Piece} {n : Nat} (h : Nests x.text n) : Nests x.chars n := by
  have := (x.blanks_before.nests.append h).append x.blanks_after.nests
  rwa [Nat.zero_max, Nat.max_zero] at this

theorem Member.nests {m : Member} {n : Nat} (h : Nests m.text n) : Nests m.chars n := by
  have hcolon : Nests [':'] 0 := nests_of_all (by decide)
  have hkey := (m.blanks_beforeKey.nests.append m.quoted.nests).append
    (m.blanks_afterKey.nests.append hcolon)
  have := hkey.append (Piece.nests h)
  rw [Nat.max_self, Nat.max_self, Nat.zero_max] at this
  simpa [Member.chars, Member.fromKey] using this

section Spells

variable {d : Nat} {t : List Char} {v : Value}

theorem Spells.exists_nests (h : Spells d t v) : ∃ n ≤ d, Nests t n ∧ Spells n t v := by
  induction h with
  | null => exact ⟨0, Nat.zero_le _, nests_of_all (by decide), .null⟩
  | bool b =>
    refine ⟨0, Nat.zero_le _, nests_of_all ?_, .bool b⟩
    cases b <;> decide
  | text hquoted => exact ⟨0, Nat.zero_le _, hquoted.nests, .text hquoted⟩
  | @number _ x _ hn =>
    exact ⟨0, Nat.zero_le _, nests_of_isNumeric x.isNumeric_of_mem, .number hn⟩
  | emptyArray hbs =>
    exact ⟨1, Nat.le_add_left _ _, hbs.nests.bracket (.inl rfl) (.inl rfl), .emptyArray hbs⟩
  | @array d items hne _ ih =>
    have hitems : ∀ x ∈ items, Nests x.chars (nesting x.text) ∧ nesting x.text ≤ d := by
      intro x hx
      obtain ⟨n, hn, hnests, -⟩ := ih x hx
      exact hnests.nesting_eq ▸ ⟨Piece.nests hnests, hn⟩
    obtain ⟨n, hn, hnests, hle⟩ := exists_nests_joinWith hitems
    refine ⟨n + 1, Nat.succ_le_succ hn, hnests.bracket (.inl rfl) (.inl rfl), .array hne ?_⟩
    intro x hx
    obtain ⟨m, -, hm, hspells⟩ := ih x hx
    exact hspells.mono (hm.nesting_eq ▸ hle x hx)
  | emptyObject hbs =>
    exact ⟨1, Nat.le_add_left _ _, hbs.nests.bracket (.inr rfl) (.inr rfl), .emptyObject hbs⟩
  | @object d members hne _ ih =>
    have hmembers : ∀ m ∈ members, Nests m.chars (nesting m.text) ∧ nesting m.text ≤ d := by
      intro m hm
      obtain ⟨n, hn, hnests, -⟩ := ih m hm
      exact hnests.nesting_eq ▸ ⟨Member.nests hnests, hn⟩
    obtain ⟨n, hn, hnests, hle⟩ := exists_nests_joinWith hmembers
    refine ⟨n + 1, Nat.succ_le_succ hn, hnests.bracket (.inr rfl) (.inr rfl), .object hne ?_⟩
    intro m hm
    obtain ⟨k, -, hk, hspells⟩ := ih m hm
    exact hspells.mono (hk.nesting_eq ▸ hle m hm)

theorem Spells.nests (h : Spells d t v) : Nests t (nesting t) := by
  obtain ⟨n, -, hnests, -⟩ := h.exists_nests
  exact hnests.nesting_eq ▸ hnests

theorem Spells.nesting_le (h : Spells d t v) : nesting t ≤ d := by
  obtain ⟨n, hn, hnests, -⟩ := h.exists_nests
  exact hnests.nesting_eq ▸ hn

/-- A text spells its value at any depth that it is not nested deeper than. -/
theorem Spells.of_nesting {d' : Nat} (h : Spells d t v) (hd : nesting t ≤ d') : Spells d' t v := by
  obtain ⟨n, -, hnests, hspells⟩ := h.exists_nests
  exact hspells.mono (hnests.nesting_eq ▸ hd)

theorem nesting_le_of_read {s : String} (h : read s = .ok v) : nesting s.toList ≤ depthLimit := by
  obtain ⟨x, hx, -, hspells⟩ := read_eq_ok_iff.1 h
  rw [hx, (Piece.nests hspells.nests).nesting_eq]
  exact hspells.nesting_le

theorem decodable_of_read {s : String} (h : read s = .ok v) (hd : nesting s.toList ≤ d) :
    Decodable d s.toList := by
  obtain ⟨x, hx, -, hspells⟩ := read_eq_ok_iff.1 h
  rw [hx, (Piece.nests hspells.nests).nesting_eq] at hd
  exact ⟨x.toPadded, hx, exists_spells_iff.1 ⟨_, hspells.of_nesting hd⟩⟩

end Spells

end CacheActivity.Json
