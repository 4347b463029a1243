import CacheActivity.Json.Reader
import CacheActivity.Json.Writer
import CacheActivity.Proofs.Numerals
import CacheActivity.Proofs.QuotedTexts
import CacheActivity.Text.Basic
import CacheActivity.Text.Split

/-!
# The texts of JSON values

`Formed inside numeral d t` says that the text `t` is JSON without blanks around it, with at most
`d` arrays and objects inside one another, with quoted texts of some kind and numerals of some kind.
A text is JSON where all kinds are allowed (`Valid`), and it stands for a value where its escapes
stand for characters and its numerals for numbers (`Decodable`): `Spells d t v` says which value
that is. The rules say nothing about the order in which a reader goes over the text.
-/

namespace CacheActivity.Json

open Text (isSpace joinWith)

def Blanks (cs : List Char) : Prop := ∀ c ∈ cs, isBlank c = true

/-- That a text does not go on with a blank. -/
def NoBlank (cs : List Char) : Prop := ∀ c ∈ cs.head?, isBlank c = false

theorem Blanks.nil : Blanks [] := List.forall_mem_nil _

section Blanks

variable {bs bs' rest : List Char}

theorem Blanks.append (h : Blanks bs) (h' : Blanks bs') : Blanks (bs ++ bs') :=
  List.forall_mem_append.2 ⟨h, h'⟩

theorem noBlank_cons {c : Char} (h : isBlank c = false) (cs : List Char) : NoBlank (c :: cs) := by
  rintro _ ⟨⟩
  exact h

theorem Stops.nil : Stops [] := by
  rintro _ ⟨⟩

theorem stops_cons {c : Char} (h : isNumeric c = false) (cs : List Char) : Stops (c :: cs) := by
  rintro _ ⟨⟩
  exact h

theorem isNumeric_of_isBlank {c : Char} (h : isBlank c = true) : isNumeric c = false := by
  simp only [isBlank, Bool.or_eq_true, decide_eq_true_eq] at h
  rcases h with ((rfl | rfl) | rfl) | rfl <;> decide

theorem Blanks.stops (h : Blanks bs) (hr : Stops rest) : Stops (bs ++ rest) := by
  cases bs with
  | nil => exact hr
  | cons b bs => exact stops_cons (isNumeric_of_isBlank (h b List.mem_cons_self)) _

theorem exists_blanks (c : Cursor) :
    ∃ bs, Blanks bs ∧ c.rest = bs ++ c.skipBlanks.rest ∧ NoBlank c.skipBlanks.rest := by
  obtain ⟨cs, p⟩ := c
  unfold Cursor.skipBlanks
  induction cs generalizing p with
  | nil => exact ⟨[], .nil, rfl, by rintro _ ⟨⟩⟩
  | cons c cs ih =>
    by_cases h : isBlank c = true
    · obtain ⟨bs, hbs, hrest, hno⟩ := ih (p.past c)
      simp only at hrest hno
      simp only [Cursor.skipBlanks.go, h, if_true]
      refine ⟨c :: bs, List.forall_mem_cons.2 ⟨h, hbs⟩, ?_, hno⟩
      rw [List.cons_append, ← hrest]
    · rw [Bool.not_eq_true] at h
      simp only [Cursor.skipBlanks.go, h, Bool.false_eq_true, if_false]
      exact ⟨[], .nil, rfl, noBlank_cons h cs⟩

theorem skipBlanks_append (h : Blanks bs) (hr : NoBlank rest) (p : Position) :
    ∃ q, (Cursor.mk (bs ++ rest) p).skipBlanks = ⟨rest, q⟩ := by
  unfold Cursor.skipBlanks
  induction bs generalizing p with
  | nil =>
    cases rest with
    | nil => exact ⟨p, rfl⟩
    | cons c rest => exact ⟨p, by simp [Cursor.skipBlanks.go, hr c rfl]⟩
  | cons b bs ih =>
    obtain ⟨hb, hbs⟩ := List.forall_mem_cons.1 h
    simpa [Cursor.skipBlanks.go, hb] using ih hbs (p.past b)

theorem step_rest {c : Cursor} {ch : Char} {cs : List Char} (h : c.rest = ch :: cs) :
    c.step.rest = cs := by
  obtain ⟨_, p⟩ := c
  subst h
  rfl

end Blanks

/-- A text with the blanks around it. -/
structure Padded where
  before : List Char
  text : List Char
  after : List Char
  blanks_before : Blanks before
  blanks_after : Blanks after

def Padded.chars (x : Padded) : List Char := x.before ++ x.text ++ x.after

/-- The texts of a key and of a value, with the blanks around both. -/
structure Entry extends Padded where
  beforeKey : List Char
  keyText : List Char
  afterKey : List Char
  blanks_beforeKey : Blanks beforeKey
  blanks_afterKey : Blanks afterKey

def Entry.chars (m : Entry) : List Char :=
  m.beforeKey ++ '"' :: m.keyText ++ '"' :: m.afterKey ++ ':' :: m.toPadded.chars

/-- That a text is JSON without blanks around it, with at most so many arrays and objects inside one
another, when what stands in quotes and the numerals are of some kind. -/
inductive Formed (inside : List Char → Prop) (numeral : Numeral → Prop) : Nat → List Char → Prop
  | null {d : Nat} : Formed inside numeral d ['n', 'u', 'l', 'l']
  | bool {d : Nat} (b : Bool) : Formed inside numeral d (writeBool b)
  | text {d : Nat} {t : List Char} : inside t → Formed inside numeral d ('"' :: t ++ ['"'])
  | number {d : Nat} {x : Numeral} : numeral x → Formed inside numeral d x.chars
  | emptyArray {d : Nat} {bs : List Char} : Blanks bs →
      Formed inside numeral (d + 1) ('[' :: bs ++ [']'])
  | array {d : Nat} {items : List Padded} : items ≠ [] →
      (∀ x ∈ items, Formed inside numeral d x.text) →
      Formed inside numeral (d + 1) ('[' :: joinWith ',' (items.map Padded.chars) ++ [']'])
  | emptyObject {d : Nat} {bs : List Char} : Blanks bs →
      Formed inside numeral (d + 1) ('\x7b' :: bs ++ ['\x7d'])
  | object {d : Nat} {members : List Entry} : members ≠ [] → (∀ m ∈ members, inside m.keyText) →
      (∀ m ∈ members, Formed inside numeral d m.text) →
      Formed inside numeral (d + 1) ('\x7b' :: joinWith ',' (members.map Entry.chars) ++ ['\x7d'])

/-- That a text is JSON, with at most so many arrays and objects inside one another. -/
def Valid (d : Nat) (cs : List Char) : Prop :=
  ∃ x : Padded, cs = x.chars ∧ Formed (Inside IsEscape) (fun _ => True) d x.text

/-- That a text is JSON that stands for a value: no escape is half of a pair alone, and every
numeral has a number. -/
def Decodable (d : Nat) (cs : List Char) : Prop :=
  ∃ x : Padded, cs = x.chars ∧
    Formed (Inside fun e => ∃ ch, Escape e ch) (fun x => x.number?.isSome) d x.text

/-- The text of a value with the blanks around it. -/
structure Piece extends Padded where
  value : Value

def Piece.chars (x : Piece) : List Char := x.before ++ x.text ++ x.after

def Piece.bare (text : List Char) (value : Value) : Piece := ⟨⟨[], text, [], .nil, .nil⟩, value⟩

@[simp] theorem Piece.chars_bare (text : List Char) (value : Value) :
    (bare text value).chars = text := by
  simp [bare, chars]

def Piece.indent {bs : List Char} (h : Blanks bs) (x : Piece) : Piece :=
  { x with before := bs ++ x.before, blanks_before := h.append x.blanks_before }

@[simp] theorem Piece.chars_indent {bs : List Char} (h : Blanks bs) (x : Piece) :
    (x.indent h).chars = bs ++ x.chars := by
  simp [indent, chars]

/-- A key and a value, with the blanks around both. -/
structure Member extends Piece where
  beforeKey : List Char
  keyText : List Char
  key : String
  afterKey : List Char
  blanks_beforeKey : Blanks beforeKey
  blanks_afterKey : Blanks afterKey
  quoted : Quoted keyText key.toList

/-- A member from the quote of its key on. -/
def Member.fromKey (m : Member) : List Char :=
  '"' :: m.keyText ++ '"' :: m.afterKey ++ ':' :: m.toPiece.chars

theorem Member.noBlank_fromKey (m : Member) (rest : List Char) : NoBlank (m.fromKey ++ rest) :=
  noBlank_cons (by decide) _

def Member.chars (m : Member) : List Char := m.beforeKey ++ m.fromKey

/-- A member with other blanks in front. -/
def Member.behind {bs : List Char} (h : Blanks bs) (m : Member) : Member :=
  { m with beforeKey := bs, blanks_beforeKey := h }

@[simp] theorem Member.chars_behind {bs : List Char} (h : Blanks bs) (m : Member) :
    (m.behind h).chars = bs ++ m.fromKey := rfl

def Member.pair (m : Member) : String × Value := (m.key, m.value)

def Member.entry (m : Member) : Entry := { m with }

theorem map_chars_toPadded (xs : List Piece) :
    (xs.map Piece.toPadded).map Padded.chars = xs.map Piece.chars := List.map_map

theorem map_chars_entry (ms : List Member) :
    (ms.map Member.entry).map Entry.chars = ms.map Member.chars := by
  rw [List.map_map]
  refine List.map_congr_left fun m _ => ?_
  simp [Entry.chars, Member.entry, Member.chars, Member.fromKey, Padded.chars, Piece.chars]

/-- That a text without blanks around it stands for a value, with at most so many arrays and objects
inside one another. -/
inductive Spells : Nat → List Char → Value → Prop
  | null {d : Nat} : Spells d ['n', 'u', 'l', 'l'] .null
  | bool {d : Nat} (b : Bool) : Spells d (writeBool b) (.bool b)
  | text {d : Nat} {t : List Char} {s : String} : Quoted t s.toList →
      Spells d ('"' :: t ++ ['"']) (.text s)
  | number {d : Nat} {x : Numeral} {n : Number} : x.number? = some n →
      Spells d x.chars (.number n)
  | emptyArray {d : Nat} {bs : List Char} : Blanks bs →
      Spells (d + 1) ('[' :: bs ++ [']']) (.array [])
  | array {d : Nat} {items : List Piece} : items ≠ [] →
      (∀ x ∈ items, Spells d x.text x.value) →
      Spells (d + 1) ('[' :: joinWith ',' (items.map Piece.chars) ++ [']'])
        (.array (items.map Piece.value))
  | emptyObject {d : Nat} {bs : List Char} : Blanks bs →
      Spells (d + 1) ('\x7b' :: bs ++ ['\x7d']) (.object [])
  | object {d : Nat} {members : List Member} : members ≠ [] →
      (∀ m ∈ members, Spells d m.text m.value) →
      Spells (d + 1) ('\x7b' :: joinWith ',' (members.map Member.chars) ++ ['\x7d'])
        (.object (Members.ofPairs (members.map Member.pair)))

section Spells

variable {d : Nat} {t : List Char} {v : Value}

theorem Spells.mono {d' : Nat} (h : Spells d t v) (hd : d ≤ d') : Spells d' t v := by
  induction h generalizing d' with
  | null => exact .null
  | bool b => exact .bool b
  | text hq => exact .text hq
  | number hn => exact .number hn
  | emptyArray hbs =>
    obtain ⟨e, rfl⟩ := Nat.exists_eq_add_of_le' (Nat.zero_lt_of_lt hd)
    exact .emptyArray hbs
  | array hne _ ih =>
    obtain ⟨e, rfl⟩ := Nat.exists_eq_add_of_le' (Nat.zero_lt_of_lt hd)
    exact .array hne fun x hx => ih x hx (Nat.le_of_succ_le_succ hd)
  | emptyObject hbs =>
    obtain ⟨e, rfl⟩ := Nat.exists_eq_add_of_le' (Nat.zero_lt_of_lt hd)
    exact .emptyObject hbs
  | object hne _ ih =>
    obtain ⟨e, rfl⟩ := Nat.exists_eq_add_of_le' (Nat.zero_lt_of_lt hd)
    exact .object hne fun m hm => ih m hm (Nat.le_of_succ_le_succ hd)

theorem ne_of_isDigit {c ch : Char} (h : c.isDigit = true) (hch : ch.isDigit = false) : c ≠ ch := by
  rintro rfl
  rw [h] at hch
  cases hch

theorem not_isBlank_of_isDigit {c : Char} (h : c.isDigit = true) : isBlank c = false := by
  rw [← Bool.not_eq_true]
  intro hb
  have := isNumeric_of_isBlank hb
  rw [isNumeric_of_isDigit h] at this
  cases this

theorem isSpace_of_isBlank {c : Char} (h : isBlank c = true) : isSpace c = true := by
  simp only [isBlank, Bool.or_eq_true, decide_eq_true_eq] at h
  rcases h with ((rfl | rfl) | rfl) | rfl <;> decide

theorem not_isSpace_of_isDigit {c : Char} (h : c.isDigit = true) : isSpace c = false := by
  have hbounds : 48 ≤ c.toNat ∧ c.toNat ≤ 57 := by
    simpa [Char.isDigit, UInt32.le_iff_toNat_le] using h
  simp only [isSpace, Bool.or_eq_false_iff, Bool.and_eq_false_iff, decide_eq_false_iff_not]
  omega

theorem Spells.head (h : Spells d t v) : ∃ c cs, t = c :: cs ∧ isSpace c = false ∧ c ≠ ']' := by
  cases h with
  | null => exact ⟨_, _, rfl, by decide, by decide⟩
  | bool b => cases b <;> exact ⟨_, _, rfl, by decide, by decide⟩
  | text => exact ⟨_, _, rfl, by decide, by decide⟩
  | @number _ x =>
    obtain ⟨d, t, ht, hd⟩ := x.exists_head
    rw [Numeral.chars, ht]
    cases x.negative
    · exact ⟨_, _, rfl, not_isSpace_of_isDigit hd, ne_of_isDigit hd (by decide)⟩
    · exact ⟨_, _, rfl, by decide, by decide⟩
  | emptyArray => exact ⟨_, _, rfl, by decide, by decide⟩
  | array => exact ⟨_, _, rfl, by decide, by decide⟩
  | emptyObject => exact ⟨_, _, rfl, by decide, by decide⟩
  | object => exact ⟨_, _, rfl, by decide, by decide⟩

theorem Spells.noBlank (h : Spells d t v) (rest : List Char) : NoBlank (t ++ rest) := by
  obtain ⟨c, cs, rfl, hc, -⟩ := h.head
  refine noBlank_cons ?_ _
  rw [← Bool.not_eq_true]
  exact fun hb => Bool.false_ne_true (hc.symm.trans (isSpace_of_isBlank hb))

theorem Spells.last (h : Spells d t v) : ∃ cs c, t = cs ++ [c] ∧ isBlank c = false := by
  cases h with
  | null => exact ⟨['n', 'u', 'l'], 'l', rfl, by decide⟩
  | bool b =>
    cases b
    · exact ⟨['f', 'a', 'l', 's'], 'e', rfl, by decide⟩
    · exact ⟨['t', 'r', 'u'], 'e', rfl, by decide⟩
  | text => exact ⟨_, _, rfl, by decide⟩
  | @number _ x =>
    obtain ⟨cs, c, hcs, hc⟩ := x.exists_last
    exact ⟨cs, c, hcs, not_isBlank_of_isDigit hc⟩
  | emptyArray => exact ⟨_, _, rfl, by decide⟩
  | array => exact ⟨_, _, rfl, by decide⟩
  | emptyObject => exact ⟨_, _, rfl, by decide⟩
  | object => exact ⟨_, _, rfl, by decide⟩

end Spells

/-- Where each part has a value, there are pieces with these parts. -/
theorem exists_pieces {P : Padded → Value → Prop} {items : List Padded}
    (h : ∀ x ∈ items, ∃ v, P x v) :
    ∃ pieces : List Piece, pieces.map Piece.toPadded = items ∧
      ∀ y ∈ pieces, P y.toPadded y.value := by
  induction items with
  | nil => exact ⟨[], rfl, List.forall_mem_nil _⟩
  | cons x items ih =>
    obtain ⟨⟨v, hv⟩, hitems⟩ := List.forall_mem_cons.1 h
    obtain ⟨pieces, rfl, hpieces⟩ := ih hitems
    exact ⟨⟨x, v⟩ :: pieces, rfl, List.forall_mem_cons.2 ⟨hv, hpieces⟩⟩

theorem exists_members {P : Entry → Value → Prop} {entries : List Entry}
    (hkeys : ∀ m ∈ entries, Inside (fun e => ∃ ch, Escape e ch) m.keyText)
    (h : ∀ m ∈ entries, ∃ v, P m v) :
    ∃ members : List Member, members.map Member.entry = entries ∧
      ∀ m ∈ members, P m.entry m.value := by
  induction entries with
  | nil => exact ⟨[], rfl, List.forall_mem_nil _⟩
  | cons m entries ih =>
    obtain ⟨hkey, hkeys⟩ := List.forall_mem_cons.1 hkeys
    obtain ⟨⟨v, hv⟩, hentries⟩ := List.forall_mem_cons.1 h
    obtain ⟨members, rfl, hmembers⟩ := ih hkeys hentries
    obtain ⟨s, hs⟩ := exists_quoted_iff.2 hkey
    exact ⟨{ m with value := v, key := String.ofList s, quoted := by rwa [String.toList_ofList] } ::
      members, rfl, List.forall_mem_cons.2 ⟨hv, hmembers⟩⟩

/-- The texts that stand for a value are those whose escapes and numerals all stand for
something. -/
theorem exists_spells_iff : (∃ v, Spells d t v) ↔
    Formed (Inside fun e => ∃ ch, Escape e ch) (fun x => x.number?.isSome) d t := by
  constructor
  · rintro ⟨v, h⟩
    induction h with
    | null => exact .null
    | bool b => exact .bool b
    | text hq => exact .text (exists_quoted_iff.1 ⟨_, hq⟩)
    | number hn => exact .number (Option.isSome_of_eq_some hn)
    | emptyArray hbs => exact .emptyArray hbs
    | array hne _ ih =>
      rw [← map_chars_toPadded]
      exact .array (fun he => hne (List.map_eq_nil_iff.1 he)) (List.forall_mem_map.2 ih)
    | emptyObject hbs => exact .emptyObject hbs
    | object hne _ ih =>
      rw [← map_chars_entry]
      exact .object (fun he => hne (List.map_eq_nil_iff.1 he))
        (List.forall_mem_map.2 fun m _ => exists_quoted_iff.1 ⟨_, m.quoted⟩)
        (List.forall_mem_map.2 ih)
  · intro h
    induction h with
    | null => exact ⟨_, .null⟩
    | bool b => exact ⟨_, .bool b⟩
    | text hq =>
      obtain ⟨s, hs⟩ := exists_quoted_iff.2 hq
      exact ⟨.text (String.ofList s), .text (by rwa [String.toList_ofList])⟩
    | number hn =>
      obtain ⟨n, hn⟩ := Option.isSome_iff_exists.1 hn
      exact ⟨_, .number hn⟩
    | emptyArray hbs => exact ⟨_, .emptyArray hbs⟩
    | array hne _ ih =>
      obtain ⟨pieces, rfl, hpieces⟩ := exists_pieces ih
      rw [map_chars_toPadded]
      exact ⟨_, .array (fun he => hne (List.map_eq_nil_iff.2 he)) hpieces⟩
    | emptyObject hbs => exact ⟨_, .emptyObject hbs⟩
    | object hne hkeys _ ih =>
      obtain ⟨members, rfl, hmembers⟩ := exists_members hkeys ih
      rw [map_chars_entry]
      exact ⟨_, .object (fun he => hne (List.map_eq_nil_iff.2 he)) hmembers⟩

theorem Formed.mono {inside inside' : List Char → Prop} {numeral numeral' : Numeral → Prop}
    (h : Formed inside numeral d t) (hinside : ∀ t, inside t → inside' t)
    (hnumeral : ∀ x, numeral x → numeral' x) : Formed inside' numeral' d t := by
  induction h with
  | null => exact .null
  | bool b => exact .bool b
  | text ht => exact .text (hinside _ ht)
  | number hx => exact .number (hnumeral _ hx)
  | emptyArray hbs => exact .emptyArray hbs
  | array hne _ ih => exact .array hne ih
  | emptyObject hbs => exact .emptyObject hbs
  | object hne hkeys _ ih => exact .object hne (fun m hm => hinside _ (hkeys m hm)) ih

theorem Decodable.valid (h : Decodable d t) : Valid d t := by
  obtain ⟨x, hx, hformed⟩ := h
  refine ⟨x, hx, hformed.mono (fun t ht => ?_) fun _ _ => trivial⟩
  obtain ⟨s, hs⟩ := exists_quoted_iff.2 ht
  exact hs.inside

theorem spells_array {d : Nat} {items : List Piece} (h : ∀ x ∈ items, Spells d x.text x.value) :
    Spells (d + 1) ('[' :: joinWith ',' (items.map Piece.chars) ++ [']'])
      (.array (items.map Piece.value)) := by
  cases items with
  | nil => exact .emptyArray .nil
  | cons x xs => exact .array (List.cons_ne_nil x xs) h

def Member.ofPiece (key : String) (x : Piece) : Member :=
  { x with
    beforeKey := []
    keyText := key.toList.flatMap escapeChar
    key
    afterKey := []
    blanks_beforeKey := .nil
    blanks_afterKey := .nil
    quoted := quoted_escape key.toList }

theorem Member.chars_ofPiece (key : String) (x : Piece) :
    (ofPiece key x).chars = quote key ++ ':' :: x.chars := by
  simp [ofPiece, chars, fromKey, quote, Piece.chars]

theorem spells_object {d : Nat} {x : Piece} (key : String) (h : Spells d x.text x.value) :
    Spells (d + 1) ('\x7b' :: (Member.ofPiece key x).chars ++ ['\x7d'])
      (.object [(key, x.value)]) := by
  have hmember : ∀ m ∈ [Member.ofPiece key x], Spells d m.text m.value :=
    List.forall_mem_singleton.2 h
  exact .object (List.cons_ne_nil _ _) hmember

end CacheActivity.Json
