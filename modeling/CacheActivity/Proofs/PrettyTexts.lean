import CacheActivity.Proofs.CompactTexts

/-!
# Texts on lines

The text of a value on lines differs from its compact text in the blanks around items and members,
so it spells the value as well, on every level (`Plain.spells_pretty`), and is read as the value
again (`read_pretty`).
-/

namespace CacheActivity.Json

open Text (joinWith joinWith_cons)

theorem blanks_newLine (level : Nat) : Blanks (newLine level) := by
  intro c hc
  rcases List.mem_cons.1 hc with rfl | hc
  · rfl
  · rw [List.eq_of_mem_replicate hc]
    rfl

theorem blanks_space : Blanks [' '] := List.forall_mem_singleton.2 rfl

theorem quoted_key (k : String) : Quoted (k.toList.flatMap escapeChar) k.toList :=
  quoted_escape k.toList

section Parts

variable (level : Nat) {close : List Char} (hclose : Blanks close)

include hclose in
/-- What stands behind an item: the line of the closing bracket, if it is the last one. -/
theorem blanks_behind (isLast : Bool) : Blanks (if isLast then close else []) := by
  cases isLast
  · exact .nil
  · exact hclose

/-- Items on lines of their own, with the line of the closing bracket behind the last one. -/
def linedItems : List Value → List Piece
  | [] => []
  | v :: vs =>
    ⟨⟨newLine level, v.prettyChars level, if vs.isEmpty then close else [],
      blanks_newLine level, blanks_behind hclose _⟩, v⟩ :: linedItems vs

/-- Members on lines of their own, with the line of the closing brace behind the last one. -/
def linedMembers : Members → List Member
  | [] => []
  | (k, v) :: ms =>
    { before := [' ']
      text := v.prettyChars level
      after := if ms.isEmpty then close else []
      value := v
      blanks_before := blanks_space
      blanks_after := blanks_behind hclose _
      beforeKey := newLine level
      keyText := k.toList.flatMap escapeChar
      key := k
      afterKey := []
      blanks_beforeKey := blanks_newLine level
      blanks_afterKey := .nil
      quoted := quoted_key k } :: linedMembers ms

theorem map_value_linedItems (vs : List Value) :
    (linedItems level hclose vs).map Piece.value = vs := by
  induction vs with
  | nil => rfl
  | cons v vs ih => rw [linedItems, List.map_cons, ih]

theorem map_pair_linedMembers (ms : Members) :
    (linedMembers level hclose ms).map Member.pair = ms := by
  induction ms with
  | nil => rfl
  | cons m ms ih =>
    rw [linedMembers, List.map_cons, ih]
    rfl

theorem joinWith_linedItems (v : Value) (vs : List Value) :
    joinWith ',' ((linedItems level hclose (v :: vs)).map Piece.chars) =
      prettyItems level (v :: vs) ++ close := by
  induction vs generalizing v with
  | nil => simp [linedItems, prettyItems, joinWith, Piece.chars]
  | cons w vs ih =>
    have hne : (linedItems level hclose (w :: vs)).map Piece.chars ≠ [] := List.cons_ne_nil _ _
    rw [linedItems, List.map_cons, joinWith_cons hne, ih w]
    simp [prettyItems, Piece.chars]

theorem joinWith_linedMembers (m : String × Value) (ms : Members) :
    joinWith ',' ((linedMembers level hclose (m :: ms)).map Member.chars) =
      prettyMembers level (m :: ms) ++ close := by
  induction ms generalizing m with
  | nil =>
    simp [linedMembers, prettyMembers, joinWith, Piece.chars, Member.chars, Member.fromKey, quote]
  | cons l ms ih =>
    have hne : (linedMembers level hclose (l :: ms)).map Member.chars ≠ [] := List.cons_ne_nil _ _
    rw [linedMembers, List.map_cons, joinWith_cons hne, ih l]
    simp [prettyMembers, Piece.chars, Member.chars, Member.fromKey, quote]

end Parts

variable {d : Nat} {v : Value}

theorem spells_linedItems {level : Nat} {vs : List Value}
    (h : ∀ v ∈ vs, Spells d (v.prettyChars (level + 1)) v) :
    Spells (d + 1) ((Value.array vs).prettyChars level) (.array vs) := by
  cases vs with
  | nil =>
    rw [Value.prettyChars]
    exact .emptyArray .nil
  | cons v vs =>
    have hclose := blanks_newLine level
    have hitems : ∀ x ∈ linedItems (level + 1) hclose (v :: vs), Spells d x.text x.value := by
      generalize v :: vs = ws at h
      induction ws with
      | nil => exact List.forall_mem_nil _
      | cons w ws ih =>
        obtain ⟨hw, hws⟩ := List.forall_mem_cons.1 h
        exact List.forall_mem_cons.2 ⟨hw, ih hws⟩
    have harray := spells_array hitems
    rw [joinWith_linedItems, map_value_linedItems, ← List.cons_append] at harray
    rw [Value.prettyChars]
    exact harray

theorem spells_linedMembers {level : Nat} {ms : Members} (hkeys : (Members.keys ms).Nodup)
    (h : ∀ m ∈ ms, Spells d (m.2.prettyChars (level + 1)) m.2) :
    Spells (d + 1) ((Value.object ms).prettyChars level) (.object ms) := by
  cases ms with
  | nil =>
    rw [Value.prettyChars]
    exact .emptyObject .nil
  | cons m ms =>
    have hclose := blanks_newLine level
    have hmembers : ∀ l ∈ linedMembers (level + 1) hclose (m :: ms), Spells d l.text l.value := by
      clear hkeys
      generalize m :: ms = ls at h
      induction ls with
      | nil => exact List.forall_mem_nil _
      | cons l ls ih =>
        obtain ⟨hl, hls⟩ := List.forall_mem_cons.1 h
        exact List.forall_mem_cons.2 ⟨hl, ih hls⟩
    have hne : linedMembers (level + 1) hclose (m :: ms) ≠ [] := List.cons_ne_nil _ _
    have hobject := Spells.object hne hmembers
    rw [joinWith_linedMembers, map_pair_linedMembers, Members.ofPairs_of_nodup hkeys,
      ← List.cons_append] at hobject
    rw [Value.prettyChars]
    exact hobject

/-- The text of a value on lines spells it, whatever level it starts on. -/
theorem Plain.spells_pretty (h : Plain d v) (level : Nat) : Spells d (v.prettyChars level) v := by
  induction h generalizing level with
  | null =>
    rw [Value.prettyChars]
    exact .null
  | bool b =>
    rw [Value.prettyChars]
    exact .bool b
  | text s =>
    rw [Value.prettyChars]
    exact .text (quoted_escape s.toList)
  | whole hleast hgreatest =>
    rw [Value.whole, Value.prettyChars]
    exact spells_writeInt _ hleast hgreatest
  | array _ ih => exact spells_linedItems fun v hv => ih v hv _
  | object hkeys _ ih => exact spells_linedMembers hkeys fun m hm => ih m hm _

/-- The text of a value on lines is read as the value, with white space around it too. -/
theorem read_pretty (h : Plain depthLimit v) {after : List Char} (hafter : Blanks after) :
    read (String.ofList (v.prettyChars 0 ++ after)) = .ok v :=
  read_eq_ok_iff.2 ⟨⟨⟨[], v.prettyChars 0, after, .nil, hafter⟩, v⟩,
    by rw [String.toList_ofList]; rfl, rfl, h.spells_pretty 0⟩

end CacheActivity.Json
