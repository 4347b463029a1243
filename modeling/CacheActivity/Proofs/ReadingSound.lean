import CacheActivity.Proofs.Grammar

/-!
# What is read is spelled

A value that is read is spelled by what was taken off the text, behind blanks (`sound_readValue`).
The depth that is left to a reader bounds the spelling.
-/

namespace CacheActivity.Json

open Text (joinWith joinWith_cons_eq_append)

variable {d fuel : Nat} {c k : Cursor} {v : Value} {item : Reader Value}

/-- That a reader takes blanks and then the text of the value that it gives. -/
def Sound (d : Nat) (item : Reader Value) : Prop :=
  ∀ {c k : Cursor} {v : Value}, item c = .ok (v, k) →
    ∃ bs t, Blanks bs ∧ c.rest = bs ++ t ++ k.rest ∧ Spells d t v

theorem rest_of_readWord {ws : List Char} (h : readWord ws c = .ok ((), k)) :
    c.rest = ws ++ k.rest := by
  induction ws generalizing c with
  | nil =>
    cases h
    rfl
  | cons w ws ih =>
    unfold readWord at h
    split at h
    · cases h
    · rename_i ch cs hcs
      split at h
      · rename_i hch
        rw [hcs, hch, ← step_rest hcs, ih h, List.cons_append]
      · cases h

theorem pieces_of_readItems (hitem : Sound d item) {vs : List Value}
    (h : readItems item fuel c = .ok (vs, k)) :
    ∃ x xs, c.rest = x.chars ++ xs.flatMap (fun y => ',' :: y.chars) ++ ']' :: k.rest ∧
      vs = (x :: xs).map Piece.value ∧ ∀ y ∈ x :: xs, Spells d y.text y.value := by
  induction fuel generalizing c vs with
  | zero => cases h
  | succ fuel ih =>
    obtain ⟨⟨v, c₁⟩, hv, h₁⟩ := bind_eq_ok h
    obtain ⟨bs, t, hbs, hrest, hspells⟩ := hitem hv
    obtain ⟨bs', hbs', hrest', -⟩ := exists_blanks c₁
    let x : Piece := ⟨⟨bs, t, bs', hbs, hbs'⟩, v⟩
    have hx : c.rest = x.chars ++ c₁.skipBlanks.rest := by
      rw [hrest, hrest']
      simp [x, Piece.chars]
    simp only at h₁
    split at h₁
    · cases h₁
    · rename_i cs hcs
      cases h₁
      refine ⟨x, [], ?_, rfl, List.forall_mem_singleton.2 hspells⟩
      rw [hx, hcs, step_rest hcs, List.flatMap_nil, List.append_nil]
    · rename_i cs hcs
      split at h₁
      · cases h₁
      · cases h₁
      · obtain ⟨⟨vs', c₂⟩, hvs, h₂⟩ := bind_eq_ok h₁
        cases h₂
        obtain ⟨y, ys, hys, rfl, hall⟩ := ih hvs
        -- The blanks behind the comma belong to the next item.
        obtain ⟨bs'', hbs'', hrest'', -⟩ := exists_blanks c₁.skipBlanks.step
        obtain ⟨hy, hall⟩ := List.forall_mem_cons.1 hall
        refine ⟨x, y.indent hbs'' :: ys, ?_, rfl,
          List.forall_mem_cons.2 ⟨hspells, List.forall_mem_cons.2 ⟨hy, hall⟩⟩⟩
        rw [hx, hcs, ← step_rest hcs, hrest'', hys]
        simp
    · cases h₁

theorem text_of_readKey {key : String} (h : readKey c = .ok (key, k)) : ∃ t bs, Blanks bs ∧
    Quoted t key.toList ∧ c.rest = '"' :: t ++ '"' :: bs ++ ':' :: k.rest := by
  unfold readKey at h
  split at h
  · rename_i cs hcs
    obtain ⟨⟨s, c₁⟩, htext, h₁⟩ := bind_eq_ok h
    obtain ⟨⟨⟨⟩, c₂⟩, hcolon, h₂⟩ := bind_eq_ok h₁
    cases h₂
    obtain ⟨t, ht, hquoted⟩ := quoted_of_readText htext
    obtain ⟨bs, hbs, hrest, -⟩ := exists_blanks c₁
    refine ⟨t, bs, hbs, hquoted, ?_⟩
    unfold readColon at hcolon
    simp only at hcolon
    split at hcolon
    · cases hcolon
    · rename_i cs' hcs'
      cases hcolon
      rw [hcs, ← step_rest hcs, ht, hrest, hcs', step_rest hcs']
      simp
    · cases hcolon
  · cases h

theorem rest_of_readMemberEnd {done : Bool} (h : readMemberEnd c = .ok (done, k)) :
    ∃ bs, Blanks bs ∧ if done then c.rest = bs ++ '\x7d' :: k.rest
      else ∃ bs', Blanks bs' ∧ c.rest = bs ++ ',' :: bs' ++ k.rest := by
  obtain ⟨bs, hbs, hrest, -⟩ := exists_blanks c
  refine ⟨bs, hbs, ?_⟩
  unfold readMemberEnd at h
  simp only at h
  split at h
  · cases h
  · rename_i cs hcs
    cases h
    rw [if_pos rfl, hrest, hcs, step_rest hcs]
  · rename_i cs hcs
    obtain ⟨bs', hbs', hrest', -⟩ := exists_blanks c.skipBlanks.step
    split at h
    · cases h
    · cases h
    · cases h
      rw [if_neg Bool.false_ne_true]
      refine ⟨bs', hbs', ?_⟩
      rw [hrest, hcs, ← step_rest hcs, hrest', List.append_assoc, List.cons_append]
    · cases h
  · cases h

theorem members_of_readMembers (hitem : Sound d item) {pairs : List (String × Value)}
    (h : readMembers item fuel c = .ok (pairs, k)) :
    ∃ m ms, c.rest = m.fromKey ++ ms.flatMap (fun l => ',' :: l.chars) ++ '\x7d' :: k.rest ∧
      pairs = (m :: ms).map Member.pair ∧ ∀ l ∈ m :: ms, Spells d l.text l.value := by
  induction fuel generalizing c pairs with
  | zero => cases h
  | succ fuel ih =>
    obtain ⟨⟨key, c₁⟩, hkey, h₁⟩ := bind_eq_ok h
    obtain ⟨⟨v, c₂⟩, hv, h₂⟩ := bind_eq_ok h₁
    obtain ⟨⟨done, c₃⟩, hend, h₃⟩ := bind_eq_ok h₂
    obtain ⟨keyText, afterKey, hafterKey, hquoted, hrest₁⟩ := text_of_readKey hkey
    obtain ⟨bs, t, hbs, hrest₂, hspells⟩ := hitem hv
    obtain ⟨bs', hbs', hrest₃⟩ := rest_of_readMemberEnd hend
    let m : Member := ⟨⟨⟨bs, t, bs', hbs, hbs'⟩, v⟩, [], keyText, key, afterKey, .nil, hafterKey,
      hquoted⟩
    simp only at h₃
    split at h₃
    · rename_i hdone
      cases h₃
      rw [if_pos hdone] at hrest₃
      refine ⟨m, [], ?_, rfl, List.forall_mem_singleton.2 hspells⟩
      rw [hrest₁, hrest₂, hrest₃]
      simp [m, Member.fromKey, Piece.chars]
    · rename_i hdone
      rw [if_neg hdone] at hrest₃
      obtain ⟨bs'', hbs'', hrest₃⟩ := hrest₃
      obtain ⟨⟨pairs', c₄⟩, hpairs, h₄⟩ := bind_eq_ok h₃
      cases h₄
      obtain ⟨l, ls, hls, rfl, hall⟩ := ih hpairs
      -- The blanks behind the comma belong to the next key.
      obtain ⟨hl, hall⟩ := List.forall_mem_cons.1 hall
      refine ⟨m, l.behind hbs'' :: ls, ?_, rfl,
        List.forall_mem_cons.2 ⟨hspells, List.forall_mem_cons.2 ⟨hl, hall⟩⟩⟩
      rw [hrest₁, hrest₂, hrest₃, hls, List.flatMap_cons, Member.chars_behind]
      simp [m, Member.fromKey, Piece.chars]

theorem spells_of_readArray (hitem : Sound d item) {vs : List Value}
    (h : readArray item c = .ok (vs, k)) :
    ∃ t, c.rest = t ++ ']' :: k.rest ∧ Spells (d + 1) ('[' :: t ++ [']']) (.array vs) := by
  obtain ⟨bs, hbs, hrest, -⟩ := exists_blanks c
  unfold readArray at h
  simp only at h
  split at h
  · cases h
  · rename_i cs hcs
    cases h
    exact ⟨bs, by rw [hrest, hcs, step_rest hcs], .emptyArray hbs⟩
  · obtain ⟨x, xs, hxs, rfl, hall⟩ := pieces_of_readItems hitem h
    obtain ⟨hx, hall⟩ := List.forall_mem_cons.1 hall
    have hne : x.indent hbs :: xs ≠ [] := List.cons_ne_nil _ _
    have hspells := Spells.array hne (List.forall_mem_cons.2 ⟨hx, hall⟩)
    refine ⟨_, ?_, hspells⟩
    rw [hrest, hxs, List.map_cons, joinWith_cons_eq_append, List.flatMap_map]
    simp

theorem spells_of_readObject (hitem : Sound d item) {ms : Members}
    (h : readObject item c = .ok (ms, k)) :
    ∃ t, c.rest = t ++ '\x7d' :: k.rest ∧
      Spells (d + 1) ('\x7b' :: t ++ ['\x7d']) (.object ms) := by
  obtain ⟨bs, hbs, hrest, -⟩ := exists_blanks c
  unfold readObject at h
  simp only at h
  split at h
  · cases h
  · rename_i cs hcs
    cases h
    exact ⟨bs, by rw [hrest, hcs, step_rest hcs], .emptyObject hbs⟩
  · obtain ⟨⟨pairs, c₁⟩, hpairs, h₁⟩ := bind_eq_ok h
    cases h₁
    obtain ⟨m, ms, hms, rfl, hall⟩ := members_of_readMembers hitem hpairs
    obtain ⟨hm, hall⟩ := List.forall_mem_cons.1 hall
    have hne : m.behind hbs :: ms ≠ [] := List.cons_ne_nil _ _
    have hspells := Spells.object hne (List.forall_mem_cons.2 ⟨hm, hall⟩)
    refine ⟨_, ?_, hspells⟩
    rw [hrest, hms, List.map_cons, joinWith_cons_eq_append, List.flatMap_map]
    simp

theorem sound_readWith {inner : Option (Reader Value)}
    (h : ∀ item ∈ inner, ∃ e, d = e + 1 ∧ Sound e item) : Sound d (readWith inner) := by
  intro c k v hread
  obtain ⟨bs, hbs, hrest, -⟩ := exists_blanks c
  unfold readWith at hread
  simp only at hread
  suffices ∃ t, c.skipBlanks.rest = t ++ k.rest ∧ Spells d t v by
    obtain ⟨t, ht, hspells⟩ := this
    exact ⟨bs, t, hbs, by rw [hrest, ht, List.append_assoc], hspells⟩
  generalize c.skipBlanks = c at hread
  split at hread
  · cases hread
  all_goals rename_i cs hcs
  · obtain ⟨⟨⟨⟩, c₁⟩, hword, h₁⟩ := bind_eq_ok hread
    cases h₁
    exact ⟨_, by rw [hcs, ← step_rest hcs, rest_of_readWord hword]; rfl, .null⟩
  · obtain ⟨⟨⟨⟩, c₁⟩, hword, h₁⟩ := bind_eq_ok hread
    cases h₁
    exact ⟨_, by rw [hcs, ← step_rest hcs, rest_of_readWord hword]; rfl, .bool true⟩
  · obtain ⟨⟨⟨⟩, c₁⟩, hword, h₁⟩ := bind_eq_ok hread
    cases h₁
    exact ⟨_, by rw [hcs, ← step_rest hcs, rest_of_readWord hword]; rfl, .bool false⟩
  · obtain ⟨⟨s, c₁⟩, htext, h₁⟩ := bind_eq_ok hread
    cases h₁
    obtain ⟨t, ht, hquoted⟩ := quoted_of_readText htext
    exact ⟨_, by rw [hcs, ← step_rest hcs, ht]; simp, .text hquoted⟩
  · split at hread
    · cases hread
    · obtain ⟨⟨vs, c₁⟩, harray, h₁⟩ := bind_eq_ok hread
      cases h₁
      obtain ⟨e, rfl, hitem⟩ := h _ rfl
      obtain ⟨t, ht, hspells⟩ := spells_of_readArray hitem harray
      exact ⟨_, by rw [hcs, ← step_rest hcs, ht]; simp, hspells⟩
  · split at hread
    · cases hread
    · obtain ⟨⟨ms, c₁⟩, hobject, h₁⟩ := bind_eq_ok hread
      cases h₁
      obtain ⟨e, rfl, hitem⟩ := h _ rfl
      obtain ⟨t, ht, hspells⟩ := spells_of_readObject hitem hobject
      exact ⟨_, by rw [hcs, ← step_rest hcs, ht]; simp, hspells⟩
  · obtain ⟨⟨n, c₁⟩, hnumber, h₁⟩ := bind_eq_ok hread
    cases h₁
    obtain ⟨x, hx, ht, hn⟩ := numeral_of_readNumber hnumber
    refine ⟨x.chars, ?_, .number hn⟩
    rw [hcs, ← step_rest hcs, ht, Numeral.chars, if_pos hx]
    rfl
  · split at hread
    · obtain ⟨⟨n, c₁⟩, hnumber, h₁⟩ := bind_eq_ok hread
      cases h₁
      obtain ⟨x, hx, ht, hn⟩ := numeral_of_readNumber hnumber
      refine ⟨x.chars, ?_, .number hn⟩
      rw [ht, Numeral.chars, if_neg (ne_true_of_eq_false hx)]
      rfl
    · cases hread

theorem sound_readValue (d : Nat) : Sound d (readValue d) := by
  induction d with
  | zero => exact sound_readWith (by rintro _ ⟨⟩)
  | succ d ih =>
    refine sound_readWith ?_
    rintro _ ⟨⟩
    exact ⟨d, rfl, ih⟩

end CacheActivity.Json
