import CacheActivity.Proofs.DistinctKeys
import CacheActivity.Proofs.PassedOver
import CacheActivity.Proofs.RowMembers
import CacheActivity.Usage.RowReader

/-!
# Two ways from a text to a row

A row is read from the text of an object either member by member, where what no row needs is passed
over, or through the value of the text. Both visit the members in the same way, one as the text has
them and one as the value keeps them (`read_of_objectText`). They come apart only where the text
repeats a member of a row, since the value keeps the last of several (`decoders_agree`).
-/

namespace CacheActivity.Json

open Text (joinWith)

/-- That a text between braces holds these members: in their order, with their keys unescaped, and
each as often as it comes. -/
inductive Holds (d : Nat) : List Char → Members → Prop
  | nothing {bs : List Char} : Blanks bs → Holds d bs []
  | members {members : List Member} : members ≠ [] →
      (∀ m ∈ members, Spells d m.text m.value) →
      Holds d (joinWith ',' (members.map Member.chars)) (members.map Member.pair)

/-- That a text is one of an object, with blanks around it, and holds these members. -/
def ObjectText (s : String) (pairs : Members) : Prop :=
  ∃ front inside back, Blanks front ∧ Holds (depthLimit - 1) inside pairs ∧ Blanks back ∧
    s.toList = front ++ '\x7b' :: inside ++ '\x7d' :: back

section Objects

variable {d : Nat} {t : List Char} {ms : Members} {s : String}

theorem spells_object_iff : Spells (d + 1) t (.object ms) ↔ ∃ inside pairs,
    Holds d inside pairs ∧ t = '\x7b' :: inside ++ ['\x7d'] ∧ ms = Members.ofPairs pairs := by
  constructor
  · intro h
    cases h with
    | emptyObject hbs => exact ⟨_, [], .nothing hbs, rfl, rfl⟩
    | object hne hall => exact ⟨_, _, .members hne hall, rfl, rfl⟩
  · rintro ⟨inside, pairs, hholds, rfl, rfl⟩
    cases hholds with
    | nothing hbs => exact .emptyObject hbs
    | members hne hall => exact .object hne hall

/-- The texts of an object are those whose members make it. -/
theorem read_eq_object_iff :
    read s = .ok (.object ms) ↔ ∃ pairs, ObjectText s pairs ∧ ms = Members.ofPairs pairs := by
  rw [read_eq_ok_iff]
  constructor
  · rintro ⟨x, hx, hv, hspells⟩
    rw [hv] at hspells
    obtain ⟨inside, pairs, hholds, htext, hms⟩ := spells_object_iff.1 hspells
    refine ⟨pairs, ⟨x.before, inside, x.after, x.blanks_before, hholds, x.blanks_after, ?_⟩, hms⟩
    rw [hx, Piece.chars, htext]
    simp
  · rintro ⟨pairs, ⟨front, inside, back, hfront, hholds, hback, hs⟩, rfl⟩
    refine ⟨⟨⟨front, '\x7b' :: inside ++ ['\x7d'], back, hfront, hback⟩,
      .object (Members.ofPairs pairs)⟩, ?_, rfl,
      spells_object_iff.2 ⟨inside, pairs, hholds, rfl, rfl⟩⟩
    simp [hs, Piece.chars]

end Objects

end CacheActivity.Json

namespace CacheActivity.Usage.Row

open Json (Blanks Cursor Holds Member Members ObjectText Position Reads Spells Value isBlank
  isNumeric)
open Text (joinWith)

section Reading

variable {fuel : Nat} {seen seen' taken : Members}

/-- Reading a member visits it, and stands behind its value then. -/
theorem readNamed_member {m : Member} (hm : Spells (Json.depthLimit - 1) m.text m.value)
    (hvisit : visit? seen m.pair = some seen') {ch : Char} (hnumeric : isNumeric ch = false)
    (hblank : isBlank ch = false) (cs : List Char) (p : Position) :
    ∃ k q, readNamed (fuel + 1) seen ⟨m.fromKey ++ ch :: cs, p⟩ = readNamed.go fuel seen' k ∧
      k.skipBlanks = ⟨ch :: cs, q⟩ := by
  have hread : Reads memberValue (m.before ++ m.text) m.value :=
    (Json.readValue_of_spells hm).behind_blanks hm m.blanks_before
  have hskip : Reads Json.skipValue (m.before ++ m.text) () :=
    Json.skipValue_of_spells hm m.blanks_before
  obtain ⟨q₁, hq₁⟩ := Json.readText_of_quoted m.quoted
    (m.afterKey ++ ':' :: (m.toPiece.chars ++ ch :: cs)) (p.past '"')
  obtain ⟨q₂, hq₂⟩ := Json.readColon_of_blanks m.blanks_afterKey (m.toPiece.chars ++ ch :: cs) q₁
  rw [m.fromKey_append]
  rcases visit_eq_some_iff.1 hvisit with ⟨hother, rfl⟩ | ⟨hfield, hnew, rfl⟩
  · obtain ⟨k, q, hk, hq⟩ := hskip.skipBlanks m.blanks_after hnumeric hblank cs q₂
    replace hk : Json.skipValue ⟨m.toPiece.chars ++ ch :: cs, q₂⟩ = .ok ((), k) := hk
    replace hother : fieldNames.contains m.key = false := by
      simpa [Member.pair] using hother
    refine ⟨k, q, ?_, hq⟩
    simp only [readNamed, Cursor.step, hq₁, String.ofList_toList, hother, hq₂, hk, bind,
      Except.bind, Bool.false_eq_true, if_false]
  · obtain ⟨k, q, hk, hq⟩ := hread.skipBlanks m.blanks_after hnumeric hblank cs q₂
    replace hk : memberValue ⟨m.toPiece.chars ++ ch :: cs, q₂⟩ = .ok (m.value, k) := hk
    replace hfield : fieldNames.contains m.key = true := by
      simpa [Member.pair] using hfield
    replace hnew : seen.has m.key = false := hnew
    refine ⟨k, q, ?_, hq⟩
    simp only [readNamed, Cursor.step, hq₁, String.ofList_toList, hfield, hnew, hq₂, hk, bind,
      Except.bind, if_true, Bool.false_eq_true, if_false]
    rfl

/-- Reading the members of a text visits them in their order. -/
theorem readNamed_of_members {m : Member} {ms : List Member}
    (hall : ∀ l ∈ m :: ms, Spells (Json.depthLimit - 1) l.text l.value)
    (hvisit : ((m :: ms).map Member.pair).foldlM visit? seen = some taken)
    (hfuel : ms.length < fuel) (rest : List Char) (p : Position) :
    ∃ q, readNamed fuel seen
        ⟨m.fromKey ++ (ms.flatMap (fun l => ',' :: l.chars) ++ '\x7d' :: rest), p⟩ =
      .ok (taken, ⟨rest, q⟩) := by
  induction ms generalizing m fuel seen p with
  | nil =>
    obtain ⟨fuel, rfl⟩ := Nat.exists_eq_succ_of_ne_zero (Nat.ne_of_gt hfuel)
    obtain ⟨k, q, hk, hq⟩ := readNamed_member (hall m List.mem_cons_self)
      (by simpa using hvisit) (by decide : isNumeric '\x7d' = false) (by decide) rest p
    refine ⟨q.past '\x7d', hk.trans ?_⟩
    simp only [readNamed.go, Json.readMemberEnd, hq, bind, Except.bind, pure, Except.pure,
      Cursor.step, if_true]
  | cons l ls ih =>
    obtain ⟨fuel, rfl⟩ := Nat.exists_eq_succ_of_ne_zero (Nat.ne_of_gt (Nat.zero_lt_of_lt hfuel))
    obtain ⟨hm, hall⟩ := List.forall_mem_cons.1 hall
    rw [List.map_cons, List.foldlM_cons, Option.bind_eq_bind, Option.bind_eq_some_iff] at hvisit
    obtain ⟨seen', hfirst, hvisit⟩ := hvisit
    let behind := ls.flatMap (fun l => ',' :: l.chars) ++ '\x7d' :: rest
    obtain ⟨k, q, hk, hq⟩ := readNamed_member hm hfirst (by decide : isNumeric ',' = false)
      (by decide) (l.chars ++ behind) p
    obtain ⟨q', hend⟩ := Json.readMemberEnd_of_comma l behind hq
    obtain ⟨q'', hq''⟩ := ih hall hvisit (Nat.lt_of_succ_lt_succ hfuel) q'
    have hsplit : (l :: ls).flatMap (fun l => ',' :: l.chars) ++ '\x7d' :: rest =
        ',' :: (l.chars ++ behind) := Json.flatMap_comma_cons Member.chars l ls _
    refine ⟨q'', ?_⟩
    rw [hsplit, hk]
    simp only [readNamed.go, hend, bind, Except.bind, Bool.false_eq_true, if_false]
    exact hq''

theorem readMembers_of_holds {front inside : List Char} {pairs : Members} (hfront : Blanks front)
    (h : Holds (Json.depthLimit - 1) inside pairs) (hvisit : pairs.foldlM visit? [] = some taken)
    (rest : List Char) (p : Position) :
    ∃ q, readMembers ⟨front ++ '\x7b' :: inside ++ '\x7d' :: rest, p⟩ =
      .ok (taken, ⟨rest, q⟩) := by
  have hbrace : Json.NoBlank ('\x7b' :: (inside ++ '\x7d' :: rest)) :=
    Json.noBlank_cons (by decide) _
  obtain ⟨q, hq⟩ := Json.skipBlanks_append hfront hbrace p
  rw [List.append_assoc, List.cons_append]
  simp only [readMembers, hq, Cursor.step]
  cases h with
  | nothing hbs =>
    cases hvisit
    obtain ⟨q', hq'⟩ := Json.skipBlanks_append hbs
      (Json.noBlank_cons (by decide) rest : Json.NoBlank ('\x7d' :: rest)) (q.past '\x7b')
    exact ⟨q'.past '\x7d', by simp only [hq']⟩
  | members hne hall =>
    obtain ⟨m, ms, rfl⟩ := List.exists_cons_of_ne_nil hne
    let behind := ms.flatMap (fun l => ',' :: l.chars) ++ '\x7d' :: rest
    obtain ⟨q', hq'⟩ := Json.skipBlanks_append m.blanks_beforeKey (m.noBlank_fromKey behind)
      (q.past '\x7b')
    have hfuel : ms.length < (m.fromKey ++ behind).length + 1 :=
      Nat.lt_succ_of_lt (Json.length_lt_of_parts Member.chars ms rest _ '\x7d')
    obtain ⟨q'', hq''⟩ := readNamed_of_members hall hvisit hfuel rest q'
    refine ⟨q'', ?_⟩
    have hsplit : joinWith ',' ((m :: ms).map Member.chars) ++ '\x7d' :: rest =
        m.beforeKey ++ (m.fromKey ++ behind) := by
      rw [Json.joinWith_map_cons, m.chars_append]
    obtain ⟨cs, hcs⟩ := m.exists_fromKey behind
    replace hq'' : readNamed ((m.fromKey ++ behind).length + 1) [] ⟨m.fromKey ++ behind, q'⟩ = _ :=
      hq''
    rw [hcs] at hq' hq''
    rw [hsplit, hcs]
    simp only [hq']
    exact hq''

/-- The row of an object is read from the members of its text. -/
theorem read_of_objectText {s : String} {pairs : Members} (h : ObjectText s pairs)
    (hvisit : pairs.foldlM visit? [] = some taken) : read s = .ok (ofMembers taken) := by
  obtain ⟨front, inside, back, hfront, hholds, hback, hs⟩ := h
  obtain ⟨q, hq⟩ := readMembers_of_holds hfront hholds hvisit back .start
  have hend : Json.expectEnd ⟨back, q⟩ = .ok () := Json.expectEnd_eq_ok_iff.2 hback
  simp only [read, Cursor.start, hs, hq, bind, Except.bind, hend]
  rfl

end Reading

/-- Every object is a row, whatever the types of its members and whatever else it holds, and nothing
but an object is one. A row depends on the seven members alone that it is named for. From a text
that stands for an object and holds none of the seven twice, the row that is read member by member
is the one of the value. -/
theorem decoders_agree :
    (∀ v : Value, v.DistinctKeys → ((ofValue? v).isSome ↔ ∃ ms, v = .object ms)) ∧
    (∀ ms ms' : Members, ms.keys.Nodup → ms'.keys.Nodup →
      (∀ key ∈ fieldNames, ms.get? key = ms'.get? key) →
      ofValue? (.object ms) = ofValue? (.object ms')) ∧
    ∀ (s : String) (ms : Members), Json.read s = .ok (.object ms) →
      (∃ pairs, ObjectText s pairs) ∧
      ∀ pairs, ObjectText s pairs → Once pairs →
        ∃ r, read s = .ok r ∧ ofValue? (.object ms) = some r := by
  refine ⟨fun v hv => ?_, fun ms ms' hms hms' hkeys => ?_, fun s ms hs => ⟨?_, ?_⟩⟩
  · cases v with
    | object ms => simp [ofValue?_object hv.nodup]
    | _ => simp [ofValue?]
  · rw [ofValue?_object hms, ofValue?_object hms', ofMembers_congr hkeys]
  · obtain ⟨pairs, hpairs, -⟩ := Json.read_eq_object_iff.1 hs
    exact ⟨pairs, hpairs⟩
  · intro pairs hpairs honce
    have hvalue := Json.read_eq_object_iff.2 ⟨pairs, hpairs, rfl⟩
    obtain rfl : ms = Members.ofPairs pairs := by simpa [hs] using hvalue
    refine ⟨ofMembers pairs, ?_, ?_⟩
    · rw [← ofMembers_fields]
      exact read_of_objectText hpairs (foldlM_visit_nil honce)
    · rw [ofValue?_object (Json.distinctKeys_of_read hs).nodup]
      exact congrArg some (ofMembers_congr fun key hkey => Members.get?_ofPairs (honce key hkey))

theorem quoted_escapedModel :
    Json.Quoted ['\\', 'u', '0', '0', '6', 'd', 'o', 'd', 'e', 'l'] "model".toList :=
  .escape (.unit (u := ['0', '0', '6', 'd']) (Json.hexUnit?_eq_some_iff.1 rfl))
    (Json.quoted_escape ['o', 'd', 'e', 'l'])

/-- A key with an escape, members of wrong types, and a member of no row that comes twice. -/
def looseMembers : List Member :=
  [{ beforeKey := []
     keyText := ['\\', 'u', '0', '0', '6', 'd', 'o', 'd', 'e', 'l']
     key := "model"
     afterKey := []
     blanks_beforeKey := .nil
     blanks_afterKey := .nil
     quoted := quoted_escapedModel
     before := []
     text := ['t', 'r', 'u', 'e']
     after := []
     value := .bool true
     blanks_before := .nil
     blanks_after := .nil },
    .ofPiece "x" (.bare ['[', ']'] (.array [])),
    .ofPiece "x" (.bare ['n', 'u', 'l', 'l'] .null),
    .ofPiece "total_rows" (.bare ['"', '1', '2', '"'] (.text "12"))]

def looseText : String :=
  String.ofList ('\x7b' :: joinWith ',' (looseMembers.map Member.chars) ++ ['\x7d'])

theorem decoders_agree_of_loose :
    (ofValue? (.object [("model", .array [.null])])).isSome ∧
    ofValue? (.object [("x", .null), ("model", .text "m")]) =
      ofValue? (.object [("model", .text "m")]) ∧
    ∃ r, read looseText = .ok r ∧ r.model = "true" ∧ r.totalRows = .ofInt 12 ∧
      ofValue? (.object (Members.ofPairs (looseMembers.map Member.pair))) = some r := by
  obtain ⟨hobject, hfields, hagree⟩ := decoders_agree
  have hdistinct : (Value.object [("model", .array [.null])]).DistinctKeys :=
    .object (by decide) (List.forall_mem_singleton.2 (.array (List.forall_mem_singleton.2 .null)))
  refine ⟨(hobject _ hdistinct).2 ⟨_, rfl⟩, ?_, ?_⟩
  · exact hfields _ _ (by decide) (by decide) (by simp [fieldNames, Members.get?_cons])
  · have hquoted : Spells (Json.depthLimit - 1) ['"', '1', '2', '"'] (.text "12") :=
      .text (t := ['1', '2']) (Json.quoted_escape ['1', '2'])
    have hspells : ∀ m ∈ looseMembers, Spells (Json.depthLimit - 1) m.text m.value := by
      simp only [looseMembers, List.forall_mem_cons]
      exact ⟨.bool true, .emptyArray .nil, .null, hquoted, List.forall_mem_nil _⟩
    have htext : ObjectText looseText (looseMembers.map Member.pair) :=
      ⟨[], _, [], .nil, .members (List.cons_ne_nil _ _) hspells, .nil, String.toList_ofList⟩
    obtain ⟨r, hr, hvalue⟩ := (hagree looseText _
      (Json.read_eq_object_iff.2 ⟨_, htext, rfl⟩)).2 _ htext (by decide)
    have hrow : ofValue? (.object (Members.ofPairs (looseMembers.map Member.pair))) =
        some ⟨"", "true", none, .ofInt 12, .zero, .zero, .zero⟩ := rfl
    cases hvalue.symm.trans hrow
    exact ⟨_, hr, rfl, rfl, hvalue⟩

end CacheActivity.Usage.Row
