import CacheActivity.Proofs.HealthRoutes
import CacheActivity.Proofs.Nesting
import CacheActivity.Proofs.PeeledLayers

/-!
# How many layers come off an error

An error can be a text that holds the JSON text of the error, and that can be so again, any number
of times (`wrapped`). A health check takes two of these layers off and no more: behind two it still
finds the members of the error, and behind more the text that is left is the whole message
(`result_of_layers`).
-/

namespace CacheActivity.Json

variable {v : Value}

theorem chars_object_of_piece (key : String) {x : Piece} (hx : v.chars = x.chars) :
    (Value.object [(key, v)]).chars = '\x7b' :: (Member.ofPiece key x).chars ++ ['\x7d'] := by
  simp [Value.chars, memberChars, Member.chars_ofPiece, hx]

theorem read_compact_member (key : String) {x : Piece} (hx : v.chars = x.chars)
    (hv : x.value = v) (hspells : Spells (depthLimit - 1) x.text x.value) :
    read (Value.object [(key, v)]).compact = .ok (.object [(key, v)]) := by
  refine read_compact_of_spells ?_
  rw [chars_object_of_piece key hx, ← hv]
  exact spells_object key hspells

theorem read_compact_member_text (key s : String) :
    read (Value.object [(key, .text s)]).compact = .ok (.object [(key, .text s)]) :=
  read_compact (.object (List.pairwise_singleton _ _) (List.forall_mem_singleton.2 (.text s)))

/-- A value whose text decodes to it stays what it is inside an object, if the text of that decodes
at all. -/
theorem read_compact_member_of_read (key : String) {w : Value} (h : read v.compact = .ok v)
    (hw : read (Value.object [(key, v)]).compact = .ok w) :
    read (Value.object [(key, v)]).compact = .ok (.object [(key, v)]) := by
  obtain ⟨x, hx, hv, hspells⟩ := read_eq_ok_iff.1 h
  rw [v.toList_compact] at hx
  -- The brace of the object is one level more than the value has.
  have hnests : Nests (Value.object [(key, v)]).chars (nesting x.text + 1) := by
    rw [chars_object_of_piece key hx]
    exact (Member.nests (m := Member.ofPiece key x) hspells.nests).bracket (.inr rfl) (.inr rfl)
  have hle := nesting_le_of_read hw
  rw [Value.toList_compact, hnests.nesting_eq] at hle
  exact read_compact_member key hx hv (hspells.of_nesting (Nat.le_sub_one_of_lt hle))

end CacheActivity.Json

namespace CacheActivity.Health

open Json (Value Members read read_compact_text read_compact_member_of_read
  read_compact_member_text)

/-- A response whose error is an object inside so many texts. -/
def envelope (ms : Members) (k : Nat) : Members := [("error", (Value.object ms).wrapped k)]

theorem unfoldMessage_eq_self {ms : Members}
    (h : ∀ s inner, ms.get? "message" = some (.text s) → read s ≠ .ok (.object inner)) :
    unfoldMessage ms = ms := by
  unfold unfoldMessage
  split
  · rename_i s hs
    rw [errorLayers, Value.peelUpTo_one]
    split
    · rename_i inner hinner
      cases hread : read s with
      | ok v =>
        rw [Value.peel_text hread] at hinner
        exact absurd (hinner ▸ hread) (h s inner hs)
      | error cause => simp [Value.peel, hread] at hinner
    · rfl
  · rfl

theorem unfoldMessage_of_read {s : String} {ms inner : Members}
    (hmessage : ms.get? "message" = some (.text s)) (h : read s = .ok (.object inner)) :
    unfoldMessage ms = inner := by
  have hpeel : (Value.text s).peelUpTo (errorLayers - 1) = .object inner := by
    rw [errorLayers, Value.peelUpTo_one, Value.peel_text h]
  simp only [unfoldMessage, hmessage, hpeel]

section Layers

variable {ms : Members} (hdecodes : read (Value.object ms).compact = .ok (.object ms))
include hdecodes

/-- Two layers come off. -/
theorem ofError_wrapped_of_le_two {k : Nat} (hk : k ≤ 2)
    (hmessage : ∀ s inner, ms.get? "message" = some (.text s) → read s ≠ .ok (.object inner)) :
    Failure.ofError ((Value.object ms).wrapped k) = .ofMembers ms := by
  have hself := unfoldMessage_eq_self hmessage
  rw [Failure.ofError]
  match k, hk with
  | 0, _ => exact congrArg Failure.ofMembers hself
  | 1, _ =>
    rw [Value.peel_wrapped hdecodes]
    exact congrArg Failure.ofMembers hself
  | 2, _ =>
    -- The layer that is left is in the message, and comes off there.
    rw [Value.peel_wrapped hdecodes]
    exact congrArg Failure.ofMembers (unfoldMessage_of_read rfl hdecodes)

/-- A third layer stays, and its text is the message. -/
theorem ofError_wrapped_of_three_le (k : Nat) :
    Failure.ofError ((Value.object ms).wrapped (k + 3)) =
      ⟨((Value.object ms).wrapped (k + 1)).compact, []⟩ := by
  have hmembers : errorMembers ((Value.object ms).wrapped (k + 2)) =
      [("message", .text ((Value.object ms).wrapped (k + 1)).compact)] := rfl
  rw [Failure.ofError, Value.peel_wrapped hdecodes, hmembers, unfoldMessage_eq_self]
  · rfl
  · intro s inner hs hread
    rw [Members.get?_cons, if_pos rfl] at hs
    cases hs
    cases (read_compact_text _).symm.trans hread

theorem carriedError_envelope (k : Nat) :
    carriedError? (envelope ms k) = some ((Value.object ms).wrapped k) := by
  refine carriedError_eq_some_iff.2 ⟨by simp [envelope, Members.get?_cons], ?_⟩
  cases k with
  | zero => exact ⟨by rintro ⟨⟩, by rintro ⟨⟩, by rintro ⟨⟩⟩
  | succ k =>
    refine ⟨by rintro ⟨⟩, by rintro ⟨⟩, fun h => ?_⟩
    have hempty : ((Value.object ms).wrapped k).compact = "" := Value.text.inj h
    cases k with
    | zero => exact ne_empty_of_read hdecodes hempty
    | succ k => exact ne_empty_of_read (read_compact_text _) hempty

theorem read_compact_envelope {k : Nat}
    (hk : k = 0 → ∃ v, read (Value.object (envelope ms 0)).compact = .ok v) :
    read (Value.object (envelope ms k)).compact = .ok (.object (envelope ms k)) := by
  cases k with
  | zero =>
    obtain ⟨v, hv⟩ := hk rfl
    exact read_compact_member_of_read "error" hdecodes hv
  | succ k => exact read_compact_member_text "error" _

end Layers

/-- Exactly two layers come off an error. An object inside no more than two texts gives the failure
of its members. Inside more of them it gives a failure whose whole message is the text behind the
first layer. And the text of the response gives the same as the message of a failed check, as long
as it decodes. -/
theorem result_of_layers (ms : Members)
    (hdecodes : read (Value.object ms).compact = .ok (.object ms))
    (hmessage : ∀ s inner, ms.get? "message" = some (.text s) → read s ≠ .ok (.object inner)) :
    (∀ k ≤ 2, (Check.response (.object (envelope ms k))).result = .failure (.ofMembers ms)) ∧
    (∀ k ≥ 3, (Check.response (.object (envelope ms k))).result =
      .failure ⟨((Value.object ms).wrapped (k - 2)).compact, []⟩) ∧
    ∀ k, (k = 0 → ∃ v, read (Value.object (envelope ms 0)).compact = .ok v) →
      (Check.thrown (Value.object (envelope ms k)).compact).result =
        (Check.response (.object (envelope ms k))).result := by
  have hresponse : ∀ k, (Check.response (.object (envelope ms k))).result =
      .failure (.ofError ((Value.object ms).wrapped k)) := fun k =>
    resultOfBody_of_error (carriedError_envelope hdecodes k)
  refine ⟨fun k hk => ?_, fun k hk => ?_, fun k hk => ?_⟩
  · rw [hresponse, ofError_wrapped_of_le_two hdecodes hk hmessage]
  · obtain ⟨k, rfl⟩ := Nat.exists_eq_add_of_le' hk
    rw [hresponse, ofError_wrapped_of_three_le hdecodes]
    rfl
  · rw [hresponse, Check.result, thrownError_of_error (read_compact_envelope hdecodes hk)
      (carriedError_envelope hdecodes k)]

def refusal : Members := [("message", .text "refused"), ("type", .text "auth")]

theorem result_of_layers_of_refusal :
    (Check.response (.object (envelope refusal 2))).result =
      .failure ⟨"refused", [("type", "auth")]⟩ ∧
    (Check.response (.object (envelope refusal 5))).result =
      .failure ⟨((Value.object refusal).wrapped 3).compact, []⟩ ∧
    (Check.thrown (Value.object (envelope refusal 0)).compact).result =
      (Check.response (.object (envelope refusal 0))).result := by
  have hdecodes : read (Value.object refusal).compact = .ok (.object refusal) := rfl
  obtain ⟨htwo, hmore, hthrown⟩ := result_of_layers refusal hdecodes (by
    intro s inner hs hread
    have hs' : Value.text "refused" = .text s := Option.some.inj hs
    cases hs'
    cases hread)
  exact ⟨htwo 2 (Nat.le_refl 2), hmore 5 (by decide), hthrown 0 fun _ => ⟨_, rfl⟩⟩

end CacheActivity.Health
