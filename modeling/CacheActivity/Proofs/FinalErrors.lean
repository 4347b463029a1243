import CacheActivity.Proofs.ErrorLayers
import CacheActivity.Proofs.HealthResults

/-!
# What a failure shows of its error

An error goes through three stages before a failure shows it: the value that a check fails with
(`FailsWith`), the members of that value (`HasMembers`), and the members of an object in their
message, if there is one (`Unfolds`). However the last members came about (`FinalError`), the
failure shows them in one way (`failure_shows_final_error`): no message becomes an empty text, and a
null one the text of a null, as it does in any other member.
-/

namespace CacheActivity.Health

open Json (Value Members)

/-- The value that a check fails with. A response that delivers no object fails with itself, less
one layer of text. -/
inductive FailsWith : Check → Value → Prop
  | silent : FailsWith (.thrown "") (.object [("message", .text unknownError)])
  | envelope {t : String} {ms : Members} {e : Value} : Json.read t = .ok (.object ms) →
      ms.get? "error" = some e → some e ∉ harmless → FailsWith (.thrown t) e
  | object {t : String} {ms : Members} : Json.read t = .ok (.object ms) →
      ms.get? "error" ∈ harmless → FailsWith (.thrown t) (.object ms)
  | text {t : String} : t ≠ "" → (∀ ms, Json.read t ≠ .ok (.object ms)) →
      FailsWith (.thrown t) (.object [("message", .text t)])
  | response {body e : Value} {ms : Members} : Delivers body ms → ms.get? "error" = some e →
      some e ∉ harmless → FailsWith (.response body) e
  | noObject {body : Value} : (∀ ms, ¬Delivers body ms) → FailsWith (.response body) body.peel

/-- A value as a text: a text is itself, and any other value its compact text. -/
inductive Spelled : Value → String → Prop
  | text (s : String) : Spelled (.text s) s
  | other {v : Value} : (∀ s, v ≠ .text s) → Spelled v v.compact

/-- The members that a value counts for. -/
inductive HasMembers : Value → Members → Prop
  | object (ms : Members) : HasMembers (.object ms) ms
  | null : HasMembers .null []
  | other {v : Value} {s : String} : (∀ ms, v ≠ .object ms) → v ≠ .null → Spelled v s →
      HasMembers v [("message", .text s)]

/-- Members give way to those of an object that their message is the text of. -/
inductive Unfolds : Members → Members → Prop
  | inner {ms inner : Members} {s : String} : ms.get? "message" = some (.text s) →
      Json.read s = .ok (.object inner) → Unfolds ms inner
  | stay {ms : Members} : (∀ s inner, ms.get? "message" = some (.text s) →
      Json.read s ≠ .ok (.object inner)) → Unfolds ms ms

/-- The last members of the error of a check. -/
def FinalError (c : Check) (ms : Members) : Prop :=
  ∃ e outer, FailsWith c e ∧ HasMembers e.peel outer ∧ Unfolds outer ms

/-- That a failure shows members. -/
structure Failure.Shows (f : Failure) (ms : Members) : Prop where
  missing : ms.get? "message" = none → f.message = ""
  null : ms.get? "message" = some .null → f.message = "null"
  present : ∀ v, ms.get? "message" = some v → Spelled v f.message
  /-- All members but the message, in their order. -/
  extra : List.Forall₂ (fun m x => x.1 = m.1 ∧ Spelled m.2 x.2) (ms.erase "message") f.extra

variable {c : Check} {e v : Value} {ms inner : Members} {f : Failure}

theorem carriedError_iff_not_harmless : carriedError? ms = some e ↔
    ms.get? "error" = some e ∧ some e ∉ harmless := by
  rw [carriedError_eq_some_iff]
  simp [harmless]

theorem result_of_failsWith (h : FailsWith c e) : c.result = .failure (.ofError e) := by
  cases h with
  | silent => rfl
  | envelope hread hget hharm =>
    rw [Check.result, thrownError_of_error hread (carriedError_iff_not_harmless.2 ⟨hget, hharm⟩)]
  | object hread hharm =>
    rw [Check.result, thrownError, if_neg (ne_empty_of_read hread), Value.peel_text hread]
    simp only [carriedError_eq_none_iff.2 hharm, Option.getD_none]
  | @text t hne hnone =>
    rw [Check.result, thrownError, if_neg hne]
    split
    · rename_i ms hms
      cases delivers_iff.2 hms with
      | inText hread => exact absurd hread (hnone ms)
    · rfl
  | response hbody hget hharm =>
    simp only [Check.result, resultOfBody, delivers_iff.1 hbody,
      carriedError_iff_not_harmless.2 ⟨hget, hharm⟩]
  | @noObject body hnone =>
    simp only [Check.result, resultOfBody]
    split
    · rename_i ms hms
      exact absurd (delivers_iff.2 hms) (hnone ms)
    · rfl

theorem exists_failsWith_thrown (t : String) : ∃ e, FailsWith (.thrown t) e := by
  rcases eq_or_ne t "" with rfl | hne
  · exact ⟨_, .silent⟩
  by_cases hobject : ∃ ms : Members, Json.read t = .ok (.object ms)
  · obtain ⟨ms, hread⟩ := hobject
    cases herror : carriedError? ms with
    | none => exact ⟨_, .object hread (carriedError_eq_none_iff.1 herror)⟩
    | some e =>
      obtain ⟨hget, hharm⟩ := carriedError_iff_not_harmless.1 herror
      exact ⟨e, .envelope hread hget hharm⟩
  · exact ⟨_, .text hne (not_exists.1 hobject)⟩

theorem exists_failsWith (h : c.result = .failure f) : ∃ e, FailsWith c e := by
  cases c with
  | thrown t => exact exists_failsWith_thrown t
  | response body =>
    by_cases hobject : ∃ ms, Delivers body ms
    · obtain ⟨ms, hbody⟩ := hobject
      cases herror : carriedError? ms with
      | none =>
        have hsuccess := Check.result_eq_success_iff.2
          ⟨body, ms, rfl, hbody, carriedError_eq_none_iff.1 herror, rfl⟩
        rw [hsuccess] at h
        cases h
      | some e =>
        obtain ⟨hget, hharm⟩ := carriedError_iff_not_harmless.1 herror
        exact ⟨e, .response hbody hget hharm⟩
    · exact ⟨_, .noObject (not_exists.1 hobject)⟩

theorem spelled_iff {s : String} : Spelled v s ↔ s = v.plainText := by
  constructor
  · rintro (_ | h)
    · rfl
    · cases v with
      | text s => exact absurd rfl (h s)
      | _ => rfl
  · rintro rfl
    cases v with
    | text s => exact .text s
    | _ => exact .other (by rintro s ⟨⟩)

theorem hasMembers_iff : HasMembers v ms ↔ ms = errorMembers v := by
  constructor
  · rintro (_ | _ | ⟨hobject, hnull, hs⟩)
    · rfl
    · rfl
    · obtain rfl := spelled_iff.1 hs
      unfold errorMembers
      split <;> simp_all
  · rintro rfl
    cases v with
    | object ms => exact .object ms
    | null => exact .null
    | _ => exact .other (by rintro ms ⟨⟩) (by rintro ⟨⟩) (spelled_iff.2 rfl)

theorem unfolds_iff : Unfolds ms inner ↔ inner = unfoldMessage ms := by
  constructor
  · rintro (⟨hmessage, hread⟩ | hstay)
    · exact (unfoldMessage_of_read hmessage hread).symm
    · exact (unfoldMessage_eq_self hstay).symm
  · rintro rfl
    by_cases h : ∃ (s : String) (inner : Members),
      ms.get? "message" = some (.text s) ∧ Json.read s = .ok (.object inner)
    · obtain ⟨s, inner, hmessage, hread⟩ := h
      rw [unfoldMessage_of_read hmessage hread]
      exact .inner hmessage hread
    · have hstay : ∀ s inner, ms.get? "message" = some (.text s) →
          Json.read s ≠ .ok (.object inner) := fun s inner hmessage hread =>
        h ⟨s, inner, hmessage, hread⟩
      rw [unfoldMessage_eq_self hstay]
      exact .stay hstay

theorem failure_shows_ofMembers (ms : Members) : (Failure.ofMembers ms).Shows ms where
  missing h := by simp [Failure.ofMembers, h]
  null h := by
    simp [Failure.ofMembers, h]
    rfl
  present v h := spelled_iff.2 (by simp [Failure.ofMembers, h])
  extra := by
    simp only [Failure.ofMembers, List.forall₂_map_right_iff, List.forall₂_same]
    exact fun m _ => ⟨trivial, spelled_iff.2 rfl⟩

/-- A failure shows the last members of its error. Its message is empty without a message there, the
text of a null for a null, and spells any other value. The rest of the members is spelled whatever
the message is. -/
theorem failure_shows_final_error (c : Check) :
    (∀ f, c.result = .failure f → ∃ ms, FinalError c ms) ∧
    ∀ ms, FinalError c ms → ∃ f, c.result = .failure f ∧ f.Shows ms := by
  constructor
  · intro f h
    obtain ⟨e, he⟩ := exists_failsWith h
    exact ⟨_, e, _, he, hasMembers_iff.2 rfl, unfolds_iff.2 rfl⟩
  · rintro ms ⟨e, outer, he, houter, hms⟩
    obtain rfl := hasMembers_iff.1 houter
    obtain rfl := unfolds_iff.1 hms
    exact ⟨_, result_of_failsWith he, failure_shows_ofMembers _⟩

def codeText : String := "\x7b\"error\":\x7b\"code\":1\x7d\x7d"

def codeMembers : Members := [("code", .whole 1)]

theorem finalError_of_read {t : String} (ms : Members)
    (hread : Json.read t = .ok (.object [("error", .object ms)]))
    (hstay : ∀ s, ms.get? "message" ≠ some (.text s)) : FinalError (.thrown t) ms :=
  ⟨.object ms, ms, .envelope hread rfl (by simp [harmless]), .object ms,
    .stay fun s _ hmessage => absurd hmessage (hstay s)⟩

theorem finalError_codeText : FinalError (.thrown codeText) codeMembers := by
  have hread : Json.read codeText = .ok (.object [("error", .object codeMembers)]) := rfl
  exact finalError_of_read codeMembers hread (by simp [codeMembers, Members.get?_cons])

theorem failure_shows_final_error_of_code :
    (∃ ms, FinalError (.thrown codeText) ms) ∧
    ∃ f, (Check.thrown codeText).result = .failure f ∧ f.message = "" ∧
      List.Forall₂ (fun m x => x.1 = m.1 ∧ Spelled m.2 x.2) codeMembers f.extra := by
  obtain ⟨hexists, hshows⟩ := failure_shows_final_error (.thrown codeText)
  obtain ⟨f, hf, hshown⟩ := hshows _ finalError_codeText
  exact ⟨hexists f hf, f, hf, hshown.missing rfl, hshown.extra⟩

def nullText : String := "\x7b\"error\":\x7b\"message\":null,\"code\":1\x7d\x7d"

/-- A null message is no empty text. -/
theorem message_of_null :
    FinalError (.thrown nullText) (("message", .null) :: codeMembers) ∧
    (Check.thrown nullText).result = .failure ⟨"null", [("code", "1")]⟩ := by
  have hread : Json.read nullText =
      .ok (.object [("error", .object (("message", .null) :: codeMembers))]) := rfl
  refine ⟨finalError_of_read _ hread (by simp [Members.get?_cons]), ?_⟩
  rw [result_of_failsWith (.envelope hread rfl (by simp [harmless]))]
  rfl

end CacheActivity.Health
