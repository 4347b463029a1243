import CacheActivity.Proofs.DistinctKeys
import CacheActivity.Proofs.FinalErrors

/-!
# The shape of a failure

Whatever value an error is, it comes down to members (`LastMembers`), and its failure is a message
and the other members as texts, in their order and each of them once (`failure_of_last_members`).
None of these texts stands under the key of the message, so a failure can be written as an error
again, and a check that fails with this error gives the failure once more
(`result_of_own_envelope`).
-/

namespace CacheActivity.Health

open Files (Disk)
open Json (Value Members Plain depthLimit distinctKeys_of_read read_compact)

/-- A text gives way to the value that it is the text of. Any other value stays. -/
inductive Peels : Value → Value → Prop
  | decoded {s : String} {v : Value} : Json.read s = .ok v → Peels (.text s) v
  | noJson {s : String} : (∀ v, Json.read s ≠ .ok v) → Peels (.text s) (.text s)
  | noText {v : Value} : (∀ s, v ≠ .text s) → Peels v v

/-- The members that an error comes down to. -/
def LastMembers (p : Value) (q : Members) : Prop :=
  ∃ v outer, Peels p v ∧ HasMembers v outer ∧ Unfolds outer q

/-- That no object in the response of a check has a key twice. -/
def Check.DistinctKeys : Check → Prop
  | .response body => body.DistinctKeys
  | .thrown _ => True

variable {c : Check} {p v e : Value} {q ms : Members} {f : Failure}

theorem peels_iff : Peels p v ↔ v = p.peel := by
  constructor
  · rintro (hread | hnone | htext)
    · exact (Value.peel_text hread).symm
    · rename_i s
      cases hread : Json.read s with
      | ok v => exact absurd hread (hnone v)
      | error cause => simp only [Value.peel, hread]
    · exact (Value.peel_of_ne_text htext).symm
  · rintro rfl
    cases p with
    | text s =>
      cases hread : Json.read s with
      | ok v =>
        rw [Value.peel_text hread]
        exact .decoded hread
      | error cause =>
        have hself : (Value.text s).peel = .text s := by simp only [Value.peel, hread]
        rw [hself]
        exact .noJson fun v hv => by simp [hread] at hv
    | _ => exact .noText (by rintro s ⟨⟩)

theorem lastMembers_iff : LastMembers p q ↔ q = unfoldMessage (errorMembers p.peel) := by
  simp only [LastMembers, peels_iff, hasMembers_iff, unfolds_iff]
  constructor
  · rintro ⟨v, outer, rfl, rfl, rfl⟩
    rfl
  · rintro rfl
    exact ⟨_, _, rfl, rfl, rfl⟩

theorem ofError_of_lastMembers (h : LastMembers p q) : Failure.ofError p = .ofMembers q := by
  rw [lastMembers_iff.1 h]
  rfl

theorem keys_extra (q : Members) :
    (Failure.ofMembers q).extra.map Prod.fst = q.keys.filter (· ≠ "message") := by
  rw [← Members.keys_erase]
  simp [Failure.ofMembers, Members.keys]

theorem message_not_mem_extra (p : Value) :
    "message" ∉ (Failure.ofError p).extra.map Prod.fst := by
  rw [Failure.ofError, keys_extra]
  simp

theorem distinctKeys_text (key s : String) : (Value.object [(key, .text s)]).DistinctKeys :=
  .object (List.pairwise_singleton _ _) (List.forall_mem_singleton.2 (.text s))

theorem distinctKeys_of_hasMembers (h : HasMembers v ms) (hv : v.DistinctKeys) :
    (Value.object ms).DistinctKeys := by
  cases h with
  | object => exact hv
  | null => exact .object List.nodup_nil (List.forall_mem_nil _)
  | other => exact distinctKeys_text "message" _

theorem distinctKeys_of_unfolds (h : Unfolds ms q) (hms : (Value.object ms).DistinctKeys) :
    (Value.object q).DistinctKeys := by
  cases h with
  | inner _ hread => exact distinctKeys_of_read hread
  | stay => exact hms

theorem nodup_keys_extra (hp : p.DistinctKeys) :
    ((Failure.ofError p).extra.map Prod.fst).Nodup := by
  have hmembers := distinctKeys_of_hasMembers (hasMembers_iff.2 rfl) hp.peel
  have hlast := distinctKeys_of_unfolds (unfolds_iff.2 rfl) hmembers
  rw [Failure.ofError, keys_extra]
  exact hlast.nodup.filter _

/-- The failure of any error shows its last members: a text under `message` is the message as it is,
and without that member the message is empty. The other members follow as texts, in their order,
never under `message`, and each of them once. -/
theorem failure_of_last_members (p : Value) :
    (∃ q, LastMembers p q) ∧ ∀ q, LastMembers p q →
      (∀ s, q.get? "message" = some (.text s) → (Failure.ofError p).message = s) ∧
      (q.get? "message" = none → (Failure.ofError p).message = "") ∧
      List.Forall₂ (fun m x => x.1 = m.1 ∧ Spelled m.2 x.2) (q.filter (·.1 ≠ "message"))
        (Failure.ofError p).extra ∧
      "message" ∉ (Failure.ofError p).extra.map Prod.fst ∧
      (p.DistinctKeys → ((Failure.ofError p).extra.map Prod.fst).Nodup) := by
  refine ⟨⟨_, lastMembers_iff.2 rfl⟩, fun q hq => ?_⟩
  have hshows : (Failure.ofError p).Shows q := by
    rw [ofError_of_lastMembers hq]
    exact failure_shows_ofMembers q
  refine ⟨fun s hs => ?_, hshows.missing, hshows.extra, message_not_mem_extra p, nodup_keys_extra⟩
  exact spelled_iff.1 (hshows.present _ hs)

/-- An error with its message in the middle, which is the text of an array. -/
def middleMembers : Members :=
  [("zeta", .whole 1), ("message", .text "[1]"), ("mid", .null), ("alpha", .text "2")]

theorem plain_middleMembers (d : Nat) : Plain (d + 1) (.object middleMembers) := by
  refine .object (by decide) ?_
  simp only [middleMembers, List.forall_mem_cons]
  exact ⟨.whole (by decide) (by decide), .text _, .null, .text _, List.forall_mem_nil _⟩

theorem lastMembers_middleMembers :
    LastMembers (.text (Value.object middleMembers).compact) middleMembers := by
  refine ⟨_, _, .decoded (read_compact (plain_middleMembers _)), .object _, .stay ?_⟩
  intro s inner hs hinner
  obtain rfl : "[1]" = s := Value.text.inj (Option.some.inj hs)
  cases hinner

theorem failure_of_last_members_of_middle :
    (Failure.ofError (.text (Value.object middleMembers).compact)).message = "[1]" ∧
    List.Forall₂ (fun m x => x.1 = m.1 ∧ Spelled m.2 x.2)
      [("zeta", .whole 1), ("mid", .null), ("alpha", .text "2")]
      (Failure.ofError (.text (Value.object middleMembers).compact)).extra ∧
    ((Failure.ofError (.text (Value.object middleMembers).compact)).extra.map Prod.fst).Nodup := by
  obtain ⟨-, hshape⟩ := failure_of_last_members (.text (Value.object middleMembers).compact)
  obtain ⟨hmessage, -, hextra, -, hnodup⟩ := hshape _ lastMembers_middleMembers
  exact ⟨hmessage _ rfl, hextra, hnodup (.text _)⟩

/-- The members of an error that says what a failure says. -/
def Failure.members (f : Failure) : Members :=
  ("message", .text f.message) :: f.extra.map fun (k, s) => (k, .text s)

theorem distinctKeys_of_failsWith (h : FailsWith c e) (hc : c.DistinctKeys) : e.DistinctKeys := by
  cases h with
  | silent => exact distinctKeys_text "message" _
  | envelope hread hget => exact (distinctKeys_of_read hread).get? hget
  | object hread => exact distinctKeys_of_read hread
  | text => exact distinctKeys_text "message" _
  | response hbody hget =>
    refine Value.DistinctKeys.get? ?_ hget
    rw [← delivers_iff.1 hbody]
    exact Value.DistinctKeys.peel hc
  | noObject => exact Value.DistinctKeys.peel hc

/-- An error with the members of a failure gives this failure. -/
theorem ofError_members (hkey : "message" ∉ f.extra.map Prod.fst)
    (hmessage : ∀ ms, Json.read f.message ≠ .ok (.object ms)) :
    Failure.ofError (.object f.members) = f := by
  have hself : unfoldMessage f.members = f.members := by
    refine unfoldMessage_eq_self fun s inner hs => ?_
    obtain rfl : f.message = s := Value.text.inj (Option.some.inj hs)
    exact hmessage inner
  have hextra : (f.members.erase "message").map (fun m => (m.1, m.2.plainText)) = f.extra := by
    have hkeep : f.members.erase "message" = f.extra.map fun (k, s) => (k, .text s) := by
      rw [Failure.members, Members.erase, List.filter_cons_of_neg (by simp),
        List.filter_eq_self]
      rintro _ hm
      obtain ⟨x, hx, rfl⟩ := List.mem_map.1 hm
      refine decide_eq_true fun he => hkey (he ▸ List.mem_map_of_mem hx)
    rw [hkeep, List.map_map]
    exact List.map_id f.extra
  calc Failure.ofError (.object f.members)
      = .ofMembers (unfoldMessage f.members) := rfl
    _ = .ofMembers f.members := by rw [hself]
    _ = ⟨f.message, (f.members.erase "message").map (fun m => (m.1, m.2.plainText))⟩ := rfl
    _ = f := by rw [hextra]

theorem plain_members (hkey : "message" ∉ f.extra.map Prod.fst)
    (hnodup : (f.extra.map Prod.fst).Nodup) (d : Nat) : Plain (d + 1) (.object f.members) := by
  refine .object ?_ ?_
  · have hkeys : f.members.keys = "message" :: f.extra.map Prod.fst := by
      simp [Failure.members, Members.keys]
    rw [hkeys]
    exact List.nodup_cons.2 ⟨hkey, hnodup⟩
  · refine List.forall_mem_cons.2 ⟨.text _, List.forall_mem_map.2 fun x _ => ?_⟩
    exact .text x.2

/-- A failure that is put into an error again comes out as it was, from the response with this error
and from the text of that. Its message must not be the text of an object, since that would be taken
for the error itself. -/
theorem result_of_own_envelope (c : Check) (f : Failure) (h : c.result = .failure f)
    (hmessage : ∀ ms, Json.read f.message ≠ .ok (.object ms)) :
    (Check.response (.object (envelope f.members 0))).result = .failure f ∧
    (c.DistinctKeys →
      (Check.thrown (Value.object (envelope f.members 0)).compact).result = .failure f) := by
  obtain ⟨e, he⟩ := exists_failsWith h
  obtain rfl : Failure.ofError e = f :=
    Result.failure.inj ((result_of_failsWith he).symm.trans h)
  have hkey := message_not_mem_extra e
  have hself := ofError_members hkey hmessage
  have hcarried : carriedError? (envelope (Failure.ofError e).members 0) =
      some (.object (Failure.ofError e).members) := rfl
  refine ⟨?_, fun hc => ?_⟩
  · exact (resultOfBody_of_error hcarried).trans (congrArg Result.failure hself)
  · have hmembers := plain_members hkey (nodup_keys_extra (distinctKeys_of_failsWith he hc))
    have hread : Json.read (Value.object (envelope (Failure.ofError e).members 0)).compact =
        .ok (.object (envelope (Failure.ofError e).members 0)) :=
      read_compact (.object (List.pairwise_singleton _ _)
        (List.forall_mem_singleton.2 (hmembers (depthLimit - 2))))
    rw [Check.result, thrownError_of_error hread hcarried, hself]

/-- What comes of `middleMembers` as an error. Its texts look like JSON. -/
def middleFailure : Failure := ⟨"[1]", [("zeta", "1"), ("mid", "null"), ("alpha", "2")]⟩

theorem result_of_own_envelope_of_middle :
    (Check.thrown (Value.object middleMembers).compact).result = .failure middleFailure ∧
    (Check.response (.object (envelope middleFailure.members 0))).result =
      .failure middleFailure ∧
    (Check.thrown (Value.object (envelope middleFailure.members 0)).compact).result =
      .failure middleFailure := by
  have hread := read_compact (plain_middleMembers (depthLimit - 1))
  have h : (Check.thrown (Value.object middleMembers).compact).result = .failure middleFailure := by
    rw [result_of_failsWith (.object hread (by simp [harmless, middleMembers, Members.get?_cons]))]
    rfl
  obtain ⟨hresponse, hthrown⟩ := result_of_own_envelope _ _ h (by rintro ms ⟨⟩)
  exact ⟨h, hresponse, hthrown trivial⟩

end CacheActivity.Health
