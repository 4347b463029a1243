import CacheActivity.Command.Run
import CacheActivity.Proofs.FlagReading
import CacheActivity.Proofs.HealthRoutes

/-!
# Healthy or failing

A check is a success just when its response delivers an object without an error, as it is or inside
one text, and then the success shows the members of that object. All else is a failure, and a run
that was told to fail on one ends with 1 just then (`healthy_or_failing`).
-/

namespace CacheActivity.Health

open Json (Value Members)

/-- The members of the object that a response is, or of the one that its text stands for. -/
inductive Delivers : Value → Members → Prop
  | plain (ms : Members) : Delivers (.object ms) ms
  | inText {t : String} {ms : Members} : Json.read t = .ok (.object ms) → Delivers (.text t) ms

/-- The values of a member `error` that are no error, with a member that is missing. -/
def harmless : List (Option Value) := [none, some .null, some (.bool false), some (.text "")]

/-- How a member shows as a text. -/
inductive ShowsAs : Option Value → String → Prop
  | missing : ShowsAs none ""
  | null : ShowsAs (some .null) ""
  | text (s : String) : ShowsAs (some (.text s)) s
  | other {v : Value} : v ≠ .null → (∀ s, v ≠ .text s) → ShowsAs (some v) v.compact

/-- That the fields of a success are those of members. -/
structure Success.Shows (s : Success) (ms : Members) : Prop where
  status : ShowsAs (ms.get? "status") s.status
  cacheType : ShowsAs (ms.get? "cache_type") s.cacheType
  setCacheResponse : ShowsAs (ms.get? "set_cache_response") s.setCacheResponse
  pingResponse : s.pingResponse = true ↔ ms.get? "ping_response" = some (.bool true)
  cacheParams : ∀ params, s.cacheParams = some params ↔
    ∃ v, ms.get? "litellm_cache_params" = some v ∧ v ≠ .null ∧ params = v.peel
  checkParams : ∀ params, s.checkParams = some params ↔
    ∃ v, ms.get? "health_check_cache_params" = some v ∧ v ≠ .null ∧ params = v.peel

variable {t key : String} {ms : Members} {body v : Value} {s : Success}

theorem carriedError_eq_none_iff : carriedError? ms = none ↔ ms.get? "error" ∈ harmless := by
  unfold carriedError? harmless
  split <;> simp_all

theorem showsAs_textOf (key : String) (ms : Members) : ShowsAs (ms.get? key) (textOf key ms) := by
  unfold textOf
  cases ms.get? key with
  | none => exact .missing
  | some v =>
    cases v with
    | null => exact .null
    | text s => exact .text s
    | _ => exact .other (by rintro ⟨⟩) (by rintro s ⟨⟩)

theorem paramsOf_eq_some_iff {params : Value} : paramsOf? key ms = some params ↔
    ∃ v, ms.get? key = some v ∧ v ≠ .null ∧ params = v.peel := by
  unfold paramsOf?
  cases ms.get? key with
  | none => simp
  | some v => cases v <;> simp [eq_comm]

theorem pingResponse_ofMembers : (Success.ofMembers ms).pingResponse = true ↔
    ms.get? "ping_response" = some (.bool true) := by
  unfold Success.ofMembers
  cases ms.get? "ping_response" with
  | none => simp
  | some v => cases v <;> simp [Value.asBool?]

theorem shows_ofMembers (ms : Members) : (Success.ofMembers ms).Shows ms where
  status := showsAs_textOf "status" ms
  cacheType := showsAs_textOf "cache_type" ms
  setCacheResponse := showsAs_textOf "set_cache_response" ms
  pingResponse := pingResponse_ofMembers
  cacheParams := fun _ => paramsOf_eq_some_iff
  checkParams := fun _ => paramsOf_eq_some_iff

theorem delivers_iff : Delivers body ms ↔ body.peel = .object ms := by
  constructor
  · rintro (_ | h)
    · rfl
    · exact Value.peel_text h
  · intro h
    cases body with
    | text t =>
      refine .inText ?_
      cases hread : Json.read t with
      | ok v => rw [← h, Value.peel_text hread]
      | error e =>
        simp only [Value.peel, hread] at h
        cases h
    | object ms' =>
      cases h
      exact .plain ms
    | _ => cases h

theorem Check.result_eq_success_iff {c : Check} : c.result = .success s ↔
    ∃ body ms, c = .response body ∧ Delivers body ms ∧ ms.get? "error" ∈ harmless ∧
      s = .ofMembers ms := by
  cases c with
  | thrown message => exact iff_of_false (by rintro ⟨⟩) (by rintro ⟨body, ms, ⟨⟩, -⟩)
  | response body =>
    simp only [Check.response.injEq, exists_and_left, exists_eq_left', delivers_iff,
      ← carriedError_eq_none_iff, Check.result]
    unfold resultOfBody
    split
    · rename_i ms hbody
      simp only [hbody, Value.object.injEq, exists_eq_left']
      split
      · rename_i e he
        simp [he]
      · rename_i he
        simp [he, eq_comm]
    · rename_i hbody
      refine iff_of_false (by rintro ⟨⟩) ?_
      rintro ⟨ms, hms, -⟩
      exact hbody ms hms

end CacheActivity.Health

namespace CacheActivity.Command

open Files (Disk)
open Health
open Json (Value Members)

variable {name : String} {n : Name} {g : Given} {words : List String} {scope : Scope}
  {source : Option CheckSource} {strict : Bool}

theorem eq_text_of_ofText? (h : Name.ofText? name = some n) : name = n.text := by
  have := List.find?_some h
  exact (of_decide_eq_true this).symm

theorem ofGiven_eq_health (h : ofGiven n g = .ok (.health source strict)) :
    n = .health ∧ strict = g.has "fail-on-error" := by
  cases n with
  | health =>
    rw [ofGiven] at h
    cases hsource : checkSourceOf g with
    | error stop =>
      rw [hsource] at h
      cases h
    | ok source' =>
      rw [hsource] at h
      cases h
      exact ⟨rfl, rfl⟩
  | _ => cases h

theorem read_eq_health (h : Command.read name words = .ok (.health source strict)) :
    name = "health" ∧ ∃ g, Reading.start.readFlags Name.health.flags words = .ok (g, []) ∧
      strict = g.has "fail-on-error" := by
  unfold Command.read at h
  split at h
  · cases h
  · rename_i n hname
    obtain ⟨⟨g, rest⟩, hread, hrest⟩ := bind_eq_ok h
    cases rest with
    | cons w ws => cases hrest
    | nil =>
      obtain ⟨rfl, hstrict⟩ := ofGiven_eq_health hrest
      exact ⟨eq_text_of_ofText? hname, g, hread, hstrict⟩

theorem strict_iff (h : Invocation.read words = .ok ⟨scope, .health source strict⟩) :
    strict = true ↔ "--fail-on-error" ∈ words := by
  unfold Invocation.read at h
  obtain ⟨⟨g, rest⟩, hscope, hrest⟩ := bind_eq_ok h
  cases rest with
  | nil => cases hrest
  | cons name behind =>
    simp only at hrest
    split at hrest
    · cases hrest
    · obtain ⟨command, hcommand, hcall⟩ := bind_eq_ok hrest
      cases hcall
      obtain ⟨rfl, g', hread, rfl⟩ := read_eq_health hcommand
      have hbare : Bare "fail-on-error" := ⟨by decide, by decide⟩
      have hword : "--" ++ "fail-on-error" = "--fail-on-error" := rfl
      have hwaits (flags) : Reading.start.Passes flags "fail-on-error" := by rintro f ⟨⟩
      obtain ⟨front, rfl, hscopes⟩ := gives_of_readFlags hbare (by decide) (hwaits _) hscope
      obtain ⟨all, rfl, hflags⟩ := gives_of_readFlags hbare (by decide) (hwaits _) hread
      have hhas := hflags.has_iff
      rw [hword] at hhas
      -- No flag in front of a command has the name.
      have hfront : "--fail-on-error" ∉ front := fun hmem => by
        obtain ⟨f, hf, hname⟩ := hscopes.named hmem
        revert f
        decide
      simpa [hfront, Reading.start, Given.has] using hhas

theorem code_of_health {o : Occasion} {d : Disk} {probe : CheckSource}
    (h : Invocation.read words = .ok ⟨scope, .health source strict⟩)
    (hprobe : source.or ((settingsOrDefault o.home d).1.healthPath.map .captured) = some probe) :
    (runWords o words d).ending.code =
      if strict && !(probe.check d).result.isSuccess then 1 else 0 := by
  simp only [runWords, h, Invocation.run, Command.run, runHealth, hprobe]
  exact apply_ite Ending.code _ .failed .done

/-- A check is a success just when its response, without one layer of text, is an object without an
error, and no check that failed by itself is. The success shows the members of the object, which may
as well have come without the text. And a run that has a check to show ends with 1 if the check is
a failure and the run is to fail on that, and with 0 otherwise. -/
theorem healthy_or_failing :
    (∀ c : Check, (∃ s, c.result = .success s) ↔
      ∃ body ms, c = .response body ∧ Delivers body ms ∧ ms.get? "error" ∈ harmless) ∧
    (∀ message, ∃ f, (Check.thrown message).result = .failure f) ∧
    (∀ body ms s, Delivers body ms → (Check.response body).result = .success s →
      s.Shows ms ∧ (Check.response (.object ms)).result = .success s) ∧
    ∀ (o : Occasion) (words : List String) (d : Disk) (scope : Scope)
      (source : Option CheckSource) (strict : Bool) (probe : CheckSource),
      Invocation.read words = .ok ⟨scope, .health source strict⟩ →
      source.or ((settingsOrDefault o.home d).1.healthPath.map .captured) = some probe →
      ("--fail-on-error" ∈ words →
        ((runWords o words d).ending.code = 1 ↔ ∃ f, (probe.check d).result = .failure f) ∧
        ((runWords o words d).ending.code = 0 ↔ ∃ s, (probe.check d).result = .success s)) ∧
      ("--fail-on-error" ∉ words → (runWords o words d).ending.code = 0) := by
  refine ⟨fun c => ?_, fun message => ⟨_, rfl⟩, fun body ms s hbody hs => ?_, ?_⟩
  · simp only [Check.result_eq_success_iff]
    constructor
    · rintro ⟨s, body, ms, hc, hms, herror, -⟩
      exact ⟨body, ms, hc, hms, herror⟩
    · rintro ⟨body, ms, hc, hms, herror⟩
      exact ⟨_, body, ms, hc, hms, herror, rfl⟩
  · obtain ⟨_, ms', ⟨rfl⟩, hms', herror, rfl⟩ := Check.result_eq_success_iff.1 hs
    obtain rfl : ms' = ms :=
      Value.object.inj ((delivers_iff.1 hms').symm.trans (delivers_iff.1 hbody))
    exact ⟨shows_ofMembers ms',
      Check.result_eq_success_iff.2 ⟨_, ms', rfl, .plain ms', herror, rfl⟩⟩
  · intro o words d scope source strict probe h hprobe
    rw [code_of_health h hprobe, ← strict_iff h]
    cases hresult : (probe.check d).result with
    | success s => cases strict <;> simp [Result.isSuccess]
    | failure f => cases strict <;> simp [Result.isSuccess]

def upText : String := "\x7b\"status\":\"up\",\"error\":false\x7d"

def upMembers : Members := [("status", .text "up"), ("error", .bool false)]

/-- The words of a check that failed by itself, in a run that is to fail on it. -/
def downWords : List String := ["health", "--error", "down", "--fail-on-error"]

theorem healthy_or_failing_of_up :
    (∃ s, (Check.response (.text upText)).result = .success s ∧ s.Shows upMembers ∧
      (Check.response (.object upMembers)).result = .success s) ∧
    Invocation.read downWords = .ok ⟨.ofGiven [], .health (some (.thrown "down")) true⟩ ∧
    ∀ o d, (runWords o downWords d).ending.code = 1 := by
  have hread : Invocation.read downWords =
    .ok ⟨.ofGiven [], .health (some (.thrown "down")) true⟩ := rfl
  obtain ⟨hiff, hthrown, hshows, hcode⟩ := healthy_or_failing
  have hup : Delivers (.text upText) upMembers := .inText rfl
  obtain ⟨s, hs⟩ := (hiff (.response (.text upText))).2
    ⟨_, upMembers, rfl, hup, by simp [harmless, upMembers, Members.get?_cons]⟩
  refine ⟨⟨s, hs, hshows _ _ s hup hs⟩, hread, fun o d => ?_⟩
  have hdown := (hcode o downWords d _ _ true (.thrown "down") hread rfl).1 (by decide)
  exact hdown.1.2 (hthrown "down")

end CacheActivity.Command
