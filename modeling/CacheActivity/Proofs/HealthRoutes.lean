import CacheActivity.Health

/-!
# The ways an error comes in

An error reaches a health check as the message of a check that failed, as a response, as a response
that is a text, or in a captured file. The ways are different code, and they come to one failure:
`error_routes_agree`.
-/

namespace CacheActivity.Health

open Files (Disk)
open Json (Value Members)

variable {t : String} {ms : Members} {e v : Value}

theorem carriedError_eq_some_iff : carriedError? ms = some e ↔
    ms.get? "error" = some e ∧ e ≠ .null ∧ e ≠ .bool false ∧ e ≠ .text "" := by
  unfold carriedError?
  split
  · rename_i h
    rw [h]
    exact iff_of_false (by rintro ⟨⟩) (by rintro ⟨⟨⟩, -⟩)
  · rename_i h
    rw [h]
    exact iff_of_false (by rintro ⟨⟩) fun ⟨he, hnull, _⟩ => hnull (Option.some.inj he).symm
  · rename_i h
    rw [h]
    exact iff_of_false (by rintro ⟨⟩) fun ⟨he, _, hfalse, _⟩ => hfalse (Option.some.inj he).symm
  · rename_i h
    rw [h]
    exact iff_of_false (by rintro ⟨⟩) fun ⟨he, _, _, hempty⟩ => hempty (Option.some.inj he).symm
  · rename_i v hnull hfalse hempty h
    rw [h]
    refine ⟨fun he => ⟨he, ?_⟩, And.left⟩
    obtain rfl := Option.some.inj he
    exact ⟨fun h => hnull h, fun h => hfalse h, fun h => hempty h⟩

theorem resultOfBody_of_error (h : carriedError? ms = some e) :
    resultOfBody (.object ms) = .failure (.ofError e) := by
  simp only [resultOfBody, Value.peel, h]

/-- A response that is a text counts as what the text stands for. -/
theorem resultOfBody_text (h : Json.read t = .ok v) (hv : ∀ s, v ≠ .text s) :
    resultOfBody (.text t) = resultOfBody v := by
  rw [resultOfBody, resultOfBody, Value.peel_text h, Value.peel_of_ne_text hv]

theorem ne_empty_of_read (h : Json.read t = .ok v) : t ≠ "" := by
  rintro rfl
  cases h

theorem thrownError_of_error (h : Json.read t = .ok (.object ms)) (he : carriedError? ms = some e) :
    thrownError t = e := by
  rw [thrownError, if_neg (ne_empty_of_read h), Value.peel_text h]
  simp only [he, Option.getD_some]

theorem ofCapture_of_read {d : Disk} {path : String} (hd : d.read path = .ok t)
    (h : Json.read t = .ok v) : Check.ofCapture (d.read path) = .response v := by
  simp only [Check.ofCapture, hd, h]

/-- An error that a JSON text carries gives one failure, whether the text is the message of a failed
check, the response, a response inside a text or a captured file. And a response inside a text, if
it is no text itself, gives the result of the response. -/
theorem error_routes_agree :
    (∀ (t : String) (ms : Members) (e : Value), Json.read t = .ok (.object ms) →
      ms.get? "error" = some e → e ≠ .null → e ≠ .bool false → e ≠ .text "" →
      (Check.thrown t).result = .failure (.ofError e) ∧
      (Check.response (.object ms)).result = .failure (.ofError e) ∧
      (Check.response (.text t)).result = .failure (.ofError e) ∧
      ∀ (d : Disk) (path : String), d.read path = .ok t →
        (Check.ofCapture (d.read path)).result = .failure (.ofError e)) ∧
    ∀ t v, Json.read t = .ok v → (∀ s, v ≠ .text s) →
      (Check.response (.text t)).result = (Check.response v).result := by
  refine ⟨fun t ms e h he hnull hfalse hempty => ?_, fun t v h hv => resultOfBody_text h hv⟩
  have hcarried := carriedError_eq_some_iff.2 ⟨he, hnull, hfalse, hempty⟩
  have hresponse := resultOfBody_of_error hcarried
  refine ⟨?_, hresponse, ?_, fun d path hd => ?_⟩
  · rw [Check.result, thrownError_of_error h hcarried]
  · exact (resultOfBody_text h (by rintro s ⟨⟩)).trans hresponse
  · rw [ofCapture_of_read hd h]
    exact hresponse

def downText : String := "\x7b\"error\":\x7b\"message\":\"down\",\"retry\":[null,false]\x7d\x7d"

def downError : Value := .object [("message", .text "down"), ("retry", .array [.null, .bool false])]

def downDisk : Disk := (Disk.blank []).put ["check.json"] (.file (some downText))

def downFailure : Failure := ⟨"down", [("retry", "[null,false]")]⟩

theorem error_routes_agree_of_down :
    Json.read downText = .ok (.object [("error", downError)]) ∧
    downDisk.read "/check.json" = .ok downText ∧
    (Check.thrown downText).result = .failure downFailure ∧
    (Check.response (.object [("error", downError)])).result = .failure downFailure ∧
    (Check.response (.text downText)).result = .failure downFailure ∧
    (Check.ofCapture (downDisk.read "/check.json")).result = .failure downFailure ∧
    (Check.response (.text "[]")).result = .failure ⟨"[]", []⟩ := by
  have hread : Json.read downText = .ok (.object [("error", downError)]) := rfl
  have hdisk : downDisk.read "/check.json" = .ok downText := rfl
  have hfailure : Failure.ofError downError = downFailure := rfl
  have hlist : (Check.response (.array [])).result = .failure ⟨"[]", []⟩ := rfl
  obtain ⟨herror, hother⟩ := error_routes_agree
  obtain ⟨hthrown, hresponse, htext, hcapture⟩ := herror downText _ downError hread rfl
    (by rintro ⟨⟩) (by rintro ⟨⟩) (by rintro ⟨⟩)
  have hcaptured := hcapture downDisk _ hdisk
  rw [hfailure] at hthrown hresponse htext hcaptured
  exact ⟨hread, hdisk, hthrown, hresponse, htext, hcaptured,
    (hother "[]" (.array []) rfl (by rintro s ⟨⟩)).trans hlist⟩

end CacheActivity.Health
