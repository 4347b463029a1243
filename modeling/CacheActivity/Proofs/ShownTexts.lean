import CacheActivity.Proofs.FailureShapes
import CacheActivity.Proofs.TrimmedTexts

/-!
# Texts that are shown as they are

The message of a failed check is looked into for an object, and only for one. Any other text is the
message of the failure down to its last character, be it plain, broken JSON or JSON of another kind
(`result_of_no_object`). A captured file that is no JSON is such a text without the white space at
its ends (`Trimmed`).
-/

namespace CacheActivity.Health

open Files (Disk)
open Json (Value Members)
open Text (Trimmed trimmed_iff)

variable {t : String}

theorem thrown_of_no_object (hne : t ≠ "") (h : ∀ ms, Json.read t ≠ .ok (.object ms)) :
    (Check.thrown t).result = .failure ⟨t, []⟩ := by
  have hself : Failure.ofError (.object (Failure.members ⟨t, []⟩)) = ⟨t, []⟩ :=
    ofError_members List.not_mem_nil h
  rw [result_of_failsWith (.text hne h)]
  exact congrArg Result.failure hself

theorem thrown_empty : (Check.thrown "").result = .failure ⟨"Unknown error occurred", []⟩ := by
  rw [result_of_failsWith .silent]
  rfl

/-- A message that is not the text of an object is shown untouched, and so is what a captured file
holds besides white space, if it is no JSON and not the text of an object within that. A capture
with nothing but white space is an error that is not known. -/
theorem result_of_no_object :
    (∀ t : String, t ≠ "" → (∀ ms, Json.read t ≠ .ok (.object ms)) →
      (Check.thrown t).result = .failure ⟨t, []⟩) ∧
    ∀ (d : Disk) (path content : String), d.read path = .ok content →
      (∀ v, Json.read content ≠ .ok v) →
      (∃ t : String, Trimmed content.toList t.toList) ∧
      ∀ t : String, Trimmed content.toList t.toList → (∀ ms, Json.read t ≠ .ok (.object ms)) →
        (Check.ofCapture (d.read path)).result =
          .failure ⟨if t = "" then "Unknown error occurred" else t, []⟩ := by
  refine ⟨fun t => thrown_of_no_object, fun d path content hd hnone => ⟨?_, fun t ht h => ?_⟩⟩
  · exact ⟨String.ofList (Text.trim content.toList), trimmed_iff.2 String.toList_ofList⟩
  have hcapture : Check.ofCapture (d.read path) = .thrown t := by
    rw [hd, Check.ofCapture]
    cases hread : Json.read content with
    | ok v => exact absurd hread (hnone v)
    | error cause => rw [← trimmed_iff.1 ht, String.ofList_toList]
  rw [hcapture]
  split
  · rename_i hempty
    rw [hempty, thrown_empty]
  · rename_i hne
    exact thrown_of_no_object hne h

/-- A capture that is cut short, with blanks around it. -/
def brokenCapture : String := " \x7b\"error\":\n"

def brokenDisk : Disk := (Disk.blank []).put ["check.json"] (.file (some brokenCapture))

theorem result_of_no_object_of_broken :
    (Check.thrown "503").result = .failure ⟨"503", []⟩ ∧
    brokenDisk.read "/check.json" = .ok brokenCapture ∧
    (Check.ofCapture (brokenDisk.read "/check.json")).result =
      .failure ⟨"\x7b\"error\":", []⟩ := by
  have hdisk : brokenDisk.read "/check.json" = .ok brokenCapture := rfl
  obtain ⟨htext, hcapture⟩ := result_of_no_object
  obtain ⟨-, hshown⟩ := hcapture _ _ _ hdisk (by rintro v ⟨⟩)
  have hbroken := hshown "\x7b\"error\":" (trimmed_iff.2 rfl) (by rintro ms ⟨⟩)
  exact ⟨htext "503" (by decide) (by rintro ms ⟨⟩), hdisk, hbroken⟩

end CacheActivity.Health
