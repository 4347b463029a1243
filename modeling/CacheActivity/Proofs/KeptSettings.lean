import CacheActivity.Proofs.PathEnds

/-!
# Settings that are kept

A run writes the file of the settings only to save settings (`keeps_of_run`): an export never writes
under the name of that file, as its files have other extensions. So a file of settings that cannot
be loaded stays as it is, and cannot be loaded afterwards either, unless the run resets the settings
or sets a path. Both save over the file, and nothing in it is kept (`store_of_unloadable`).
-/

namespace CacheActivity

open Files (Disk)

namespace Settings

variable {home : String} {d d' : Disk}

def storeName : String := "config.yaml"

theorem lastPiece_storePath (home : String) : Files.Path.lastPiece (storePath home) = storeName :=
  Files.Path.lastPiece_join _ (by decide)

/-- What is loaded is up to the item of the file. -/
theorem load_congr (h : d'.item (storePath home) = d.item (storePath home)) :
    load home d' = load home d := by
  have hfind : d'.find? (storePath home) = d.find? (storePath home) := congrArg Except.toOption h
  have hread : d'.read (storePath home) = d.read (storePath home) :=
    congrArg (· >>= _) h
  simp only [load, hfind, hread]

/-- Settings can be saved over a file. -/
theorem exists_save_of_file {text? : Option String}
    (hfile : d.item (storePath home) = .ok (.file text?)) (s : Settings) :
    ∃ d', save home s d = .ok d' ∧ d'.read (storePath home) = .ok s.text := by
  unfold save
  generalize storePath home = path at hfile ⊢
  obtain ⟨place, hlocate, -⟩ := Disk.exists_place_of_item hfile
  obtain ⟨d', hwrite⟩ := Disk.exists_write_of_file s.text hfile
  have hmade := Disk.makeFoldersOf_eq_self hlocate
  exact ⟨d', by simp only [hmade, hwrite], Disk.read_of_write hwrite⟩

end Settings

namespace Command

open Settings (storeName storePath)
open Usage (Report)

section Keeps

variable {d : Disk}

theorem disk_runHealth (s : Settings) (json : Bool) (source : Option CheckSource) (strict : Bool)
    (d : Disk) : (runHealth s json source strict d).disk = d := by
  unfold runHealth
  split <;> rfl

theorem disk_showActivity (o : Occasion) (s : Settings) (c : Scope) (classic : Bool)
    (board : Dashboard) (d : Disk) : (showActivity o s c classic board d).disk = d := by
  unfold showActivity
  split <;> rfl

theorem disk_look (time path : String) (d : Disk) (board : Dashboard) :
    (look time path d board).1.disk = d := by
  simp only [look]
  split <;> rfl

theorem disk_firstLook (o : Occasion) (s : Settings) (c : Scope) (d : Disk) :
    (firstLook o s c d).disk = d := by
  simp only [firstLook]
  split
  · rfl
  · simp only [Outcome.after]
    split
    · rfl
    · exact disk_look ..

/-- The files of an export have other extensions than the file of the settings. -/
theorem lastPiece_path_ne (base : String) (p : Export.Part) :
    Files.Path.lastPiece (p.path base) ≠ storeName := by
  have hslash : '/' ∉ p.extension.toList := by cases p <;> decide
  rcases Files.Path.lastPiece_withExtension base hslash with hdots | ⟨front, hfront⟩
  · exact fun h => absurd (h ▸ hdots) (by decide)
  · unfold Export.Part.path
    rw [hfront]
    intro h
    -- Read backwards, the extensions differ at once.
    have hback := congrArg (fun s => s.toList.reverse) h
    cases p <;> simp [Export.Part.extension, storeName] at hback

theorem keeps_of_saveParts (hrooted : d.Rooted) (r : Report) (base : String)
    (parts : List Export.Part) : d.Keeps storeName (saveParts r base parts d).disk := by
  induction parts generalizing d with
  | nil => exact .refl _ _
  | cons p parts ih =>
    cases hwrite : d.write (p.path base) (p.text r) with
    | error cause =>
      rw [saveParts_of_error hwrite]
      exact .refl _ _
    | ok d₁ =>
      have hfirst := Disk.keeps_of_write hrooted hwrite (lastPiece_path_ne base p)
      rw [saveParts_of_ok hwrite, Outcome.disk_after]
      exact hfirst.trans (ih (hfirst.folders.rooted hrooted))

/-- The settings that a command saves if none could be loaded. -/
inductive Saves : Command → Settings → Prop
  | reset : Saves (.settings (some .reset)) .default
  | setDataPath (path : String) :
    Saves (.settings (some (.setDataPath path))) (Settings.default.setDataPath path)

/-- A command that does not save settings keeps all files with the name of the settings' file. -/
theorem keeps_of_run (hrooted : d.Rooted) (o : Occasion) (s : Settings) (c : Scope)
    {command : Command} (h : ∀ s, ¬Saves command s) :
    d.Keeps storeName (run o s c d command).disk := by
  have hsame {d' : Disk} (he : d' = d) : d.Keeps storeName d' := he ▸ .refl _ _
  cases command with
  | settings task =>
    match task with
    | none => exact .refl _ _
    | some .reset => exact absurd .reset (h _)
    | some (.setDataPath path) => exact absurd (.setDataPath path) (h _)
    | some .list => exact .refl _ _
  | health source strict => exact hsame (disk_runHealth ..)
  | watch => exact hsame (disk_firstLook ..)
  | facets =>
    simp only [run, run.withDashboard]
    split <;> exact .refl _ _
  | activity selection classic =>
    simp only [run, run.withDashboard]
    split
    · exact hsame (disk_showActivity ..)
    · exact .refl _ _
  | exports selection parts base =>
    simp only [run, run.withDashboard]
    split
    · exact keeps_of_saveParts hrooted ..
    · exact .refl _ _

end Keeps

theorem keeps_of_runWords {d : Disk} (hrooted : d.Rooted) (o : Occasion) {words : List String}
    (h : ∀ call, Invocation.read words = .ok call → ∀ s, ¬Saves call.command s) :
    d.Keeps storeName (runWords o words d).disk := by
  unfold runWords
  split
  · rename_i call hread
    unfold Invocation.run
    split
    rw [Outcome.disk_warned]
    exact keeps_of_run hrooted o _ call.scope (h call hread)
  all_goals exact .refl _ _

theorem saveSettings_of_save {home : String} {d d' : Disk} {s : Settings}
    (h : Settings.save home s d = .ok d') (said : String) :
    saveSettings home s said d = .ofLines d' [infoLine said] := by
  unfold saveSettings
  rw [h]

theorem run_of_saves {o : Occasion} {d : Disk} {command : Command} {s : Settings}
    (h : Saves command s) (c : Scope) :
    ∃ said, run o .default c d command = saveSettings o.home s said d := by
  cases h with
  | reset => exact ⟨"Configuration reset to defaults", rfl⟩
  | setDataPath path => exact ⟨"Data path set to: " ++ path, rfl⟩

theorem runWords_of_unloadable {o : Occasion} {d : Disk} {words : List String}
    {call : Invocation} {cause : Settings.StoreFault} (hread : Invocation.read words = .ok call)
    (hload : Settings.load o.home d = .error cause) :
    runWords o words d = (run o .default call.scope d call.command).warned
      [cause.message ++ "; using default configuration"] := by
  unfold runWords
  rw [hread]
  show call.run o d = _
  unfold Invocation.run settingsOrDefault
  rw [hload]

/-- A run leaves a file of settings that cannot be loaded as it is, so none can be loaded after it
either. But resetting the settings and setting a path write defaults over whatever it holds. -/
theorem store_of_unloadable {o : Occasion} {words : List String} {d : Disk}
    {text? : Option String} {cause : Settings.StoreFault} (hrooted : d.Rooted)
    (hfile : d.item (storePath o.home) = .ok (.file text?))
    (hload : Settings.load o.home d = .error cause) :
    ((∀ call, Invocation.read words = .ok call → ∀ s, ¬Saves call.command s) →
      (runWords o words d).disk.item (storePath o.home) = .ok (.file text?) ∧
        Settings.load o.home (runWords o words d).disk = .error cause) ∧
    ∀ call, Invocation.read words = .ok call → ∀ s, Saves call.command s →
      (runWords o words d).ending.code = 0 ∧
        (runWords o words d).disk.read (storePath o.home) = .ok s.text := by
  constructor
  · intro h
    have hitem := (keeps_of_runWords hrooted o h).item_eq hrooted
      (Settings.lastPiece_storePath o.home) hfile
    exact ⟨hitem, (Settings.load_congr (hitem.trans hfile.symm)).trans hload⟩
  · intro call hread s hsaves
    obtain ⟨d', hsave, htext⟩ := Settings.exists_save_of_file hfile s
    obtain ⟨said, hrun⟩ := run_of_saves hsaves call.scope
    rw [runWords_of_unloadable hread hload, hrun, saveSettings_of_save hsave]
    exact ⟨rfl, htext⟩

/-- Settings whose days are no number. -/
def mistypedText : String := "default_range_days: week\nlog_level: debug\n"

/-- The disk of a user who has a file of settings. -/
def userDisk (text : String) : Disk :=
  (Disk.blank ["home", ".config", "cachelytics"]).put
    ["home", ".config", "cachelytics", storeName] (.file (some text))

def plainScope : Scope := ⟨none, none, none, false, false⟩

theorem store_of_unloadable_of_mistyped : ∃ cause,
    Settings.load "/home" (userDisk mistypedText) = .error cause ∧
    (runWords sampleOccasion ["facets"] (userDisk mistypedText)).disk.item (storePath "/home") =
      .ok (.file (some mistypedText)) ∧
    Settings.load "/home" (runWords sampleOccasion ["facets"] (userDisk mistypedText)).disk =
      .error cause ∧
    (runWords sampleOccasion ["config", "--reset"] (userDisk mistypedText)).disk.read
      (storePath "/home") = .ok Settings.default.text := by
  have hfile : (userDisk mistypedText).item (storePath "/home") =
      .ok (.file (some mistypedText)) := by decide +kernel
  have hnone : (Settings.load "/home" (userDisk mistypedText)).toOption = none := by
    decide +kernel
  have hfacets : ∀ call, Invocation.read ["facets"] = .ok call → ∀ s, ¬Saves call.command s := by
    rintro _ ⟨⟩ s ⟨⟩
  have hreset : Invocation.read ["config", "--reset"] =
      .ok ⟨plainScope, .settings (some .reset)⟩ := rfl
  cases hload : Settings.load "/home" (userDisk mistypedText) with
  | ok s =>
    rw [hload] at hnone
    cases hnone
  | error cause =>
    have hrooted : (userDisk mistypedText).Rooted := by decide +kernel
    obtain ⟨hitem, hload'⟩ :=
      (store_of_unloadable (o := sampleOccasion) hrooted hfile hload).1 hfacets
    refine ⟨cause, rfl, hitem, hload', ?_⟩
    exact ((store_of_unloadable (o := sampleOccasion) hrooted hfile hload).2 _ hreset _ .reset).2

/-- Setting a path loses the level that stands next to the mistyped days. -/
theorem lost_level_of_setDataPath :
    (Settings.load "/home" (userDisk mistypedText)).toOption = none ∧
    (userDisk mistypedText).read (storePath "/home") = .ok mistypedText ∧
    (runWords sampleOccasion ["config", "--set-path", "captures"]
      (userDisk mistypedText)).disk.read (storePath "/home") =
        .ok (Settings.default.setDataPath "captures").text ∧
    (Settings.default.setDataPath "captures").text ≠ mistypedText := by
  decide +kernel

end Command

end CacheActivity
