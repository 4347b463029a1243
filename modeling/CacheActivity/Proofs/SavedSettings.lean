import CacheActivity.Proofs.KeptSettings
import CacheActivity.Proofs.SettingsTexts

/-!
# Settings that are saved

Settings that were saved are loaded again as they were. Whatever is set, reset or loaded in
between, only a further save changes what is loaded (`Step.load_of_run`), and nothing of it can fail
once a save succeeded (`Step.exists_run`). A run that sets the path keeps all other settings, and
lines that are deleted from the file leave the defaults of their settings.
-/

namespace CacheActivity

open Files (Disk)

namespace Settings

variable {home : String} {d d' : Disk} {s : Settings}

theorem item_of_read {path text : String} (h : d.read path = .ok text) :
    d.item path = .ok (.file (some text)) := by
  obtain ⟨item, hitem, htext⟩ := bind_eq_ok h
  rw [hitem]
  split at htext
  · cases htext
    rfl
  · cases htext
  · cases htext

theorem load_of_read {text : String} (h : d.read (storePath home) = .ok text)
    (hs : read text = .ok s) : load home d = .ok s := by
  have hfind : d.find? (storePath home) = some (.file (some text)) :=
    congrArg Except.toOption (item_of_read h)
  simp [load, hfind, h, hs]

theorem exists_write_of_save (h : save home s d = .ok d') :
    ∃ d₁, d.makeFoldersOf (storePath home) = .ok d₁ ∧
      d₁.write (storePath home) s.text = .ok d' := by
  unfold save at h
  generalize storePath home = path at h ⊢
  generalize s.text = text at h ⊢
  cases hmade : d.makeFoldersOf path with
  | error cause => simp [hmade] at h
  | ok d₁ =>
    cases hwrite : d₁.write path text with
    | error cause => simp [hmade, hwrite] at h
    | ok d₂ =>
      simp only [hmade, hwrite] at h
      exact ⟨d₁, rfl, hwrite.trans (congrArg _ (Except.ok.inj h))⟩

theorem load_of_save (h : save home s d = .ok d') : load home d' = .ok s := by
  obtain ⟨d₁, -, hwrite⟩ := exists_write_of_save h
  exact load_of_read (Disk.read_of_write hwrite) (read_text s)

theorem rooted_of_save (hrooted : d.Rooted) (h : save home s d = .ok d') : d'.Rooted := by
  obtain ⟨d₁, hmade, hwrite⟩ := exists_write_of_save h
  exact (Disk.sameFolders_of_write hwrite).rooted (Disk.rooted_of_makeFoldersOf hrooted hmade)

inductive Step where
  | setDataPath (path : String)
  | reset
  | save
  | load

structure Session where
  settings : Settings
  disk : Disk

namespace Step

variable {x y : Session}

def apply (home : String) (x : Session) : Step → Except StoreFault Session
  | .setDataPath path => .ok ⟨x.settings.setDataPath path, x.disk⟩
  | .reset => .ok ⟨default, x.disk⟩
  | .save => (Settings.save home x.settings x.disk).map fun d => ⟨x.settings, d⟩
  | .load => (Settings.load home x.disk).map fun s => ⟨s, x.disk⟩

/-- Steps one after the other, up to the first that fails. -/
def run (home : String) (steps : List Step) (x : Session) : Except StoreFault Session :=
  steps.foldlM (apply home) x

theorem run_concat (steps : List Step) (step : Step) (x : Session) :
    run home (steps ++ [step]) x = run home steps x >>= fun y => step.apply home y := by
  simp [run]

/-- Only a save changes the disk. -/
theorem disk_of_apply {step : Step} (hstep : step ≠ .save) (h : step.apply home x = .ok y) :
    y.disk = x.disk := by
  cases step with
  | setDataPath path => cases h; rfl
  | reset => cases h; rfl
  | save => exact absurd rfl hstep
  | load =>
    simp only [apply] at h
    cases hload : Settings.load home x.disk with
    | error cause => simp [hload, Except.map] at h
    | ok s =>
      rw [hload] at h
      cases h
      rfl

theorem load_of_apply_save (h : Step.save.apply home x = .ok y) :
    Settings.load home y.disk = .ok x.settings := by
  simp only [apply] at h
  cases hsave : Settings.save home x.settings x.disk with
  | error cause => simp [hsave, Except.map] at h
  | ok d =>
    rw [hsave] at h
    cases h
    exact load_of_save hsave

/-- What is loaded behind steps with a save is what the last save saved. -/
theorem load_of_run {steps : List Step} (hsave : .save ∈ steps) (h : run home steps x = .ok y) :
    ∃ before after z, steps = before ++ .save :: after ∧ .save ∉ after ∧
      run home before x = .ok z ∧ Settings.load home y.disk = .ok z.settings := by
  induction steps using List.reverseRecOn generalizing y with
  | nil => cases hsave
  | append_singleton steps step ih =>
    rw [run_concat] at h
    obtain ⟨w, hfirst, hlast⟩ := bind_eq_ok h
    by_cases hstep : step = .save
    · subst hstep
      exact ⟨steps, [], w, rfl, List.not_mem_nil, hfirst, load_of_apply_save hlast⟩
    · have hmem : .save ∈ steps := by
        rcases List.mem_append.1 hsave with hmem | hmem
        · exact hmem
        · exact absurd (List.mem_singleton.1 hmem).symm hstep
      obtain ⟨before, after, z, rfl, hafter, hbefore, hload⟩ := ih hmem hfirst
      refine ⟨before, after ++ [step], z, by simp, ?_, hbefore, ?_⟩
      · simpa [hafter] using fun e => hstep e.symm
      · rwa [disk_of_apply hstep hlast]

/-- That settings are on a disk, where they can be saved again. -/
def Stored (home : String) (d : Disk) : Prop :=
  d.Rooted ∧ ∃ s : Settings, d.read (storePath home) = .ok s.text

theorem stored_of_save (hrooted : d.Rooted) (h : Settings.save home s d = .ok d') :
    Stored home d' := by
  obtain ⟨d₁, -, hwrite⟩ := exists_write_of_save h
  exact ⟨rooted_of_save hrooted h, s, Disk.read_of_write hwrite⟩

theorem exists_apply (hx : Stored home x.disk) (step : Step) :
    ∃ y, step.apply home x = .ok y ∧ Stored home y.disk := by
  obtain ⟨hrooted, s, hread⟩ := hx
  cases step with
  | setDataPath path => exact ⟨_, rfl, hrooted, s, hread⟩
  | reset => exact ⟨_, rfl, hrooted, s, hread⟩
  | save =>
    obtain ⟨d', hsave, hread'⟩ := exists_save_of_file (item_of_read hread) x.settings
    refine ⟨⟨x.settings, d'⟩, ?_, rooted_of_save hrooted hsave, x.settings, hread'⟩
    rw [apply, hsave]
    rfl
  | load =>
    refine ⟨⟨s, x.disk⟩, ?_, hrooted, s, hread⟩
    rw [apply, load_of_read hread (read_text s)]
    rfl

/-- Where settings are stored, no step fails. -/
theorem exists_run (hx : Stored home x.disk) (steps : List Step) :
    ∃ y, run home steps x = .ok y ∧ Stored home y.disk := by
  induction steps generalizing x with
  | nil => exact ⟨x, rfl, hx⟩
  | cons step steps ih =>
    obtain ⟨y, hstep, hy⟩ := exists_apply hx step
    obtain ⟨z, hrest, hz⟩ := ih hy
    refine ⟨z, ?_, hz⟩
    rw [run, List.foldlM_cons, hstep]
    exact hrest

end Step

end Settings

namespace Command

open Settings (Field Session Step load save storePath)

/-! ## Runs -/

theorem save_of_saveSettings {home said : String} {s : Settings} {d : Disk}
    (h : (saveSettings home s said d).ending.code = 0) :
    save home s d = .ok (saveSettings home s said d).disk := by
  unfold saveSettings at h ⊢
  cases hsave : save home s d with
  | error cause =>
    rw [hsave] at h
    cases h
  | ok d' => rfl

theorem warned_nil (x : Outcome) : x.warned [] = x := rfl

theorem runWords_of_setDataPath {o : Occasion} {words : List String} {scope : Scope}
    {path : String} {s : Settings} {d : Disk}
    (hread : Invocation.read words = .ok ⟨scope, .settings (some (.setDataPath path))⟩)
    (hload : load o.home d = .ok s) :
    runWords o words d =
      saveSettings o.home (s.setDataPath path) ("Data path set to: " ++ path) d := by
  unfold runWords
  rw [hread]
  show Invocation.run o _ d = _
  unfold Invocation.run settingsOrDefault
  rw [hload]
  exact warned_nil _

/-- Settings that were saved are loaded as they were, after whatever steps but a further save, and
none of these steps fails. A run that sets the path keeps all other settings, and the fields that
are deleted from a saved file, and no others, have their defaults. -/
theorem load_after_saves (o : Occasion) :
    (∀ s d d', save o.home s d = .ok d' → load o.home d' = .ok s) ∧
    (∀ steps x y, Step.save ∈ steps → Step.run o.home steps x = .ok y →
      ∃ before after z, steps = before ++ Step.save :: after ∧ Step.save ∉ after ∧
        Step.run o.home before x = .ok z ∧ load o.home y.disk = .ok z.settings) ∧
    (∀ s d d', d.Rooted → save o.home s d = .ok d' → ∀ steps t, ∃ y,
      Step.run o.home steps ⟨t, d'⟩ = .ok y) ∧
    (∀ words scope path (s : Settings) d,
      Invocation.read words = .ok ⟨scope, .settings (some (.setDataPath path))⟩ →
      load o.home d = .ok s → (runWords o words d).ending.code = 0 → ∃ t,
        load o.home (runWords o words d).disk = .ok t ∧ t.dataPath = some path ∧
          t.only (Field.without [.dataPath]) = s.only (Field.without [.dataPath])) ∧
    ∀ (s : Settings) (d : Disk) deleted,
      d.read (storePath o.home) =
        .ok (String.ofList ((Field.without deleted).flatMap s.memberChars)) →
      load o.home d = .ok (s.only (Field.without deleted)) := by
  refine ⟨fun _ _ _ => Settings.load_of_save, fun _ _ _ => Step.load_of_run, ?_, ?_, ?_⟩
  · intro s d d' hrooted hsave steps t
    obtain ⟨y, hrun, -⟩ := Step.exists_run (x := ⟨t, d'⟩) (Step.stored_of_save hrooted hsave)
      steps
    exact ⟨y, hrun⟩
  · intro words scope path s d hread hload hcode
    rw [runWords_of_setDataPath hread hload] at hcode ⊢
    exact ⟨s.setDataPath path, Settings.load_of_save (save_of_saveSettings hcode), rfl, rfl⟩
  · intro s d deleted hfile
    have hnodup : (Field.without deleted).Nodup :=
      List.Nodup.sublist List.filter_sublist (by decide)
    exact Settings.load_of_read hfile (Settings.read_fields s hnodup)

/-- Settings whose paths and level would be read as something else if they were written plain. -/
def awkwardSettings : Settings :=
  { Settings.default with
    dataPath := some "null"
    healthPath := some " 7: # it's"
    exportFolder := some "~"
    logLevel := "no\n off\n" }

theorem load_after_saves_of_awkward :
    (∃ d', save "/home" awkwardSettings (userDisk mistypedText) = .ok d' ∧
      load "/home" d' = .ok awkwardSettings ∧
      ∃ y, Step.run "/home" [.save, .setDataPath "elsewhere", .reset]
          ⟨awkwardSettings, d'⟩ = .ok y ∧ load "/home" y.disk = .ok awkwardSettings) ∧
    (∃ t, load "/home" (runWords sampleOccasion ["config", "--set-path", "captures"]
          (userDisk awkwardSettings.text)).disk = .ok t ∧
        t.dataPath = some "captures" ∧ t.logLevel = "no\n off\n") ∧
    load "/home" (userDisk (String.ofList ((Field.without [.exportFolder, .logLevel]).flatMap
        awkwardSettings.memberChars))) =
      .ok { awkwardSettings with exportFolder := none, logLevel := "warn" } := by
  have hall := load_after_saves sampleOccasion
  refine ⟨?_, ?_, ?_⟩
  · have hrooted : (userDisk mistypedText).Rooted := by decide +kernel
    have hfile : (userDisk mistypedText).item (storePath "/home") =
        .ok (.file (some mistypedText)) := by decide +kernel
    obtain ⟨d', hsave, -⟩ := Settings.exists_save_of_file hfile awkwardSettings
    obtain ⟨y, hrun⟩ := hall.2.2.1 _ _ _ hrooted hsave [.save, .setDataPath "elsewhere", .reset]
      awkwardSettings
    obtain ⟨before, after, z, hsteps, hafter, hbefore, hload⟩ :=
      hall.2.1 _ _ _ List.mem_cons_self hrun
    refine ⟨d', hsave, hall.1 _ _ _ hsave, y, hrun, ?_⟩
    cases before with
    | nil =>
      cases hbefore
      exact hload
    | cons step before =>
      -- Behind its first step, the run has no save.
      have hmem : Step.save ∈ [Step.setDataPath "elsewhere", .reset] := by
        rw [(List.cons.inj hsteps).2]
        simp
      simp at hmem
  · have hstored : load "/home" (userDisk awkwardSettings.text) = .ok awkwardSettings :=
      (hall.2.2.2.2 awkwardSettings _ [] (by decide +kernel)).trans rfl
    have hread : Invocation.read ["config", "--set-path", "captures"] =
        .ok ⟨plainScope, .settings (some (.setDataPath "captures"))⟩ := rfl
    have hcode : (runWords sampleOccasion ["config", "--set-path", "captures"]
        (userDisk awkwardSettings.text)).ending.code = 0 := by decide +kernel
    obtain ⟨t, hload, hpath, hothers⟩ := hall.2.2.2.1 _ _ _ _ _ hread hstored hcode
    exact ⟨t, hload, hpath, congrArg Settings.logLevel hothers⟩
  · refine (hall.2.2.2.2 awkwardSettings _ [.exportFolder, .logLevel] ?_).trans rfl
    decide +kernel

end Command

end CacheActivity
