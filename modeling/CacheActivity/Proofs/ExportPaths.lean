import CacheActivity.Proofs.AskedWindow
import CacheActivity.Proofs.Writes

/-!
# Where exports go

The files of an export stand in the folder of its base path. Their names start with the stem of the
path's own name, which is all of that name only where no dot stands behind its first character
(`StemOf`). An export that ends well writes these files and no others, and another one under another
stem leaves them alone (`files_of_export`). Two base paths whose names share a stem share their
files (`files_of_shared_stem`).
-/

namespace CacheActivity.Files.Path

variable {base folder name stem : String} {cs front tail e : List Char}

/-- That a name has no slash in it and stands for something below its folder. -/
def IsOrdinary (name : String) : Prop := name ∉ ["", ".", ".."] ∧ '/' ∉ name.toList

/-- Slashes, and single dots behind slashes. -/
inductive Trailing : List Char → Prop
  | nil : Trailing []
  | slash {cs : List Char} : Trailing cs → Trailing ('/' :: cs)
  | dot {cs : List Char} : Trailing cs → Trailing ('/' :: '.' :: cs)

/-- That the text of a folder is empty or ends with a slash. -/
def IsFolder (folder : String) : Prop := folder = "" ∨ folder.toList.getLast? = some '/'

/-- That a path is the text of a folder and an ordinary name, with nothing behind them but slashes
and single dots. -/
structure Names (base folder name : String) : Prop where
  isFolder : IsFolder folder
  ordinary : IsOrdinary name
  behind : ∃ tail, Trailing tail ∧ base = folder ++ name ++ String.ofList tail

/-- A name and its stem: the text in front of its last dot, or all of it if there is no dot behind
its first character. -/
inductive StemOf : String → String → Prop
  | bare {name : String} : '.' ∉ name.toList.tail → StemOf name name
  | dotted {stem e : String} : stem ≠ "" → '.' ∉ e.toList → StemOf (stem ++ "." ++ e) stem

theorem Trailing.take (h : Trailing tail) (n : ℕ) : Trailing (tail.take n) := by
  induction h generalizing n with
  | nil => exact List.take_nil.symm ▸ .nil
  | slash _ ih =>
    cases n with
    | zero => exact .nil
    | succ n => exact .slash (ih n)
  | dot _ ih =>
    match n with
    | 0 => exact .nil
    | 1 => exact .slash .nil
    | n + 2 => exact .dot (ih n)

theorem dropTrailing_append (h : Trailing tail) (cs : List Char) :
    dropTrailing (cs ++ tail).reverse = dropTrailing cs.reverse := by
  induction h generalizing cs with
  | nil => rw [List.append_nil]
  | slash _ ih =>
    rw [List.append_cons, ih, List.reverse_append]
    rfl
  | dot _ ih =>
    rw [List.append_cons, List.append_cons, ih, List.append_assoc, List.reverse_append]
    rfl

/-- A name stops what is dropped. -/
theorem dropTrailing_of_name (hslash : '/' ∉ cs) (hne : cs ∉ [[], ['.']]) (ds : List Char) :
    dropTrailing (cs ++ ds) = cs ++ ds := by
  match cs with
  | [] => exact absurd List.mem_cons_self hne
  | [c] =>
    have hc : c ≠ '/' := fun h => hslash (h ▸ List.mem_cons_self)
    have hdot : c ≠ '.' := fun h => hne (by simp [h])
    unfold dropTrailing
    split <;> simp_all
  | c :: c' :: cs =>
    have hc : c ≠ '/' := fun h => hslash (h ▸ List.mem_cons_self)
    have hc' : c' ≠ '/' := fun h => hslash (h ▸ List.mem_cons_of_mem _ List.mem_cons_self)
    unfold dropTrailing
    split <;> simp_all

theorem ne_of_dots (h : cs ∉ [[], ['.'], ['.', '.']]) : cs ∉ [[], ['.']] :=
  fun hm => h (List.mem_append_left [['.', '.']] hm)

section Split

variable (hfolder : front = [] ∨ front.getLast? = some '/') (hslash : '/' ∉ cs)
  (htail : Trailing tail)
include hfolder hslash htail

theorem splitName_append (hne : cs ∉ [[], ['.']]) :
    splitName (front ++ cs ++ tail) = (front, cs) := by
  have hback : '/' ∉ cs.reverse := fun h => hslash (List.mem_reverse.1 h)
  have hpos := ne_of_mem_reverse hslash
  have hne' : cs.reverse ∉ [[], ['.']] := by simpa [List.reverse_eq_iff] using hne
  have hstop : front.reverse.dropWhile (· ≠ '/') = front.reverse ∧
      front.reverse.takeWhile (· ≠ '/') = [] := by
    rcases hfolder with rfl | hfolder
    · exact ⟨rfl, rfl⟩
    · obtain ⟨rest, rfl⟩ := List.getLast?_eq_some_iff.1 hfolder
      simp
  have hdrop : dropTrailing (front ++ cs ++ tail).reverse = cs.reverse ++ front.reverse := by
    rw [dropTrailing_append htail, List.reverse_append, dropTrailing_of_name hback hne']
  simp only [splitName, hdrop, List.dropWhile_append_of_pos hpos,
    List.takeWhile_append_of_pos hpos, hstop, List.reverse_reverse, List.append_nil]

theorem name?_append (hdots : cs ∉ [[], ['.'], ['.', '.']]) :
    name? (front ++ cs ++ tail) = some cs := by
  unfold name?
  rw [splitName_append hfolder hslash htail (ne_of_dots hdots)]
  simp only [List.mem_cons, List.not_mem_nil, or_false] at hdots
  exact if_neg hdots

theorem withExtension_of_dropExtension {path extension : String}
    (hcut : dropExtension path = front ++ cs ++ tail) (hdots : cs ∉ [[], ['.'], ['.', '.']]) :
    withExtension path extension =
      String.ofList (front ++ (splitExtension cs).1) ++ "." ++ extension := by
  simp only [withExtension, hcut, name?_append hfolder hslash htail hdots,
    splitName_append hfolder hslash htail (ne_of_dots hdots)]

end Split

/-- A path that leads up from a folder has no name to put an extension to. -/
theorem withExtension_of_up {path : String} (hcut : dropExtension path = front ++ ['.', '.'])
    (hfolder : front = [] ∨ front.getLast? = some '/') (extension : String) :
    withExtension path extension = String.ofList (front ++ ['.', '.']) := by
  have hsplit : splitName (front ++ ['.', '.'] ++ []) = (front, ['.', '.']) :=
    splitName_append hfolder (by decide) .nil (by decide)
  rw [List.append_nil] at hsplit
  simp [withExtension, hcut, name?, hsplit]

theorem splitExtension_of_not_mem (h : '.' ∉ cs.tail) : splitExtension cs = (cs, none) := by
  cases hsplit : splitExtension cs with
  | mk s e? =>
    cases e? with
    | some e =>
      obtain ⟨rfl, hne, -⟩ := splitExtension_eq_some_iff.1 hsplit
      refine absurd ?_ h
      rw [List.tail_append_of_ne_nil hne]
      exact List.mem_append_right _ List.mem_cons_self
    | none =>
      simp only [splitExtension] at hsplit
      split at hsplit
      · exact hsplit.symm
      · cases hsplit

theorem splitExtension_dotted (hne : stem ≠ "") (he : '.' ∉ e) :
    splitExtension (stem.toList ++ '.' :: e) = (stem.toList, some e) :=
  splitExtension_eq_some_iff.2 ⟨rfl, fun h => hne (String.toList_eq_nil_iff.1 h), he⟩

theorem exists_stemOf (name : String) : ∃ stem, StemOf name stem := by
  by_cases h : '.' ∈ name.toList.tail
  · obtain ⟨e, s, hback, he⟩ := List.eq_append_cons_of_mem (List.mem_reverse.2 h)
    cases hname : name.toList with
    | nil => simp [hname] at h
    | cons c cs =>
      have hcs : cs = s.reverse ++ '.' :: e.reverse := by
        rw [hname] at hback
        have := congrArg List.reverse hback
        simpa using this
      have hlist : name = String.ofList (c :: s.reverse) ++ "." ++ String.ofList e.reverse := by
        rw [← String.toList_inj, hname, hcs]
        simp
      rw [hlist]
      exact ⟨_, .dotted (by simp [← String.toList_inj]) (by simpa using he)⟩
  · exact ⟨name, .bare h⟩

/-! ## Another extension -/

theorem IsFolder.toList (h : IsFolder folder) :
    folder.toList = [] ∨ folder.toList.getLast? = some '/' :=
  h.imp_left String.toList_eq_nil_iff.2

theorem IsOrdinary.toList_not_mem (h : IsOrdinary name) :
    name.toList ∉ [[], ['.'], ['.', '.']] := Files.toList_not_mem h.1

theorem Names.toList_eq (h : Names base folder name) :
    ∃ tail, Trailing tail ∧ base.toList = folder.toList ++ name.toList ++ tail := by
  obtain ⟨tail, htail, rfl⟩ := h.behind
  exact ⟨tail, htail, by simp⟩

theorem eq_dot_of_dots {s x : List Char} (hne : s ≠ [])
    (h : s ++ '.' :: x ∈ [[], ['.'], ['.', '.']]) : s = ['.'] ∧ x = [] := by
  cases s with
  | nil => exact absurd rfl hne
  | cons c s => cases s <;> simp_all

/-- As many characters go as the extension has, from behind what stands at the end. -/
theorem dropExtension_dotted {e : String} (h : extension? base = some e)
    (hlist : base.toList = folder.toList ++ (stem.toList ++ '.' :: e.toList) ++ tail) :
    dropExtension base =
      folder.toList ++ (stem.toList ++ '.' :: e.toList.take tail.length) ++
        tail.take (tail.length - e.length) := by
  have hsides : base.toList = folder.toList ++ stem.toList ++ ['.'] ++ (e.toList ++ tail) := by
    simp [hlist]
  have hlen : base.length - e.length =
      (folder.toList ++ stem.toList ++ ['.']).length + tail.length := by
    rw [← String.length_toList, hsides, ← String.length_toList]
    simp only [List.length_append]
    omega
  simp only [dropExtension, h]
  rw [hlen, hsides, List.take_length_add_append, List.take_append, String.length_toList]
  simp

theorem withExtension_bare (h : Names base folder name) (hdot : '.' ∉ name.toList.tail)
    (extension : String) : withExtension base extension = folder ++ name ++ "." ++ extension := by
  obtain ⟨tail, htail, hlist⟩ := h.toList_eq
  have hfolder := h.isFolder.toList
  have hdots := h.ordinary.toList_not_mem
  have hsplit := splitExtension_of_not_mem hdot
  have hcut : dropExtension base = folder.toList ++ name.toList ++ tail := by
    simp only [dropExtension, extension?, hlist, name?_append hfolder h.ordinary.2 htail hdots,
      Option.bind_some, hsplit, Option.map_none]
  rw [withExtension_of_dropExtension hfolder h.ordinary.2 htail hcut hdots, hsplit,
    ← String.toList_append, String.ofList_toList]

theorem withExtension_dotted {e : String} (h : Names base folder (stem ++ "." ++ e))
    (hne : stem ≠ "") (he : '.' ∉ e.toList) (extension : String) :
    withExtension base extension = folder ++ stem ++ "." ++ extension ∨
      withExtension base extension = folder ++ ".." := by
  obtain ⟨tail, htail, hlist⟩ := h.toList_eq
  have hfolder := h.isFolder.toList
  have hslash := h.ordinary.2
  have hdots := h.ordinary.toList_not_mem
  have hname : (stem ++ "." ++ e).toList = stem.toList ++ '.' :: e.toList := by simp
  rw [hname] at hlist hslash hdots
  have hext : extension? base = some e := by
    simp only [extension?, hlist, name?_append hfolder hslash htail hdots, Option.bind_some,
      splitExtension_dotted hne he, Option.map_some, String.ofList_toList]
  have hcut := dropExtension_dotted hext hlist
  by_cases hup : stem.toList ++ '.' :: e.toList.take tail.length ∈ [[], ['.'], ['.', '.']]
  · -- What is left of the extension is empty, so nothing can stand behind the name.
    obtain ⟨hdot, hnone⟩ := eq_dot_of_dots (fun hnil => hne (String.toList_eq_nil_iff.1 hnil)) hup
    have htail' : tail = [] := by
      refine (List.take_eq_nil_iff.1 hnone).elim (fun hlen => List.length_eq_zero_iff.1 hlen)
        fun he => absurd ?_ hdots
      rw [hdot, he]
      decide
    subst htail'
    rw [hdot, hnone, List.take_nil, List.append_nil] at hcut
    refine .inr ?_
    rw [withExtension_of_up hcut hfolder, ← String.toList_inj]
    simp
  · have hslash' : '/' ∉ stem.toList ++ '.' :: e.toList.take tail.length := fun hm =>
      hslash ((((List.take_sublist _ _).cons_cons '.').append_left _).subset hm)
    refine .inl ?_
    rw [withExtension_of_dropExtension hfolder hslash' (htail.take _) hcut hup,
      splitExtension_dotted hne fun hm => he (List.mem_of_mem_take hm), ← String.toList_append,
      String.ofList_toList]

/-- A path gets another extension behind the stem of its name. But a name that is two dots and an
extension loses that first, and what is left leads up from the folder. -/
theorem withExtension_of_names (h : Names base folder name) (hstem : StemOf name stem)
    (extension : String) : withExtension base extension = folder ++ stem ++ "." ++ extension ∨
      withExtension base extension = folder ++ ".." := by
  cases hstem with
  | bare hdot => exact .inl (withExtension_bare h hdot extension)
  | dotted hne he => exact withExtension_dotted h hne he extension

end CacheActivity.Files.Path

namespace CacheActivity.Files.Disk

variable {d : Disk} {place : Place} {folder : String}

/-- That every folder stands in another one, up to the root. -/
def Rooted (d : Disk) : Prop :=
  ∀ p, d.HasFolder p → d.HasFolder p.dropLast

theorem SameFolders.rooted {d' : Disk} (h : SameFolders d d') (hrooted : d.Rooted) : d'.Rooted :=
  fun p hp => (h.hasFolder_iff _).2 (hrooted p ((h.hasFolder_iff p).1 hp))

/-- A name comes last on the way along a path. -/
theorem exists_step_of_folder (hfolder : Path.IsFolder folder) {name : String}
    (hslash : '/' ∉ name.toList) (h : d.locate (folder ++ name) = .ok place) :
    ∃ p, d.step p name.toList = .ok place := by
  obtain ⟨p, hstep⟩ := exists_step_of_locate h
  have hpieces : ∃ ps, Path.pieces (folder ++ name).toList = ps ++ [name.toList] := by
    unfold Path.pieces
    rw [String.toList_append, ← Text.splitAt_of_not_mem hslash]
    rcases hfolder with rfl | hlast
    · exact ⟨[], rfl⟩
    · obtain ⟨cs, hcs⟩ := List.getLast?_eq_some_iff.1 hlast
      rw [hcs, List.append_assoc, List.singleton_append]
      exact ⟨_, Text.splitAt_append_cons _ _⟩
  obtain ⟨ps, hps⟩ := hpieces
  simp only [hps, List.getLast_append_singleton] at hstep
  exact ⟨p, hstep⟩

theorem exists_above_of_locate (hfolder : Path.IsFolder folder) {name : String}
    (hname : Path.IsOrdinary name) (h : d.locate (folder ++ name) = .ok place) :
    ∃ p, place = p ++ [name] := by
  obtain ⟨p, hstep⟩ := exists_step_of_folder hfolder hname.2 h
  have hdots := hname.toList_not_mem
  obtain ⟨-, ⟨hdot, -⟩ | ⟨hup, -⟩ | ⟨-, -, rfl⟩⟩ := cases_of_step hstep
  · exact absurd (List.mem_append_left [['.', '.']] hdot) hdots
  · exact absurd (by simp [hup]) hdots
  · exact ⟨p, by rw [String.ofList_toList]⟩

/-- A piece that is no name leads to a folder. -/
theorem hasFolder_of_step (hrooted : d.Rooted) {p : Place} {piece : List Char}
    (hdots : piece ∈ [[], ['.'], ['.', '.']]) (h : d.step p piece = .ok place) :
    d.HasFolder place := by
  obtain ⟨hfolder, ⟨-, rfl⟩ | ⟨-, rfl⟩ | ⟨hname, -⟩⟩ := cases_of_step h
  · exact hfolder
  · exact hrooted p hfolder
  · exact absurd hdots hname

/-- Two dots lead up to a folder. -/
theorem hasFolder_of_up (hrooted : d.Rooted) (hfolder : Path.IsFolder folder)
    (h : d.locate (folder ++ "..") = .ok place) : d.HasFolder place := by
  obtain ⟨p, hstep⟩ := exists_step_of_folder hfolder (by decide) h
  exact hasFolder_of_step hrooted (by decide) hstep

end CacheActivity.Files.Disk

namespace CacheActivity

open Export (Part)
open Files (Disk Path.Names Path.StemOf)
open Usage (Selection Report)

namespace Export

variable {stem stem' folder name : String} {p q : Part}

/-- The files of parts of a report, whose paths start alike. -/
def filesAt (front : String) (r : Report) (parts : List Part) : List (String × String) :=
  parts.map fun p => (front ++ "." ++ p.extension, p.text r)

theorem eq_of_fileName_eq (h : stem ++ "." ++ p.extension = stem' ++ "." ++ q.extension) :
    stem = stem' ∧ p = q := by
  have hback := congrArg (fun s => s.toList.reverse) h
  cases p <;> cases q <;> simp [Part.extension] at hback <;> simp [hback, ← String.toList_inj]

theorem isOrdinary_fileName (hname : Files.Path.IsOrdinary name) (hstem : Path.StemOf name stem)
    (p : Part) : Files.Path.IsOrdinary (stem ++ "." ++ p.extension) := by
  have hslash : '/' ∉ stem.toList := by
    cases hstem with
    | bare => exact hname.2
    | dotted => exact fun hm => hname.2 (by simp [hm])
  have hletter : 's' ∈ (stem ++ "." ++ p.extension).toList := by
    cases p <;> simp [Part.extension]
  constructor
  · intro hm
    have hnone : ∀ dots ∈ ["", ".", ".."], 's' ∉ dots.toList := by decide
    exact hnone _ hm hletter
  · cases p <;> simpa [Part.extension] using hslash

/-- A file of an export stands in its folder under its own name. -/
theorem exists_part_of_filesAt {d : Disk} {base : String} {r : Report} {parts : List Part}
    (hbase : Path.Names base folder name) (hstem : Path.StemOf name stem) {f : String × String}
    (hf : f ∈ filesAt (folder ++ stem) r parts) {place : Files.Place}
    (h : d.locate f.1 = .ok place) :
    ∃ (p : Part) (above : Files.Place),
      f.2 = p.text r ∧ place = above ++ [stem ++ "." ++ p.extension] := by
  obtain ⟨p, -, rfl⟩ := List.mem_map.1 hf
  have hpath : folder ++ stem ++ "." ++ p.extension = folder ++ (stem ++ "." ++ p.extension) := by
    simp only [String.append_assoc]
  rw [hpath] at h
  obtain ⟨above, rfl⟩ :=
    Disk.exists_above_of_locate hbase.isFolder (isOrdinary_fileName hbase.ordinary hstem p) h
  exact ⟨p, above, rfl, rfl⟩

end Export

/-! ## Runs -/

namespace Command

variable {folder name stem : String}

/-- A run of the program that exports parts of the activity under a base path, and ends well. -/
structure ExportRun where
  occasion : Occasion
  words : List String
  disk : Disk
  scope : Scope
  selection : Selection
  parts : List Part
  base : String
  read : Invocation.read words = .ok ⟨scope, .exports selection parts (some base)⟩
  done : (runWords occasion words disk).ending.code = 0

namespace ExportRun

variable (x : ExportRun)

def after : Disk := (runWords x.occasion x.words x.disk).disk

def dashboard : Except Abort Dashboard :=
  (x.scope.dashboard (settingsOrDefault x.occasion.home x.disk).1 x.occasion.today x.selection
    x.disk).1

end ExportRun

section SaveParts

variable {r : Report} {base : String} {p : Part} {parts : List Part} {d d' : Disk}

theorem saveParts_of_error {cause : FileFault}
    (h : d.write (p.path base) (p.text r) = .error cause) :
    saveParts r base (p :: parts) d = .ofAbort d (.exporting cause) := by
  rw [saveParts, Export.save, h]
  rfl

theorem saveParts_of_ok (h : d.write (p.path base) (p.text r) = .ok d') :
    saveParts r base (p :: parts) d = (saveParts r base parts d').after
      [.line (infoLine (p.label ++ " exported to: " ++ p.path base))] := by
  rw [saveParts, Export.save, h]
  rfl

theorem writeAll_of_saveParts (h : (saveParts r base parts d).ending.code = 0) :
    d.writeAll (parts.map fun p => (p.path base, p.text r)) =
      .ok (saveParts r base parts d).disk := by
  induction parts generalizing d with
  | nil => rfl
  | cons p parts ih =>
    rw [List.map_cons, Disk.writeAll_cons]
    cases hwrite : d.write (p.path base) (p.text r) with
    | error cause =>
      rw [saveParts_of_error hwrite] at h
      cases h
    | ok d₁ =>
      rw [saveParts_of_ok hwrite, Outcome.ending_after] at h
      rw [saveParts_of_ok hwrite, Outcome.disk_after]
      exact ih h

end SaveParts

theorem runWords_of_exportRun (x : ExportRun) :
    ∃ log, runWords x.occasion x.words x.disk =
      ((match x.dashboard with
        | .ok board => saveParts board.view.report x.base x.parts x.disk
        | .error cause => .ofAbort x.disk cause).logged log).warned
          (settingsOrDefault x.occasion.home x.disk).2 := by
  refine ⟨(x.scope.dashboard (settingsOrDefault x.occasion.home x.disk).1 x.occasion.today
    x.selection x.disk).2, ?_⟩
  simp only [runWords, x.read, Invocation.run, run, run.withDashboard, ExportRun.dashboard]
  split <;> simp [*]

theorem exists_writeAll (x : ExportRun) : ∃ board, x.dashboard = .ok board ∧
    x.disk.writeAll (x.parts.map fun p => (p.path x.base, p.text board.view.report)) =
      .ok x.after := by
  have hdone := x.done
  obtain ⟨log, hrun⟩ := runWords_of_exportRun x
  unfold ExportRun.after
  rw [hrun, Outcome.ending_warned, Outcome.ending_logged] at hdone
  rw [hrun, Outcome.disk_warned, Outcome.disk_logged]
  cases hboard : x.dashboard with
  | error cause =>
    rw [hboard] at hdone
    cases cause <;> cases hdone
  | ok board =>
    rw [hboard] at hdone
    exact ⟨board, rfl, writeAll_of_saveParts hdone⟩

/-- An export that ends well writes its files behind the stem of its base path, and only these. -/
theorem wrote_of_export (x : ExportRun) (hrooted : x.disk.Rooted)
    (hbase : Path.Names x.base folder name) (hstem : Path.StemOf name stem) :
    ∃ board, x.dashboard = .ok board ∧
      x.disk.Wrote x.after (Export.filesAt (folder ++ stem) board.view.report x.parts) := by
  obtain ⟨board, hboard, hwrite⟩ := exists_writeAll x
  have hfiles : (x.parts.map fun p => (p.path x.base, p.text board.view.report)) =
      Export.filesAt (folder ++ stem) board.view.report x.parts := by
    refine List.map_congr_left fun p hp => Prod.ext ?_ rfl
    obtain ⟨place, hlocate, hitem⟩ := Disk.exists_place_of_writeAll hwrite (List.mem_map_of_mem hp)
    refine (Files.Path.withExtension_of_names hbase hstem p.extension).resolve_right fun hup => ?_
    have hlocate' : x.disk.locate (folder ++ "..") = .ok place := hup ▸ hlocate
    exact hitem (Disk.hasFolder_of_up hrooted hbase.isFolder hlocate')
  refine ⟨board, hboard, Disk.wrote_of_writeAll (hfiles ▸ hwrite) ?_⟩
  intro f hf g hg place hplace hplace'
  obtain ⟨p, above, hf, rfl⟩ := Export.exists_part_of_filesAt hbase hstem hf hplace
  obtain ⟨q, above', hg, hsame⟩ := Export.exists_part_of_filesAt hbase hstem hg hplace'
  have hname := (List.append_inj' hsame rfl).2
  obtain ⟨-, rfl⟩ := Export.eq_of_fileName_eq (List.singleton_inj.1 hname)
  rw [hf, hg]

/-- The stem of a name is all of it where no dot stands behind its first character. -/
theorem append_stem_eq_iff {base : String} (hbase : Path.Names base folder name)
    (hstem : Path.StemOf name stem) :
    folder ++ stem = base ↔ base = folder ++ name ∧ '.' ∉ name.toList.tail := by
  obtain ⟨tail, -, rfl⟩ := hbase.behind
  cases hstem with
  | bare hdot =>
    rw [and_iff_left hdot]
    exact eq_comm
  | @dotted stem e hne =>
    have hdot : '.' ∈ (stem ++ "." ++ e).toList.tail := by
      have hstem : stem.toList ≠ [] := fun hnil => hne (String.toList_eq_nil_iff.1 hnil)
      simp [List.tail_append_of_ne_nil hstem]
    refine iff_of_false (fun he => ?_) fun h => h.2 hdot
    have hlen := congrArg String.length he
    simp only [String.length_append] at hlen
    have hone : ".".length = 1 := rfl
    omega

/-- An export that ends well writes its parts behind the stem of its base path, and nothing else.
That is the base path itself just where it ends with its name and no dot stands behind the first
character of that. An export under another stem leaves the files as they are. -/
theorem files_of_export (x : ExportRun) (hrooted : x.disk.Rooted)
    (hbase : Path.Names x.base folder name) :
    ∃ stem board, Path.StemOf name stem ∧ x.dashboard = .ok board ∧
      x.disk.Wrote x.after (Export.filesAt (folder ++ stem) board.view.report x.parts) ∧
      (folder ++ stem = x.base ↔ x.base = folder ++ name ∧ '.' ∉ name.toList.tail) ∧
      ∀ (y : ExportRun) {folder' name' stem' : String}, x.disk.SameFolders y.disk →
        Path.Names y.base folder' name' → Path.StemOf name' stem' → stem' ≠ stem →
        ∀ f ∈ Export.filesAt (folder ++ stem) board.view.report x.parts,
          y.after.read f.1 = y.disk.read f.1 := by
  obtain ⟨stem, hstem⟩ := Files.Path.exists_stemOf name
  obtain ⟨board, hboard, hwrote⟩ := wrote_of_export x hrooted hbase hstem
  refine ⟨stem, board, hstem, hboard, hwrote, append_stem_eq_iff hbase hstem, ?_⟩
  intro y folder' name' stem' hsame hbase' hstem' hne f hf
  obtain ⟨board', -, hwrote'⟩ := wrote_of_export y (hsame.rooted hrooted) hbase' hstem'
  obtain ⟨place, hplace⟩ := Disk.exists_place_of_read (hwrote.read f hf)
  have hx := hwrote.folders.symm.locate hplace
  have hy := hsame.locate hx
  refine Disk.read_eq_of_locate (hwrote'.folders.locate hy) hy (hwrote'.rest place ?_)
  intro g hg hplace'
  obtain ⟨p, above, -, rfl⟩ := Export.exists_part_of_filesAt hbase hstem hf hx
  obtain ⟨q, above', -, he⟩ := Export.exists_part_of_filesAt hbase' hstem' hg hplace'
  have hname := List.singleton_inj.1 (List.append_inj' he rfl).2
  exact hne (Export.eq_of_fileName_eq hname).1.symm

/-- A disk with two captures, of which one is empty. -/
def twoCaptures : Disk :=
  ((Disk.blank []).put ["a.json"] (.file (some "[]"))).put ["b.json"]
    (.file (some "[\x7b\"call_type\": \"b\", \"total_rows\": 1\x7d]"))

theorem rooted_twoCaptures : twoCaptures.Rooted := by
  have hblank : (Disk.blank []).Rooted
    | [], h => h
    | _ :: _, ⟨_, h⟩ => nomatch h
  have hfirst : ¬(Disk.blank []).HasFolder ["a.json"] := by decide
  have hsecond : ¬((Disk.blank []).put ["a.json"] (.file (some "[]"))).HasFolder ["b.json"] := by
    decide
  exact ((Disk.sameFolders_put hfirst _).trans (Disk.sameFolders_put hsecond _)).rooted hblank

def exportScope (capture : String) : Scope := ⟨none, none, some capture, false, false⟩

def exportWords (capture base : String) : List String := ["--path", capture, "export", "-o", base]

/-- A library that writes no events. -/
def silentLibrary : Log.Library := ⟨fun _ => none, fun _ _ => false, fun _ _ => ""⟩

def sampleOccasion : Occasion := ⟨"/home", runDay, "", ⟨silentLibrary, none⟩⟩

/-- The run of an export of everything in a capture, if it ends well. -/
def sampleRun (capture base : String) (d : Disk)
    (read : Invocation.read (exportWords capture base) =
      .ok ⟨exportScope capture, .exports .all [.series, .summary] (some base)⟩)
    (done : (runWords sampleOccasion (exportWords capture base) d).ending.code = 0) : ExportRun :=
  ⟨sampleOccasion, exportWords capture base, d, exportScope capture, .all, [.series, .summary],
    base, read, done⟩

def plainRun : ExportRun := sampleRun "a.json" "report" twoCaptures rfl (by decide +kernel)

def otherRun : ExportRun := sampleRun "b.json" "totals" plainRun.after rfl (by decide +kernel)

theorem files_of_export_of_plain_names : ∃ board, plainRun.dashboard = .ok board ∧
    twoCaptures.Wrote plainRun.after
      (Export.filesAt "report" board.view.report [.series, .summary]) ∧
    ∀ f ∈ Export.filesAt "report" board.view.report [.series, .summary],
      otherRun.after.read f.1 = .ok f.2 := by
  have hbase : Path.Names plainRun.base "" "report" :=
    ⟨.inl rfl, ⟨by decide, by decide⟩, [], .nil, rfl⟩
  have hother : Path.Names otherRun.base "" "totals" :=
    ⟨.inl rfl, ⟨by decide, by decide⟩, [], .nil, rfl⟩
  obtain ⟨stem, board, -, hboard, hwrote, hiff, hleaves⟩ :=
    files_of_export plainRun rooted_twoCaptures hbase
  have hstem : "" ++ stem = "report" := hiff.2 ⟨rfl, by decide⟩
  rw [String.empty_append] at hstem
  subst hstem
  refine ⟨board, hboard, hwrote, fun f hf => ?_⟩
  have hdisk : otherRun.disk = plainRun.after := by simp only [otherRun, sampleRun]
  have hleft :=
    hleaves otherRun (hdisk ▸ hwrote.folders) hother (.bare (by decide)) (by decide) f hf
  rw [hleft, hdisk]
  exact hwrote.read f hf

def firstVersion : ExportRun := sampleRun "a.json" "report.v1" twoCaptures rfl (by decide +kernel)

def secondVersion : ExportRun :=
  sampleRun "b.json" "report.v2" firstVersion.after rfl (by decide +kernel)

/-- Neither export writes a file under its base path, and the second one writes over the first. -/
theorem files_of_shared_stem :
    secondVersion.disk = firstVersion.after ∧
    firstVersion.after.find? "report.v1.series.csv" = none ∧
    secondVersion.after.find? "report.v2.series.csv" = none ∧
    firstVersion.after.find? "report.series.csv" =
      some (.file (some (String.ofList (Csv.write [Export.seriesHeader])))) ∧
    secondVersion.after.find? "report.series.csv" =
      some (.file (some (String.ofList (Csv.write
        [Export.seriesHeader, ["b", "1", "0", "0", "0"].map String.toList])))) :=
  ⟨rfl, by decide +kernel⟩

end Command

end CacheActivity
