import CacheActivity.Capture.Archive
import CacheActivity.Proofs.Attempts
import CacheActivity.Proofs.Dates
import CacheActivity.Proofs.Places
import Mathlib.Data.String.Basic

/-!
# Fetching from a folder

The captures of a folder with a date in a window are the files below it that are named for such a
date, as far as the way to them is open (`mem_dailies`). Sorting puts them into an order in which no
two are equal (`pairwise_dailies`), so the order of the files on the disk is lost. Fetching reads
them all or fails.
-/

namespace CacheActivity.Capture

open Calendar (Date Window)
open Files (Access Disk Place)
open Usage (Row)

namespace Daily

/-- That the name of a capture is its date and an extension. -/
def Named (c : Daily) : Prop :=
  ∃ stem, ∃ extension ∈ extensions,
    c.place.getLast? = some (stem ++ "." ++ extension) ∧ Date.readDashed? stem = some c.date

theorem not_mem_of_mem_extensions {extension : String} (h : extension ∈ extensions) :
    '.' ∉ extension.toList := by
  simp only [extensions, List.mem_cons, List.not_mem_nil, or_false] at h
  rcases h with rfl | rfl <;> decide

theorem ne_empty_of_readDashed? {stem : String} {date : Date}
    (h : Date.readDashed? stem = some date) : stem ≠ "" := by
  rintro rfl
  cases h

theorem place_of_ofPlace? {place : Place} {c : Daily} (h : ofPlace? place = some c) :
    c.place = place := by
  unfold ofPlace? at h
  simp only [bind, Option.bind_eq_some_iff, Option.ite_none_right_eq_some, Option.some_inj] at h
  obtain ⟨_, -, _, -, _, -, _, -, -, rfl⟩ := h
  rfl

theorem ofPlace?_eq_some_iff {place : Place} (hp : ∀ name ∈ place, Files.IsName name)
    {c : Daily} : ofPlace? place = some c ↔ c.place = place ∧ c.Named := by
  unfold ofPlace? Named
  simp only [bind, Option.bind_eq_some_iff, Option.ite_none_right_eq_some, Option.some_inj]
  constructor
  · rintro ⟨name, hname, extension, hext, stem, hstem, date, hdate, hmem, rfl⟩
    have hn := hp name (List.mem_of_getLast? hname)
    obtain ⟨he, -⟩ := hn.stem?_extension?_iff.1 ⟨hstem, hext⟩
    exact ⟨rfl, stem, extension, hmem, he ▸ hname, hdate⟩
  · rintro ⟨rfl, stem, extension, hmem, hname, hdate⟩
    have hn := hp _ (List.mem_of_getLast? hname)
    obtain ⟨hstem, hext⟩ := hn.stem?_extension?_iff.2
      ⟨rfl, ne_empty_of_readDashed? hdate, not_mem_of_mem_extensions hmem⟩
    exact ⟨_, hname, extension, hext, stem, hstem, c.date, hdate, hmem, rfl⟩

/-- That a capture comes before another one, by date, and by path on one date. -/
def Before (a b : Daily) : Prop := a.date < b.date ∨ a.date = b.date ∧ List.lt a.place b.place

theorem Le.trans {a b c : Daily} (h₁ : a.Le b) (h₂ : b.Le c) : a.Le c := by
  unfold Le at *
  simp only [Date.lt_def] at *
  rcases h₁ with h₁ | ⟨h₁, hp₁⟩
  · rcases h₂ with h₂ | ⟨h₂, -⟩
    · exact .inl (Int.lt_trans h₁ h₂)
    · exact .inl (h₂ ▸ h₁)
  · rcases h₂ with h₂ | ⟨h₂, hp₂⟩
    · exact .inl (h₁ ▸ h₂)
    · exact .inr ⟨h₁.trans h₂, List.le_trans hp₁ hp₂⟩

theorem Le.total (a b : Daily) : a.Le b ∨ b.Le a := by
  unfold Le
  simp only [Date.lt_def]
  rcases Int.lt_trichotomy a.date.dayNumber b.date.dayNumber with h | h | h
  · exact .inl (.inl h)
  · rcases List.le_total a.place b.place with hp | hp
    · exact .inl (.inr ⟨h, hp⟩)
    · exact .inr (.inr ⟨h.symm, hp⟩)
  · exact .inr (.inl h)

theorem Le.before {a b : Daily} (h : a.Le b) (hne : a.place ≠ b.place) : a.Before b := by
  rcases h with h | ⟨h, hp⟩
  · exact .inl h
  · exact .inr ⟨Date.dayNumber_inj.1 h, (List.le_iff_lt_or_eq.1 hp).resolve_right hne⟩

theorem Before.asymm {a b : Daily} (h : a.Before b) : ¬b.Before a := by
  unfold Before at *
  simp only [Date.lt_def] at *
  rintro (h' | ⟨he, hp'⟩)
  · rcases h with h | ⟨he, -⟩
    · exact Int.lt_asymm h h'
    · exact Int.ne_of_gt h' (congrArg Date.dayNumber he)
  · rcases h with h | ⟨-, hp⟩
    · exact Int.ne_of_gt h (congrArg Date.dayNumber he)
    · exact List.lt_asymm hp hp'

/-- Captures in order are known by their members. -/
theorem eq_of_pairwise_before {cs cs' : List Daily} (h : cs.Pairwise Before)
    (h' : cs'.Pairwise Before) (hmem : ∀ c, c ∈ cs ↔ c ∈ cs') : cs = cs' := by
  have hne : ∀ {a b : Daily}, a.Before b → a ≠ b := fun {a b} hab he =>
    hab.asymm (he ▸ hab)
  have hperm : cs.Perm cs' := (List.perm_ext_iff_of_nodup (h.imp hne) (h'.imp hne)).2 hmem
  exact hperm.eq_of_pairwise (fun a b _ _ hab hba => absurd hba hab.asymm) h h'

end Daily

/-! ## The captures of a folder -/

variable {d d' : Disk} {path : String} {root : Place} {access : Access} {w : Window}

/-- That a capture is for a date in a window, judged by its name. -/
structure Daily.IsFor (c : Daily) (w : Window) : Prop where
  named : c.Named
  contained : w.Contains c.date

/-- That a capture is in a file below a folder, for a date in a window. -/
structure Daily.Eligible (d : Disk) (root : Place) (w : Window) (c : Daily) : Prop where
  isFor : c.IsFor w
  isFile : ∃ text?, d.itemAt? (root ++ c.place) = some (.file text?)

theorem Daily.Named.place_ne_nil {c : Daily} (h : c.Named) : c.place ≠ [] := by
  obtain ⟨_, _, _, hlast, -⟩ := h
  intro he
  rw [he] at hlast
  cases hlast

theorem Daily.Eligible.isName {c : Daily} (h : c.Eligible d root w) :
    ∀ name ∈ c.place, Files.IsName name := by
  obtain ⟨text?, hitem⟩ := h.isFile
  exact fun name hm => Disk.isName_of_itemAt? hitem name (List.mem_append_right _ hm)

theorem mem_dailies (h : d.locate path = .ok root) {c : Daily} :
    c ∈ dailies d path root w ↔ c.Eligible d root w ∧ d.WayOpen path root c.place := by
  unfold dailies
  rw [List.mem_mergeSort, List.mem_filter, List.mem_filterMap, decide_eq_true_eq]
  constructor
  · rintro ⟨⟨place, hm, hc⟩, hw⟩
    obtain ⟨hm, hopen⟩ := List.mem_filter.1 hm
    obtain ⟨-, text?, hitem⟩ := Disk.mem_filesUnder.1 hm
    have hp : ∀ name ∈ place, Files.IsName name := fun name hn =>
      Disk.isName_of_itemAt? hitem name (List.mem_append_right _ hn)
    obtain ⟨rfl, hnamed⟩ := (Daily.ofPlace?_eq_some_iff hp).1 hc
    exact ⟨⟨⟨hnamed, hw⟩, text?, hitem⟩, (Disk.opensDownTo_iff hp h).1 hopen⟩
  · rintro ⟨hc, hway⟩
    refine ⟨⟨c.place, List.mem_filter.2 ⟨?_, ?_⟩, ?_⟩, hc.isFor.contained⟩
    · exact Disk.mem_filesUnder.2 ⟨hc.isFor.named.place_ne_nil, hc.isFile⟩
    · exact (Disk.opensDownTo_iff hc.isName h).2 hway
    · exact (Daily.ofPlace?_eq_some_iff hc.isName).2 ⟨rfl, hc.isFor.named⟩

/-- No capture comes twice, so their order is strict. -/
theorem pairwise_dailies (d : Disk) (path : String) (root : Place) (w : Window) :
    (dailies d path root w).Pairwise Daily.Before := by
  have hplaces : ((d.filesUnder root).filter (d.opensDownTo path)).Pairwise (· ≠ ·) :=
    (Disk.nodup_filesUnder d root).filter _
  have hdistinct : (dailies d path root w).Pairwise fun a b => a.place ≠ b.place := by
    -- Places are distinct before the captures are sorted, and their order does not matter.
    unfold dailies
    rw [(List.mergeSort_perm _ _).pairwise_iff fun h => h.symm]
    refine (List.Pairwise.filterMap _ ?_ hplaces).filter _
    intro p q hpq a ha b hb
    rwa [Daily.place_of_ofPlace? ha, Daily.place_of_ofPlace? hb]
  have hsorted : (dailies d path root w).Pairwise fun a b => decide (a.Le b) = true := by
    refine List.pairwise_mergeSort (fun a b c h₁ h₂ => ?_) (fun a b => ?_) _
    · exact decide_eq_true ((of_decide_eq_true h₁).trans (of_decide_eq_true h₂))
    · simpa using Daily.Le.total a b
  exact (hsorted.and hdistinct).imp fun h => (of_decide_eq_true h.1).before h.2

theorem fetch_of_folder (h : d.locate path = .ok root)
    (hfolder : d.itemAt? root = some (.folder access)) : fetch d path w = List.flatten <$>
      (dailies d path root w).mapM fun c => fetchFile d (c.path path) := by
  unfold fetch
  rw [(Disk.find?_eq_some_iff h).2 hfolder, h]
  rfl

/-- A folder's rows are those of its captures, one capture after the other. -/
theorem fetch_eq_ok_iff (h : d.locate path = .ok root)
    (hfolder : d.itemAt? root = some (.folder access)) {rows : List Row} : fetch d path w = .ok rows ↔
      ∃ parts, List.Forall₂ (fun c part => fetchFile d (c.path path) = .ok part)
        (dailies d path root w) parts ∧ rows = parts.flatten := by
  rw [fetch_of_folder h hfolder]
  exact flatten_mapM_eq_ok_iff

theorem exists_mem_of_fetch_eq_error (h : d.locate path = .ok root)
    (hfolder : d.itemAt? root = some (.folder access)) {fault : Fault}
    (hfault : fetch d path w = .error fault) :
    ∃ c ∈ dailies d path root w, fetchFile d (c.path path) = .error fault := by
  rw [fetch_of_folder h hfolder] at hfault
  cases hread : (dailies d path root w).mapM fun c => fetchFile d (c.path path) with
  | error fault' =>
    rw [hread] at hfault
    cases hfault
    exact exists_mem_of_mapM_eq_error hread
  | ok parts =>
    rw [hread] at hfault
    cases hfault

theorem exists_fetch_eq_ok_iff (h : d.locate path = .ok root)
    (hfolder : d.itemAt? root = some (.folder access)) : (∃ rows, fetch d path w = .ok rows) ↔
      ∀ c ∈ dailies d path root w, ∃ part, fetchFile d (c.path path) = .ok part := by
  rw [← exists_mapM_eq_ok_iff, fetch_of_folder h hfolder]
  cases (dailies d path root w).mapM fun c => fetchFile d (c.path path) with
  | error fault => simp [Functor.map, Except.map]
  | ok parts => simp [Functor.map, Except.map]

/-- That two disks have the same folders, and the same at each place an open way leads to that is
named for a date in a window. -/
structure SameCaptures (d d' : Disk) (path : String) (root : Place) (w : Window) : Prop where
  folders : Disk.SameFolders d d'
  items : ∀ c : Daily, c.IsFor w → d.WayOpen path root c.place →
    d'.itemAt? (root ++ c.place) = d.itemAt? (root ++ c.place)

theorem SameCaptures.dailies_eq (same : SameCaptures d d' path root w)
    (h : d.locate path = .ok root) : dailies d' path root w = dailies d path root w := by
  refine Daily.eq_of_pairwise_before (pairwise_dailies ..) (pairwise_dailies ..) fun c => ?_
  rw [mem_dailies (same.folders.locate h), mem_dailies h, same.folders.wayOpen_iff]
  refine and_congr_left fun hway => ⟨fun hc => ⟨hc.isFor, ?_⟩, fun hc => ⟨hc.isFor, ?_⟩⟩
  · rw [← same.items c hc.isFor hway]
    exact hc.isFile
  · rw [same.items c hc.isFor hway]
    exact hc.isFile

theorem SameCaptures.fetch_eq (same : SameCaptures d d' path root w) (h : d.locate path = .ok root)
    (hfolder : d.itemAt? root = some (.folder access)) : fetch d' path w = fetch d path w := by
  rw [fetch_of_folder h hfolder, fetch_of_folder (same.folders.locate h)
    ((same.folders.folders root access).2 hfolder), same.dailies_eq h]
  congr 1
  refine mapM_congr fun c hc => ?_
  obtain ⟨hc, hway⟩ := (mem_dailies h).1 hc
  have hitem := same.items c hc.isFor hway
  have hread : d'.read (c.path path) = d.read (c.path path) :=
    same.folders.read_joinAll hc.isName hc.isFor.named.place_ne_nil h hway hitem
  unfold fetchFile
  rw [hread]

/-! ## Fetching -/

/-- Fetching from a folder reads the files below it that are named for a date in the window, as far
as the way to them is open, each once, in the order of their dates and paths. It fails just where
one of them cannot be read, and depends on nothing but them and the folders. -/
theorem fetch_reads_daily_captures (hpath : d.locate path = .ok root)
    (hfolder : d.itemAt? root = some (.folder access)) (w : Window) :
    let listed := fun c : Daily => c.Eligible d root w ∧ d.WayOpen path root c.place
    let read := fun c : Daily => fetchFile d (c.path path)
    (∃ cs : List Daily, cs.Pairwise Daily.Before ∧ (∀ c, c ∈ cs ↔ listed c) ∧
        ∀ rows, fetch d path w = .ok rows ↔
          ∃ parts, List.Forall₂ (fun c part => read c = .ok part) cs parts ∧
            rows = parts.flatten) ∧
      (∀ c, listed c → d.locate (c.path path) =
        if Files.maxPathLength < Text.byteLength (c.path path).toList then .error .nameTooLong
        else if d.isShut (root ++ c.place.dropLast) then .error .accessDenied
        else .ok (root ++ c.place)) ∧
      ((∃ rows, fetch d path w = .ok rows) ↔ ∀ c, listed c → ∃ part, read c = .ok part) ∧
      (∀ fault, fetch d path w = .error fault → ∃ c, listed c ∧ read c = .error fault) ∧
      ((∀ c, ¬listed c) → fetch d path w = .ok []) ∧
      ∀ d', SameCaptures d d' path root w → fetch d' path w = fetch d path w := by
  intro listed read
  have hmem : ∀ c, c ∈ dailies d path root w ↔ listed c := fun c => mem_dailies hpath
  refine ⟨⟨_, pairwise_dailies d path root w, hmem, fun rows => fetch_eq_ok_iff hpath hfolder⟩,
    fun c hc => Disk.locate_joinAll hc.1.isName hc.1.isFor.named.place_ne_nil hpath hc.2,
    ?_, ?_, ?_, fun d' same => same.fetch_eq hpath hfolder⟩
  · simp only [← hmem]
    exact exists_fetch_eq_ok_iff hpath hfolder
  · intro fault hfault
    obtain ⟨c, hc, hread⟩ := exists_mem_of_fetch_eq_error hpath hfolder hfault
    exact ⟨c, (hmem c).1 hc, hread⟩
  · intro hnone
    have hnil : dailies d path root w = [] :=
      List.eq_nil_iff_forall_not_mem.2 fun c hc => hnone c ((hmem c).1 hc)
    rw [fetch_of_folder hpath hfolder, hnil]
    rfl

def firstOfMay : Date := ⟨2024, 5, 1, by decide, by decide, by decide⟩

def oneDay : Window := ⟨firstOfMay, firstOfMay, Int.le_refl _⟩

def asDocument : Daily := ⟨firstOfMay, ["sub", "2024-05-01.json"]⟩

def asLines : Daily := ⟨firstOfMay, ["sub", "2024-05-01.jsonl"]⟩

/-- Two captures of the first of May in one folder, and a broken one of the next day. -/
def sampleArchive : Disk :=
  ⟨[], [(["cap"], .folder .full), (["cap", "2024-05-02.json"], .file none),
    (["cap", "sub"], .folder .full), (["cap", "sub", "2024-05-01.jsonl"], .file (some "{}\n{}")),
    (["cap", "sub", "2024-05-01.json"], .file (some "[{}]"))], by decide, by decide⟩

theorem locate_cap : sampleArchive.locate "cap" = .ok ["cap"] := rfl

theorem place_ne_of_isFor_oneDay {c : Daily} (h : c.IsFor oneDay) :
    c.place ≠ ["2024-05-02.json"] := by
  intro hplace
  have hname : Daily.ofPlace? ["2024-05-02.json"] = some c :=
    (Daily.ofPlace?_eq_some_iff (by decide)).2 ⟨hplace, h.named⟩
  have hdate : Daily.ofPlace? ["2024-05-02.json"] =
    some ⟨⟨2024, 5, 2, by decide, by decide, by decide⟩, ["2024-05-02.json"]⟩ := rfl
  rw [hdate] at hname
  cases hname
  exact absurd h.contained (by decide)

theorem mem_dailies_sampleArchive {c : Daily} :
    c ∈ dailies sampleArchive "cap" ["cap"] oneDay ↔ c ∈ [asDocument, asLines] := by
  have hfound : (((sampleArchive.filesUnder ["cap"]).filter
      (sampleArchive.opensDownTo "cap")).filterMap Daily.ofPlace?).filter
        (fun c => decide (oneDay.Contains c.date)) = [asLines, asDocument] := by rfl
  rw [dailies, List.mem_mergeSort, hfound]
  simp only [List.mem_cons, List.not_mem_nil, or_false]
  exact or_comm

/-- Both captures are read, the document first, and mending the broken one changes nothing. -/
theorem fetch_reads_daily_captures_of_one_day :
    let mended := sampleArchive.put ["cap", "2024-05-02.json"] (.file (some "[]"))
    sampleArchive.locate "cap" = .ok ["cap"] ∧
      sampleArchive.itemAt? ["cap"] = some (.folder .full) ∧
      fetch sampleArchive "cap" oneDay = .ok [Row.empty, Row.empty, Row.empty] ∧
      fetch mended "cap" oneDay = fetch sampleArchive "cap" oneDay := by
  intro mended
  obtain ⟨⟨cs, hcs, hmem, hrows⟩, -, -, -, -, hsame⟩ :=
    fetch_reads_daily_captures locate_cap (rfl : sampleArchive.itemAt? ["cap"] = _) oneDay
  have hlist : cs = [asDocument, asLines] := by
    refine Daily.eq_of_pairwise_before hcs (List.pairwise_pair.2 (.inr ⟨rfl, by decide⟩)) ?_
    exact fun c => (hmem c).trans ((mem_dailies locate_cap).symm.trans mem_dailies_sampleArchive)
  refine ⟨locate_cap, rfl, (hrows _).2 ⟨[[Row.empty], [Row.empty, Row.empty]], ?_, rfl⟩, ?_⟩
  · have hdocument : fetchFile sampleArchive (asDocument.path "cap") = .ok [Row.empty] := rfl
    have hlines : fetchFile sampleArchive (asLines.path "cap") = .ok [Row.empty, Row.empty] := rfl
    rw [hlist]
    exact .cons hdocument (.cons hlines .nil)
  · have hitem : ∀ p, mended.itemAt? p = if p = ["cap", "2024-05-02.json"]
        then some (.file (some "[]")) else sampleArchive.itemAt? p :=
      Disk.itemAt?_put (by decide) _
    refine hsame mended ⟨⟨rfl, fun p access => ?_⟩, fun c hc _ => ?_⟩
    · rw [hitem]
      split
      · rename_i hp
        rw [hp]
        exact iff_of_false nofun nofun
      · rfl
    · rw [hitem, if_neg]
      exact fun hp => place_ne_of_isFor_oneDay hc (List.append_cancel_left hp)

section LongPath

variable (hpath : sampleArchive.locate path = .ok ["cap"])
  (hlong : Files.maxPathLength < Text.byteLength (Files.Path.join path "sub").toList)
include hpath hlong

theorem dailies_eq_nil_of_long : dailies sampleArchive path ["cap"] oneDay = [] := by
  refine List.eq_nil_iff_forall_not_mem.2 fun c hc => ?_
  obtain ⟨hc, hway⟩ := (mem_dailies hpath).1 hc
  have hbelow : ∀ name, c.place ≠ ["sub", name] := by
    intro name he
    rw [he] at hway
    obtain ⟨⟨_, _, _, _, hlength⟩, -⟩ := Disk.wayOpen_cons.1 (Disk.wayOpen_cons.1 hway).2
    exact Nat.not_le.2 hlong hlength
  have hfile := Disk.mem_filesUnder.2 ⟨hc.isFor.named.place_ne_nil, hc.isFile⟩
  have hfiles : sampleArchive.filesUnder ["cap"] =
    [["2024-05-02.json"], asLines.place, asDocument.place] := rfl
  simp only [hfiles, List.mem_cons, List.not_mem_nil, or_false] at hfile
  rcases hfile with h | h | h
  · exact place_ne_of_isFor_oneDay hc.isFor h
  · exact hbelow _ h
  · exact hbelow _ h

theorem fetchFile_of_long {c : Daily} {name : String} (hplace : c.place = ["sub", name])
    (hnames : ∀ n ∈ c.place, Files.IsName n) :
    fetchFile sampleArchive (c.path path) = .error (.file .nameTooLong) := by
  obtain ⟨hnul, -, hne, -⟩ := Disk.locate_eq_ok_iff.1 hpath
  have hnul' := Files.nul_not_mem_joinAll hnames hne hnul
  have hlen : Files.maxPathLength < Text.byteLength (c.path path).toList := by
    rw [hplace] at hnames
    have hne' := Files.join_ne_empty hne (hnames "sub" List.mem_cons_self)
    rw [Daily.path, hplace]
    exact Nat.lt_of_lt_of_le hlong (Files.byteLength_le_joinAll
      (fun n hn => hnames n (List.mem_cons_of_mem "sub" hn)) hne')
  unfold fetchFile Disk.read Disk.item
  rw [Daily.path] at hlen ⊢
  rw [Disk.locate_of_too_long hnul' hlen]
  rfl

end LongPath

/-- A path to the folder that leaves no room for the names in it. -/
def longPath : String := "cap" ++ String.ofList (List.replicate 4090 '/')

theorem locate_longPath : sampleArchive.locate longPath = .ok ["cap"] :=
  Disk.locate_slashes locate_cap rfl (by decide)

theorem join_longPath_long :
    Files.maxPathLength < Text.byteLength (Files.Path.join longPath "sub").toList := by
  have hne := (Disk.locate_eq_ok_iff.1 locate_longPath).2.2.1
  have hlen : ∀ n, Text.byteLength ("cap" ++ String.ofList (List.replicate n '/')).toList =
      3 + n := by
    intro n
    simp only [String.toList_append, String.toList_ofList, Text.byteLength_append,
      Text.byteLength_replicate]
    exact congrArg (3 + ·) (Nat.mul_one n)
  have hle := Files.byteLength_le_join hne (by decide : Files.IsName "sub")
  rw [longPath, hlen] at hle
  exact Nat.lt_of_lt_of_le (by decide) hle

theorem eligible_asDocument : asDocument.Eligible sampleArchive ["cap"] oneDay :=
  ((mem_dailies locate_cap).1 (mem_dailies_sampleArchive.2 List.mem_cons_self)).1

/-- A capture in a folder that cannot be listed or passed. -/
def shutArchive : Disk :=
  ⟨[], [(["cap"], .folder .full), (["cap", "sub"], .folder ⟨false, false⟩),
    (["cap", "sub", "2024-05-01.json"], .file (some "[{}]"))], by decide, by decide⟩

theorem dailies_shutArchive : dailies shutArchive "cap" ["cap"] oneDay = [] := by
  have hnone : (shutArchive.filesUnder ["cap"]).filter (shutArchive.opensDownTo "cap") = [] := rfl
  rw [dailies, hnone]
  exact List.mergeSort_nil

/-- A folder whose path is too long, or that cannot be listed, is passed over, though a capture in
it cannot be read. -/
theorem fetch_passes_over_hidden_captures :
    (let path := "cap" ++ String.ofList (List.replicate 4090 '/')
    sampleArchive.locate path = .ok ["cap"] ∧
      sampleArchive.itemAt? ["cap"] = some (.folder .full) ∧
      asDocument.Eligible sampleArchive ["cap"] oneDay ∧
      fetchFile sampleArchive (asDocument.path path) = .error (.file .nameTooLong) ∧
      fetch sampleArchive path oneDay = .ok []) ∧
    shutArchive.locate "cap" = .ok ["cap"] ∧
      shutArchive.itemAt? ["cap"] = some (.folder .full) ∧
      asDocument.Eligible shutArchive ["cap"] oneDay ∧
      fetchFile shutArchive (asDocument.path "cap") = .error (.file .accessDenied) ∧
      fetch shutArchive "cap" oneDay = .ok [] := by
  have hfetch : fetch sampleArchive longPath oneDay = .ok [] := by
    rw [fetch_of_folder locate_longPath rfl,
      dailies_eq_nil_of_long locate_longPath join_longPath_long]
    rfl
  have hshut : fetch shutArchive "cap" oneDay = .ok [] := by
    have hlocate : shutArchive.locate "cap" = .ok ["cap"] := rfl
    rw [fetch_of_folder hlocate (rfl : shutArchive.itemAt? ["cap"] = some (.folder .full)),
      dailies_shutArchive]
    rfl
  exact ⟨⟨locate_longPath, rfl, eligible_asDocument,
    fetchFile_of_long locate_longPath join_longPath_long rfl eligible_asDocument.isName, hfetch⟩,
    rfl, rfl, ⟨eligible_asDocument.isFor, _, rfl⟩, rfl, hshut⟩

end CacheActivity.Capture
