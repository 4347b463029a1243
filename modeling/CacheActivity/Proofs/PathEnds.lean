import CacheActivity.Proofs.ExportPaths
import Mathlib.Data.List.Induction

/-!
# Ends of paths

What stands behind the last slash of a path (`lastPiece`) is the name of the place that the path
leads to, or that place is a folder (`ordinary_or_folder`). So a write under one name leaves what
stands under another as it is (`keeps_of_write`). And a path that leads somewhere has all its
folders, so making them changes nothing (`makeFoldersOf_eq_self`).
-/

namespace CacheActivity.Files

namespace Path

variable {path folder name : String} {cs : List Char}

/-- What stands behind the last slash of a path. -/
def lastPiece (path : String) : String :=
  String.ofList (path.toList.reverse.takeWhile (· ≠ '/')).reverse

theorem slash_not_mem_lastPiece (path : String) : '/' ∉ (lastPiece path).toList := by
  rw [lastPiece, String.toList_ofList, List.mem_reverse]
  intro hm
  simpa using List.all_eq_true.1 List.all_takeWhile _ hm

theorem exists_folder (path : String) :
    ∃ folder, IsFolder folder ∧ path = folder ++ lastPiece path := by
  have hsplit := List.takeWhile_append_dropWhile (p := (· ≠ '/')) (l := path.toList.reverse)
  have hhead := List.head?_dropWhile_not (· ≠ '/') path.toList.reverse
  refine ⟨String.ofList (path.toList.reverse.dropWhile (· ≠ '/')).reverse, ?_, ?_⟩
  · cases hback : path.toList.reverse.dropWhile (· ≠ '/') with
    | nil => exact .inl rfl
    | cons c back =>
      rw [hback] at hhead
      obtain rfl : c = '/' := by simpa using hhead
      exact .inr (by simp)
  · rw [lastPiece, ← String.ofList_append, ← List.reverse_append, hsplit, List.reverse_reverse,
      String.ofList_toList]

/-- A text without slashes makes the last piece longer. -/
theorem lastPiece_append (path : String) (h : '/' ∉ name.toList) :
    lastPiece (path ++ name) = lastPiece path ++ name := by
  rw [lastPiece, lastPiece, String.toList_append, List.reverse_append,
    List.takeWhile_append_of_pos (ne_of_mem_reverse h), List.reverse_append, List.reverse_reverse,
    String.ofList_append, String.ofList_toList]

theorem lastPiece_of_isFolder (h : IsFolder folder) : lastPiece folder = "" := by
  rcases h with rfl | hlast
  · rfl
  · obtain ⟨cs, hcs⟩ := List.getLast?_eq_some_iff.1 hlast
    rw [lastPiece, hcs]
    simp

theorem lastPiece_join (folder : String) (h : IsName name) :
    lastPiece (join folder name) = name := by
  have hbehind (front : String) (hfront : IsFolder front) : lastPiece (front ++ name) = name := by
    rw [lastPiece_append front h.2.1, lastPiece_of_isFolder hfront, String.empty_append]
  unfold join
  rw [h.not_isAbsolute, Bool.false_or]
  split
  · exact (String.empty_append (s := name)) ▸ hbehind "" (.inl rfl)
  split
  · rename_i hlast
    exact hbehind folder (.inr hlast)
  · exact hbehind (folder ++ "/") (.inr (by simp))

/-- Nothing is dropped from the end of a path but slashes and dots behind them. -/
theorem dropTrailing_eq_self_or (back : List Char) :
    dropTrailing back = back ∨ back.takeWhile (· ≠ '/') ∈ [[], ['.']] := by
  fun_cases dropTrailing back with
  | case1 back => exact .inr (by simp)
  | case2 back => exact .inr (by simp)
  | case3 => exact .inl rfl

/-- A path without a name ends with a slash or with dots. -/
theorem lastPiece_of_no_name (h : name? cs = none) :
    lastPiece (String.ofList cs) ∈ ["", ".", ".."] := by
  have hdots : (cs.reverse.takeWhile (· ≠ '/')).reverse ∈ [[], ['.'], ['.', '.']] := by
    rcases dropTrailing_eq_self_or cs.reverse with hself | hend
    · simp only [name?, splitName, hself] at h
      split_ifs at h with hname
      simpa only [List.mem_cons, List.not_mem_nil, or_false] using hname
    · rcases List.mem_cons.1 hend with hnil | hdot
      · rw [hnil]
        exact List.mem_cons_self
      · rw [List.mem_singleton.1 hdot]
        exact List.mem_cons_of_mem _ List.mem_cons_self
  rw [lastPiece, String.toList_ofList]
  exact List.mem_map_of_mem (f := String.ofList) hdots

theorem lastPiece_withExtension (base : String) {e : String} (he : '/' ∉ e.toList) :
    lastPiece (withExtension base e) ∈ ["", ".", ".."] ∨
      ∃ front, lastPiece (withExtension base e) = front ++ "." ++ e := by
  simp only [withExtension]
  split
  · rename_i name hname
    have hslash : '/' ∉ ("." ++ e).toList := by simpa using he
    refine .inr ⟨lastPiece (String.ofList
      ((splitName (dropExtension base)).1 ++ (splitExtension name).1)), ?_⟩
    rw [String.append_assoc, lastPiece_append _ hslash, String.append_assoc]
  · rename_i hnone
    exact .inl (lastPiece_of_no_name hnone)

end Path

namespace Disk

variable {d d' d'' : Disk} {place : Place} {path text name : String}

/-- A path leads to its last piece, if that is a name, and to a folder otherwise. -/
theorem ordinary_or_folder (hrooted : d.Rooted) (h : d.locate path = .ok place) :
    (∃ above, place = above ++ [Path.lastPiece path]) ∨ d.HasFolder place := by
  obtain ⟨folder, hfolder, hpath⟩ := Path.exists_folder path
  have hslash := Path.slash_not_mem_lastPiece path
  generalize Path.lastPiece path = last at hpath hslash ⊢
  subst hpath
  by_cases hdots : last ∈ ["", ".", ".."]
  · obtain ⟨p, hstep⟩ := exists_step_of_folder hfolder hslash h
    exact .inr (hasFolder_of_step hrooted (List.mem_map_of_mem (f := String.toList) hdots) hstep)
  · exact .inl (exists_above_of_locate hfolder ⟨hdots, hslash⟩ h)

/-- That a later disk has the same folders, and the same under a name in each of them. -/
structure Keeps (name : String) (d d' : Disk) : Prop where
  folders : SameFolders d d'
  items : ∀ above, d'.itemAt? (above ++ [name]) = d.itemAt? (above ++ [name])

theorem Keeps.refl (name : String) (d : Disk) : Keeps name d d := ⟨.refl d, fun _ => rfl⟩

theorem Keeps.trans (h : Keeps name d d') (h' : Keeps name d' d'') : Keeps name d d'' :=
  ⟨h.folders.trans h'.folders, fun above => (h'.items above).trans (h.items above)⟩

theorem keeps_of_write (hrooted : d.Rooted) (h : d.write path text = .ok d')
    (hne : Path.lastPiece path ≠ name) : Keeps name d d' := by
  refine ⟨sameFolders_of_write h, fun above => ?_⟩
  obtain ⟨place, hlocate, hproper, hitem, rfl⟩ := exists_place_of_write h
  obtain ⟨front, rfl⟩ := (ordinary_or_folder hrooted hlocate).resolve_right hitem
  rw [itemAt?_put hproper, if_neg]
  intro he
  exact hne (List.singleton_inj.1 (List.append_inj' he rfl).2).symm

theorem exists_write_of_file (text : String) {text? : Option String}
    (h : d.item path = .ok (.file text?)) : ∃ d', d.write path text = .ok d' := by
  obtain ⟨place, hlocate, hplace⟩ := exists_place_of_item h
  exact ⟨d.put place (.file (some text)), by
    simp only [write, hlocate, bind, Except.bind, hplace]⟩

theorem Keeps.item_eq {item : Item} (h : Keeps name d d') (hrooted : d.Rooted)
    (hlast : Path.lastPiece path = name) (hitem : d.item path = .ok item) :
    d'.item path = .ok item := by
  obtain ⟨place, hlocate, hplace⟩ := exists_place_of_item hitem
  have hplace' : d'.itemAt? place = some item := by
    rcases ordinary_or_folder hrooted hlocate with ⟨above, rfl⟩ | ⟨access, hfolder⟩
    · rw [hlast] at hplace ⊢
      rw [h.items above, hplace]
    · obtain rfl : Item.folder access = item := Option.some.inj (hfolder.symm.trans hplace)
      exact (h.folders.folders place access).2 hfolder
  simp only [Disk.item, h.folders.locate hlocate, bind, Except.bind, hplace']

theorem rooted_iff (d : Disk) :
    d.Rooted ↔ ∀ x ∈ d.items, d.HasFolder x.1 → d.HasFolder x.1.dropLast := by
  constructor
  · exact fun hrooted x _ => hrooted x.1
  · intro hall p hp
    cases p with
    | nil => exact hp
    | cons name p =>
      obtain ⟨access, hitem⟩ := hp
      exact hall _ ((itemAt?_eq_some_iff (List.cons_ne_nil _ _)).1 hitem) ⟨access, hitem⟩

instance : DecidablePred Rooted := fun d => decidable_of_iff' _ d.rooted_iff

/-- Entering what a path leads through makes nothing. -/
theorem enter_of_step {q : Place} {piece : List Char} (h : d.step place piece = .ok q)
    (hfolder : d.HasFolder q) : d.enter place piece = .ok (d, q) := by
  obtain ⟨access, hitem⟩ := hfolder
  simp only [enter, h, bind, Except.bind, hitem]

/-- A walk starts from a folder. -/
theorem exists_step_of_walk {q : Place} {piece : List Char} {pieces : List (List Char)}
    (h : d.walk place (piece :: pieces) = .ok q) :
    d.HasFolder place ∧ ∃ p, d.step place piece = .ok p ∧ d.walk p pieces = .ok q := by
  rw [← List.singleton_append, walk_append, walk_singleton] at h
  obtain ⟨p, hstep, hrest⟩ := bind_eq_ok h
  exact ⟨(cases_of_step hstep).1, p, hstep, hrest⟩

/-- Pieces that lead nowhere can be left out of a walk. -/
theorem walk_filter {q : Place} {pieces : List (List Char)} (h : d.walk place pieces = .ok q) :
    d.walk place (pieces.filter fun p => p ≠ [] ∧ p ≠ ['.']) = .ok q := by
  induction pieces generalizing place with
  | nil => exact h
  | cons piece pieces ih =>
    obtain ⟨-, p, hstep, hrest⟩ := exists_step_of_walk h
    by_cases hstay : piece ∈ [[], ['.']]
    · obtain ⟨-, ⟨-, rfl⟩ | ⟨rfl, -⟩ | ⟨hname, -⟩⟩ := cases_of_step hstep
      · rw [List.filter_cons_of_neg (by simpa [or_iff_not_imp_left] using hstay)]
        exact ih hrest
      · exact absurd hstay (by decide)
      · exact absurd (List.mem_append_left [['.', '.']] hstay) hname
    · rw [List.filter_cons_of_pos (by simpa using hstay), ← List.singleton_append, walk_append,
        walk_singleton, hstep]
      exact ih hrest

/-- A walk to a folder enters what is there. -/
theorem foldlM_enter_of_walk {q : Place} {pieces : List (List Char)}
    (h : d.walk place pieces = .ok q) (hfolder : d.HasFolder q) :
    pieces.foldlM (fun x piece => x.1.enter x.2 piece) (d, place) = .ok (d, q) := by
  induction pieces generalizing place with
  | nil =>
    cases h
    rfl
  | cons piece pieces ih =>
    obtain ⟨-, p, hstep, hrest⟩ := exists_step_of_walk h
    have hp : d.HasFolder p := by
      cases pieces with
      | nil => exact (Except.ok.inj hrest).symm ▸ hfolder
      | cons next pieces => exact (exists_step_of_walk hrest).1
    rw [List.foldlM_cons, enter_of_step hstep hp]
    exact ih hrest

/-- A path that leads somewhere needs no more folders. -/
theorem makeFoldersOf_eq_self (h : d.locate path = .ok place) : d.makeFoldersOf path = .ok d := by
  obtain ⟨-, -, -, hwalk⟩ := locate_eq_ok_iff.1 h
  have hnames := walk_filter hwalk
  unfold makeFoldersOf
  generalize hstart : (if Path.isAbsolute path then [] else d.here) = start at hwalk hnames ⊢
  have hfolder : d.HasFolder start := by
    have hne : Path.pieces path.toList ≠ [] := Text.splitAt_ne_nil _
    obtain ⟨piece, rest, hpieces⟩ := List.exists_cons_of_ne_nil hne
    exact (exists_step_of_walk (hpieces ▸ hwalk)).1
  generalize ((Path.pieces path.toList).filter fun p => p ≠ [] ∧ p ≠ ['.']) = names at hnames ⊢
  obtain ⟨above, hwalk, access, hitem⟩ :
      ∃ above, d.walk start names.dropLast = .ok above ∧ d.HasFolder above := by
    by_cases hne : names = []
    · exact ⟨start, by rw [hne]; rfl, hfolder⟩
    · rw [← List.dropLast_concat_getLast hne, walk_append] at hnames
      obtain ⟨above, habove, hlast⟩ := bind_eq_ok hnames
      exact ⟨above, habove, (exists_step_of_walk hlast).1⟩
  simp only [foldlM_enter_of_walk hwalk ⟨access, hitem⟩, bind, Except.bind, hitem]

theorem Rooted.put_folder (hrooted : d.Rooted) (access : Access)
    (hup : d.HasFolder place.dropLast) : (d.put place (.folder access)).Rooted := by
  by_cases hproper : place.IsProper
  · have hmade (p : Place) :
        (d.put place (.folder access)).HasFolder p ↔ p = place ∨ d.HasFolder p := by
      unfold HasFolder
      rw [itemAt?_put hproper]
      split <;> simp [*]
    intro p hp
    rw [hmade] at hp ⊢
    rcases hp with rfl | hp
    · exact .inr hup
    · exact .inr (hrooted p hp)
  · rwa [put, dif_neg hproper]

/-- A folder is only made in a folder. -/
theorem rooted_of_enter {q : Place} {piece : List Char} (hrooted : d.Rooted)
    (h : d.enter place piece = .ok (d', q)) : d'.Rooted := by
  obtain ⟨next, hstep, hmade⟩ := bind_eq_ok h
  split at hmade
  · cases hmade
    refine hrooted.put_folder _ ?_
    obtain ⟨hfolder, ⟨-, rfl⟩ | ⟨-, rfl⟩ | ⟨-, -, rfl⟩⟩ := cases_of_step hstep
    · exact hrooted _ hfolder
    · exact hrooted _ (hrooted _ hfolder)
    · rwa [List.dropLast_concat]
  · cases hmade
    exact hrooted

theorem rooted_of_makeFoldersOf (hrooted : d.Rooted) (h : d.makeFoldersOf path = .ok d') :
    d'.Rooted := by
  obtain ⟨⟨made, place⟩, hmade, hlast⟩ := bind_eq_ok h
  have hd : made = d' := by
    dsimp only at hlast
    split at hlast
    · cases hlast
    · exact Except.ok.inj hlast
  rw [← hd]
  exact invariant_of_foldlM (P := fun x => x.1.Rooted) hrooted
    (fun x y _ hx hy => rooted_of_enter hx hy) hmade

end Disk

end CacheActivity.Files
