import CacheActivity.Files.Disk

/-!
# Places below a folder

Joining names to the path of a folder leads down from its place (`locate_joinAll`), as long as there
are folders all the way that let pass and the path does not get too long. A folder that cannot be
listed, or whose path is too long or does not lead there, hides what is in it, so a way is open just
where all folders on it can be listed by their paths (`opensDownTo_iff`).
-/

namespace CacheActivity.Files

variable {d : Disk} {folder name : String} {place : Place}

theorem toList_not_mem (h : name ∉ ["", ".", ".."]) : name.toList ∉ [[], ['.'], ['.', '.']] := by
  intro hm
  refine h ?_
  have hmap := List.mem_map_of_mem (f := String.ofList) hm
  rwa [String.ofList_toList] at hmap

theorem IsName.toList_not_mem (h : IsName name) : name.toList ∉ [[], ['.'], ['.', '.']] :=
  Files.toList_not_mem h.1

theorem IsName.toList_ne_nil (h : IsName name) : name.toList ≠ [] :=
  fun hnil => h.toList_not_mem (hnil ▸ List.mem_cons_self)

theorem IsName.not_isAbsolute (h : IsName name) : Path.isAbsolute name = false := by
  refine decide_eq_false fun hhead => h.2.1 ?_
  exact List.mem_of_head? hhead

theorem IsName.name?_eq (h : IsName name) : Path.name? name.toList = some name.toList :=
  Path.name?_of_not_mem h.2.1 h.toList_not_mem

/-- The stem and the extension of a name have a dot between them, which is its last one. -/
theorem IsName.stem?_extension?_iff (h : IsName name) {stem extension : String} :
    Path.stem? name = some stem ∧ Path.extension? name = some extension ↔
      name = stem ++ "." ++ extension ∧ stem ≠ "" ∧ '.' ∉ extension.toList := by
  have hsplit : Path.stem? name = some stem ∧ Path.extension? name = some extension ↔
      Path.splitExtension name.toList = (stem.toList, some extension.toList) := by
    unfold Path.stem? Path.extension?
    rw [h.name?_eq, Option.map_some, Option.bind_some]
    cases Path.splitExtension name.toList with
    | mk s e => cases e <;> simp [← String.toList_inj]
  rw [hsplit, Path.splitExtension_eq_some_iff, ← String.toList_inj]
  simp

/-- A slash stands between a folder and a name, unless the folder ends with one. -/
theorem toList_join (hf : folder ≠ "") (h : IsName name) :
    (Path.join folder name).toList = folder.toList ++
      (if folder.toList.getLast? = some '/' then [] else ['/']) ++ name.toList := by
  unfold Path.join
  rw [h.not_isAbsolute, Bool.false_or, if_neg (by simpa using hf)]
  split <;> simp

theorem join_ne_empty (hf : folder ≠ "") (h : IsName name) : Path.join folder name ≠ "" := by
  intro he
  have hlist := toList_join hf h
  rw [he] at hlist
  exact h.toList_ne_nil (List.append_eq_nil_iff.1 hlist.symm).2

theorem isAbsolute_eq_of_append {path : String} {cs : List Char} (hf : folder ≠ "")
    (h : path.toList = folder.toList ++ cs) : Path.isAbsolute path = Path.isAbsolute folder := by
  unfold Path.isAbsolute
  rw [h]
  cases hl : folder.toList with
  | nil => exact absurd (String.toList_eq_nil_iff.1 hl) hf
  | cons c cs => rfl

theorem isAbsolute_join (hf : folder ≠ "") (h : IsName name) :
    Path.isAbsolute (Path.join folder name) = Path.isAbsolute folder :=
  isAbsolute_eq_of_append hf ((toList_join hf h).trans (List.append_assoc ..))

theorem nul_not_mem_join (hf : folder ≠ "") (h : IsName name) (hnul : '\x00' ∉ folder.toList) :
    '\x00' ∉ (Path.join folder name).toList := by
  rw [toList_join hf h, List.mem_append, List.mem_append]
  rintro ((hm | hm) | hm)
  · exact hnul hm
  · split at hm <;> simp at hm
  · exact h.2.2.1 hm

theorem byteLength_le_join (hf : folder ≠ "") (h : IsName name) :
    Text.byteLength folder.toList + Text.byteLength name.toList ≤
      Text.byteLength (Path.join folder name).toList := by
  rw [toList_join hf h, Text.byteLength_append, Text.byteLength_append]
  omega

variable (hp : ∀ name ∈ place, IsName name)
include hp

theorem nul_not_mem_joinAll (hf : folder ≠ "") (hnul : '\x00' ∉ folder.toList) :
    '\x00' ∉ (Path.joinAll folder place).toList := by
  induction place generalizing folder with
  | nil => exact hnul
  | cons name place ih =>
    have hn := hp name List.mem_cons_self
    exact ih (fun n hm => hp n (List.mem_cons_of_mem _ hm)) (join_ne_empty hf hn)
      (nul_not_mem_join hf hn hnul)

theorem byteLength_le_joinAll (hf : folder ≠ "") :
    Text.byteLength folder.toList ≤ Text.byteLength (Path.joinAll folder place).toList := by
  induction place generalizing folder with
  | nil => exact Nat.le_refl _
  | cons name place ih =>
    have hn := hp name List.mem_cons_self
    exact Nat.le_trans (Nat.le_of_add_right_le (byteLength_le_join hf hn))
      (ih (fun n hm => hp n (List.mem_cons_of_mem _ hm)) (join_ne_empty hf hn))

omit hp

namespace Disk

theorem folderAt_eq_ok_iff {access : Access} :
    d.folderAt place = .ok access ↔ d.itemAt? place = some (.folder access) := by
  unfold folderAt
  split <;> simp_all

theorem step_name (h : IsName name) (d : Disk) (place : Place) :
    d.step place name.toList = d.folderAt place >>= fun access =>
      if access.passes then .ok (place ++ [name]) else .error .accessDenied := by
  have hdots := h.toList_not_mem
  simp only [List.mem_cons, List.not_mem_nil, or_false, not_or] at hdots
  obtain ⟨hnil, hdot, hback⟩ := hdots
  unfold step
  refine bind_congr fun access => ?_
  simp only [hnil, hdot, hback, if_false, Nat.not_lt.2 h.2.2.2, String.ofList_toList]
  cases access.passes <;> rfl

theorem step_nil (d : Disk) (place : Place) :
    d.step place [] = d.folderAt place >>= fun _ => .ok place := by
  simp only [step, if_true]

/-- A step stays in its folder, goes up from it, or goes down by a name. -/
theorem cases_of_step {piece : List Char} {next : Place} (h : d.step place piece = .ok next) :
    (∃ access, d.itemAt? place = some (.folder access)) ∧
      (piece ∈ [[], ['.']] ∧ next = place ∨ piece = ['.', '.'] ∧ next = place.dropLast ∨
        piece ∉ [[], ['.'], ['.', '.']] ∧ Text.byteLength piece ≤ maxNameLength ∧
          next = place ++ [String.ofList piece]) := by
  unfold step at h
  cases hfolder : d.folderAt place with
  | error fault =>
    rw [hfolder] at h
    cases h
  | ok access =>
    rw [hfolder] at h
    replace h : (if piece = [] then .ok place else _) = Except.ok next := h
    refine ⟨⟨access, folderAt_eq_ok_iff.1 hfolder⟩, ?_⟩
    repeat' split at h
    all_goals cases h
    · exact .inl (by simp [*])
    · exact .inl (by simp [*])
    · exact .inr (.inl ⟨‹_›, rfl⟩)
    · exact .inr (.inr ⟨by simp [*], Nat.not_lt.1 ‹_›, rfl⟩)

theorem walk_singleton (d : Disk) (place : Place) (piece : List Char) :
    d.walk place [piece] = d.step place piece := by
  unfold walk
  rw [List.foldlM_cons]
  exact bind_pure _

theorem walk_append (d : Disk) (place : Place) (ps qs : List (List Char)) :
    d.walk place (ps ++ qs) = d.walk place ps >>= fun p => d.walk p qs := List.foldlM_append

/-- Going on by a name comes last on the way along a joined path. -/
theorem walk_join (hf : folder ≠ "") (h : IsName name) (d : Disk) (place : Place) :
    d.walk place (Path.pieces (Path.join folder name).toList) =
      d.walk place (Path.pieces folder.toList) >>= fun p => d.step p name.toList := by
  have hname := Text.splitAt_of_not_mem h.2.1
  unfold Path.pieces
  rw [toList_join hf h]
  split
  · rename_i hlast
    obtain ⟨cs, hcs⟩ := List.getLast?_eq_some_iff.1 hlast
    rw [hcs, List.append_nil, List.append_assoc, List.singleton_append,
      Text.splitAt_append_cons, Text.splitAt_append_cons, hname, walk_append, walk_append,
      bind_assoc]
    refine bind_congr fun p => ?_
    -- The empty piece behind the last slash asks for the folder that the name asks for too.
    rw [walk_singleton, Text.splitAt, walk_singleton, step_nil, step_name h]
    cases hp : d.folderAt p with
    | error fault => rfl
    | ok _ => exact ((step_name h d p).trans (congrArg (· >>= _) hp)).symm
  · rw [List.append_assoc, List.singleton_append, Text.splitAt_append_cons, hname, walk_append]
    exact bind_congr fun p => walk_singleton d p name.toList

theorem locate_eq_ok_iff {path : String} : d.locate path = .ok place ↔
    '\x00' ∉ path.toList ∧ Text.byteLength path.toList ≤ maxPathLength ∧ path ≠ "" ∧
      d.walk (if Path.isAbsolute path then [] else d.here) (Path.pieces path.toList) =
        .ok place := by
  unfold locate
  split
  · rename_i h
    simp only [reduceCtorEq, false_iff]
    exact fun h' => h'.1 (List.contains_iff_mem.1 h)
  split
  · rename_i h
    simp only [reduceCtorEq, false_iff]
    exact fun h' => absurd h'.2.1 (Nat.not_le.2 h)
  split
  · rename_i h
    simp only [reduceCtorEq, false_iff]
    exact fun h' => h'.2.2.1 h
  · rename_i hnul hlen hne
    exact ⟨fun h => ⟨fun hm => hnul (List.contains_iff_mem.2 hm), Nat.not_lt.1 hlen, hne, h⟩,
      fun h => h.2.2.2⟩

/-- A name leads down from a folder, if that lets pass. -/
theorem locate_join {access : Access} (hn : IsName name) (h : d.locate folder = .ok place)
    (hfolder : d.itemAt? place = some (.folder access))
    (hlen : Text.byteLength (Path.join folder name).toList ≤ maxPathLength) :
    d.locate (Path.join folder name) =
      if access.passes then .ok (place ++ [name]) else .error .accessDenied := by
  obtain ⟨hnul, -, hne, hwalk⟩ := locate_eq_ok_iff.1 h
  have hnul' := nul_not_mem_join hne hn hnul
  unfold locate
  rw [if_neg fun h => hnul' (List.contains_iff_mem.1 h), if_neg (Nat.not_lt.2 hlen),
    if_neg (join_ne_empty hne hn), isAbsolute_join hne hn, walk_join hne hn, hwalk]
  show d.step place name.toList = _
  rw [step_name hn, folderAt_eq_ok_iff.2 hfolder]
  rfl

/-- Slashes at the end of a folder's path lead no further. -/
theorem locate_slashes {access : Access} (h : d.locate folder = .ok place)
    (hfolder : d.itemAt? place = some (.folder access)) {n : Nat}
    (hlen : Text.byteLength folder.toList + n ≤ maxPathLength) :
    d.locate (folder ++ String.ofList (List.replicate n '/')) = .ok place := by
  obtain ⟨hnul, -, hne, hwalk⟩ := locate_eq_ok_iff.1 h
  have hlist : (folder ++ String.ofList (List.replicate n '/')).toList =
      folder.toList ++ List.replicate n '/' := by simp
  have hslashes : ∀ n, d.walk place (List.replicate n []) = .ok place := by
    intro n
    induction n with
    | zero => rfl
    | succ n ih =>
      rw [List.replicate_succ, ← List.singleton_append, walk_append, walk_singleton, step_nil,
        folderAt_eq_ok_iff.2 hfolder]
      exact ih
  refine locate_eq_ok_iff.2 ⟨?_, ?_, ?_, ?_⟩
  · rw [hlist, List.mem_append]
    rintro (hm | hm)
    · exact hnul hm
    · cases List.eq_of_mem_replicate hm
  · rw [hlist, Text.byteLength_append, Text.byteLength_replicate]
    exact (Nat.mul_one n).symm ▸ hlen
  · intro he
    rw [he] at hlist
    exact hne (String.toList_eq_nil_iff.1 (List.append_eq_nil_iff.1 hlist.symm).1)
  · unfold Path.pieces at hwalk ⊢
    rw [isAbsolute_eq_of_append hne hlist, hlist, Text.splitAt_append_replicate, walk_append, hwalk]
    exact hslashes n

theorem locate_of_too_long {path : String} (hnul : '\x00' ∉ path.toList)
    (hlen : maxPathLength < Text.byteLength path.toList) :
    d.locate path = .error .nameTooLong := by
  unfold locate
  rw [if_neg fun h => hnul (List.contains_iff_mem.1 h), if_pos hlen]

theorem find?_eq_some_iff {path : String} {item : Item} (h : d.locate path = .ok place) :
    d.find? path = some item ↔ d.itemAt? place = some item := by
  unfold find? Disk.item
  rw [h]
  cases hitem : d.itemAt? place <;> simp [bind, Except.bind, Except.toOption, hitem]

theorem find?_of_locate_eq_error {path : String} {fault : FileFault}
    (h : d.locate path = .error fault) : d.find? path = none := by
  unfold find? item
  rw [h]
  rfl

theorem lists_iff {path : String} (h : d.locate path = .ok place) : d.lists path = true ↔
    ∃ access, d.itemAt? place = some (.folder access) ∧ access.lists = true := by
  simp only [← find?_eq_some_iff h, lists]
  split <;> simp_all

theorem lists_of_locate_eq_error {path : String} {fault : FileFault}
    (h : d.locate path = .error fault) : d.lists path = false := by
  rw [lists, find?_of_locate_eq_error h]

/-- Whether paths cannot go on through what is at a place. -/
def isShut (d : Disk) (place : Place) : Bool :=
  match d.itemAt? place with
  | some (.folder access) => !access.passes
  | _ => false

theorem isShut_iff : d.isShut place = true ↔
    ∃ access, d.itemAt? place = some (.folder access) ∧ access.passes = false := by
  unfold isShut
  split <;> simp_all

/-- That a way down from a folder leads through folders only, each of which can be listed and has a
path that is not too long, and that paths can go on through all of them but the last. -/
def WayOpen (d : Disk) (folder : String) (root place : Place) : Prop :=
  ∀ n < place.length, ∃ access, d.itemAt? (root ++ place.take n) = some (.folder access) ∧
    access.lists = true ∧ (n + 1 < place.length → access.passes = true) ∧
    Text.byteLength (Path.joinAll folder (place.take n)).toList ≤ maxPathLength

theorem wayOpen_nil (d : Disk) (folder : String) (root : Place) : d.WayOpen folder root [] :=
  fun _ hn => absurd hn (Nat.not_lt_zero _)

theorem wayOpen_cons {root : Place} :
    d.WayOpen folder root (name :: place) ↔
      (∃ access, d.itemAt? root = some (.folder access) ∧ access.lists = true ∧
        (place ≠ [] → access.passes = true) ∧
        Text.byteLength folder.toList ≤ maxPathLength) ∧
        d.WayOpen (Path.join folder name) (root ++ [name]) place := by
  unfold WayOpen
  rw [List.length_cons, Nat.forall_lt_succ_left]
  refine and_congr ?_ (forall_congr' fun n => forall_congr' fun _ => ?_)
  · rw [List.take_zero, List.append_nil, Nat.add_lt_add_iff_right, List.length_pos_iff]
    rfl
  · rw [List.take_succ_cons, List.append_cons, Nat.add_lt_add_iff_right]
    rfl

theorem exists_locate_of_opensDownTo (h : d.opensDownTo folder (name :: place) = true) :
    ∃ root, d.locate folder = .ok root := by
  cases hlocate : d.locate folder with
  | ok root => exact ⟨root, rfl⟩
  | error fault =>
    rw [opensDownTo, lists_of_locate_eq_error hlocate] at h
    cases h

/-- All folders on a way can be listed by their paths just where the way is open. -/
theorem opensDownTo_iff {root : Place} (hp : ∀ name ∈ place, IsName name)
    (h : d.locate folder = .ok root) :
    d.opensDownTo folder place = true ↔ d.WayOpen folder root place := by
  induction place generalizing folder root with
  | nil => exact iff_of_true rfl (wayOpen_nil d folder root)
  | cons name place ih =>
    have hn := hp name List.mem_cons_self
    have hplace : ∀ name ∈ place, IsName name := fun n hm => hp n (List.mem_cons_of_mem _ hm)
    obtain ⟨hnul, hlen, hne, -⟩ := locate_eq_ok_iff.1 h
    rw [opensDownTo, wayOpen_cons, Bool.and_eq_true, lists_iff h]
    cases place with
    | nil => simp [opensDownTo, wayOpen_nil, hlen]
    | cons below place =>
      constructor
      · rintro ⟨⟨access, hfolder, hlists⟩, hbelow⟩
        -- The way goes on below, so the path of the next folder leads there.
        obtain ⟨q, hq⟩ := exists_locate_of_opensDownTo hbelow
        have hlocate := locate_join hn h hfolder (locate_eq_ok_iff.1 hq).2.1
        cases hpass : access.passes with
        | false =>
          rw [hpass] at hlocate
          cases hlocate.symm.trans hq
        | true =>
          rw [hpass] at hlocate
          exact ⟨⟨access, hfolder, hlists, fun _ => hpass, hlen⟩, (ih hplace hlocate).1 hbelow⟩
      · rintro ⟨⟨access, hfolder, hlists, hpass, -⟩, hbelow⟩
        obtain ⟨⟨_, _, _, _, hjoin⟩, -⟩ := wayOpen_cons.1 hbelow
        have hlocate := locate_join hn h hfolder hjoin
        rw [if_pos (hpass (List.cons_ne_nil _ _))] at hlocate
        exact ⟨⟨access, hfolder, hlists⟩, (ih hplace hlocate).2 hbelow⟩

/-- An open way leads to its end, if the path of that is not too long and the last folder lets
pass. -/
theorem locate_joinAll {root : Place} (hp : ∀ name ∈ place, IsName name) (hne : place ≠ [])
    (h : d.locate folder = .ok root) (hway : d.WayOpen folder root place) :
    d.locate (Path.joinAll folder place) =
      if maxPathLength < Text.byteLength (Path.joinAll folder place).toList
      then .error .nameTooLong
      else if d.isShut (root ++ place.dropLast) then .error .accessDenied
      else .ok (root ++ place) := by
  induction place generalizing folder root with
  | nil => exact absurd rfl hne
  | cons name place ih =>
    obtain ⟨hnul, -, hfolder, -⟩ := locate_eq_ok_iff.1 h
    obtain ⟨⟨access, hitem, -, hpass, -⟩, hway⟩ := wayOpen_cons.1 hway
    have hn := hp name List.mem_cons_self
    have hplace : ∀ name ∈ place, IsName name := fun n hm => hp n (List.mem_cons_of_mem _ hm)
    by_cases hjoin : Text.byteLength (Path.join folder name).toList ≤ maxPathLength
    · have hlocate := locate_join hn h hitem hjoin
      cases place with
      | nil =>
        have hlast : d.locate (Path.joinAll folder [name]) = _ := hlocate
        have hlength : ¬maxPathLength < Text.byteLength (Path.joinAll folder [name]).toList :=
          Nat.not_lt.2 hjoin
        have hshut : d.isShut (root ++ [name].dropLast) = !access.passes := by
          simp [isShut, hitem]
        rw [if_neg hlength, hlast, hshut]
        cases access.passes <;> rfl
      | cons below place =>
        rw [if_pos (hpass (List.cons_ne_nil _ _))] at hlocate
        rw [List.dropLast_cons_cons, List.append_cons, List.append_cons root name (below :: place)]
        exact ih hplace (List.cons_ne_nil _ _) hlocate hway
    · have hle := byteLength_le_joinAll hplace (join_ne_empty hfolder hn)
      have hlong : maxPathLength < Text.byteLength (Path.joinAll folder (name :: place)).toList :=
        Nat.lt_of_lt_of_le (Nat.not_le.1 hjoin) hle
      rw [if_pos hlong]
      exact locate_of_too_long (nul_not_mem_joinAll hp hfolder hnul) hlong

theorem itemAt?_eq_some_iff {p : Place} {item : Item} (hp : p ≠ []) :
    d.itemAt? p = some item ↔ (p, item) ∈ d.items := by
  have hlookup : d.itemAt? p = d.items.lookup p := by
    cases p with
    | nil => exact absurd rfl hp
    | cons name p => rfl
  rw [hlookup, List.lookup_eq_some_iff]
  constructor
  · rintro ⟨before, after, he, -⟩
    rw [he]
    exact List.mem_append_right _ List.mem_cons_self
  · intro hm
    obtain ⟨before, after, he⟩ := List.append_of_mem hm
    refine ⟨before, after, he, fun x hx => ?_⟩
    have hnodup := d.nodup
    rw [he, List.map_append, List.nodup_append] at hnodup
    have hne := hnodup.2.2 x.1 (List.mem_map_of_mem hx) p List.mem_cons_self
    simpa using hne.symm

theorem itemAt?_put (h : place.IsProper) (item : Item) (p : Place) :
    (d.put place item).itemAt? p = if p = place then some item else d.itemAt? p := by
  cases p with
  | nil => exact (if_neg fun he => h.1 he.symm).symm
  | cons name p =>
    have hp : name :: p ≠ [] := List.cons_ne_nil _ _
    refine Option.ext fun item' => ?_
    rw [itemAt?_eq_some_iff hp, put, dif_pos h, List.mem_append, List.mem_filter,
      List.mem_singleton, Prod.mk.injEq, decide_eq_true_eq]
    split
    · rename_i he
      simp [he, eq_comm]
    · rename_i he
      simp [he, itemAt?_eq_some_iff hp]

theorem wayToFile?_eq_some_iff {root : Place} {x : Place × Item} :
    wayToFile? root x = some place ↔
      (∃ text?, x.2 = .file text?) ∧ x.1 = root ++ place ∧ place ≠ [] := by
  obtain ⟨p, item⟩ := x
  cases item with
  | folder => simp [wayToFile?]
  | file text? =>
    have hcond : (root.isPrefixOf p && decide (root.length < p.length)) = true ↔
        ∃ below, p = root ++ below ∧ below ≠ [] := by
      rw [Bool.and_eq_true, List.isPrefixOf_iff_prefix, decide_eq_true_eq]
      constructor
      · rintro ⟨⟨below, rfl⟩, hlen⟩
        refine ⟨below, rfl, fun he => ?_⟩
        rw [he, List.append_nil] at hlen
        exact Nat.lt_irrefl _ hlen
      · rintro ⟨below, rfl, hne⟩
        refine ⟨⟨below, rfl⟩, ?_⟩
        rw [List.length_append]
        exact Nat.lt_add_of_pos_right (List.length_pos_iff.2 hne)
    rw [wayToFile?]
    split
    · rename_i h
      obtain ⟨below, rfl, hne⟩ := hcond.1 h
      rw [List.drop_left, Option.some_inj]
      constructor
      · rintro rfl
        exact ⟨⟨text?, rfl⟩, rfl, hne⟩
      · rintro ⟨-, he, -⟩
        exact List.append_cancel_left he
    · rename_i h
      refine iff_of_false (by simp) fun h' => h (hcond.2 ⟨place, h'.2⟩)

theorem mem_filesUnder {root : Place} : place ∈ d.filesUnder root ↔
    place ≠ [] ∧ ∃ text?, d.itemAt? (root ++ place) = some (.file text?) := by
  unfold filesUnder
  rw [List.mem_filterMap]
  constructor
  · rintro ⟨⟨p, item⟩, hm, he⟩
    obtain ⟨⟨text?, rfl⟩, rfl, hne⟩ := wayToFile?_eq_some_iff.1 he
    have happ : root ++ place ≠ [] := fun he => hne (List.append_eq_nil_iff.1 he).2
    exact ⟨hne, text?, (itemAt?_eq_some_iff happ).2 hm⟩
  · rintro ⟨hne, text?, hitem⟩
    have happ : root ++ place ≠ [] := fun he => hne (List.append_eq_nil_iff.1 he).2
    exact ⟨(root ++ place, .file text?), (itemAt?_eq_some_iff happ).1 hitem,
      wayToFile?_eq_some_iff.2 ⟨⟨text?, rfl⟩, rfl, hne⟩⟩

theorem isName_of_itemAt? {p : Place} {item : Item} (h : d.itemAt? p = some item) :
    ∀ name ∈ p, IsName name := by
  cases p with
  | nil => exact fun _ hm => absurd hm List.not_mem_nil
  | cons name p => exact (d.proper _ ((itemAt?_eq_some_iff (List.cons_ne_nil _ _)).1 h)).2

theorem nodup_filesUnder (d : Disk) (root : Place) : (d.filesUnder root).Nodup := by
  have hitems : d.items.Pairwise fun x y => x.1 ≠ y.1 := List.pairwise_map.1 d.nodup
  refine List.Pairwise.filterMap _ ?_ hitems
  intro x y hxy p hp q hq he
  obtain ⟨-, hx, -⟩ := wayToFile?_eq_some_iff.1 hp
  obtain ⟨-, hy, -⟩ := wayToFile?_eq_some_iff.1 hq
  exact hxy (by rw [hx, hy, he])

def HasFolder (d : Disk) (place : Place) : Prop :=
  ∃ access, d.itemAt? place = some (.folder access)

instance (d : Disk) : DecidablePred d.HasFolder := fun place =>
  match h : d.itemAt? place with
  | some (.folder access) => isTrue ⟨access, h⟩
  | some (.file _) => isFalse fun ⟨_, h'⟩ => nomatch h.symm.trans h'
  | none => isFalse fun ⟨_, h'⟩ => nomatch h.symm.trans h'

/-- That two disks have the same folders, and start paths in the same one. -/
structure SameFolders (d d' : Disk) : Prop where
  here : d'.here = d.here
  folders : ∀ p access,
    d'.itemAt? p = some (.folder access) ↔ d.itemAt? p = some (.folder access)

variable {d' : Disk}

theorem SameFolders.refl (d : Disk) : SameFolders d d := ⟨rfl, fun _ _ => Iff.rfl⟩

theorem SameFolders.symm (h : SameFolders d d') : SameFolders d' d :=
  ⟨h.here.symm, fun p access => (h.folders p access).symm⟩

theorem SameFolders.trans {d'' : Disk} (h : SameFolders d d') (h' : SameFolders d' d'') :
    SameFolders d d'' :=
  ⟨h'.here.trans h.here, fun p access => (h'.folders p access).trans (h.folders p access)⟩

theorem SameFolders.hasFolder_iff (h : SameFolders d d') (place : Place) :
    d'.HasFolder place ↔ d.HasFolder place :=
  exists_congr (h.folders place)

theorem SameFolders.step (h : SameFolders d d') {p q : Place} {piece : List Char}
    (hstep : d.step p piece = .ok q) : d'.step p piece = .ok q := by
  unfold Disk.step at hstep ⊢
  cases hp : d.folderAt p with
  | error fault =>
    rw [hp] at hstep
    cases hstep
  | ok access =>
    have hfolder := (h.folders p access).2 (folderAt_eq_ok_iff.1 hp)
    rw [hp] at hstep
    rw [folderAt_eq_ok_iff.2 hfolder]
    exact hstep

theorem SameFolders.walk (h : SameFolders d d') {p q : Place} {pieces : List (List Char)}
    (hwalk : d.walk p pieces = .ok q) : d'.walk p pieces = .ok q := by
  induction pieces generalizing p with
  | nil => exact hwalk
  | cons piece pieces ih =>
    unfold Disk.walk at hwalk ⊢
    rw [List.foldlM_cons] at hwalk ⊢
    cases hp : d.step p piece with
    | error fault =>
      rw [hp] at hwalk
      cases hwalk
    | ok p' =>
      rw [hp] at hwalk
      rw [h.step hp]
      exact ih hwalk

theorem SameFolders.locate (h : SameFolders d d') {path : String}
    (hlocate : d.locate path = .ok place) : d'.locate path = .ok place := by
  obtain ⟨hnul, hlen, hne, hwalk⟩ := locate_eq_ok_iff.1 hlocate
  refine locate_eq_ok_iff.2 ⟨hnul, hlen, hne, ?_⟩
  rw [h.here]
  exact h.walk hwalk

theorem SameFolders.wayOpen_iff (h : SameFolders d d') {root : Place} :
    d'.WayOpen folder root place ↔ d.WayOpen folder root place := by
  unfold WayOpen
  simp only [h.folders]

theorem SameFolders.isShut_eq (h : SameFolders d d') (place : Place) :
    d'.isShut place = d.isShut place := by
  rw [Bool.eq_iff_iff, isShut_iff, isShut_iff]
  simp only [h.folders]

/-- The texts at the end of an open way are the same where the items are. -/
theorem SameFolders.read_joinAll (h : SameFolders d d') {root : Place}
    (hp : ∀ name ∈ place, IsName name) (hne : place ≠ []) (hfolder : d.locate folder = .ok root)
    (hway : d.WayOpen folder root place)
    (hitem : d'.itemAt? (root ++ place) = d.itemAt? (root ++ place)) :
    d'.read (Path.joinAll folder place) = d.read (Path.joinAll folder place) := by
  have hlocate := locate_joinAll hp hne hfolder hway
  have hlocate' := locate_joinAll hp hne (h.locate hfolder) (h.wayOpen_iff.2 hway)
  unfold read item
  rw [hlocate, hlocate', h.isShut_eq]
  split
  · rfl
  · split
    · rfl
    · simp only [bind, Except.bind, hitem]

end Disk

end CacheActivity.Files
