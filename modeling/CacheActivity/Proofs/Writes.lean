import CacheActivity.Proofs.Attempts
import CacheActivity.Proofs.Places

/-!
# Reading what was written

After a write, its path reads as the text that was written (`read_of_write`). A path only leads to
places that can hold something, and a new text changes no folder, so the path still leads there.
For the same reason texts written one after the other are all there at the end, and nothing else
has changed (`wrote_of_writeAll`).
-/

namespace CacheActivity.Text

theorem subset_joinWith {separator : Char} {p : List Char} {ps : List (List Char)} (h : p ∈ ps) :
    p ⊆ joinWith separator ps := by
  cases ps with
  | nil => exact absurd h List.not_mem_nil
  | cons q ps =>
    rw [joinWith_cons_eq_append]
    rcases List.mem_cons.1 h with rfl | h
    · exact List.subset_append_left _ _
    · exact fun c hc => List.mem_append_right _
        (List.mem_flatMap.2 ⟨p, h, List.mem_cons_of_mem _ hc⟩)

end CacheActivity.Text

namespace CacheActivity.Files.Disk

variable {d d' : Disk} {place : Place} {path text : String}

theorem isName_of_step {q : Place} {piece : List Char} (hslash : '/' ∉ piece)
    (hnul : '\x00' ∉ piece) (h : d.step place piece = .ok q) : ∀ name ∈ q, IsName name := by
  obtain ⟨⟨access, hitem⟩, ⟨-, rfl⟩ | ⟨-, rfl⟩ | ⟨hdots, hlen, rfl⟩⟩ := cases_of_step h
  all_goals have hplace := isName_of_itemAt? hitem
  · exact hplace
  · exact fun name hm => hplace name (List.dropLast_subset place hm)
  · refine List.forall_mem_append.2 ⟨hplace, List.forall_mem_singleton.2 ⟨?_, ?_⟩⟩
    · simpa [← String.toList_inj] using hdots
    · rw [String.toList_ofList]
      exact ⟨hslash, hnul, hlen⟩

/-- The last step to a place starts from a folder that is there. -/
theorem exists_step_of_locate (h : d.locate path = .ok place) :
    ∃ p, d.step p ((Path.pieces path.toList).getLast (Text.splitAt_ne_nil _)) = .ok place := by
  obtain ⟨-, -, -, hwalk⟩ := locate_eq_ok_iff.1 h
  have hne : Path.pieces path.toList ≠ [] := Text.splitAt_ne_nil _
  rw [← List.dropLast_concat_getLast hne, walk_append] at hwalk
  obtain ⟨p, -, hstep⟩ := bind_eq_ok hwalk
  rw [walk_singleton] at hstep
  exact ⟨p, hstep⟩

theorem isName_of_locate (h : d.locate path = .ok place) : ∀ name ∈ place, IsName name := by
  obtain ⟨p, hstep⟩ := exists_step_of_locate h
  have hne : Path.pieces path.toList ≠ [] := Text.splitAt_ne_nil _
  have hlast := List.getLast_mem hne
  refine isName_of_step (Text.not_mem_of_mem_splitAt hlast) (fun hm => ?_) hstep
  refine (locate_eq_ok_iff.1 h).1 ?_
  rw [← Text.joinWith_splitAt path.toList]
  exact Text.subset_joinWith hlast hm

theorem sameFolders_put (h : ¬d.HasFolder place) (text? : Option String) :
    SameFolders d (d.put place (.file text?)) := by
  by_cases hproper : place.IsProper
  · refine ⟨by rw [put, dif_pos hproper], fun p access => ?_⟩
    rw [itemAt?_put hproper]
    split
    · rename_i he
      exact iff_of_false (by rintro ⟨⟩) fun hfolder => h ⟨access, he ▸ hfolder⟩
    · exact Iff.rfl
  · rw [put, dif_neg hproper]
    exact .refl d

theorem exists_place_of_write (h : d.write path text = .ok d') :
    ∃ place, d.locate path = .ok place ∧ place.IsProper ∧ ¬d.HasFolder place ∧
      d' = d.put place (.file (some text)) := by
  obtain ⟨place, hlocate, hput⟩ := bind_eq_ok h
  split at hput
  · cases hput
  · rename_i hfolder
    cases hput
    have hnone : ¬d.HasFolder place := by
      rintro ⟨access, h⟩
      exact hfolder access h
    have hne : place ≠ [] := fun hroot => hnone ⟨.full, by rw [hroot]; rfl⟩
    exact ⟨place, hlocate, ⟨hne, isName_of_locate hlocate⟩, hnone, rfl⟩

theorem sameFolders_of_write (h : d.write path text = .ok d') : SameFolders d d' := by
  obtain ⟨place, -, -, hfolder, rfl⟩ := exists_place_of_write h
  exact sameFolders_put hfolder _

theorem read_of_item (hlocate : d.locate path = .ok place)
    (hitem : d.itemAt? place = some (.file (some text))) : d.read path = .ok text := by
  simp only [read, item, hlocate, hitem, bind, Except.bind]

theorem read_of_write (h : d.write path text = .ok d') : d'.read path = .ok text := by
  obtain ⟨place, hlocate, hproper, -, rfl⟩ := exists_place_of_write h
  refine read_of_item ((sameFolders_of_write h).locate hlocate) ?_
  rw [itemAt?_put hproper, if_pos rfl]

/-! ## Several texts -/

def writeAll (d : Disk) (files : List (String × String)) : Except FileFault Disk :=
  files.foldlM (fun d f => d.write f.1 f.2) d

theorem writeAll_cons (d : Disk) (f : String × String) (files : List (String × String)) :
    d.writeAll (f :: files) = d.write f.1 f.2 >>= fun d => d.writeAll files := List.foldlM_cons ..

/-- That files hold texts on a disk, and that it is an earlier disk otherwise. -/
structure Wrote (d d' : Disk) (files : List (String × String)) : Prop where
  folders : SameFolders d d'
  read : ∀ f ∈ files, d'.read f.1 = .ok f.2
  rest : ∀ place, (∀ f ∈ files, d.locate f.1 ≠ .ok place) → d'.itemAt? place = d.itemAt? place

theorem read_eq_of_locate {path' : String} (h : d.locate path = .ok place)
    (h' : d'.locate path' = .ok place) (hitem : d.itemAt? place = d'.itemAt? place) :
    d.read path = d'.read path' := by
  simp only [Disk.read, item, h, h', bind, Except.bind, hitem]

theorem exists_place_of_item {item : Item} (h : d.item path = .ok item) :
    ∃ place, d.locate path = .ok place ∧ d.itemAt? place = some item := by
  obtain ⟨place, hlocate, hitem⟩ := bind_eq_ok h
  split at hitem
  · rename_i hplace
    cases hitem
    exact ⟨place, hlocate, hplace⟩
  · cases hitem

theorem exists_place_of_read (h : d.read path = .ok text) : ∃ place, d.locate path = .ok place := by
  obtain ⟨item, hitem, -⟩ := bind_eq_ok h
  obtain ⟨place, hlocate, -⟩ := exists_place_of_item hitem
  exact ⟨place, hlocate⟩

theorem Wrote.cons {d₁ : Disk} {files : List (String × String)}
    (hwrite : d.write path text = .ok d₁) (h : Wrote d₁ d' files)
    (hsame : ∀ f ∈ files, ∀ place, d.locate path = .ok place → d.locate f.1 = .ok place →
      f.2 = text) : Wrote d d' ((path, text) :: files) := by
  have hfirst := sameFolders_of_write hwrite
  have hfolders := hfirst.trans h.folders
  obtain ⟨place, hlocate, hproper, -, rfl⟩ := exists_place_of_write hwrite
  have hitem (p : Place) := itemAt?_put (d := d) hproper (.file (some text)) p
  refine ⟨hfolders, List.forall_mem_cons.2 ⟨?_, h.read⟩, fun p hp => ?_⟩
  · by_cases hlater : ∃ f ∈ files, d.locate f.1 = .ok place
    · -- A later text went to the same place, and it is the same text.
      obtain ⟨f, hf, hplace⟩ := hlater
      rw [← hsame f hf place hlocate hplace, ← h.read f hf]
      exact read_eq_of_locate (hfolders.locate hlocate) (hfolders.locate hplace) rfl
    · refine read_of_item (hfolders.locate hlocate) ?_
      rw [h.rest place fun f hf hplace => hlater ⟨f, hf, hfirst.symm.locate hplace⟩, hitem,
        if_pos rfl]
  · obtain ⟨hne, hrest⟩ := List.forall_mem_cons.1 hp
    rw [h.rest p fun f hf hplace => hrest f hf (hfirst.symm.locate hplace), hitem, if_neg]
    rintro rfl
    exact hne hlocate

/-- Texts written one after the other are all there at the end, if those at one place are the
same. -/
theorem wrote_of_writeAll {files : List (String × String)} (h : d.writeAll files = .ok d')
    (hsame : ∀ f ∈ files, ∀ g ∈ files, ∀ place, d.locate f.1 = .ok place →
      d.locate g.1 = .ok place → g.2 = f.2) : Wrote d d' files := by
  induction files generalizing d with
  | nil =>
    cases h
    exact ⟨.refl _, List.forall_mem_nil _, fun _ _ => rfl⟩
  | cons f files ih =>
    rw [writeAll_cons] at h
    obtain ⟨d₁, hwrite, hrest⟩ := bind_eq_ok h
    have hback := (sameFolders_of_write hwrite).symm
    refine .cons hwrite (ih hrest fun g hg g' hg' place hp hp' => ?_) fun g hg place hp hp' => ?_
    · exact hsame g (List.mem_cons_of_mem _ hg) g' (List.mem_cons_of_mem _ hg') place
        (hback.locate hp) (hback.locate hp')
    · exact hsame f List.mem_cons_self g (List.mem_cons_of_mem _ hg) place hp hp'

theorem exists_place_of_writeAll {files : List (String × String)}
    (h : d.writeAll files = .ok d') {f : String × String} (hf : f ∈ files) :
    ∃ place, d.locate f.1 = .ok place ∧ ¬d.HasFolder place := by
  induction files generalizing d with
  | nil => exact absurd hf List.not_mem_nil
  | cons g files ih =>
    rw [writeAll_cons] at h
    obtain ⟨d₁, hwrite, hrest⟩ := bind_eq_ok h
    rcases List.mem_cons.1 hf with rfl | hf
    · obtain ⟨place, hlocate, -, hfolder, -⟩ := exists_place_of_write hwrite
      exact ⟨place, hlocate, hfolder⟩
    · obtain ⟨place, hlocate, hfolder⟩ := ih hrest hf
      have hsame := sameFolders_of_write hwrite
      exact ⟨place, hsame.symm.locate hlocate, mt (hsame.hasFolder_iff place).2 hfolder⟩

end CacheActivity.Files.Disk
