import CacheActivity.Text.Split

/-!
# Paths

A path is a text with slashes between names. Its own name is the last one, with slashes and single
dots behind it left out; a path that ends in two dots, or has no name at all, has none. The name
splits at its last dot into a stem and an extension, unless that dot comes first.
-/

namespace CacheActivity.Files.Path

def isAbsolute (path : String) : Bool := path.toList.head? = some '/'

/-- A path seen from a folder. -/
def join (folder path : String) : String :=
  if isAbsolute path || folder = "" then path
  else if folder.toList.getLast? = some '/' then folder ++ path
  else folder ++ "/" ++ path

/-- The path of what names lead to from a folder. -/
def joinAll (folder : String) (names : List String) : String := names.foldl join folder

def pieces (path : List Char) : List (List Char) := Text.splitAt '/' path

/-- Drops slashes and single dots from the front of a path that is read backwards. -/
def dropTrailing : List Char → List Char
  | '/' :: cs => dropTrailing cs
  | '.' :: '/' :: cs => dropTrailing cs
  | cs => cs

/-- A path before its name, and the name. -/
def splitName (path : List Char) : List Char × List Char :=
  let back := dropTrailing path.reverse
  ((back.dropWhile (· ≠ '/')).reverse, (back.takeWhile (· ≠ '/')).reverse)

/-- The name of a path, if it has one. -/
def name? (path : List Char) : Option (List Char) :=
  let name := (splitName path).2
  if name = [] ∨ name = ['.'] ∨ name = ['.', '.'] then none else some name

/-- The stem of a name, and its extension if it has one. -/
def splitExtension (name : List Char) : List Char × Option (List Char) :=
  let back := name.reverse
  match (back.dropWhile (· ≠ '.')).drop 1 with
  | [] => (name, none)
  | stem => (stem.reverse, some (back.takeWhile (· ≠ '.')).reverse)

def stem? (path : String) : Option String :=
  (name? path.toList).map fun name => String.ofList (splitExtension name).1

def extension? (path : String) : Option String :=
  (name? path.toList).bind fun name => (splitExtension name).2.map String.ofList

/-- The path without its extension. The dot in front of that stays. -/
def dropExtension (path : String) : List Char :=
  match extension? path with
  | some e => path.toList.take (path.length - e.length)
  | none => path.toList

/-- The path with another extension behind its stem. The old extension goes first, and a path that
has no name then is left as it is. -/
def withExtension (path extension : String) : String :=
  let cut := dropExtension path
  match name? cut with
  | some name =>
    String.ofList ((splitName cut).1 ++ (splitExtension name).1) ++ "." ++ extension
  | none => String.ofList cut

theorem ne_of_mem_reverse {c : Char} {cs : List Char} (h : c ∉ cs) :
    ∀ x ∈ cs.reverse, decide (x ≠ c) = true := fun _ hx =>
  decide_eq_true fun e => h (List.mem_reverse.1 (e ▸ hx))

theorem dropTrailing_of_not_mem {cs : List Char} (h : '/' ∉ cs) : dropTrailing cs = cs := by
  fun_cases dropTrailing cs with
  | case1 cs => exact absurd List.mem_cons_self h
  | case2 cs => exact absurd (List.mem_cons_of_mem _ List.mem_cons_self) h
  | case3 => rfl

theorem name?_of_not_mem {name : List Char} (hslash : '/' ∉ name)
    (hdots : name ∉ [[], ['.'], ['.', '.']]) : name? name = some name := by
  have hback : '/' ∉ name.reverse := fun h => hslash (List.mem_reverse.1 h)
  have htake : name.reverse.takeWhile (· ≠ '/') = name.reverse := by
    rw [← List.append_nil name.reverse, List.takeWhile_append_of_pos (ne_of_mem_reverse hslash)]
    rfl
  simp only [List.mem_cons, List.not_mem_nil, or_false] at hdots
  simp only [name?, splitName, dropTrailing_of_not_mem hback, htake, List.reverse_reverse,
    if_neg hdots]

/-- A name with an extension is a stem, a dot, and a text without dots. -/
theorem splitExtension_eq_some_iff {name stem extension : List Char} :
    splitExtension name = (stem, some extension) ↔
      name = stem ++ '.' :: extension ∧ stem ≠ [] ∧ '.' ∉ extension := by
  constructor
  · intro h
    have hback := List.takeWhile_append_dropWhile (p := (· ≠ '.')) (l := name.reverse)
    have hdot : '.' ∉ name.reverse.takeWhile (· ≠ '.') := fun hm => by
      simpa using List.all_eq_true.1 List.all_takeWhile _ hm
    have hhead := List.head?_dropWhile_not (· ≠ '.') name.reverse
    simp only [splitExtension] at h
    cases hd : name.reverse.dropWhile (· ≠ '.') with
    | nil =>
      rw [hd] at h
      simp at h
    | cons c rest =>
      rw [hd] at h hback hhead
      cases rest with
      | nil => simp at h
      | cons x rest =>
        have hc : c = '.' := by simpa using hhead
        simp only [List.drop_succ_cons, List.drop_zero, Prod.mk.injEq, Option.some.injEq] at h
        obtain ⟨rfl, rfl⟩ := h
        refine ⟨?_, by simp, by simpa using hdot⟩
        have hname := congrArg List.reverse hback
        rw [List.reverse_append, List.reverse_reverse, hc] at hname
        simpa using hname.symm
  · rintro ⟨rfl, hstem, hdot⟩
    have hpos := ne_of_mem_reverse hdot
    have hback : (stem ++ '.' :: extension).reverse = extension.reverse ++ '.' :: stem.reverse := by
      simp
    have hrest : stem.reverse ≠ [] := fun e => hstem (List.reverse_eq_nil_iff.1 e)
    simp only [splitExtension]
    rw [hback, List.dropWhile_append_of_pos hpos, List.takeWhile_append_of_pos hpos]
    cases hs : stem.reverse with
    | nil => exact absurd hs hrest
    | cons x rest =>
      simp [← hs]

end CacheActivity.Files.Path
