import CacheActivity.Fault
import CacheActivity.Files.Path
import CacheActivity.Text.Basic

/-!
# Disks

A disk holds folders and files at places, and has a current folder where relative paths start. A
place lists the names on the way down from the root, and a place that no path can lead to holds
nothing. `Disk.locate` finds the place that a path leads to, and everything on the way there has to
be a folder that lets pass. What is in a folder shows only where the folder can be listed.
-/

namespace CacheActivity.Files

/-- The names on the way down from the root. -/
abbrev Place := List String

/-- What a folder allows. -/
structure Access where
  /-- Whether the names in it can be listed. -/
  lists : Bool
  /-- Whether paths can go on through it. -/
  passes : Bool
  deriving DecidableEq, Repr

def Access.full : Access := ⟨true, true⟩

inductive Item where
  | folder (access : Access)
  /-- A file and its text, if its bytes are one. -/
  | file (text? : Option String)
  deriving DecidableEq, Repr

/-- The longest name of a file or a folder, in bytes. -/
def maxNameLength : Nat := 255

/-- The longest path, in bytes. -/
def maxPathLength : Nat := 4095

/-- That a text can be the name of a file or a folder. -/
def IsName (name : String) : Prop :=
  name ∉ ["", ".", ".."] ∧ '/' ∉ name.toList ∧ '\x00' ∉ name.toList ∧
    Text.byteLength name.toList ≤ maxNameLength

instance : DecidablePred IsName := fun _ => inferInstanceAs (Decidable (_ ∧ _))

/-- That a place below the root can hold something. -/
def Place.IsProper (place : Place) : Prop := place ≠ [] ∧ ∀ name ∈ place, IsName name

instance : DecidablePred Place.IsProper := fun _ => inferInstanceAs (Decidable (_ ∧ _))

structure Disk where
  /-- The current folder. -/
  here : Place
  items : List (Place × Item)
  nodup : (items.map Prod.fst).Nodup
  proper : ∀ x ∈ items, x.1.IsProper

namespace Disk

/-- The path of the current folder. -/
def herePath (d : Disk) : String := "/" ++ "/".intercalate d.here

/-- The item at a place. The root is an open folder. -/
def itemAt? (d : Disk) : Place → Option Item
  | [] => some (.folder .full)
  | place => d.items.lookup place

/-- Sets the item at a place, if it can hold one. -/
def put (d : Disk) (place : Place) (item : Item) : Disk :=
  if h : place.IsProper then
    { d with
      items := d.items.filter (·.1 ≠ place) ++ [(place, item)]
      nodup := by
        rw [List.map_append, List.nodup_append]
        refine ⟨d.nodup.sublist (List.filter_sublist.map _), List.pairwise_singleton _ _, ?_⟩
        intro p hp q hq
        obtain ⟨x, hx, rfl⟩ := List.mem_map.1 hp
        rw [List.mem_singleton.1 hq]
        exact of_decide_eq_true (List.mem_filter.1 hx).2
      proper := by
        intro x hx
        rcases List.mem_append.1 hx with hx | hx
        · exact d.proper x (List.mem_filter.1 hx).1
        · rw [List.mem_singleton.1 hx]
          exact h }
  else d

/-- A disk with nothing on it but the folders down to the current one. -/
def blank (here : Place) : Disk :=
  (List.range here.length).foldl (fun d n => d.put (here.take (n + 1)) (.folder .full))
    ⟨here, [], List.nodup_nil, fun _ hx => absurd hx List.not_mem_nil⟩

def folderAt (d : Disk) (place : Place) : Except FileFault Access :=
  match d.itemAt? place with
  | some (.folder access) => .ok access
  | some (.file _) => .error .notDirectory
  | none => .error .notFound

/-- Goes on from a folder by a piece of a path. An empty piece only asks for a folder. -/
def step (d : Disk) (place : Place) (piece : List Char) : Except FileFault Place := do
  let access ← d.folderAt place
  if piece = [] then .ok place
  else if !access.passes then .error .accessDenied
  else if piece = ['.'] then .ok place
  else if piece = ['.', '.'] then .ok place.dropLast
  else if maxNameLength < Text.byteLength piece then .error .nameTooLong
  else .ok (place ++ [String.ofList piece])

/-- Goes on from a place by the pieces of a path. -/
def walk (d : Disk) (place : Place) (pieces : List (List Char)) : Except FileFault Place :=
  pieces.foldlM d.step place

/-- The place of a path. What stands there need not exist. -/
def locate (d : Disk) (path : String) : Except FileFault Place :=
  if path.toList.contains '\x00' then .error .nulInPath
  else if maxPathLength < Text.byteLength path.toList then .error .nameTooLong
  else if path = "" then .error .notFound
  else d.walk (if Path.isAbsolute path then [] else d.here) (Path.pieces path.toList)

def item (d : Disk) (path : String) : Except FileFault Item := do
  match d.itemAt? (← d.locate path) with
  | some item => .ok item
  | none => .error .notFound

def find? (d : Disk) (path : String) : Option Item := (d.item path).toOption

def read (d : Disk) (path : String) : Except FileFault String := do
  match ← d.item path with
  | .file (some text) => .ok text
  | .file none => .error .notText
  | .folder _ => .error .isDirectory

/-- Writes a text to a new file, or in place of what a file held before. -/
def write (d : Disk) (path text : String) : Except FileFault Disk := do
  let place ← d.locate path
  match d.itemAt? place with
  | some (.folder _) => .error .isDirectory
  | _ => .ok (d.put place (.file (some text)))

/-- Goes on from a place by a piece of a path, and makes a folder where nothing is. -/
def enter (d : Disk) (place : Place) (piece : List Char) : Except FileFault (Disk × Place) := do
  let next ← d.step place piece
  match d.itemAt? next with
  | none => .ok (d.put next (.folder .full), next)
  | some _ => .ok (d, next)

/-- Makes folders on the way to a path, down to the one above what it names. -/
def makeFoldersOf (d : Disk) (path : String) : Except FileFault Disk := do
  let names := (Path.pieces path.toList).filter fun p => p ≠ [] ∧ p ≠ ['.']
  let start := (d, if Path.isAbsolute path then [] else d.here)
  let (made, place) ← names.dropLast.foldlM (fun x name => x.1.enter x.2 name) start
  match made.itemAt? place with
  | some (.file _) => .error .alreadyExists
  | _ => .ok made

/-- The way from a place down to an item, if that is a file below. -/
def wayToFile? (place : Place) : Place × Item → Option Place
  | (p, .file _) =>
    if place.isPrefixOf p && place.length < p.length then some (p.drop place.length) else none
  | (_, .folder _) => none

/-- The ways from a place down to the files under it, at any depth. -/
def filesUnder (d : Disk) (place : Place) : List Place := d.items.filterMap (wayToFile? place)

/-- Whether a path leads to a folder that can be listed. -/
def lists (d : Disk) (path : String) : Bool :=
  match d.find? path with
  | some (.folder access) => access.lists
  | _ => false

/-- Whether every folder on the way from a folder down to a place can be listed. -/
def opensDownTo (d : Disk) : String → Place → Bool
  | _, [] => true
  | folder, name :: place => d.lists folder && d.opensDownTo (Path.join folder name) place

/-- The files that hold something else than they did on an earlier disk, or were not there. -/
def changedSince (d earlier : Disk) : List (Place × String) :=
  d.items.filterMap fun (p, item) =>
    match item with
    | .file (some text) => if earlier.itemAt? p = some item then none else some (p, text)
    | _ => none

end Disk

end CacheActivity.Files
