import CacheActivity.Count
import CacheActivity.Text.Basic

/-!
# Lines on a display

Everything that is shown is a list of lines. Counts are shown with commas between groups of three
digits, and long names are cut short with three dots.
-/

namespace CacheActivity.Display

abbrev Line := List Char

/-- The text of lines, each with a line break behind it. -/
def text (ls : List Line) : String := String.ofList (ls.flatMap (· ++ ['\n']))

theorem text_append (ls ms : List Line) : text (ls ++ ms) = text ls ++ text ms := by
  rw [text, text, text, List.flatMap_append, String.ofList_append]

/-- A line of one character over and over. -/
def rule (c : Char) (length : Nat) : Line := List.replicate length c

/-- Lines as far as they could be shown. -/
structure Shown where
  lines : List Line
  /-- Nothing is missing behind them. -/
  complete : Bool
  deriving DecidableEq, Repr

namespace Shown

def all (ls : List Line) : Shown := ⟨ls, true⟩

/-- Nothing, where something was to be shown. -/
def missing : Shown := ⟨[], false⟩

/-- One display behind another. Nothing comes behind one that breaks off. -/
def append (a b : Shown) : Shown := if a.complete then ⟨a.lines ++ b.lines, b.complete⟩ else a

instance : Append Shown := ⟨append⟩

variable {a b : Shown} {l : Line}

theorem mem_append_left (b : Shown) (h : l ∈ a.lines) : l ∈ (a ++ b).lines := by
  show l ∈ (append a b).lines
  unfold append
  split
  · exact List.mem_append_left _ h
  · exact h

theorem mem_append_right (ha : a.complete = true) (h : l ∈ b.lines) : l ∈ (a ++ b).lines := by
  show l ∈ (append a b).lines
  rw [append, if_pos ha]
  exact List.mem_append_right _ h

end Shown

/-- Digits with a comma wherever a multiple of three of them is left. -/
def groupDigits : List Char → Line
  | [] => []
  | d :: ds =>
    if ds ≠ [] ∧ ds.length % 3 = 0 then d :: ',' :: groupDigits ds else d :: groupDigits ds

/-- An integer with its digits in groups. -/
def grouped (z : Int) : Line :=
  (if z < 0 then ['-'] else []) ++ groupDigits (Nat.toDigits 10 z.natAbs)

/-- A text with its digits in groups if it is that of a count, and as it is if not. -/
def groupedText (s : String) : Line :=
  match (Text.integer? s.toList).filter fun z => Count.least ≤ z && z ≤ Count.greatest with
  | some z => grouped z
  | none => s.toList

/-- A text of at most so many characters, the last three of them dots where it is cut. -/
def truncate (limit : Nat) (cs : List Char) : Line :=
  if cs.length ≤ limit then cs else cs.take (limit - 3) ++ ['.', '.', '.']

def padTo (length : Nat) (cs : List Char) : Line := cs ++ List.replicate (length - cs.length) ' '

theorem filter_groupDigits {ds : List Char} (h : ',' ∉ ds) :
    (groupDigits ds).filter (· ≠ ',') = ds := by
  induction ds with
  | nil => rfl
  | cons d ds ih =>
    simp only [List.mem_cons, not_or] at h
    have hd : d ≠ ',' := fun e => h.1 e.symm
    unfold groupDigits
    split <;> simp_all

theorem length_truncate_le {limit : Nat} (h : 3 ≤ limit) (cs : List Char) :
    (truncate limit cs).length ≤ limit := by
  unfold truncate
  split
  · assumption
  · simp; omega

theorem length_padTo {length : Nat} {cs : List Char} (h : cs.length ≤ length) :
    (padTo length cs).length = length := by
  simp [padTo]; omega

end CacheActivity.Display
