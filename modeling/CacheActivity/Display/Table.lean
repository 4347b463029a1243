import CacheActivity.Display.Line
import CacheActivity.Text.Split
import CacheActivity.Text.Width

/-!
# Tables

A table is a header and rows of cells in a frame of lines. A cell may have several lines, and a row
is as high as its highest cell. Each column is as wide as its widest line on a display, with a
blank on both sides.
-/

namespace CacheActivity.Display

structure Table where
  header : List (List Char)
  rows : List (List (List Char))

namespace Table

/-- The display width of a cell: that of its widest line. -/
def cellWidth (cell : List Char) : Nat :=
  ((Text.lines cell).map Text.width).foldr max 0

def columnWidth (t : Table) (n : Nat) : Nat :=
  ((t.header :: t.rows).map fun row => cellWidth ((row[n]?).getD [])).foldr max 0

def columnWidths (t : Table) : List Nat := (List.range t.header.length).map t.columnWidth

/-- The characters of a line of the frame: at its left end, along a cell, between two cells, and at
its right end. -/
structure Border where
  left : Char
  along : Char
  between : Char
  right : Char

def top : Border := ⟨'╭', '─', '┬', '╮'⟩

def underHeader : Border := ⟨'╞', '═', '╪', '╡'⟩

def betweenRows : Border := ⟨'├', '╌', '┼', '┤'⟩

def bottom : Border := ⟨'╰', '─', '┴', '╯'⟩

def Border.line (b : Border) (widths : List Nat) : Line :=
  b.left :: Text.joinWith b.between (widths.map fun w => rule b.along (w + 2)) ++ [b.right]

/-- A line of a cell with the blanks that fill its column. -/
def fill (width : Nat) (l : List Char) : Line :=
  ' ' :: l ++ List.replicate (width - Text.width l) ' ' ++ [' ']

def rowLines (widths : List Nat) (row : List (List Char)) : List Line :=
  let cells := row.map Text.lines
  let height := (cells.map List.length).foldr max 0
  (List.range height).map fun n =>
    let filled := List.zipWith (fun w cell => fill w (cell[n]?.getD [])) widths cells
    '│' :: Text.joinWith '┆' filled ++ ['│']

/-- Rows with a line of the frame between them. -/
def bodyLines (widths : List Nat) : List (List (List Char)) → List Line
  | [] => []
  | [row] => rowLines widths row
  | row :: rows => rowLines widths row ++ betweenRows.line widths :: bodyLines widths rows

def lines (t : Table) : List Line :=
  let widths := t.columnWidths
  top.line widths :: rowLines widths t.header ++ underHeader.line widths ::
    bodyLines widths t.rows ++ [bottom.line widths]

/-- That a line shows texts between the bars of a frame, each with a blank in front and some more
blanks behind it. -/
def Shows (texts : List (List Char)) (line : Line) : Prop :=
  ∃ blanks : List Nat, blanks.length = texts.length ∧
    line = '│' :: Text.joinWith '┆' (List.zipWith
      (fun text n => ' ' :: text ++ List.replicate n ' ' ++ [' ']) texts blanks) ++ ['│']

theorem zipWith_fill (widths : List Nat) (row : List (List Char)) :
    List.zipWith fill widths row =
      List.zipWith (fun text n => ' ' :: text ++ List.replicate n ' ' ++ [' ']) row
        (List.zipWith (fun w text => w - Text.width text) widths row) := by
  induction widths generalizing row with
  | nil => simp
  | cons w widths ih =>
    cases row with
    | nil => rfl
    | cons text row => rw [List.zipWith_cons_cons, ih]; rfl

/-- A row of cells without line breaks has a line that shows them. -/
theorem exists_shows {widths : List Nat} {row : List (List Char)}
    (hlength : widths.length = row.length) (hne : row ≠ []) (h : ∀ cell ∈ row, '\n' ∉ cell) :
    ∃ line ∈ rowLines widths row, Shows row line := by
  have hlines : row.map Text.lines = row.map ([·]) :=
    List.map_congr_left fun cell hcell => Text.splitAt_of_not_mem (h cell hcell)
  let blanks := List.zipWith (fun w text => w - Text.width text) widths row
  refine ⟨'│' :: Text.joinWith '┆' (List.zipWith fill widths row) ++ ['│'],
    List.mem_map.2 ⟨0, List.mem_range.2 ?_, ?_⟩, blanks, ?_, ?_⟩
  · rw [hlines]
    cases row with
    | nil => exact absurd rfl hne
    | cons cell row => exact Nat.le_max_left 1 _
  · rw [hlines, List.zipWith_map_right]
    rfl
  · rw [List.length_zipWith, hlength, Nat.min_self]
  · rw [zipWith_fill]

theorem mem_bodyLines {widths : List Nat} {row : List (List Char)} {rows : List (List (List Char))}
    {l : Line} (h : row ∈ rows) (hl : l ∈ rowLines widths row) : l ∈ bodyLines widths rows := by
  fun_induction bodyLines widths rows with
  | case1 => exact absurd h List.not_mem_nil
  | case2 first => exact List.mem_singleton.1 h ▸ hl
  | case3 first rows hne ih =>
    rcases List.mem_cons.1 h with rfl | h
    · exact List.mem_append_left _ hl
    · exact List.mem_append_right _ (List.mem_cons_of_mem _ (ih h))

theorem mem_lines {t : Table} {row : List (List Char)} {l : Line} (h : row ∈ t.rows)
    (hl : l ∈ rowLines t.columnWidths row) : l ∈ t.lines := by
  have hbody := mem_bodyLines h hl
  simp [lines, hbody]

end Table

end CacheActivity.Display
