import ApiCompat.Text.Width

/-! Tables for a terminal. A column is as wide as its widest line, a cell of several lines makes
its row taller, and every line of a cell is filled with blanks on the right. A framed table
has a border and a rule under its header; an open one has a blank between its columns. -/
namespace ApiCompat.Report

structure Table where
  header : List String
  rows : List (List String)
  deriving DecidableEq, Repr

namespace Table

/-- The lines of a text; a text without a line break is one line. -/
def linesOf : List Char → List (List Char)
  | [] => [[]]
  | c :: rest =>
    if c = '\n' then [] :: linesOf rest
    else match linesOf rest with
      | [] => [[c]]
      | line :: others => (c :: line) :: others

def cellLines (cell : String) : List (List Char) := linesOf cell.toList

def cellWidth (cell : String) : Nat :=
  ((cellLines cell).map Text.width).foldl max 0

def allRows (table : Table) : List (List String) := table.header :: table.rows

def widths (table : Table) : List Nat :=
  (List.range table.header.length).map fun column =>
    (table.allRows.map fun row => cellWidth (row[column]?.getD "")).foldl max 0

def fill (width : Nat) (line : List Char) : List Char :=
  ' ' :: line ++ List.replicate (width - Text.width line) ' ' ++ [' ']

structure Frame where
  left : List Char
  between : List Char
  right : List Char

def Frame.join (frame : Frame) (parts : List (List Char)) : List Char :=
  frame.left ++ frame.between.intercalate parts ++ frame.right

def sides : Frame := ⟨['│'], ['│'], ['│']⟩

def openSides : Frame := ⟨[], [' '], []⟩

def topCorners : Frame := ⟨['╭'], ['┬'], ['╮']⟩

def headerCorners : Frame := ⟨['├'], ['┼'], ['┤']⟩

def bottomCorners : Frame := ⟨['╰'], ['┴'], ['╯']⟩

def rule (corners : Frame) (widths : List Nat) : List Char :=
  corners.join (widths.map fun width => List.replicate (width + 2) '─')

def rowLines (frame : Frame) (widths : List Nat) (row : List String) : List (List Char) :=
  let cells := row.map cellLines
  let height := (cells.map List.length).foldl max 1
  (List.range height).map fun line =>
    frame.join (List.zipWith (fun width cell => fill width (cell[line]?.getD [])) widths cells)

def framedLines (table : Table) : List (List Char) :=
  let widths := table.widths
  [rule topCorners widths] ++ rowLines sides widths table.header ++
    [rule headerCorners widths] ++ table.rows.flatMap (rowLines sides widths) ++
    [rule bottomCorners widths]

def openLines (table : Table) : List (List Char) :=
  table.allRows.flatMap (rowLines openSides table.widths)

def write (table : Table) (framed : Bool) : String :=
  let lines := if framed then table.framedLines else table.openLines
  "\n".intercalate (lines.map String.ofList)

end Table

end ApiCompat.Report
