import ApiCompat.Proofs.Report.Printed
import ApiCompat.Report.Table
import Mathlib.Data.List.DropRight
import Mathlib.Data.List.SplitBy

/-! Reading tables from their texts. The words of the header tell where the columns stand, in a
framed table and in an open one. A line is cut into cells at these columns, and a line without
a first cell goes on with the row above it. Blanks at the end of a line of a cell and empty
lines at the end of a cell are not told from filling; everything else is read back. -/
namespace ApiCompat.Report.Table

def isFiller (c : Char) : Bool := c = ' ' || c = '│'

/-- The cells of a line, as if one more column stood behind them. -/
def cellsText? : List Char → Option (List Char)
  | '│' :: ' ' :: rest => some (rest ++ [' '])
  | ' ' :: rest => some (rest ++ [' ', ' '])
  | _ => none

/-- The widths of the columns: a header is cut in front of its words. -/
def readWidths (header : List Char) : List Nat :=
  (header.splitBy fun a b => !isFiller a || isFiller b).map (·.length - 3)

/-- Cuts off what fits into so many columns of the terminal. -/
def cut : Nat → List Char → List Char × List Char
  | _, [] => ([], [])
  | columns, c :: rest =>
    if Text.charWidth c ≤ columns then
      let (front, back) := cut (columns - Text.charWidth c) rest
      (c :: front, back)
    else ([], c :: rest)

def unfill (line : List Char) : List Char := line.rdropWhile (· = ' ')

def cutCells : List Nat → List Char → List (List Char)
  | [], _ => []
  | width :: others, line =>
    let (cell, rest) := cut width line
    unfill cell :: cutCells others (rest.drop 3)

def unlines (lines : List (List Char)) : String :=
  String.ofList (['\n'].intercalate (lines.rdropWhile List.isEmpty))

/-- Puts the lines of a row together, cell by cell. -/
def readRow (columns : Nat) (lines : List (List (List Char))) : List String :=
  (List.range columns).map fun column => unlines (lines.map fun cells => cells[column]?.getD [])

def readRows? (output : String) : Option (List (List String)) :=
  match (output.toList.splitOn '\n').filterMap cellsText? with
  | [] => none
  | header :: lines =>
    let widths := readWidths header
    let rows := (lines.map (cutCells widths)).splitBy fun _ line => line.head? = some []
    some (rows.map (readRow widths.length))

def readCell (cell : String) : String := unlines ((cellLines cell).map unfill)

/-- The word consists of visible ASCII characters. -/
def IsWord (word : List Char) : Prop := word ≠ [] ∧ ∀ c ∈ word, ' ' < c ∧ c < '\x7f'

instance (word : List Char) : Decidable (IsWord word) :=
  have := List.decidableBAll (fun c => ' ' < c ∧ c < '\x7f') word
  inferInstanceAs (Decidable (word ≠ [] ∧ ∀ c ∈ word, ' ' < c ∧ c < '\x7f'))

/-- The row begins with one plain line. -/
def IsLed (row : List String) : Prop :=
  ∃ cell others line, row = cell :: others ∧ cellLines cell = [line] ∧ unfill line ≠ []

/-- The table has a header of plain words, and rows that fit it and begin with a plain cell. -/
structure Regular (table : Table) : Prop where
  columns : table.header ≠ []
  words : ∀ word ∈ table.header, IsWord word.toList
  filled : ∀ row ∈ table.rows, row.length = table.header.length
  led : ∀ row ∈ table.rows, IsLed row

section Cells

theorem charWidth_of_ascii {c : Char} (low : 32 ≤ c.toNat) (high : c.toNat < 127) :
    Text.charWidth c = 1 := by
  have marks : ∀ range ∈ Text.columnless, range.2 < 32 ∨ 127 ≤ range.1 := by decide +kernel
  have wide : ∀ range ∈ Text.wideCharacters, 127 ≤ range.1 := by decide +kernel
  have unmarked : Text.columnless.has c = false := by
    apply List.any_eq_false.mpr
    intro range h
    have apart := marks range h
    simp only [Bool.and_eq_true, decide_eq_true_eq]
    omega
  have narrow : Text.wideCharacters.has c = false := by
    apply List.any_eq_false.mpr
    intro range h
    have apart := wide range h
    simp only [Bool.and_eq_true, decide_eq_true_eq]
    omega
  simp [Text.charWidth, unmarked, narrow]

theorem charWidth_blank : Text.charWidth ' ' = 1 := charWidth_of_ascii (by decide) (by decide)

theorem width_append (front back : List Char) :
    Text.width (front ++ back) = Text.width front + Text.width back := by
  induction front with
  | nil => simp [Text.width]
  | cons c rest ih =>
    simp only [Text.width, List.cons_append, List.foldr_cons] at ih ⊢
    omega

theorem width_blanks (n : Nat) : Text.width (List.replicate n ' ') = n := by
  induction n with
  | zero => rfl
  | succ n ih =>
    simp only [Text.width, List.replicate_succ, List.foldr_cons, charWidth_blank] at ih ⊢
    omega

def pad (width : Nat) (line : List Char) : List Char :=
  line ++ List.replicate (width - Text.width line) ' '

theorem width_pad {width : Nat} {line : List Char} (fits : Text.width line ≤ width) :
    Text.width (pad width line) = width := by
  rw [pad, width_append, width_blanks]
  omega

theorem unfill_pad (width : Nat) (line : List Char) : unfill (pad width line) = unfill line := by
  rw [pad]
  induction width - Text.width line with
  | zero => simp
  | succ n ih =>
    rw [List.replicate_succ', ← List.append_assoc, unfill, List.rdropWhile_concat_pos]
    · exact ih
    · simp

/-- A cell with what stands behind it. -/
def spaced (separator : Char) (cell : List Char) : List Char := cell ++ [' ', separator, ' ']

theorem cut_append (cell rest : List Char) :
    cut (Text.width cell) (cell ++ ' ' :: rest) = (cell, ' ' :: rest) := by
  induction cell with
  | nil => simp [cut, Text.width, charWidth_blank]
  | cons c cell ih =>
    have fits : Text.charWidth c ≤ Text.width (c :: cell) := Nat.le_add_right _ _
    have left : Text.width (c :: cell) - Text.charWidth c = Text.width cell :=
      Nat.add_sub_cancel_left _ _
    simp [cut, fits, left, ih]

theorem cutCells_flatMap (separator : Char) {widths : List Nat} {cells : List (List Char)}
    (exact : List.Forall₂ (fun width cell => Text.width cell = width) widths cells) :
    cutCells widths (cells.flatMap (spaced separator)) = cells.map unfill := by
  induction exact with
  | nil => rfl
  | @cons width cell widths cells same _ ih =>
    subst same
    have split := cut_append cell (separator :: ' ' :: cells.flatMap (spaced separator))
    simp only [List.flatMap_cons, spaced, List.append_assoc, List.cons_append, List.nil_append,
      cutCells] at ih ⊢
    rw [split]
    simp [ih]

end Cells

section Lines

/-- The lines of a table have the frame on their sides, or blanks between the columns. -/
def lineFrame (framed : Bool) : Frame := if framed then sides else openSides

def separator (framed : Bool) : Char := if framed then '│' else ' '

theorem exists_intercalate (separator : Char) {cells : List (List Char)} (ne : cells ≠ []) :
    ∃ text, [separator].intercalate (cells.map fun cell => ' ' :: cell ++ [' ']) = ' ' :: text ∧
      text ++ [separator, ' '] = cells.flatMap (spaced separator) := by
  induction cells with
  | nil => exact absurd rfl ne
  | cons cell rest ih =>
    cases rest with
    | nil => exact ⟨cell ++ [' '], by simp, by simp [spaced]⟩
    | cons next rest =>
      obtain ⟨text, joined, whole⟩ := ih (List.cons_ne_nil _ _)
      refine ⟨spaced separator cell ++ text, ?_, ?_⟩
      · rw [List.map_cons] at joined
        rw [List.map_cons, List.map_cons, List.intercalate_cons_cons, joined]
        simp [spaced]
      · rw [List.flatMap_cons, List.append_assoc, whole]

theorem cellsText?_join (framed : Bool) {cells : List (List Char)} (ne : cells ≠ []) :
    cellsText? ((lineFrame framed).join (cells.map fun cell => ' ' :: cell ++ [' '])) =
      some (cells.flatMap (spaced (separator framed))) := by
  obtain ⟨text, joined, whole⟩ := exists_intercalate (separator framed) ne
  cases framed with
  | true =>
    have line : (lineFrame true).join (cells.map fun cell => ' ' :: cell ++ [' ']) =
        '│' :: ' ' :: (text ++ ['│']) := congrArg (['│'] ++ · ++ ['│']) joined
    rw [line, ← whole]
    simp [cellsText?, separator]
  | false =>
    have line : (lineFrame false).join (cells.map fun cell => ' ' :: cell ++ [' ']) =
        ' ' :: text := by
      have bare := congrArg ([] ++ · ++ []) joined
      simpa [lineFrame, Frame.join, openSides, separator] using bare
    rw [line, ← whole]
    rfl

/-- The cells of one line of a row. -/
def lineCells (widths : List Nat) (row : List String) (line : Nat) : List (List Char) :=
  List.zipWith (fun width cell => pad width ((cellLines cell)[line]?.getD [])) widths row

def height (row : List String) : Nat := ((row.map cellLines).map List.length).foldl max 1

theorem rowLines_eq (frame : Frame) (widths : List Nat) (row : List String) :
    rowLines frame widths row = (List.range (height row)).map fun line =>
      frame.join ((lineCells widths row line).map fun cell => ' ' :: cell ++ [' ']) := by
  simp [rowLines, height, lineCells, fill, pad, List.map_zipWith, List.zipWith_map_right]

theorem filterMap_rowLines (framed : Bool) {widths : List Nat} {row : List String}
    (columns : widths ≠ []) (filled : row.length = widths.length) :
    (rowLines (lineFrame framed) widths row).filterMap cellsText? =
      (List.range (height row)).map fun line =>
        (lineCells widths row line).flatMap (spaced (separator framed)) := by
  rw [rowLines_eq, List.filterMap_map, ← congrFun List.filterMap_eq_map]
  apply List.filterMap_congr
  intro line _
  apply cellsText?_join
  intro empty
  have none := congrArg List.length empty
  rw [lineCells, List.length_zipWith, filled, Nat.min_self] at none
  exact columns (List.length_eq_zero_iff.mp none)

/-- A row as it is read, line by line. -/
def shownLines (row : List String) : List (List (List Char)) :=
  (List.range (height row)).map fun line =>
    row.map fun cell => unfill ((cellLines cell)[line]?.getD [])

def Fits (widths : List Nat) (row : List String) : Prop :=
  List.Forall₂ (fun width cell => cellWidth cell ≤ width) widths row

theorem le_foldl_max (list : List Nat) (start : Nat) :
    start ≤ list.foldl max start ∧ ∀ n ∈ list, n ≤ list.foldl max start := by
  induction list generalizing start with
  | nil => simp
  | cons first rest ih =>
    obtain ⟨least, each⟩ := ih (max start first)
    refine ⟨?_, List.forall_mem_cons.mpr ⟨?_, each⟩⟩
    · rw [List.foldl_cons]
      omega
    · rw [List.foldl_cons]
      omega

theorem width_le_cellWidth (cell : String) (line : Nat) :
    Text.width ((cellLines cell)[line]?.getD []) ≤ cellWidth cell := by
  cases held : (cellLines cell)[line]? with
  | none => exact Nat.zero_le _
  | some text =>
    apply (le_foldl_max _ 0).2
    exact List.mem_map_of_mem (List.mem_of_getElem? held)

theorem Fits.cutCells_lineCells {widths : List Nat} {row : List String} (fits : Fits widths row)
    (separator : Char) (line : Nat) :
    cutCells widths ((lineCells widths row line).flatMap (spaced separator)) =
      row.map fun cell => unfill ((cellLines cell)[line]?.getD []) := by
  have exact : List.Forall₂ (fun width cell => Text.width cell = width) widths
      (lineCells widths row line) := by
    induction fits with
    | nil => exact .nil
    | @cons width cell _ _ first _ ih =>
      exact .cons (width_pad ((width_le_cellWidth cell line).trans first)) ih
  rw [cutCells_flatMap separator exact]
  clear exact
  induction fits with
  | nil => rfl
  | cons _ _ ih =>
    simp only [lineCells, List.zipWith_cons_cons, List.map_cons, unfill_pad] at ih ⊢
    rw [ih]

theorem fits_of_mem {table : Table} {row : List String} (h : row ∈ table.allRows)
    (filled : row.length = table.header.length) : Fits table.widths row := by
  apply List.forall₂_iff_get.mpr
  refine ⟨by simp [widths, filled], ?_⟩
  intro column inside inside'
  have held : row[column]?.getD "" = row.get ⟨column, inside'⟩ := by simp [inside']
  simp only [widths, List.get_eq_getElem, List.getElem_map, List.getElem_range]
  apply (le_foldl_max _ 0).2
  apply List.mem_map.mpr
  exact ⟨row, h, by rw [held]; rfl⟩

theorem widths_ne_nil {table : Table} (regular : table.Regular) : table.widths ≠ [] := by
  simpa [widths] using regular.columns

theorem cutCells_rows (framed : Bool) {table : Table} (regular : table.Regular) :
    ((table.rows.flatMap (rowLines (lineFrame framed) table.widths)).filterMap cellsText?).map
      (cutCells table.widths) = table.rows.flatMap shownLines := by
  rw [List.filterMap_flatMap, List.map_flatMap]
  apply List.flatMap_congr
  intro row h
  have fits := fits_of_mem (List.mem_cons_of_mem _ h) (regular.filled row h)
  rw [filterMap_rowLines framed (widths_ne_nil regular) fits.length_eq.symm, List.map_map,
    shownLines]
  apply List.map_congr_left
  intro line _
  exact fits.cutCells_lineCells (separator framed) line

end Lines

section Groups

variable {α : Type} {r : α → α → Bool}

theorem splitBy_flatten {groups : List (List α)} (full : ∀ group ∈ groups, group ≠ [])
    (whole : ∀ group ∈ groups, group.IsChain (r · ·))
    (apart : ∀ a ∈ groups, ∀ b ∈ groups, ∀ x ∈ a.getLast?, ∀ y ∈ b.head?, r x y = false) :
    groups.flatten.splitBy r = groups := by
  apply List.splitBy_flatten (fun empty => full [] empty rfl) whole
  apply List.Pairwise.isChain
  apply List.pairwise_of_forall_mem_list
  intro a ha b hb
  exact ⟨full a ha, full b hb, apart a ha b hb _ (List.getLast?_eq_some_getLast _) _
    (List.head?_eq_some_head _)⟩

theorem isChain_of_tail {first : α} {rest : List α} (goes : ∀ y ∈ rest, ∀ x, r x y = true) :
    (first :: rest).IsChain (r · ·) := by
  induction rest generalizing first with
  | nil => simp
  | cons second rest ih =>
    obtain ⟨here, goes⟩ := List.forall_mem_cons.mp goes
    exact .cons_cons (here first) (ih goes)

end Groups

section Header

variable {word : List Char}

theorem isFiller_eq_false {c : Char} (visible : ' ' < c ∧ c < '\x7f') : isFiller c = false := by
  rw [isFiller, Bool.or_eq_false_iff, decide_eq_false_iff_not, decide_eq_false_iff_not]
  constructor
  · rintro rfl
    exact absurd visible (by decide)
  · rintro rfl
    exact absurd visible (by decide)

theorem IsWord.width_eq (plain : IsWord word) : Text.width word = word.length := by
  have each := plain.2
  clear plain
  induction word with
  | nil => rfl
  | cons c rest ih =>
    obtain ⟨first, each⟩ := List.forall_mem_cons.mp each
    have one := charWidth_of_ascii (Nat.le_of_lt first.1) first.2
    have rest := ih each
    simp only [Text.width, List.foldr_cons, List.length_cons, one] at rest ⊢
    omega

theorem IsWord.isChain (plain : IsWord word) {gap : List Char}
    (blank : ∀ c ∈ gap, isFiller c = true) :
    (word ++ gap).IsChain fun a b => (!isFiller a || isFiller b) = true := by
  have each := plain.2
  clear plain
  induction word with
  | nil =>
    cases gap with
    | nil => exact .nil
    | cons c rest =>
      apply isChain_of_tail
      intro y h x
      simp [blank y (List.mem_cons_of_mem c h)]
  | cons c rest ih =>
    obtain ⟨first, each⟩ := List.forall_mem_cons.mp each
    exact List.isChain_cons.mpr ⟨fun y _ => by simp [isFiller_eq_false first], ih each⟩

/-- A word filled up to the width of its column. -/
def Padded (width : Nat) (cell : List Char) : Prop :=
  cell.length = width ∧ ∃ word blanks, IsWord word ∧ cell = word ++ List.replicate blanks ' '

theorem linesOf_eq {text : List Char} (single : '\n' ∉ text) : linesOf text = [text] := by
  induction text with
  | nil => rfl
  | cons c rest ih =>
    have apart : c ≠ '\n' := fun same => single (same ▸ List.mem_cons_self)
    have rest := ih fun later => single (List.mem_cons_of_mem c later)
    rw [linesOf, if_neg apart, rest]

theorem IsWord.cellLines_eq {word : String} (plain : IsWord word.toList) :
    cellLines word = [word.toList] :=
  linesOf_eq fun broken => absurd (plain.2 _ broken) (by decide)

theorem padded_header {table : Table} (regular : table.Regular) :
    List.Forall₂ Padded table.widths (lineCells table.widths table.header 0) := by
  have fits : Fits table.widths table.header := fits_of_mem List.mem_cons_self rfl
  have words := regular.words
  generalize table.widths = widths at fits ⊢
  generalize table.header = header at fits words ⊢
  induction fits with
  | nil => exact .nil
  | @cons width word _ _ first _ ih =>
    obtain ⟨plain, words⟩ := List.forall_mem_cons.mp words
    have enough := (width_le_cellWidth word 0).trans first
    simp only [plain.cellLines_eq, List.getElem?_cons_zero, Option.getD_some, plain.width_eq]
      at enough
    refine .cons ⟨?_, word.toList, width - word.toList.length, plain, ?_⟩ (ih words)
    · simp only [plain.cellLines_eq, List.getElem?_cons_zero, Option.getD_some, pad,
        plain.width_eq, List.length_append, List.length_replicate]
      omega
    · simp [plain.cellLines_eq, pad, plain.width_eq]

theorem height_header {table : Table} (regular : table.Regular) : height table.header = 1 := by
  have words := regular.words
  rw [height]
  generalize table.header = header at words
  induction header with
  | nil => rfl
  | cons word rest ih =>
    obtain ⟨plain, words⟩ := List.forall_mem_cons.mp words
    rw [List.map_cons, List.map_cons, plain.cellLines_eq, List.foldl_cons]
    exact ih words

/-- In a line of the header every column is a word with a gap behind it. -/
theorem exists_word_of_mem (framed : Bool) {widths : List Nat} {cells : List (List Char)}
    (padded : List.Forall₂ Padded widths cells) :
    ∀ group ∈ cells.map (spaced (separator framed)), ∃ word gap, IsWord word ∧ gap ≠ [] ∧
      (∀ c ∈ gap, isFiller c = true) ∧ group = word ++ gap := by
  have between : ∀ c ∈ [' ', separator framed, ' '], isFiller c = true := by
    cases framed <;> simp [isFiller, separator]
  induction padded with
  | nil => simp
  | cons first _ ih =>
    rw [List.map_cons]
    refine List.forall_mem_cons.mpr ⟨?_, ih⟩
    obtain ⟨_, word, blanks, plain, rfl⟩ := first
    refine ⟨word, List.replicate blanks ' ' ++ [' ', separator framed, ' '], plain, by simp, ?_,
      by simp [spaced]⟩
    intro c h
    rcases List.mem_append.mp h with filling | behind
    · rw [List.eq_of_mem_replicate filling]
      decide
    · exact between c behind

theorem readWidths_flatMap (framed : Bool) {widths : List Nat} {cells : List (List Char)}
    (padded : List.Forall₂ Padded widths cells) :
    readWidths (cells.flatMap (spaced (separator framed))) = widths := by
  have parts := exists_word_of_mem framed padded
  have cutting : (cells.flatMap (spaced (separator framed))).splitBy
      (fun a b => !isFiller a || isFiller b) = cells.map (spaced (separator framed)) := by
    rw [List.flatMap_def]
    apply splitBy_flatten
    · intro group h
      obtain ⟨word, gap, plain, _, _, rfl⟩ := parts group h
      simp [plain.1]
    · intro group h
      obtain ⟨word, gap, plain, _, blank, rfl⟩ := parts group h
      exact plain.isChain blank
    · intro a ha b hb x hx y hy
      obtain ⟨word, gap, _, ne, blank, rfl⟩ := parts a ha
      obtain ⟨word', gap', plain, _, _, rfl⟩ := parts b hb
      have last : x ∈ gap := by
        rw [List.getLast?_append_of_ne_nil _ ne] at hx
        exact List.mem_of_getLast? hx
      have first : y ∈ word' := by
        rw [List.head?_append_of_ne_nil _ plain.1] at hy
        exact List.mem_of_mem_head? hy
      simp [blank x last, isFiller_eq_false (plain.2 y first)]
  rw [readWidths, cutting]
  clear parts cutting
  induction padded with
  | nil => rfl
  | cons first _ ih =>
    simp only [List.map_cons, ih]
    simp [spaced, first.1]

end Header

section Rows

variable {row : List String}

theorem IsLed.shownLines_eq (led : IsLed row) : ∃ first rest, shownLines row = first :: rest ∧
    first.head? ≠ some [] ∧ ∀ line ∈ rest, line.head? = some [] := by
  obtain ⟨cell, others, line, rfl, lines, ne⟩ := led
  obtain ⟨more, tall⟩ : ∃ more, height (cell :: others) = more + 1 :=
    Nat.exists_eq_add_of_le' (le_foldl_max _ 1).1
  rw [shownLines, tall, List.range_succ_eq_map, List.map_cons]
  refine ⟨_, _, rfl, ?_, ?_⟩
  · simpa [lines] using ne
  · intro rest h
    obtain ⟨i, inside, rfl⟩ := List.mem_map.mp h
    obtain ⟨j, _, rfl⟩ := List.mem_map.mp inside
    simp [lines, unfill]

theorem splitBy_shownLines {rows : List (List String)} (led : ∀ row ∈ rows, IsLed row) :
    (rows.flatMap shownLines).splitBy (fun _ line => line.head? = some []) =
      rows.map shownLines := by
  have parts : ∀ lines ∈ rows.map shownLines, ∃ first rest, lines = first :: rest ∧
      first.head? ≠ some [] ∧ ∀ line ∈ rest, line.head? = some [] :=
    List.forall_mem_map.mpr fun row h => (led row h).shownLines_eq
  rw [List.flatMap_def]
  apply splitBy_flatten
  · intro lines h
    obtain ⟨first, rest, rfl, _⟩ := parts lines h
    exact List.cons_ne_nil _ _
  · intro lines h
    obtain ⟨first, rest, rfl, _, goes⟩ := parts lines h
    apply isChain_of_tail
    intro line inside _
    simpa using goes line inside
  · intro a _ b hb x _ y hy
    obtain ⟨first, rest, rfl, starts, _⟩ := parts b hb
    cases hy
    simpa using starts

theorem unlines_concat (lines : List (List Char)) : unlines (lines ++ [[]]) = unlines lines := by
  rw [unlines, List.rdropWhile_concat_pos _ _ _ rfl, unlines]

theorem unlines_range {lines : List (List Char)} {n : Nat} (long : lines.length ≤ n) :
    unlines ((List.range n).map fun i => unfill (lines[i]?.getD [])) =
      unlines (lines.map unfill) := by
  obtain ⟨more, rfl⟩ := Nat.exists_eq_add_of_le long
  induction more with
  | zero =>
    congr 1
    apply List.ext_getElem
    · simp
    · intro i h h'
      simp at h'
      simp [h']
  | succ more ih =>
    have beyond : lines[lines.length + more]? = none := List.getElem?_eq_none (by omega)
    rw [← Nat.add_assoc, List.range_succ, List.map_append, List.map_singleton, beyond]
    exact (unlines_concat _).trans (ih (by omega))

theorem readRow_shownLines (row : List String) :
    readRow row.length (shownLines row) = row.map readCell := by
  apply List.ext_getElem
  · simp [readRow]
  · intro i h h'
    simp only [List.length_map] at h'
    have tall : (cellLines row[i]).length ≤ height row := by
      apply (le_foldl_max _ 1).2
      apply List.mem_map_of_mem
      exact List.mem_map_of_mem (List.getElem_mem h')
    have column : ((shownLines row).map fun cells => cells[i]?.getD []) =
        (List.range (height row)).map fun j => unfill ((cellLines row[i])[j]?.getD []) := by
      simp [shownLines, h', Function.comp_def]
    simp [readRow, column, readCell, unlines_range tall]

end Rows

section Text

theorem newline_notMem_linesOf (text : List Char) : ∀ line ∈ linesOf text, '\n' ∉ line := by
  induction text with
  | nil => simp [linesOf]
  | cons c rest ih =>
    rw [linesOf]
    split
    · exact List.forall_mem_cons.mpr ⟨List.not_mem_nil, ih⟩
    · rename_i other
      split
      · simpa using Ne.symm other
      · rename_i line others lines
        rw [lines] at ih
        obtain ⟨first, ih⟩ := List.forall_mem_cons.mp ih
        refine List.forall_mem_cons.mpr ⟨?_, ih⟩
        simpa [first] using Ne.symm other

theorem mem_intercalate {α : Type} {separator : List α} {lists : List (List α)} {x : α}
    (h : x ∈ separator.intercalate lists) : x ∈ separator ∨ ∃ list ∈ lists, x ∈ list := by
  induction lists with
  | nil => simp at h
  | cons first rest ih =>
    cases rest with
    | nil => exact .inr ⟨first, List.mem_cons_self, by simpa using h⟩
    | cons second rest =>
      rw [List.intercalate_cons_cons, List.append_assoc, List.mem_append, List.mem_append] at h
      obtain here | between | later := h
      · exact .inr ⟨first, List.mem_cons_self, here⟩
      · exact .inl between
      · obtain between | ⟨list, inside, held⟩ := ih later
        · exact .inl between
        · exact .inr ⟨list, List.mem_cons_of_mem _ inside, held⟩

theorem newline_notMem_join {frame : Frame} {parts : List (List Char)}
    (sides : '\n' ∉ frame.left ++ frame.between ++ frame.right)
    (single : ∀ part ∈ parts, '\n' ∉ part) : '\n' ∉ frame.join parts := by
  simp only [List.mem_append, not_or] at sides
  obtain ⟨⟨left, between⟩, right⟩ := sides
  intro broken
  rw [Frame.join, List.mem_append, List.mem_append] at broken
  obtain (here | inside) | here := broken
  · exact left here
  · obtain here | ⟨part, h, here⟩ := mem_intercalate inside
    · exact between here
    · exact single part h here
  · exact right here

theorem newline_notMem_rule {corners : Frame} (widths : List Nat)
    (sides : '\n' ∉ corners.left ++ corners.between ++ corners.right) :
    '\n' ∉ rule corners widths := by
  apply newline_notMem_join sides
  intro part h
  obtain ⟨width, _, rfl⟩ := List.mem_map.mp h
  simp

theorem newline_notMem_rowLines (framed : Bool) (widths : List Nat) (row : List String) :
    ∀ line ∈ rowLines (lineFrame framed) widths row, '\n' ∉ line := by
  rw [rowLines_eq]
  intro line h
  obtain ⟨i, _, rfl⟩ := List.mem_map.mp h
  apply newline_notMem_join (by cases framed <;> decide)
  intro part h
  obtain ⟨cell, inside, rfl⟩ := List.mem_map.mp h
  rw [lineCells, ← List.map_uncurry_zip_eq_zipWith] at inside
  obtain ⟨⟨width, text⟩, _, rfl⟩ := List.mem_map.mp inside
  have single : '\n' ∉ (cellLines text)[i]?.getD [] := by
    cases held : (cellLines text)[i]? with
    | none => simp
    | some line => exact newline_notMem_linesOf _ line (List.mem_of_getElem? held)
  change '\n' ∉ ' ' :: pad width ((cellLines text)[i]?.getD []) ++ [' ']
  simp [pad, single]

def allLines (table : Table) (framed : Bool) : List (List Char) :=
  if framed then table.framedLines else table.openLines

theorem newline_notMem_allLines (table : Table) (framed : Bool) :
    ∀ line ∈ table.allLines framed, '\n' ∉ line := by
  cases framed with
  | true =>
    have rows := newline_notMem_rowLines true table.widths
    intro line h
    simp only [allLines, if_true, framedLines, List.mem_append, List.mem_singleton,
      List.mem_flatMap] at h
    obtain (((rfl | h) | rfl) | ⟨row, _, h⟩) | rfl := h
    · exact newline_notMem_rule _ (by decide)
    · exact rows _ line h
    · exact newline_notMem_rule _ (by decide)
    · exact rows row line h
    · exact newline_notMem_rule _ (by decide)
  | false =>
    intro line h
    obtain ⟨row, _, h⟩ := List.mem_flatMap.mp h
    exact newline_notMem_rowLines false _ row line h

/-- Of the lines only those of the header and the rows have cells. -/
theorem filterMap_allLines (table : Table) (framed : Bool) :
    (table.allLines framed).filterMap cellsText? =
      (table.allRows.flatMap (rowLines (lineFrame framed) table.widths)).filterMap cellsText? := by
  cases framed with
  | true =>
    have rules : ∀ corners ∈ [topCorners, headerCorners, bottomCorners],
        cellsText? (rule corners table.widths) = none := by
      intro corners h
      simp only [List.mem_cons, List.not_mem_nil, or_false] at h
      obtain rfl | rfl | rfl := h <;> rfl
    have top := rules topCorners (by simp)
    have middle := rules headerCorners (by simp)
    have bottom := rules bottomCorners (by simp)
    simp [allLines, framedLines, allRows, lineFrame, top, middle, bottom]
  | false => rfl

theorem intercalate_concat_nil {α : Type} (x : α) {lists : List (List α)} (ne : lists ≠ []) :
    [x].intercalate (lists ++ [[]]) = [x].intercalate lists ++ [x] := by
  induction lists with
  | nil => exact absurd rfl ne
  | cons first rest ih =>
    cases rest with
    | nil => simp
    | cons second rest =>
      have later := ih (List.cons_ne_nil _ _)
      rw [List.intercalate_cons_cons, List.append_assoc, ← later]
      exact List.intercalate_cons_cons

theorem splitOn_write {table : Table} {framed : Bool} (ne : table.allLines framed ≠ []) :
    (table.write framed ++ "\n").toList.splitOn '\n' = table.allLines framed ++ [[]] := by
  have text : (table.write framed ++ "\n").toList =
      ['\n'].intercalate (table.allLines framed ++ [[]]) := by
    rw [intercalate_concat_nil _ ne]
    simp [write, allLines, String.toList_intercalate, Function.comp_def]
  rw [text]
  apply List.splitOn_intercalate
  · intro line h
    rcases List.mem_append.mp h with inside | last
    · exact newline_notMem_allLines table framed line inside
    · simp [List.mem_singleton.mp last]
  · simp

/-- The rows of a regular table are read back from its text, whether it is framed or open. -/
theorem readRows?_write {table : Table} (regular : table.Regular) (framed : Bool) :
    readRows? (table.write framed ++ "\n") = some (table.rows.map (·.map readCell)) := by
  have columns := widths_ne_nil regular
  have header : (rowLines (lineFrame framed) table.widths table.header).filterMap cellsText? =
      [(lineCells table.widths table.header 0).flatMap (spaced (separator framed))] := by
    rw [filterMap_rowLines framed columns (by simp [widths]), height_header regular]
    rfl
  have lines : (table.allLines framed).filterMap cellsText? =
      (lineCells table.widths table.header 0).flatMap (spaced (separator framed)) ::
        (table.rows.flatMap (rowLines (lineFrame framed) table.widths)).filterMap cellsText? := by
    rw [filterMap_allLines, allRows, List.flatMap_cons, List.filterMap_append, header]
    rfl
  have ne : table.allLines framed ≠ [] := by
    intro empty
    rw [empty] at lines
    cases lines
  have each : ∀ row ∈ table.rows,
      readRow table.widths.length (shownLines row) = row.map readCell := by
    intro row h
    have same : row.length = table.widths.length := by simp [widths, regular.filled row h]
    rw [← same, readRow_shownLines]
  rw [readRows?, splitOn_write ne, List.filterMap_append, lines]
  simp only [List.filterMap_cons, List.filterMap_nil, cellsText?, List.append_nil,
    readWidths_flatMap framed (padded_header regular), cutCells_rows framed regular,
    splitBy_shownLines regular.led, List.map_map]
  exact congrArg some (List.map_congr_left each)

end Text

end ApiCompat.Report.Table
