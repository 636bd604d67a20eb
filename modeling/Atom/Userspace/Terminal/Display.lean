import Mathlib
import Atom.Kernel.Graphics.Framebuffer
import Atom.Userspace.Terminal.Buffer
import Atom.Lib.ArrayLoop
import Atom.Lib.Loop

/-!
# Terminal — the display buffer

`DisplayBuffer` of `terminal/src/buffer.rs`: the text the terminal shows, in a fixed array of
`MAX_VISIBLE_LINES` lines of `MAX_LINE_LENGTH` cells.  `write_char` writes at the cursor and wraps
at the last column, `newline` moves the cursor down and scrolls the array up by one line at the
bottom, and `get_line` gives the renderer the lines in use.  The terminal sets the dimensions
from its window once, then writes its output through `write_str`, `writeln` and `newline`, and
`clear` empties the display.

What the display is for is said by `Screen`: the whole text written so far, as a list of lines
that never scrolls, and the column of the cursor.  The array, the line count, the cursor row and
the copies of `scroll_up` refine it (`Shows`): the lines `get_line` returns are the last
`max_rows` lines of the screen.

* `Shows.output`, `Shows.run`: one output, and so any run of them, keeps the refinement and never
  panics; the run is the library's simulation rule `Loop.foldlM_simulates`.
* `shown_run`: with at least one row, any run of outputs from the display the terminal makes never
  panics, and `get_line` gives the last rows of the screen the same outputs write.
-/

namespace Atom.Terminal.Display

open Lib Graphics

/-- `MAX_VISIBLE_LINES`. -/
def MAX_VISIBLE_LINES : Nat := 50

/-- `Theme::WINDOW_BG`. -/
def Theme.WINDOW_BG : Color := ⟨30, 30, 30⟩

/-- `Theme::TEXT_NORMAL`. -/
def Theme.TEXT_NORMAL : Color := ⟨220, 220, 220⟩

/-- `Cell`. -/
structure Cell where
  ch : UInt8
  fg : Color
  bg : Color
  deriving DecidableEq, Repr

/-- `Cell::empty`. -/
def Cell.empty : Cell := ⟨0x20, Theme.TEXT_NORMAL, Theme.WINDOW_BG⟩

/-- `Line`.  The cells are a function on the indices, of which the array has
`MAX_LINE_LENGTH`: a loop over them all is a copy of the whole line. -/
structure Line where
  cells : Nat → Cell
  len : Nat

namespace Line

/-- `Line::empty`. -/
def empty : Line := ⟨fun _ => Cell.empty, 0⟩

/-- `Line::get`. -/
def get (l : Line) (index : Nat) : Option Cell :=
  if index < l.len then some (l.cells index) else none

/-- `Line::set`. -/
def set (l : Line) (index : Nat) (cell : Cell) : Line :=
  if index < MAX_LINE_LENGTH then
    ⟨Function.update l.cells index cell, if index ≥ l.len then index + 1 else l.len⟩
  else l

end Line

/-- `DisplayBuffer`.  The lines are a function on the indices, of which the array has
`MAX_VISIBLE_LINES`; `set_dimensions` keeps the dimensions within the arrays. -/
structure DisplayBuffer where
  lines : Nat → Line
  lineCount : Nat
  cursorRow : Nat
  cursorCol : Nat
  maxRows : Nat
  maxCols : Nat
  scrollOffset : Nat
  maxRows_le : maxRows ≤ MAX_VISIBLE_LINES
  maxCols_le : maxCols ≤ MAX_LINE_LENGTH

/-- The loop `while line_count <= cursor_row { line_count += 1 }`. -/
def ensureLine (lineCount cursorRow : Nat) : Nat :=
  if lineCount ≤ cursorRow then ensureLine (lineCount + 1) cursorRow else lineCount
termination_by cursorRow + 1 - lineCount

namespace DisplayBuffer

/-- `DisplayBuffer::new`. -/
def new : DisplayBuffer :=
  ⟨fun _ => Line.empty, 0, 0, 0, 25, 80, 0, by decide, by decide⟩

/-- `set_dimensions`. -/
def setDimensions (d : DisplayBuffer) (rows cols : Nat) : DisplayBuffer :=
  { d with
    maxRows := min rows MAX_VISIBLE_LINES
    maxCols := min cols MAX_LINE_LENGTH
    maxRows_le := min_le_right _ _
    maxCols_le := min_le_right _ _ }

/-- `clear`: every line of the array emptied, and the cursor home. -/
def clear (d : DisplayBuffer) : DisplayBuffer :=
  { d with
    lines := fun _ => Line.empty
    lineCount := 0
    cursorRow := 0
    cursorCol := 0
    scrollOffset := 0 }

/-- `scroll_up`.  Every index it touches is below `max_rows`, within the array. -/
def scrollUp (d : DisplayBuffer) (n : Nat) : DisplayBuffer :=
  if n ≥ d.maxRows then d.clear
  else
    -- shift lines up
    let lines := (List.range (d.maxRows - n)).foldl
      (fun lines i => if i + n < d.maxRows then Function.update lines i (lines (i + n)) else lines)
      d.lines
    -- clear new lines at the bottom
    let lines := (List.range' (d.maxRows - n) n).foldl
      (fun lines i => Function.update lines i Line.empty) lines
    { d with lines }

/-- `newline`.  With no row, `max_rows - 1` underflows, and indexing the array with it fails:
either way the thread panics, which is `none`. -/
def newline (d : DisplayBuffer) : Option DisplayBuffer :=
  let d := { d with cursorCol := 0, cursorRow := d.cursorRow + 1 }
  let scrolled : Option DisplayBuffer :=
    if d.cursorRow ≥ d.maxRows then
      let d := d.scrollUp 1
      if d.maxRows = 0 then none else some { d with cursorRow := d.maxRows - 1 }
    else some d
  scrolled.bind fun d =>
    let d := { d with lineCount := ensureLine d.lineCount d.cursorRow }
    if d.cursorRow < MAX_VISIBLE_LINES then
      some { d with lines := Function.update d.lines d.cursorRow Line.empty }
    else none

/-- `write_char`.  An index past the array panics, which is `none`. -/
def writeChar (d : DisplayBuffer) (ch : UInt8) (fg : Color) : Option DisplayBuffer :=
  if ch = 0x0A then d.newline
  else if ch = 0x0D then some { d with cursorCol := 0 }
  else if ch = 0x08 then
    some (if d.cursorCol > 0 then { d with cursorCol := d.cursorCol - 1 } else d)
  else
    let d := { d with lineCount := ensureLine d.lineCount d.cursorRow }
    if d.cursorRow < MAX_VISIBLE_LINES then
      let d := { d with
        lines := Function.update d.lines d.cursorRow
          ((d.lines d.cursorRow).set d.cursorCol ⟨ch, fg, Theme.WINDOW_BG⟩)
        cursorCol := d.cursorCol + 1 }
      -- handle line wrap
      if d.cursorCol ≥ d.maxCols then d.newline else some d
    else none

/-- `write_str`, of the bytes of the string. -/
def writeStr (d : DisplayBuffer) (s : List UInt8) (fg : Color) : Option DisplayBuffer :=
  s.foldlM (fun d byte => d.writeChar byte fg) d

/-- `writeln`. -/
def writeln (d : DisplayBuffer) (s : List UInt8) (fg : Color) : Option DisplayBuffer :=
  (d.writeStr s fg).bind newline

/-- `get_line`. -/
def getLine (d : DisplayBuffer) (row : Nat) : Option Line :=
  if row < d.maxRows ∧ row < d.lineCount then some (d.lines row) else none

/-- `set_cursor`. -/
def setCursor (d : DisplayBuffer) (row col : Nat) : DisplayBuffer :=
  { d with cursorRow := min row (d.maxRows - 1), cursorCol := min col (d.maxCols - 1) }

end DisplayBuffer


/-! ### What the display is for -/

/-- The last `rows` elements of a list: the lines a window of `rows` rows shows. -/
def lastRows {α : Type*} (rows : Nat) (l : List α) : List α := l.drop (l.length - rows)

/-- The text written on the terminal: all its lines, the last the one the cursor is on, and the
column of the cursor. -/
structure Screen where
  lines : List (List Cell)
  col : Nat

namespace Screen

/-- Nothing written. -/
def empty : Screen := ⟨[], 0⟩

/-- The lines, with the cursor's line made: the first character or line break makes it. -/
def opened (s : Screen) : List (List Cell) := if s.lines = [] then [[]] else s.lines

/-- The line the cursor is on. -/
def current (s : Screen) : List Cell := s.lines.getLastD []

/-- A line break: a new line, with the cursor at its start. -/
def newline (s : Screen) : Screen := ⟨s.opened ++ [[]], 0⟩

/-- A character at the cursor: it replaces the cell there, or extends the line. -/
def write (s : Screen) (c : Cell) : Screen :=
  ⟨s.opened.dropLast ++
    [if s.col < s.current.length then s.current.set s.col c else s.current ++ [c]], s.col + 1⟩

/-- A character on a screen of `cols` columns: a line of `cols` cells is full, and the cursor goes
on to a new line. -/
def put (cols : Nat) (s : Screen) (c : Cell) : Screen :=
  if cols ≤ (s.write c).col then (s.write c).newline else s.write c

/-- The lines a window of `rows` rows shows. -/
def visible (rows : Nat) (s : Screen) : List (List Cell) := lastRows rows s.lines

end Screen

/-- What the terminal does to its display: write a byte in a colour, or clear it.  `write_str`
writes its bytes in turn, `newline` is the byte `'\n'`, and `writeln` is both. -/
inductive Output where
  | write (ch : UInt8) (fg : Color)
  | clear

/-- An output on the screen, for a display of `cols` columns. -/
def Screen.output (cols : Nat) (s : Screen) : Output → Screen
  | .write ch fg =>
      if ch = 0x0A then s.newline
      else if ch = 0x0D then { s with col := 0 }
      else if ch = 0x08 then { s with col := s.col - 1 }
      else s.put cols ⟨ch, fg, Theme.WINDOW_BG⟩
  | .clear => empty

/-- Outputs, in turn, on the screen. -/
def Screen.run (cols : Nat) (s : Screen) (outs : List Output) : Screen := outs.foldl (output cols) s

namespace DisplayBuffer

/-- An output on the display: `none` when it panics. -/
def output (d : DisplayBuffer) : Output → Option DisplayBuffer
  | .write ch fg => d.writeChar ch fg
  | .clear => some d.clear

/-- Outputs, in turn, on the display. -/
def run (d : DisplayBuffer) (outs : List Output) : Option DisplayBuffer := outs.foldlM output d

end DisplayBuffer

namespace Line

/-- The line holding the cells `cs`, the rest of its array empty. -/
def ofCells (cs : List Cell) : Line := ⟨fun j => cs.getD j Cell.empty, cs.length⟩

/-- The cells up to the line's length: those the renderer draws. -/
def toCells (l : Line) : List Cell := (List.range l.len).map l.cells

end Line

/-- What the display shows: the cells of each line `get_line` returns, row by row. -/
def DisplayBuffer.shown (d : DisplayBuffer) : List (List Cell) :=
  (List.range d.maxRows).filterMap fun row => (d.getLine row).map Line.toCells

/-- The display shows the screen: the cursor is at the end of the lines shown, which are the last
`max_rows` lines of the screen, each line of the array holding the cells of its line. -/
structure Shows (d : DisplayBuffer) (s : Screen) : Prop where
  rows_pos : 0 < d.maxRows
  col_eq : d.cursorCol = s.col
  col_le : s.col ≤ s.current.length
  lineCount_eq : d.lineCount = (s.visible d.maxRows).length
  cursorRow_eq : d.cursorRow = (s.visible d.maxRows).length - 1
  lines_eq : ∀ row < MAX_VISIBLE_LINES, d.lines row = Line.ofCells ((s.visible d.maxRows).getD row [])

/-! ### The loops and the lines -/

theorem ensureLine_eq (lineCount cursorRow : Nat) :
    ensureLine lineCount cursorRow = max lineCount (cursorRow + 1) := by
  unfold ensureLine
  split_ifs with h
  · rw [ensureLine_eq]
    omega
  · omega
termination_by cursorRow + 1 - lineCount

namespace Line

theorem toCells_ofCells (cs : List Cell) : (ofCells cs).toCells = cs := by
  apply List.ext_getElem
  · simp [toCells, ofCells]
  · intro i h1 h2
    simp [toCells, ofCells, List.getD_eq_getElem?_getD, List.getElem?_eq_getElem h2]

/-- `Line::set` at the end of the cells or within them. -/
theorem set_ofCells {cs : List Cell} {i : Nat} (hi : i ≤ cs.length) (hmax : i < MAX_LINE_LENGTH)
    (c : Cell) :
    (ofCells cs).set i c = ofCells (if i < cs.length then cs.set i c else cs ++ [c]) := by
  unfold set
  rw [if_pos hmax]
  by_cases hlt : i < cs.length
  · rw [if_pos hlt, ofCells, ofCells, if_neg (by simp; omega), List.length_set]
    congr 1
    funext j
    by_cases hj : j = i
    · subst hj
      simp [List.getD_eq_getElem?_getD, hlt]
    · simp [Function.update_of_ne hj, List.getD_eq_getElem?_getD, Ne.symm hj]
  · have heq : i = cs.length := by omega
    subst heq
    rw [if_neg hlt, ofCells, ofCells, if_pos (le_refl _), List.length_append, List.length_singleton]
    congr 1
    funext j
    by_cases hj : j = cs.length
    · subst hj
      simp [List.getD_eq_getElem?_getD]
    · rw [Function.update_of_ne hj]
      simp only [List.getD_eq_getElem?_getD, List.getElem?_append]
      split_ifs with hjl
      · rfl
      · rw [List.getElem?_eq_none (by omega), List.getElem?_singleton, if_neg (by omega)]

end Line

section LastRows

variable {α : Type*}

theorem length_lastRows (rows : Nat) (l : List α) : (lastRows rows l).length = min l.length rows := by
  simp only [lastRows, List.length_drop]
  omega

theorem lastRows_of_length_le {rows : Nat} {l : List α} (h : l.length ≤ rows) : lastRows rows l = l := by
  rw [lastRows, Nat.sub_eq_zero_of_le h, List.drop_zero]

/-- A line added below a window that is full scrolls its first line out. -/
theorem lastRows_concat_of_le {rows : Nat} {l : List α} (h : rows ≤ l.length) (hrows : 0 < rows)
    (x : α) : lastRows rows (l ++ [x]) = (lastRows rows l).tail ++ [x] := by
  rw [lastRows, lastRows, List.tail_drop, List.length_append, List.length_singleton,
    List.drop_append_of_le_length (by omega)]
  congr 2
  omega

/-- Changing the last line changes the last line shown. -/
theorem lastRows_dropLast_concat {rows : Nat} {l : List α} (hl : l ≠ []) (hrows : 0 < rows)
    (x : α) : lastRows rows (l.dropLast ++ [x]) = (lastRows rows l).dropLast ++ [x] := by
  have hlen : (l.dropLast ++ [x]).length = l.length := by
    rw [List.length_append, List.length_dropLast, List.length_singleton]
    have := List.length_pos_iff.mpr hl
    omega
  rw [lastRows, lastRows, hlen, List.drop_append_of_le_length (by simp; omega),
    List.dropLast_drop_eq_drop_dropLast]

theorem getLastD_lastRows {rows : Nat} (hrows : 0 < rows) (l : List α) (a : α) :
    (lastRows rows l).getLastD a = l.getLastD a := by
  rcases List.eq_nil_or_concat l with rfl | ⟨l', b, rfl⟩
  · simp [lastRows]
  · rw [List.concat_eq_append]
    rcases Nat.lt_or_ge l'.length rows with h | h
    · rw [lastRows_of_length_le (by simp; omega)]
    · rw [lastRows_concat_of_le h hrows]
      simp

theorem getD_concat_self (l : List α) (x : α) (i : Nat) : (l ++ [x]).getD i x = l.getD i x := by
  simp only [List.getD_eq_getElem?_getD, List.getElem?_append]
  split_ifs with hi
  · rfl
  · -- past `l`, both sides read the default
    rw [List.getElem?_eq_none (l := l) (by omega), List.getElem?_singleton]
    split_ifs <;> rfl

theorem getD_tail (l : List α) (i : Nat) (x : α) : l.tail.getD i x = l.getD (i + 1) x := by
  simp only [List.getD_eq_getElem?_getD, List.getElem?_tail]

theorem getD_dropLast_concat {l : List α} (hl : l ≠ []) (y x : α) (i : Nat) :
    (l.dropLast ++ [y]).getD i x = if i = l.length - 1 then y else l.getD i x := by
  have hlen := List.length_pos_iff.mpr hl
  simp only [List.getD_eq_getElem?_getD, List.getElem?_append, List.length_dropLast]
  split_ifs with hi hi' hi'
  · omega
  · rw [List.getElem?_dropLast, if_pos hi]
  · subst hi'
    simp
  · rw [List.getElem?_eq_none (by simp; omega), List.getElem?_eq_none (by omega)]

theorem getD_length_sub_one (l : List α) (x : α) :
    l.getD (l.length - 1) x = l.getLastD x := by
  rw [List.getLastD_eq_getLast?, List.getLast?_eq_getElem?, List.getD_eq_getElem?_getD]

/-- The rows below `n` that pass a bound `m`, read in turn. -/
theorem filterMap_range_of_lt {β : Type*} (f : Nat → β) (m : Nat) :
    ∀ n, (List.range n).filterMap (fun i => if i < m then some (f i) else none) =
      (List.range (min n m)).map f
  | 0 => rfl
  | n + 1 => by
      rw [List.range_succ, List.filterMap_append, filterMap_range_of_lt f m n]
      by_cases hn : n < m
      · rw [show min (n + 1) m = min n m + 1 by omega, List.range_succ, List.map_append,
          show min n m = n by omega]
        simp [hn]
      · rw [show min (n + 1) m = min n m by omega]
        simp [hn]

theorem lastRows_eq_nil {rows : Nat} (hrows : 0 < rows) {l : List α} :
    lastRows rows l = [] ↔ l = [] := by
  rw [← List.length_eq_zero_iff, length_lastRows, ← List.length_eq_zero_iff]
  omega

end LastRows

/-! ### What each operation does -/

namespace DisplayBuffer

variable {d : DisplayBuffer}

/-- `scroll_up` by fewer lines than there are rows: the lines move up by `n`, and the last `n`
rows are emptied. -/
theorem scrollUp_of_lt {n : Nat} (h : n < d.maxRows) :
    d.scrollUp n = { d with
      lines := fun i => if d.maxRows - n ≤ i ∧ i < d.maxRows - n + n then Line.empty
        else if i < d.maxRows - n then d.lines (i + n) else d.lines i } := by
  unfold scrollUp
  rw [if_neg (by omega)]
  dsimp only
  rw [ArrayLoop.foldl_shiftDown d.lines (by omega), ArrayLoop.foldl_fill]

theorem newline_of_lt (h : d.cursorRow + 1 < d.maxRows) :
    d.newline = some { d with
      cursorCol := 0
      cursorRow := d.cursorRow + 1
      lineCount := max d.lineCount (d.cursorRow + 1 + 1)
      lines := Function.update d.lines (d.cursorRow + 1) Line.empty } := by
  have hmax := d.maxRows_le
  unfold newline
  dsimp only
  rw [if_neg (by omega), Option.bind_some, ensureLine_eq,
    if_pos (show d.cursorRow + 1 < MAX_VISIBLE_LINES by omega)]

/-- At the bottom of two rows or more, a line break scrolls the lines up by one. -/
theorem newline_of_le (h : d.maxRows ≤ d.cursorRow + 1) (h2 : 1 < d.maxRows) :
    d.newline = some { d with
      cursorCol := 0
      cursorRow := d.maxRows - 1
      lineCount := max d.lineCount d.maxRows
      lines := Function.update (fun i => if d.maxRows - 1 ≤ i ∧ i < d.maxRows - 1 + 1 then Line.empty
        else if i < d.maxRows - 1 then d.lines (i + 1) else d.lines i) (d.maxRows - 1) Line.empty } := by
  have hmax := d.maxRows_le
  unfold newline
  dsimp only
  rw [if_pos h, scrollUp_of_lt (by exact h2)]
  dsimp only
  rw [if_neg (by omega), Option.bind_some, ensureLine_eq,
    if_pos (show d.maxRows - 1 < MAX_VISIBLE_LINES by omega),
    show d.maxRows - 1 + 1 = d.maxRows by omega]

/-- With one row, a line break clears the display and starts its one line again. -/
theorem newline_of_one (h : d.maxRows = 1) :
    d.newline = some { d with
      cursorCol := 0
      cursorRow := 0
      lineCount := 1
      scrollOffset := 0
      lines := Function.update (fun _ => Line.empty) 0 Line.empty } := by
  unfold newline
  dsimp only
  rw [if_pos (show d.maxRows ≤ d.cursorRow + 1 by omega)]
  unfold scrollUp
  rw [if_pos (show 1 ≥ d.maxRows by omega)]
  unfold clear
  dsimp only
  have h0 : d.maxRows - 1 = 0 := by omega
  rw [if_neg (by omega), Option.bind_some, ensureLine_eq]
  simp only [h0]
  rfl

theorem writeChar_lf (fg : Color) : d.writeChar 0x0A fg = d.newline := if_pos rfl

theorem writeChar_cr (fg : Color) : d.writeChar 0x0D fg = some { d with cursorCol := 0 } := by
  rw [writeChar, if_neg (by decide), if_pos rfl]

theorem writeChar_bs (fg : Color) :
    d.writeChar 0x08 fg = some { d with cursorCol := d.cursorCol - 1 } := by
  rw [writeChar, if_neg (by decide), if_neg (by decide), if_pos rfl]
  split_ifs with hcol
  · rfl
  · -- at the first column the cursor stays, as `0 - 1` does in `Nat`
    obtain ⟨lines, lineCount, cursorRow, cursorCol, maxRows, maxCols, scrollOffset, h1, h2⟩ := d
    have h0 : cursorCol = 0 := by simp at hcol; omega
    subst h0
    rfl

/-- A byte that is not a control byte is written at the cursor, and the line wraps at the last
column. -/
theorem writeChar_put {ch : UInt8} (hlf : ch ≠ 0x0A) (hcr : ch ≠ 0x0D) (hbs : ch ≠ 0x08)
    (hrow : d.cursorRow < MAX_VISIBLE_LINES) (fg : Color) :
    d.writeChar ch fg =
      let d' := { d with
        lineCount := max d.lineCount (d.cursorRow + 1)
        lines := Function.update d.lines d.cursorRow
          ((d.lines d.cursorRow).set d.cursorCol ⟨ch, fg, Theme.WINDOW_BG⟩)
        cursorCol := d.cursorCol + 1 }
      if d.maxCols ≤ d.cursorCol + 1 then d'.newline else some d' := by
  rw [writeChar, if_neg hlf, if_neg hcr, if_neg hbs]
  dsimp only
  rw [ensureLine_eq, if_pos hrow]

/-- `write_str` is the outputs writing its bytes. -/
theorem writeStr_eq_run (d : DisplayBuffer) (str : List UInt8) (fg : Color) :
    d.writeStr str fg = d.run (str.map fun b => .write b fg) := by
  rw [writeStr, run, List.foldlM_map]
  rfl

/-- `writeln` is the outputs writing its bytes and then `'\n'`. -/
theorem writeln_eq_run (d : DisplayBuffer) (str : List UInt8) (fg : Color) :
    d.writeln str fg = d.run (str.map (fun b => .write b fg) ++ [.write 0x0A fg]) := by
  rw [writeln, run, List.foldlM_append, ← run, ← writeStr_eq_run]
  congr 1
  funext d'
  simp only [List.foldlM_cons, List.foldlM_nil, bind_pure]
  exact (writeChar_lf fg).symm

end DisplayBuffer

/-! ### The screen -/

namespace Screen

variable (s : Screen)

theorem opened_ne_nil : s.opened ≠ [] := by
  unfold opened
  split_ifs with h
  · exact List.cons_ne_nil _ _
  · exact h

theorem getLastD_opened : s.opened.getLastD [] = s.current := by
  unfold opened current
  split_ifs with h
  · rw [h]
    rfl
  · rfl

theorem current_write (c : Cell) :
    (s.write c).current =
      if s.col < s.current.length then s.current.set s.col c else s.current ++ [c] := by
  rw [current, write, List.getLastD_eq_getLast?, List.getLast?_concat, Option.getD_some]

end Screen

/-! ### The display refines the screen -/

namespace Shows

variable {d : DisplayBuffer} {s : Screen}

theorem visible_length_le (s : Screen) (rows : Nat) : (s.visible rows).length ≤ rows := by
  rw [Screen.visible, length_lastRows]
  omega

/-- The display seen with the cursor's line made: the cursor is on the last line shown, the line
count is at most that, and the array holds the lines shown. -/
theorem opened (h : Shows d s) :
    (lastRows d.maxRows s.opened).length = d.cursorRow + 1 ∧ d.lineCount ≤ d.cursorRow + 1 ∧
      ∀ row < MAX_VISIBLE_LINES,
        d.lines row = Line.ofCells ((lastRows d.maxRows s.opened).getD row []) := by
  by_cases hs : s.lines = []
  · -- nothing written yet: the one line made is empty, as every line of the array is
    have hvis : s.visible d.maxRows = [] := by
      rw [Screen.visible, hs]
      exact (lastRows_eq_nil h.rows_pos).mpr rfl
    have hopen : lastRows d.maxRows s.opened = [[]] := by
      rw [Screen.opened, if_pos hs, lastRows_of_length_le (by simp; exact h.rows_pos)]
    rw [hopen]
    refine ⟨by rw [h.cursorRow_eq, hvis]; rfl, by rw [h.lineCount_eq, hvis]; simp, fun row hrow => ?_⟩
    rw [h.lines_eq row hrow, hvis]
    cases row <;> rfl
  · have hopen : lastRows d.maxRows s.opened = s.visible d.maxRows := by
      rw [Screen.opened, if_neg hs]
      rfl
    have hne : s.visible d.maxRows ≠ [] := fun he => hs ((lastRows_eq_nil h.rows_pos).mp he)
    have hpos := List.length_pos_iff.mpr hne
    rw [hopen]
    exact ⟨by rw [h.cursorRow_eq]; omega, by rw [h.lineCount_eq, h.cursorRow_eq]; omega, h.lines_eq⟩

theorem visible_newline (s : Screen) (rows : Nat) :
    s.newline.visible rows = lastRows rows (s.opened ++ [[]]) := rfl

/-- A line break with a row free below: the lines shown are all the lines, and one more. -/
theorem newline_of_lt (h : Shows d s) (hlt : d.cursorRow + 1 < d.maxRows) :
    ∃ d', d.newline = some d' ∧ d'.maxRows = d.maxRows ∧ d'.maxCols = d.maxCols ∧
      Shows d' s.newline := by
  obtain ⟨hlen, hcount, hlines⟩ := h.opened
  have hshown := length_lastRows d.maxRows s.opened
  have hall : lastRows d.maxRows s.opened = s.opened := lastRows_of_length_le (by omega)
  have hvis : s.newline.visible d.maxRows = s.opened ++ [[]] := by
    rw [visible_newline, lastRows_of_length_le (by simp; omega)]
  rw [hall] at hlen hlines
  refine ⟨_, DisplayBuffer.newline_of_lt hlt, rfl, rfl,
    ⟨h.rows_pos, rfl, Nat.zero_le _, ?_, ?_, fun row hrow => ?_⟩⟩
  · show max d.lineCount (d.cursorRow + 1 + 1) = (s.newline.visible d.maxRows).length
    rw [hvis, List.length_append, hlen, List.length_singleton]
    omega
  · show d.cursorRow + 1 = (s.newline.visible d.maxRows).length - 1
    rw [hvis, List.length_append, hlen, List.length_singleton]
    rfl
  · show Function.update d.lines (d.cursorRow + 1) Line.empty row = _
    rw [hvis, getD_concat_self]
    by_cases hrow' : row = d.cursorRow + 1
    · rw [hrow', Function.update_self, List.getD_eq_default _ _ (by omega)]
      rfl
    · rw [Function.update_of_ne hrow', hlines row hrow]

/-- A line break on a display of one row: it starts its one line again. -/
theorem newline_of_one (h : Shows d s) (hone : d.maxRows = 1) :
    ∃ d', d.newline = some d' ∧ d'.maxRows = d.maxRows ∧ d'.maxCols = d.maxCols ∧
      Shows d' s.newline := by
  obtain ⟨hlen, -, -⟩ := h.opened
  have hshown := length_lastRows d.maxRows s.opened
  have hvis : s.newline.visible d.maxRows = [[]] := by
    have htail : (lastRows d.maxRows s.opened).tail = [] :=
      List.eq_nil_of_length_eq_zero (by rw [List.length_tail]; omega)
    rw [visible_newline, lastRows_concat_of_le (by omega) h.rows_pos, htail]
    rfl
  refine ⟨_, DisplayBuffer.newline_of_one hone, rfl, rfl,
    ⟨h.rows_pos, rfl, Nat.zero_le _, ?_, ?_, fun row hrow => ?_⟩⟩
  · show 1 = (s.newline.visible d.maxRows).length
    rw [hvis]
    rfl
  · show 0 = (s.newline.visible d.maxRows).length - 1
    rw [hvis]
    rfl
  · show Function.update (fun _ => Line.empty) 0 Line.empty row = _
    rw [hvis]
    by_cases h0 : row = 0
    · subst h0
      rfl
    · rw [Function.update_of_ne h0, List.getD_eq_default _ _ (by simp; omega)]
      rfl

/-- A line break at the bottom of two rows or more: the lines move up by one, and the last row
is a new line. -/
theorem newline_of_le (h : Shows d s) (hge : d.maxRows ≤ d.cursorRow + 1) (h2 : 1 < d.maxRows) :
    ∃ d', d.newline = some d' ∧ d'.maxRows = d.maxRows ∧ d'.maxCols = d.maxCols ∧
      Shows d' s.newline := by
  obtain ⟨hlen, hcount, hlines⟩ := h.opened
  have hmax := d.maxRows_le
  have hshown := length_lastRows d.maxRows s.opened
  have hfull : (lastRows d.maxRows s.opened).length = d.maxRows := by omega
  have hvis : s.newline.visible d.maxRows = (lastRows d.maxRows s.opened).tail ++ [[]] := by
    rw [visible_newline, lastRows_concat_of_le (by omega) h.rows_pos]
  refine ⟨_, DisplayBuffer.newline_of_le hge h2, rfl, rfl,
    ⟨h.rows_pos, rfl, Nat.zero_le _, ?_, ?_, fun row hrow => ?_⟩⟩
  · show max d.lineCount d.maxRows = (s.newline.visible d.maxRows).length
    rw [hvis, List.length_append, List.length_tail, hfull, List.length_singleton]
    omega
  · show d.maxRows - 1 = (s.newline.visible d.maxRows).length - 1
    rw [hvis, List.length_append, List.length_tail, hfull, List.length_singleton]
    omega
  · rw [hvis, getD_concat_self, getD_tail]
    dsimp only
    by_cases hlast : row = d.maxRows - 1
    · rw [hlast, Function.update_self, List.getD_eq_default _ _ (by omega)]
      rfl
    · -- a row above the last reads the row below it, as `scroll_up` copied it
      rw [Function.update_of_ne hlast, if_neg (by omega)]
      split_ifs with hup
      · rw [hlines (row + 1) (by omega)]
      · rw [hlines row hrow, List.getD_eq_default _ _ (by omega),
          List.getD_eq_default _ _ (by omega)]

/-- **A line break**, at any row, keeps the display showing the screen. -/
theorem newline (h : Shows d s) :
    ∃ d', d.newline = some d' ∧ d'.maxRows = d.maxRows ∧ d'.maxCols = d.maxCols ∧
      Shows d' s.newline := by
  -- the three branches of `newline`: no scroll, a scroll that clears, a scroll by one line
  rcases Nat.lt_or_ge (d.cursorRow + 1) d.maxRows with hlt | hge
  · exact h.newline_of_lt hlt
  · rcases Nat.lt_or_ge 1 d.maxRows with h2 | h1
    · exact h.newline_of_le hge h2
    · exact h.newline_of_one (by have := h.rows_pos; omega)

theorem cursorRow_lt (h : Shows d s) : d.cursorRow < MAX_VISIBLE_LINES := by
  have := visible_length_le s d.maxRows
  have := d.maxRows_le
  have := h.rows_pos
  rw [h.cursorRow_eq]
  omega

/-- The cells of the array's line at the cursor are those of the screen's last line. -/
theorem current_eq (h : Shows d s) : (lastRows d.maxRows s.opened).getD d.cursorRow [] = s.current := by
  obtain ⟨hlen, -, -⟩ := h.opened
  rw [show d.cursorRow = (lastRows d.maxRows s.opened).length - 1 by omega, getD_length_sub_one,
    getLastD_lastRows h.rows_pos, Screen.getLastD_opened]

/-- A character written at the cursor, before the line wraps: the array's line at the cursor
row gets the cell, as the screen's last line does. -/
theorem write (h : Shows d s) (hcol : s.col < max d.maxCols 1) (c : Cell) :
    Shows { d with
        lineCount := max d.lineCount (d.cursorRow + 1)
        lines := Function.update d.lines d.cursorRow ((d.lines d.cursorRow).set d.cursorCol c)
        cursorCol := d.cursorCol + 1 }
      (s.write c) := by
  obtain ⟨hlen, hcount, hlines⟩ := h.opened
  have hne : lastRows d.maxRows s.opened ≠ [] := List.ne_nil_of_length_pos (by omega)
  have hvis : (s.write c).visible d.maxRows = (lastRows d.maxRows s.opened).dropLast ++
      [if s.col < s.current.length then s.current.set s.col c else s.current ++ [c]] :=
    lastRows_dropLast_concat s.opened_ne_nil h.rows_pos _
  have hlen' : ((s.write c).visible d.maxRows).length = d.cursorRow + 1 := by
    rw [hvis, List.length_append, List.length_dropLast, List.length_singleton]
    omega
  refine ⟨h.rows_pos, by rw [h.col_eq]; rfl, ?_, ?_, ?_, fun row hrow => ?_⟩
  · show s.col + 1 ≤ (s.write c).current.length
    have := h.col_le
    rw [Screen.current_write]
    split_ifs with hlt
    · rw [List.length_set]
      omega
    · rw [List.length_append, List.length_singleton]
      omega
  · show max d.lineCount (d.cursorRow + 1) = ((s.write c).visible d.maxRows).length
    omega
  · show d.cursorRow = ((s.write c).visible d.maxRows).length - 1
    omega
  · show Function.update d.lines d.cursorRow _ row = _
    rw [hvis, getD_dropLast_concat hne]
    by_cases hr : row = d.cursorRow
    · -- the cursor's line: `Line::set` at the cursor is the screen's write in its last line
      have hmax : s.col < MAX_LINE_LENGTH := by
        have := d.maxCols_le
        have : 0 < MAX_LINE_LENGTH := by decide
        omega
      subst hr
      rw [Function.update_self, if_pos (by omega), hlines _ h.cursorRow_lt, h.current_eq, h.col_eq,
        Line.set_ofCells h.col_le hmax]
    · rw [Function.update_of_ne hr, if_neg (by omega), hlines row hrow]

/-- **A character** that is not a control byte keeps the display showing the screen, and the
cursor within the columns. -/
theorem put (h : Shows d s) (hcol : s.col < max d.maxCols 1) {ch : UInt8} (hlf : ch ≠ 0x0A)
    (hcr : ch ≠ 0x0D) (hbs : ch ≠ 0x08) (fg : Color) :
    ∃ d', d.writeChar ch fg = some d' ∧ d'.maxRows = d.maxRows ∧ d'.maxCols = d.maxCols ∧
      Shows d' (s.put d.maxCols ⟨ch, fg, Theme.WINDOW_BG⟩) ∧
      (s.put d.maxCols ⟨ch, fg, Theme.WINDOW_BG⟩).col < max d.maxCols 1 := by
  have hw := h.write hcol ⟨ch, fg, Theme.WINDOW_BG⟩
  rw [DisplayBuffer.writeChar_put hlf hcr hbs h.cursorRow_lt fg, Screen.put]
  dsimp only
  have hwcol : (s.write ⟨ch, fg, Theme.WINDOW_BG⟩).col = d.cursorCol + 1 := by
    rw [h.col_eq]
    rfl
  by_cases hwrap : d.maxCols ≤ d.cursorCol + 1
  · -- the line is full: the display's line break is the screen's
    rw [if_pos hwrap, if_pos (by rw [hwcol]; exact hwrap)]
    obtain ⟨d', hd', hr, hc, hs⟩ := hw.newline
    exact ⟨d', hd', hr, hc, hs, by show 0 < max d.maxCols 1; omega⟩
  · rw [if_neg hwrap, if_neg (by rw [hwcol]; exact hwrap)]
    exact ⟨_, rfl, rfl, rfl, hw, by rw [hwcol]; omega⟩

theorem carriageReturn (h : Shows d s) : Shows { d with cursorCol := 0 } { s with col := 0 } :=
  ⟨h.rows_pos, rfl, Nat.zero_le _, h.lineCount_eq, h.cursorRow_eq, h.lines_eq⟩

theorem backspace (h : Shows d s) :
    Shows { d with cursorCol := d.cursorCol - 1 } { s with col := s.col - 1 } :=
  ⟨h.rows_pos, by rw [h.col_eq], le_trans (Nat.sub_le _ _) h.col_le, h.lineCount_eq,
    h.cursorRow_eq, h.lines_eq⟩

end Shows

/-- A display with its lines empty and the cursor home shows nothing written. -/
theorem shows_empty {d : DisplayBuffer} (hrows : 0 < d.maxRows) (hcount : d.lineCount = 0)
    (hrow : d.cursorRow = 0) (hcol : d.cursorCol = 0) (hlines : ∀ row, d.lines row = Line.empty) :
    Shows d Screen.empty := by
  have hvis : Screen.empty.visible d.maxRows = [] := (lastRows_eq_nil hrows).mpr rfl
  refine ⟨hrows, hcol, Nat.zero_le _, ?_, ?_, fun row _ => ?_⟩
  · rw [hvis, hcount]
    rfl
  · rw [hvis, hrow]
    rfl
  · rw [hvis, hlines]
    rfl

namespace Shows

variable {d : DisplayBuffer} {s : Screen}

theorem clear (h : Shows d s) : Shows d.clear Screen.empty :=
  shows_empty h.rows_pos rfl rfl rfl fun _ => rfl

/-- **One output** keeps the display showing the screen: the step of the refinement. -/
theorem output (h : Shows d s) (hcol : s.col < max d.maxCols 1) (o : Output) :
    ∃ d', d.output o = some d' ∧ d'.maxRows = d.maxRows ∧ d'.maxCols = d.maxCols ∧
      Shows d' (s.output d.maxCols o) ∧ (s.output d.maxCols o).col < max d.maxCols 1 := by
  cases o with
  | clear => exact ⟨_, rfl, rfl, rfl, h.clear, by show 0 < max d.maxCols 1; omega⟩
  | write ch fg =>
      show ∃ d', d.writeChar ch fg = some d' ∧ _
      rw [Screen.output]
      -- the bytes `write_char` tests, in its order
      by_cases hlf : ch = 0x0A
      · subst hlf
        rw [if_pos rfl, DisplayBuffer.writeChar_lf]
        obtain ⟨d', hd', hr, hc, hs⟩ := h.newline
        exact ⟨d', hd', hr, hc, hs, by show 0 < max d.maxCols 1; omega⟩
      by_cases hcr : ch = 0x0D
      · subst hcr
        rw [if_neg (by decide), if_pos rfl, DisplayBuffer.writeChar_cr]
        exact ⟨_, rfl, rfl, rfl, h.carriageReturn, by show 0 < max d.maxCols 1; omega⟩
      by_cases hbs : ch = 0x08
      · subst hbs
        rw [if_neg (by decide), if_neg (by decide), if_pos rfl, DisplayBuffer.writeChar_bs]
        exact ⟨_, rfl, rfl, rfl, h.backspace, by show s.col - 1 < max d.maxCols 1; omega⟩
      rw [if_neg hlf, if_neg hcr, if_neg hbs]
      exact h.put hcol hlf hcr hbs fg

/-- **A run of outputs** keeps the display showing the screen, and never panics: the run
lemma, from `output` by the library's simulation rule. -/
theorem run (h : Shows d s) (hcol : s.col < max d.maxCols 1) (outs : List Output) :
    ∃ d', d.run outs = some d' ∧ d'.maxRows = d.maxRows ∧ d'.maxCols = d.maxCols ∧
      Shows d' (s.run d.maxCols outs) ∧ (s.run d.maxCols outs).col < max d.maxCols 1 := by
  -- the relation carried: the refinement, the cursor within the columns, the dimensions kept
  obtain ⟨d', hd', hS, hcol', hrows, hcols⟩ := Loop.foldlM_simulates (f := DisplayBuffer.output)
    (g := Screen.output d.maxCols)
    (fun d₁ s₁ => Shows d₁ s₁ ∧ s₁.col < max d₁.maxCols 1 ∧ d₁.maxRows = d.maxRows ∧
      d₁.maxCols = d.maxCols)
    (fun d₁ s₁ o ⟨h₁, hcol₁, hr₁, hc₁⟩ => by
      obtain ⟨d₂, hd₂, hr₂, hc₂, h₂, hcol₂⟩ := h₁.output hcol₁ o
      rw [hc₁] at h₂ hcol₂
      exact ⟨d₂, hd₂, h₂, by rw [hc₂, hc₁]; exact hcol₂, hr₂.trans hr₁, hc₂.trans hc₁⟩)
    outs ⟨h, hcol, rfl, rfl⟩
  exact ⟨d', hd', hrows, hcols, hS, by rw [hcols] at hcol'; exact hcol'⟩

/-- What `get_line` gives the renderer, row by row, is the screen's last lines. -/
theorem shown_eq (h : Shows d s) : d.shown = s.visible d.maxRows := by
  have hcount : d.lineCount ≤ d.maxRows := by
    rw [h.lineCount_eq]
    exact visible_length_le s d.maxRows
  have hmax := d.maxRows_le
  -- below `max_rows`, `get_line` answers exactly for the rows in use
  have hget : ∀ row ∈ List.range d.maxRows, (d.getLine row).map Line.toCells =
      if row < d.lineCount then some (d.lines row).toCells else none := by
    intro row hrow
    rw [List.mem_range] at hrow
    unfold DisplayBuffer.getLine
    by_cases hlt : row < d.lineCount
    · rw [if_pos ⟨hrow, hlt⟩, if_pos hlt, Option.map_some]
    · rw [if_neg (fun hc => hlt hc.2), if_neg hlt, Option.map_none]
  unfold DisplayBuffer.shown
  rw [List.filterMap_congr hget, filterMap_range_of_lt, min_eq_right hcount]
  apply List.ext_getElem
  · rw [List.length_map, List.length_range, h.lineCount_eq]
  · intro row h1 h2
    rw [List.getElem_map, List.getElem_range, h.lines_eq row (by simp at h1; omega),
      Line.toCells_ofCells, List.getD_eq_getElem _ _ h2]

end Shows

/-- The display `set_dimensions` makes of `new`, with at least one row, shows nothing written. -/
theorem shows_setDimensions {rows : Nat} (cols : Nat) (hrows : 0 < rows) :
    Shows (DisplayBuffer.new.setDimensions rows cols) Screen.empty :=
  shows_empty (show 0 < min rows MAX_VISIBLE_LINES by
    have : 0 < MAX_VISIBLE_LINES := by decide
    omega) rfl rfl rfl fun _ => rfl

/-- **The display shows the last rows of the screen.**  With at least one row, any run of the
terminal's outputs from the display it makes (`new`, then `set_dimensions`) never panics, and the
lines `get_line` gives are the last `max_rows` lines of the text the outputs write. -/
theorem shown_run {rows : Nat} (cols : Nat) (hrows : 0 < rows) (outs : List Output) :
    ((DisplayBuffer.new.setDimensions rows cols).run outs).map DisplayBuffer.shown =
      some ((Screen.empty.run (min cols MAX_LINE_LENGTH) outs).visible (min rows MAX_VISIBLE_LINES)) := by
  obtain ⟨d', hd', hrows', -, hS, -⟩ := (shows_setDimensions cols hrows).run
    (by show 0 < max (min cols MAX_LINE_LENGTH) 1; omega) outs
  rw [hd', Option.map_some, hS.shown_eq, hrows']
  rfl

/-- Two rows of three columns: a line that wraps, then a line break, scrolls the first line out. -/
theorem shown_run_scroll :
    0 < 2 ∧ ((DisplayBuffer.new.setDimensions 2 3).run
        [.write 0x61 Theme.TEXT_NORMAL, .write 0x62 Theme.TEXT_NORMAL, .write 0x63 Theme.TEXT_NORMAL,
          .write 0x64 Theme.TEXT_NORMAL, .write 0x0A Theme.TEXT_NORMAL]).map DisplayBuffer.shown =
      some ((Screen.empty.run (min 3 MAX_LINE_LENGTH)
        [.write 0x61 Theme.TEXT_NORMAL, .write 0x62 Theme.TEXT_NORMAL, .write 0x63 Theme.TEXT_NORMAL,
          .write 0x64 Theme.TEXT_NORMAL, .write 0x0A Theme.TEXT_NORMAL]).visible
        (min 2 MAX_VISIBLE_LINES)) :=
  ⟨by decide, shown_run 3 (by decide) _⟩

end Atom.Terminal.Display
