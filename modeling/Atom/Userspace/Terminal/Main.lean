import Mathlib
import Atom.Userspace.Terminal.Input
import Atom.Userspace.Terminal.Parser
import Atom.Userspace.Terminal.Buffer
import Atom.Userspace.Terminal.Display
import Atom.Lib.Loop

/-!
# Terminal — the session

`Terminal::handle_key` of `terminal/src/main.rs`: each key event edits the input line, walks the
history, or, on `Enter`, stores the line in the history, parses it and runs it, then prints a new
prompt.  The terminal's state is its display, its input line and its history; the commands are
`commands::execute`, which this model takes as any function of a world of its own (`Interpreter`)
that writes outputs on the display and returns a result.

What the session is for is `Model`: the same program over the structures the fixed arrays stand
for, the screen that never scrolls, the line as two lists, and the log of every command stored.

* `Refines.handleKey`, `Refines.run`: every key keeps the terminal refining the model, and never
  panics while the display has a row; so at the end of `main` the renderer is handed the model's
  last rows, the buffer holds its line and the ring its log (`main_refines`).
* `Model.Printable`, `main_printable`: the input line and the history hold printable ASCII only,
  whatever the commands do; so the `from_utf8_unchecked` of `as_str` is given valid UTF-8, which
  encodes back to the buffer's bytes (`asStr_bytes`).
-/

namespace Atom.Terminal

/-- `InputBuffer::as_str`: the bytes read as characters with `from_utf8_unchecked`, exact on
ASCII bytes, the only ones the terminal stores (`input_printable`). -/
def InputBuffer.asStr (b : InputBuffer) : List Char := b.asBytes.map fun x => Char.ofNat x.toNat

end Atom.Terminal

namespace Atom.TerminalMain

open Terminal Terminal.Display Graphics Lib

/-! ### The terminal -/

/-- `Theme::TEXT_DIM`. -/
def Theme.TEXT_DIM : Color := ⟨128, 128, 128⟩

/-- `Theme::TEXT_INFO`. -/
def Theme.TEXT_INFO : Color := ⟨100, 180, 255⟩

/-- `Theme::PROMPT_USER`. -/
def Theme.PROMPT_USER : Color := ⟨136, 192, 208⟩

/-- `Theme::PROMPT_PATH`. -/
def Theme.PROMPT_PATH : Color := ⟨163, 190, 140⟩

/-- `Theme::PROMPT_SYMBOL`. -/
def Theme.PROMPT_SYMBOL : Color := ⟨180, 142, 173⟩

/-- `CommandResult` of `commands/mod.rs`. -/
inductive CommandResult where
  | ok
  | notFound
  | error
  | clear
  | exit
  deriving DecidableEq, Repr

/-- `commands::execute` on a world `W` it may read and change (the replies of other services, the
clock): what it writes on the display, through `write_str` and `writeln`, and its result. -/
abbrev Interpreter (W : Type*) := W → ParsedCommand → W × List Output × CommandResult

/-- `Terminal`, less its window, its IPC client, its key decoder, which hands it the events, and
the prompt position, which only `render` reads. -/
structure Terminal where
  display : DisplayBuffer
  input : InputBuffer
  history : History
  running : Bool

/-- The bytes of a string, `s.bytes()`. -/
def strBytes (s : String) : List UInt8 := s.toUTF8.data.toList

/-- The outputs of `write_str(s, fg)`. -/
def strOutputs (s : String) (fg : Color) : List Output := (strBytes s).map fun b => .write b fg

/-- `Terminal::show_prompt`: `user@atom:/$ ` in the prompt's colours. -/
def showPrompt (d : DisplayBuffer) : Option DisplayBuffer := do
  let d ← d.writeStr (strBytes "user") Theme.PROMPT_USER
  let d ← d.writeStr (strBytes "@") Theme.TEXT_DIM
  let d ← d.writeStr (strBytes "atom") Theme.PROMPT_USER
  let d ← d.writeStr (strBytes ":") Theme.TEXT_DIM
  let d ← d.writeStr (strBytes "/") Theme.PROMPT_PATH
  d.writeStr (strBytes "$ ") Theme.PROMPT_SYMBOL

/-- The outputs of `show_prompt`. -/
def promptOutputs : List Output :=
  strOutputs "user" Theme.PROMPT_USER ++ strOutputs "@" Theme.TEXT_DIM ++
    strOutputs "atom" Theme.PROMPT_USER ++ strOutputs ":" Theme.TEXT_DIM ++
    strOutputs "/" Theme.PROMPT_PATH ++ strOutputs "$ " Theme.PROMPT_SYMBOL

/-- `Terminal::show_welcome`. -/
def showWelcome (d : DisplayBuffer) : Option DisplayBuffer := do
  let d ← d.writeln (strBytes "") Display.Theme.TEXT_NORMAL
  let d ← d.writeln (strBytes "  Atom Terminal v0.1.0") Theme.TEXT_INFO
  let d ← d.writeln (strBytes "  Type \x27help\x27 for available commands.") Theme.TEXT_DIM
  d.writeln (strBytes "") Display.Theme.TEXT_NORMAL

/-- The outputs of `writeln(s, fg)`: the bytes, then a line break. -/
def lineOutputs (s : String) (fg : Color) : List Output := strOutputs s fg ++ [.write 0x0A fg]

/-- The outputs of `show_welcome`. -/
def welcomeOutputs : List Output :=
  lineOutputs "" Display.Theme.TEXT_NORMAL ++
    lineOutputs "  Atom Terminal v0.1.0" Theme.TEXT_INFO ++
    lineOutputs "  Type \x27help\x27 for available commands." Theme.TEXT_DIM ++
    lineOutputs "" Display.Theme.TEXT_NORMAL

/-- `ch.is_ascii() && !ch.is_ascii_control()`: the characters `Char` inserts. -/
def isPrintable (c : Char) : Bool := c.toNat < 0x80 && !(c.toNat < 0x20 || c.toNat == 0x7F)

/-- The loop `while input.cursor() < input.len() { input.delete() }` of `Ctrl+K`. -/
def killToEnd (b : InputBuffer) : InputBuffer :=
  if b.cursor < b.len then killToEnd b.delete.2 else b
termination_by b.len - b.cursor
decreasing_by
  unfold InputBuffer.delete
  rw [dif_neg (by omega)]
  dsimp only
  omega

namespace Terminal

variable {W : Type*}

/-- `Terminal::new`. -/
def new : Terminal := ⟨DisplayBuffer.new, InputBuffer.new, History.new, true⟩

/-- `Terminal::init`: the dimensions of the window, the welcome banner, the first prompt. -/
def init (rows cols : Nat) : Option Terminal := do
  let d ← showWelcome (new.display.setDimensions rows cols)
  let d ← showPrompt d
  some { new with display := d }

/-- The input cleared, then a new prompt: how `Enter` and `Ctrl+C` end. -/
def newPrompt (t : Terminal) : Option Terminal :=
  (showPrompt t.display).map fun d => { t with display := d, input := t.input.clear }

/-- A command run: what it writes, then, on `Exit`, the terminal stops at once, leaving the input
as it was; on `Clear` the display is cleared; then a new prompt. -/
def runCommand (execute : Interpreter W) (t : Terminal) (w : W) (cmd : ParsedCommand) :
    Option (Terminal × W) :=
  let r := execute w cmd
  (t.display.run r.2.1).bind fun d =>
    let t : Terminal := { t with display := d }
    match r.2.2 with
    | .exit => some ({ t with running := false }, r.1)
    | .clear => ({ t with display := t.display.clear } : Terminal).newPrompt.map (·, r.1)
    | _ => t.newPrompt.map (·, r.1)

/-- `Enter`: a line break; a command that is not empty is stored in the history and, when it
parses, run. -/
def enter (execute : Interpreter W) (t : Terminal) (w : W) : Option (Terminal × W) :=
  t.display.newline.bind fun d =>
    let t : Terminal := { t with display := d }
    if t.input.asBytes.isEmpty then t.newPrompt.map (·, w)
    else
      let t : Terminal := { t with history := t.history.push t.input.asBytes }
      match parseCommand t.input.asStr with
      | none => t.newPrompt.map (·, w)
      | some cmd => t.runCommand execute w cmd

/-- The control characters of `handle_key`. -/
def control (t : Terminal) (ch : Char) : Option Terminal :=
  if ch = Char.ofNat 0x03 then
    -- Ctrl+C: the line is cancelled
    (t.display.writeln (strBytes "^C") Theme.TEXT_DIM).bind fun d =>
      ({ t with display := d } : Terminal).newPrompt
  else if ch = Char.ofNat 0x04 then
    some (if t.input.len = 0 then { t with running := false } else t)
  else if ch = Char.ofNat 0x0C then
    -- Ctrl+L: the screen is cleared, the line kept
    (showPrompt t.display.clear).map fun d => { t with display := d }
  else if ch = Char.ofNat 0x01 then some { t with input := t.input.cursorHome }
  else if ch = Char.ofNat 0x05 then some { t with input := t.input.cursorEnd }
  else if ch = Char.ofNat 0x15 then some { t with input := t.input.clear }
  else if ch = Char.ofNat 0x0B then some { t with input := killToEnd t.input }
  else some t

/-- `Terminal::handle_key`: `none` when it panics. -/
def handleKey (execute : Interpreter W) (t : Terminal) (w : W) :
    Terminal.KeyEvent → Option (Terminal × W)
  | .char ch =>
      some ({ t with input := if isPrintable ch then (t.input.insert (UInt8.ofNat ch.toNat)).2
        else t.input }, w)
  | .enter => t.enter execute w
  | .backspace => some ({ t with input := t.input.backspace.2 }, w)
  | .delete => some ({ t with input := t.input.delete.2 }, w)
  | .arrowLeft => some ({ t with input := t.input.cursorLeft.2 }, w)
  | .arrowRight => some ({ t with input := t.input.cursorRight.2 }, w)
  | .arrowUp =>
      let (prev, h) := t.history.previous
      some ({ t with history := h, input := match prev with
        | some s => t.input.set s
        | none => t.input }, w)
  | .arrowDown =>
      let (next, h) := t.history.next
      some ({ t with history := h, input := match next with
        | some s => t.input.set s
        | none => t.input.clear }, w)
  | .home => some ({ t with input := t.input.cursorHome }, w)
  | .«end» => some ({ t with input := t.input.cursorEnd }, w)
  | .tab =>
      some ({ t with input := (List.range 4).foldl (fun b _ => (b.insert 0x20).2) t.input }, w)
  | .escape => some ({ t with input := t.input.clear }, w)
  | .control ch => (t.control ch).map (·, w)
  | _ => some (t, w)

/-- The keys of one pass of the main loop, `while let Some(event) = poll()`, handled in turn: the
loop does not look at `running` until the keys pending are all handled. -/
def handleKeys (execute : Interpreter W) (t : Terminal) (w : W) (evs : List Terminal.KeyEvent) :
    Option (Terminal × W) :=
  evs.foldlM (fun tw ev => tw.1.handleKey execute tw.2 ev) (t, w)

/-- `Terminal::run`: while the terminal runs, the keys pending at each pass are handled; `batches`
are the keys of the passes in turn. -/
def run (execute : Interpreter W) :
    Terminal → W → List (List Terminal.KeyEvent) → Option (Terminal × W)
  | t, w, [] => some (t, w)
  | t, w, evs :: batches =>
      if t.running then (t.handleKeys execute w evs).bind fun tw => run execute tw.1 tw.2 batches
      else some (t, w)

end Terminal

/-- `main`, once it has the framebuffer: `Terminal::new`, `init` on the window's `rows` and `cols`,
then `run`. -/
def main {W : Type*} (rows cols : Nat) (execute : Interpreter W) (w : W)
    (batches : List (List Terminal.KeyEvent)) : Option (Terminal × W) :=
  (Terminal.init rows cols).bind fun t => t.run execute w batches

/-! ### What the session is for -/

/-- The oldest command a ring of `History.capacity` slots still holds, of the log `log`. -/
def logStart (log : List (List UInt8)) : Nat := log.length - min log.length History.capacity

/-- `History::get_current` on the log: the command at `index`, when the ring still holds it. -/
def logCurrent (log : List (List UInt8)) (index : Nat) : Option (List UInt8) :=
  if index ≥ log.length then none else if index < logStart log then none else log[index]?

/-- The session over unbounded structures: the screen as all the lines written, the input line
as two lists, and the history as the log of every command stored, with the navigation index into
it. -/
structure Model where
  screen : Screen
  line : Terminal.Line
  log : List (List UInt8)
  index : Nat
  running : Bool

namespace Model

variable {W : Type*} (cols : Nat)

/-- `History::previous` on the log. -/
def previous (m : Model) : Option (List UInt8) × Model :=
  if m.log.length = 0 ∨ m.index = 0 then (none, m)
  else (logCurrent m.log (m.index - 1), { m with index := m.index - 1 })

/-- `History::next` on the log. -/
def next (m : Model) : Option (List UInt8) × Model :=
  if m.index ≥ m.log.length then (none, m)
  else if m.index + 1 ≥ m.log.length then (none, { m with index := m.index + 1 })
  else (logCurrent m.log (m.index + 1), { m with index := m.index + 1 })

/-- `History::push` on the log: the navigation goes back to the end. -/
def push (m : Model) (cmd : List UInt8) : Model :=
  if cmd.isEmpty then m
  else { m with log := History.pushLog m.log cmd, index := (History.pushLog m.log cmd).length }

@[simp] theorem line_push (m : Model) (cmd : List UInt8) : (m.push cmd).line = m.line := by
  unfold push
  split_ifs <;> rfl

/-- The input cleared, then a new prompt. -/
def newPrompt (m : Model) : Model :=
  { m with screen := m.screen.run cols promptOutputs, line := Line.clear }

/-- A command run. -/
def runCommand (execute : Interpreter W) (m : Model) (w : W) (cmd : ParsedCommand) : Model × W :=
  let r := execute w cmd
  let m : Model := { m with screen := m.screen.run cols r.2.1 }
  match r.2.2 with
  | .exit => ({ m with running := false }, r.1)
  | .clear => (({ m with screen := Screen.empty } : Model).newPrompt cols, r.1)
  | _ => (m.newPrompt cols, r.1)

/-- `Enter`. -/
def enter (execute : Interpreter W) (m : Model) (w : W) : Model × W :=
  let m : Model := { m with screen := m.screen.newline }
  if m.line.text.isEmpty then (m.newPrompt cols, w)
  else
    let m := m.push m.line.text
    match parseCommand (m.line.text.map fun x => Char.ofNat x.toNat) with
    | none => (m.newPrompt cols, w)
    | some cmd => m.runCommand cols execute w cmd

/-- The control characters. -/
def control (m : Model) (ch : Char) : Model :=
  if ch = Char.ofNat 0x03 then
    ({ m with screen := m.screen.run cols (lineOutputs "^C" Theme.TEXT_DIM) } : Model).newPrompt
      cols
  else if ch = Char.ofNat 0x04 then (if m.line.text.isEmpty then { m with running := false } else m)
  else if ch = Char.ofNat 0x0C then { m with screen := Screen.empty.run cols promptOutputs }
  else if ch = Char.ofNat 0x01 then { m with line := m.line.cursorHome }
  else if ch = Char.ofNat 0x05 then { m with line := m.line.cursorEnd }
  else if ch = Char.ofNat 0x15 then { m with line := Line.clear }
  else if ch = Char.ofNat 0x0B then { m with line := ⟨m.line.left, []⟩ }
  else m

/-- A key. -/
def handleKey (execute : Interpreter W) (m : Model) (w : W) : Terminal.KeyEvent → Model × W
  | .char ch =>
      ({ m with line := if isPrintable ch then (m.line.insert (UInt8.ofNat ch.toNat)).2
        else m.line }, w)
  | .enter => m.enter cols execute w
  | .backspace => ({ m with line := m.line.backspace.2 }, w)
  | .delete => ({ m with line := m.line.delete.2 }, w)
  | .arrowLeft => ({ m with line := m.line.cursorLeft.2 }, w)
  | .arrowRight => ({ m with line := m.line.cursorRight.2 }, w)
  | .arrowUp =>
      let (prev, m') := m.previous
      ({ m' with line := match prev with
        | some s => Line.set s
        | none => m.line }, w)
  | .arrowDown =>
      let (next, m') := m.next
      ({ m' with line := match next with
        | some s => Line.set s
        | none => Line.clear }, w)
  | .home => ({ m with line := m.line.cursorHome }, w)
  | .«end» => ({ m with line := m.line.cursorEnd }, w)
  | .tab => ({ m with line := (List.range 4).foldl (fun l _ => (l.insert 0x20).2) m.line }, w)
  | .escape => ({ m with line := Line.clear }, w)
  | .control ch => (m.control cols ch, w)
  | _ => (m, w)

/-- Keys, in turn. -/
def handleKeys (execute : Interpreter W) (m : Model) (w : W) (evs : List Terminal.KeyEvent) :
    Model × W :=
  evs.foldl (fun mw ev => mw.1.handleKey cols execute mw.2 ev) (m, w)

/-- Passes of keys, while the session runs. -/
def run (execute : Interpreter W) : Model → W → List (List Terminal.KeyEvent) → Model × W
  | m, w, [] => (m, w)
  | m, w, evs :: batches =>
      if m.running then
        let mw := m.handleKeys cols execute w evs
        run execute mw.1 mw.2 batches
      else (m, w)

/-- The session after `init`: the welcome banner and the prompt written. -/
def init : Model :=
  ⟨Screen.empty.run cols (welcomeOutputs ++ promptOutputs), Line.clear, [], 0, true⟩

/-- The session of `main`. -/
def main (execute : Interpreter W) (w : W) (batches : List (List Terminal.KeyEvent)) : Model × W :=
  (init cols).run cols execute w batches

end Model

/-! ### The display's programs as outputs -/

theorem run_append (d : DisplayBuffer) (a b : List Output) :
    d.run (a ++ b) = (d.run a).bind fun d' => d'.run b := by
  rw [DisplayBuffer.run, List.foldlM_append]
  rfl

theorem writeln_eq_lineOutputs (d : DisplayBuffer) (s : String) (fg : Color) :
    d.writeln (strBytes s) fg = d.run (lineOutputs s fg) :=
  DisplayBuffer.writeln_eq_run d _ fg

theorem showPrompt_eq_run (d : DisplayBuffer) : showPrompt d = d.run promptOutputs := by
  simp only [showPrompt, promptOutputs, strOutputs, DisplayBuffer.writeStr_eq_run, run_append,
    Option.bind_assoc]
  rfl

theorem showWelcome_eq_run (d : DisplayBuffer) : showWelcome d = d.run welcomeOutputs := by
  simp only [showWelcome, welcomeOutputs, writeln_eq_lineOutputs, run_append, Option.bind_assoc]
  rfl

/-! ### The editor and the history against the model -/

/-- `Ctrl+K` deletes up to the end of the line: what stays is the text before the cursor. -/
theorem abs_killToEnd (b : InputBuffer) : (killToEnd b).abs = ⟨b.abs.left, []⟩ := by
  fun_induction killToEnd b with
  | case1 b hlt ih =>
      rw [ih, b.abs_delete.2]
      unfold Line.delete
      split <;> rfl
  | case2 b hge =>
      have hlen : b.len - b.cursor = 0 := by omega
      simp [InputBuffer.abs, hlen]

theorem abs_foldl_insert {α : Type*} (l : List α) (b : InputBuffer) (ch : UInt8) :
    (l.foldl (fun b _ => (b.insert ch).2) b).abs = l.foldl (fun l _ => (l.insert ch).2) b.abs :=
  (List.foldl_hom InputBuffer.abs (fun b _ => (b.abs_insert ch).2.symm)).symm

variable {h : History} {log : List (List UInt8)}

/-- `get_current` on the ring reads the log. -/
theorem getCurrent_eq_logCurrent (hi : h.Inv log) : h.getCurrent = logCurrent log h.index := by
  have hstart : h.start = logStart log := by
    rw [History.start_eq, hi.count_eq]
    rfl
  unfold History.getCurrent logCurrent
  rw [← hi.count_eq, ← hstart]
  split_ifs with hc hs
  · rfl
  · rfl
  · have := hi.count_eq
    rw [List.getElem?_eq_getElem (by omega), hi.slot _ _ (by omega)]

/-- A command that is not empty leaves the navigation at the end of the history. -/
theorem index_push {cmd : List UInt8} (he : cmd.isEmpty = false) :
    (h.push cmd).index = (h.push cmd).count := by
  unfold History.push
  rw [if_neg (by simp [he])]
  split_ifs <;> rfl

/-! ### The refinement -/

/-- The terminal stands for the model on a window of `rows` by `cols`: the display shows the
screen, the buffer holds the line, the ring holds the log, and the rest agrees. -/
structure Refines (rows cols : Nat) (t : Terminal) (m : Model) : Prop where
  shows : Shows t.display m.screen
  maxRows_eq : t.display.maxRows = rows
  col_lt : m.screen.col < max cols 1
  maxCols_eq : t.display.maxCols = cols
  line_eq : t.input.abs = m.line
  history : t.history.Inv m.log
  index_eq : t.history.index = m.index
  running_eq : t.running = m.running

namespace Refines

variable {rows cols : Nat} {t : Terminal} {m : Model}

theorem withInput (hr : Refines rows cols t m) {b : InputBuffer} {l : Terminal.Line}
    (hl : b.abs = l) :
    Refines rows cols { t with input := b } { m with line := l } :=
  { hr with line_eq := hl }

theorem edit (hr : Refines rows cols t m) (op : EditOp) :
    Refines rows cols { t with input := t.input.apply op } { m with line := m.line.apply op } :=
  hr.withInput (by rw [InputBuffer.abs_apply, hr.line_eq])

theorem withHistory (hr : Refines rows cols t m) {h : History} {log : List (List UInt8)} {i : Nat}
    (hi : h.Inv log) (hidx : h.index = i) :
    Refines rows cols { t with history := h } { m with log := log, index := i } :=
  { hr with history := hi, index_eq := hidx }

/-- Outputs on the display: it never panics, and shows the screen the outputs write. -/
theorem runOutputs (hr : Refines rows cols t m) (outs : List Output) :
    ∃ d, t.display.run outs = some d ∧
      Refines rows cols { t with display := d } { m with screen := m.screen.run cols outs } := by
  have hcol : m.screen.col < max t.display.maxCols 1 := by
    rw [hr.maxCols_eq]
    exact hr.col_lt
  obtain ⟨d, hd, hrows, hcols, hS, hcol'⟩ := hr.shows.run hcol outs
  rw [hr.maxCols_eq] at hS hcol' hcols
  exact ⟨d, hd,
    { hr with
      shows := hS
      maxRows_eq := hrows.trans hr.maxRows_eq
      col_lt := hcol'
      maxCols_eq := hcols }⟩

theorem newline (hr : Refines rows cols t m) :
    ∃ d, t.display.newline = some d ∧
      Refines rows cols { t with display := d } { m with screen := m.screen.newline } := by
  obtain ⟨d, hd, hrows, hcols, hS⟩ := hr.shows.newline
  have hcol : m.screen.newline.col < max cols 1 := by
    show 0 < max cols 1
    omega
  exact ⟨d, hd,
    { hr with
      shows := hS
      maxRows_eq := hrows.trans hr.maxRows_eq
      col_lt := hcol
      maxCols_eq := hcols.trans hr.maxCols_eq }⟩

theorem clear (hr : Refines rows cols t m) :
    Refines rows cols { t with display := t.display.clear } { m with screen := Screen.empty } := by
  have hcol : Screen.empty.col < max cols 1 := by
    show 0 < max cols 1
    omega
  exact { hr with shows := hr.shows.clear, col_lt := hcol }

theorem newPrompt (hr : Refines rows cols t m) :
    ∃ t', t.newPrompt = some t' ∧ Refines rows cols t' (m.newPrompt cols) := by
  obtain ⟨d, hd, hr'⟩ := hr.runOutputs promptOutputs
  refine ⟨_, ?_, hr'.withInput t.input.abs_clear⟩
  rw [Terminal.newPrompt, showPrompt_eq_run, hd]
  rfl

/-- A new prompt as the last step of a key, the world handed on. -/
theorem newPrompt_with {W : Type*} (hr : Refines rows cols t m) (w : W) :
    ∃ t', t.newPrompt.map (·, w) = some (t', w) ∧ Refines rows cols t' (m.newPrompt cols) := by
  obtain ⟨t', ht', hr'⟩ := hr.newPrompt
  exact ⟨t', by rw [ht']; rfl, hr'⟩

/-- `previous` on the ring answers as on the log, and moves the index alike. -/
theorem previous (hr : Refines rows cols t m) :
    t.history.previous.1 = m.previous.1 ∧
      Refines rows cols { t with history := t.history.previous.2 } m.previous.2 := by
  have hc := hr.history.count_eq
  have hidx := hr.index_eq
  unfold History.previous Model.previous
  by_cases hz : m.log.length = 0 ∨ m.index = 0
  · rw [if_pos (by omega), if_pos hz]
    exact ⟨rfl, hr⟩
  · rw [if_neg (by omega), if_neg hz]
    dsimp only
    have hle := hr.history.index_le
    have hi := hr.history.withIndex (i := t.history.index - 1) (by omega)
    refine ⟨?_, hr.withHistory hi (by dsimp only; omega)⟩
    rw [getCurrent_eq_logCurrent hi, hidx]

/-- `next` on the ring answers as on the log, and moves the index alike. -/
theorem next (hr : Refines rows cols t m) :
    t.history.next.1 = m.next.1 ∧
      Refines rows cols { t with history := t.history.next.2 } m.next.2 := by
  have hc := hr.history.count_eq
  have hidx := hr.index_eq
  unfold History.next Model.next
  by_cases hend : m.index ≥ m.log.length
  · rw [if_pos (by omega), if_pos hend]
    exact ⟨rfl, hr⟩
  · rw [if_neg (by omega), if_neg hend]
    have hi := hr.history.withIndex (i := t.history.index + 1) (by omega)
    dsimp only
    by_cases hlast : m.index + 1 ≥ m.log.length
    · rw [if_pos (by omega), if_pos hlast]
      exact ⟨rfl, hr.withHistory hi (by dsimp only; omega)⟩
    · rw [if_neg (by omega), if_neg hlast]
      refine ⟨?_, hr.withHistory hi (by dsimp only; omega)⟩
      rw [getCurrent_eq_logCurrent hi, hidx]

/-- A command stored: the log grows by it, the navigation goes to its end. -/
theorem push (hr : Refines rows cols t m) {cmd : List UInt8} (he : cmd.isEmpty = false) :
    Refines rows cols { t with history := t.history.push cmd } (m.push cmd) := by
  have hi := hr.history.push cmd
  unfold Model.push
  rw [if_neg (by simp [he])]
  exact hr.withHistory hi (by rw [index_push he, hi.count_eq])

section Keys

variable {W : Type*} (execute : Interpreter W) (w : W)

theorem runCommand (hr : Refines rows cols t m) (cmd : ParsedCommand) :
    ∃ t', t.runCommand execute w cmd = some (t', (m.runCommand cols execute w cmd).2) ∧
      Refines rows cols t' (m.runCommand cols execute w cmd).1 := by
  obtain ⟨d, hd, hr₁⟩ := hr.runOutputs (execute w cmd).2.1
  unfold Terminal.runCommand Model.runCommand
  dsimp only
  rw [hd, Option.bind_some]
  -- the result of the command decides what follows its outputs
  cases (execute w cmd).2.2 with
  | exit => exact ⟨_, rfl, { hr₁ with running_eq := rfl }⟩
  | clear => exact hr₁.clear.newPrompt_with _
  | ok | notFound | error => exact hr₁.newPrompt_with _

theorem enter (hr : Refines rows cols t m) :
    ∃ t', t.enter execute w = some (t', (m.enter cols execute w).2) ∧
      Refines rows cols t' (m.enter cols execute w).1 := by
  obtain ⟨d, hd, hr₁⟩ := hr.newline
  have htext : t.input.asBytes = m.line.text := by rw [InputBuffer.asBytes_eq_text, hr.line_eq]
  unfold Terminal.enter Model.enter
  dsimp only
  rw [hd, Option.bind_some, htext]
  cases he : m.line.text.isEmpty with
  | true => exact hr₁.newPrompt_with w
  | false =>
      -- a command that is not empty is stored, then parsed from the same bytes
      have hr₂ := hr₁.push he
      have hstr : t.input.asStr = m.line.text.map fun x => Char.ofNat x.toNat := by
        rw [InputBuffer.asStr, htext]
      simp only [Bool.false_eq_true, if_false, Model.line_push]
      rw [hstr]
      cases parseCommand (m.line.text.map fun x => Char.ofNat x.toNat) with
      | none => exact hr₂.newPrompt_with w
      | some cmd => exact hr₂.runCommand execute w cmd

end Keys

theorem control (hr : Refines rows cols t m) (ch : Char) :
    ∃ t', t.control ch = some t' ∧ Refines rows cols t' (m.control cols ch) := by
  have hlen : t.input.len = 0 ↔ m.line.text.isEmpty := by
    rw [← t.input.length_text, hr.line_eq, List.isEmpty_iff, List.length_eq_zero_iff]
  unfold Terminal.control Model.control
  -- the characters in the order `handle_key` tests them, the same on both sides
  by_cases h3 : ch = Char.ofNat 0x03
  · rw [if_pos h3, if_pos h3, writeln_eq_lineOutputs]
    obtain ⟨d, hd, hr₁⟩ := hr.runOutputs (lineOutputs "^C" Theme.TEXT_DIM)
    rw [hd, Option.bind_some]
    exact hr₁.newPrompt
  rw [if_neg h3, if_neg h3]
  by_cases h4 : ch = Char.ofNat 0x04
  · rw [if_pos h4, if_pos h4]
    by_cases he : m.line.text.isEmpty
    · rw [if_pos (hlen.mpr he), if_pos he]
      exact ⟨_, rfl, { hr with running_eq := rfl }⟩
    · rw [if_neg (mt hlen.mp he), if_neg he]
      exact ⟨_, rfl, hr⟩
  rw [if_neg h4, if_neg h4]
  by_cases hL : ch = Char.ofNat 0x0C
  · rw [if_pos hL, if_pos hL, showPrompt_eq_run]
    obtain ⟨d, hd, hr₁⟩ := hr.clear.runOutputs promptOutputs
    rw [hd]
    exact ⟨_, rfl, hr₁⟩
  rw [if_neg hL, if_neg hL]
  -- the rest edit the line, or do nothing
  split_ifs
  · exact ⟨_, rfl, hr.edit .cursorHome⟩
  · exact ⟨_, rfl, hr.edit .cursorEnd⟩
  · exact ⟨_, rfl, hr.edit .clear⟩
  · exact ⟨_, rfl, hr.withInput (by rw [abs_killToEnd, hr.line_eq])⟩
  · exact ⟨_, rfl, hr⟩

section Keys

variable {W : Type*} (execute : Interpreter W) (w : W)

/-- **One key** keeps the terminal refining the model, and never panics: the step of the
refinement, one case for each key `handle_key` reads. -/
theorem handleKey (hr : Refines rows cols t m) (ev : Terminal.KeyEvent) :
    ∃ t', t.handleKey execute w ev = some (t', (m.handleKey cols execute w ev).2) ∧
      Refines rows cols t' (m.handleKey cols execute w ev).1 := by
  cases ev with
  | char ch =>
      refine ⟨_, rfl, ?_⟩
      dsimp only [Model.handleKey]
      split_ifs
      · exact hr.edit (.insert _)
      · exact hr
  | enter => exact hr.enter execute w
  | backspace => exact ⟨_, rfl, hr.edit .backspace⟩
  | delete => exact ⟨_, rfl, hr.edit .delete⟩
  | arrowLeft => exact ⟨_, rfl, hr.edit .cursorLeft⟩
  | arrowRight => exact ⟨_, rfl, hr.edit .cursorRight⟩
  | arrowUp =>
      obtain ⟨hprev, hr₁⟩ := hr.previous
      rcases hp : t.history.previous with ⟨prev, h'⟩
      rcases hm : m.previous with ⟨prev', m'⟩
      rw [hp, hm] at hprev hr₁
      dsimp only at hprev
      subst hprev
      refine ⟨_, by unfold Terminal.handleKey; rw [hp]; rfl, ?_⟩
      unfold Model.handleKey
      rw [hm]
      cases prev with
      | none => exact hr₁.withInput hr.line_eq
      | some s => exact hr₁.withInput (t.input.abs_set s)
  | arrowDown =>
      obtain ⟨hnext, hr₁⟩ := hr.next
      rcases hp : t.history.next with ⟨next, h'⟩
      rcases hm : m.next with ⟨next', m'⟩
      rw [hp, hm] at hnext hr₁
      dsimp only at hnext
      subst hnext
      refine ⟨_, by unfold Terminal.handleKey; rw [hp]; rfl, ?_⟩
      unfold Model.handleKey
      rw [hm]
      cases next with
      | none => exact hr₁.withInput t.input.abs_clear
      | some s => exact hr₁.withInput (t.input.abs_set s)
  | home => exact ⟨_, rfl, hr.edit .cursorHome⟩
  | «end» => exact ⟨_, rfl, hr.edit .cursorEnd⟩
  | tab => exact ⟨_, rfl, hr.withInput (by rw [abs_foldl_insert, hr.line_eq])⟩
  | escape => exact ⟨_, rfl, hr.edit .clear⟩
  | control ch =>
      obtain ⟨t', ht', hr'⟩ := hr.control ch
      exact ⟨t', by show (t.control ch).map (·, w) = _; rw [ht']; rfl, hr'⟩
  | alt | pageUp | pageDown | function | insert => exact ⟨_, rfl, hr⟩

/-- The keys of a pass, by the library's simulation rule from `handleKey`. -/
theorem handleKeys (hr : Refines rows cols t m) (evs : List Terminal.KeyEvent) :
    ∃ t', t.handleKeys execute w evs = some (t', (m.handleKeys cols execute w evs).2) ∧
      Refines rows cols t' (m.handleKeys cols execute w evs).1 := by
  -- the relation carried: the refinement, and the same world on both sides
  obtain ⟨⟨t', w'⟩, htw, hr', hw⟩ := Loop.foldlM_simulates
    (f := fun (tw : Terminal × W) ev => tw.1.handleKey execute tw.2 ev)
    (g := fun (mw : Model × W) ev => mw.1.handleKey cols execute mw.2 ev)
    (fun tw mw => Refines rows cols tw.1 mw.1 ∧ tw.2 = mw.2)
    (fun tw mw ev ⟨h₁, hw₁⟩ => by
      obtain ⟨t₂, ht₂, hr₂⟩ := h₁.handleKey execute mw.2 ev
      refine ⟨(t₂, _), ?_, hr₂, rfl⟩
      show tw.1.handleKey execute tw.2 ev = _
      rw [hw₁]
      exact ht₂)
    evs (s := (t, w)) (t := (m, w)) ⟨hr, rfl⟩
  dsimp only at hw
  exact ⟨t', by rw [Terminal.handleKeys, htw, hw]; rfl, hr'⟩

/-- **The main loop** keeps the terminal refining the model, pass after pass, and never panics;
both stop at the same pass, once `running` is cleared. -/
theorem run (hr : Refines rows cols t m) (batches : List (List Terminal.KeyEvent)) :
    ∃ t', t.run execute w batches = some (t', (m.run cols execute w batches).2) ∧
      Refines rows cols t' (m.run cols execute w batches).1 := by
  induction batches generalizing t m w with
  | nil => exact ⟨t, rfl, hr⟩
  | cons evs batches ih =>
      rw [Terminal.run, Model.run, hr.running_eq]
      cases m.running with
      | false => exact ⟨t, rfl, hr⟩
      | true =>
          obtain ⟨t₁, ht₁, hr₁⟩ := hr.handleKeys execute w evs
          obtain ⟨t', ht', hr'⟩ := ih _ hr₁
          exact ⟨t', by rw [if_pos rfl, ht₁, Option.bind_some]; exact ht', hr'⟩

end Keys

end Refines

/-- `init` on a window with a row: the welcome banner and the prompt, without a panic. -/
theorem init_refines {rows : Nat} (cols : Nat) (hrows : 0 < rows) :
    ∃ t, Terminal.init rows cols = some t ∧
      Refines (min rows MAX_VISIBLE_LINES) (min cols MAX_LINE_LENGTH) t
        (Model.init (min cols MAX_LINE_LENGTH)) := by
  have hcol : Screen.empty.col < max (min cols MAX_LINE_LENGTH) 1 := by
    show 0 < max (min cols MAX_LINE_LENGTH) 1
    omega
  -- the terminal `new` makes, with the window's dimensions, stands for the empty session
  have hr₀ : Refines (min rows MAX_VISIBLE_LINES) (min cols MAX_LINE_LENGTH)
      { Terminal.new with display := Terminal.new.display.setDimensions rows cols }
      ⟨Screen.empty, Terminal.Line.clear, [], 0, true⟩ :=
    ⟨shows_setDimensions cols hrows, rfl, hcol, rfl, rfl, History.inv_new, rfl, rfl⟩
  obtain ⟨d, hd, hr⟩ := hr₀.runOutputs (welcomeOutputs ++ promptOutputs)
  -- the banner, then the prompt
  obtain ⟨d₁, hd₁, hd₂⟩ := Option.bind_eq_some_iff.mp ((run_append _ _ _).symm.trans hd)
  dsimp only at hd₁
  refine ⟨_, ?_, hr⟩
  simp only [Terminal.init, showWelcome_eq_run, showPrompt_eq_run, hd₁, Option.bind_eq_bind,
    Option.bind_some, hd₂]

/-- `main` on a window with a row: `init`, then the loop, each refining the model. -/
theorem main_run {W : Type*} (rows cols : Nat) (execute : Interpreter W) (w : W)
    (batches : List (List Terminal.KeyEvent)) :
    ∃ t, main (rows + 1) cols execute w batches =
        some (t, (Model.main (min cols MAX_LINE_LENGTH) execute w batches).2) ∧
      Refines (min (rows + 1) MAX_VISIBLE_LINES) (min cols MAX_LINE_LENGTH) t
        (Model.main (min cols MAX_LINE_LENGTH) execute w batches).1 := by
  obtain ⟨t₀, ht₀, hr₀⟩ := init_refines cols (Nat.succ_pos rows)
  obtain ⟨t, ht, hr⟩ := hr₀.run execute w batches
  exact ⟨t, by rw [main, ht₀, Option.bind_some]; exact ht, hr⟩

/-- **The terminal refines its session.**  On a window of at least one row, whatever the commands
do and whatever keys come in whatever passes, `main` never panics, and at its end the terminal
stands for the model's session: the rows the renderer draws are the last rows of the model's
screen, the buffer holds its line, the ring the last 32 commands of its log, the navigation index
and `running` agree, and the commands have seen the same world. -/
theorem main_refines {W : Type*} (rows cols : Nat) (execute : Interpreter W) (w : W)
    (batches : List (List Terminal.KeyEvent)) :
    ∃ t, main (rows + 1) cols execute w batches =
        some (t, (Model.main (min cols MAX_LINE_LENGTH) execute w batches).2) ∧
      Refines (min (rows + 1) MAX_VISIBLE_LINES) (min cols MAX_LINE_LENGTH) t
        (Model.main (min cols MAX_LINE_LENGTH) execute w batches).1 ∧
      t.display.shown = (Model.main (min cols MAX_LINE_LENGTH) execute w batches).1.screen.visible
        (min (rows + 1) MAX_VISIBLE_LINES) := by
  obtain ⟨t, ht, hr⟩ := main_run rows cols execute w batches
  refine ⟨t, ht, hr, ?_⟩
  -- what `get_line` hands the renderer, for a display of `min (rows + 1) MAX_VISIBLE_LINES` rows
  rw [hr.shows.shown_eq, hr.maxRows_eq]

/-! ### What the terminal stores -/

/-- The bytes `is_ascii() && !is_ascii_control()` lets through: from the space to the tilde. -/
def PrintableByte (b : UInt8) : Prop := 0x20 ≤ b.toNat ∧ b.toNat < 0x7F

theorem printableByte_of_isPrintable {ch : Char} (h : isPrintable ch) :
    PrintableByte (UInt8.ofNat ch.toNat) := by
  simp only [isPrintable, Bool.and_eq_true, decide_eq_true_eq, Bool.not_eq_true',
    Bool.or_eq_false_iff, decide_eq_false_iff_not, beq_eq_false_iff_ne] at h
  obtain ⟨hlt, hctl, hdel⟩ := h
  have hn : (UInt8.ofNat ch.toNat).toNat = ch.toNat := by
    rw [UInt8.toNat_ofNat']
    exact Nat.mod_eq_of_lt (by omega)
  unfold PrintableByte
  omega

/-- The bytes an edit brings into the line. -/
def editBytes : EditOp → List UInt8
  | .insert ch => [ch]
  | .set s => s
  | _ => []

/-- An edit keeps the bytes of the line, drops some, or brings its own. -/
theorem mem_text_apply {l : Terminal.Line} {b : UInt8} :
    ∀ {op : EditOp}, b ∈ (l.apply op).text → b ∈ l.text ∨ b ∈ editBytes op
  | .insert ch, h => by
      simp only [Line.apply, Line.insert] at h
      split_ifs at h
      · simp only [Line.text, List.mem_append, List.mem_singleton] at h
        simp only [Line.text, List.mem_append, editBytes, List.mem_singleton]
        tauto
      · exact .inl h
  | .backspace, h => by
      simp only [Line.apply, Line.backspace] at h
      split_ifs at h
      · exact .inl h
      · simp only [Line.text, List.mem_append] at h ⊢
        exact .inl (h.imp_left List.mem_of_mem_dropLast)
  | .delete, h => by
      simp only [Line.apply, Line.delete] at h
      split at h
      · exact .inl h
      · rename_i c r hr
        simp only [Line.text, List.mem_append, hr, List.mem_cons] at h ⊢
        tauto
  | .cursorLeft, h => by
      simp only [Line.apply, Line.cursorLeft] at h
      split at h
      · exact .inl h
      · rename_i c hc
        simp only [Line.text, List.mem_append, List.mem_cons] at h ⊢
        left
        rcases h with h | rfl | h
        · exact .inl (List.mem_of_mem_dropLast h)
        · exact .inl (List.mem_of_getLast? hc)
        · exact .inr h
  | .cursorRight, h => by
      simp only [Line.apply, Line.cursorRight] at h
      split at h
      · exact .inl h
      · rename_i c r hr
        simp only [Line.text, List.mem_append, hr, List.mem_cons] at h ⊢
        tauto
  | .cursorHome, h => .inl (by simpa [Line.apply, Line.cursorHome, Line.text] using h)
  | .cursorEnd, h => .inl (by simpa [Line.apply, Line.cursorEnd, Line.text] using h)
  | .set s, h => by
      simp only [Line.apply, Terminal.Line.set, Line.text, List.append_nil] at h
      exact .inr (List.mem_of_mem_take h)
  | .clear, h => by simp [Line.apply, Line.clear, Line.text] at h

theorem mem_of_logCurrent {log : List (List UInt8)} {i : Nat} {s : List UInt8}
    (h : logCurrent log i = some s) : s ∈ log := by
  unfold logCurrent at h
  split_ifs at h
  exact List.mem_of_getElem? h

theorem mem_pushLog {log : List (List UInt8)} {cmd c : List UInt8}
    (h : c ∈ History.pushLog log cmd) :
    c ∈ log ∨ c = cmd.take (MAX_LINE_LENGTH - 1) := by
  unfold History.pushLog at h
  split_ifs at h
  · exact .inl h
  · exact .inl h
  · simpa using h

theorem mem_log_of_previous {m : Model} {s : List UInt8} (h : m.previous.1 = some s) :
    s ∈ m.log := by
  unfold Model.previous at h
  split_ifs at h
  exact mem_of_logCurrent h

theorem mem_log_of_next {m : Model} {s : List UInt8} (h : m.next.1 = some s) : s ∈ m.log := by
  unfold Model.next at h
  split_ifs at h
  exact mem_of_logCurrent h

theorem printableByte_space : PrintableByte 0x20 := ⟨by decide, by decide⟩

/-- The session stores printable ASCII only: in its line, and in every command of its log. -/
structure Model.Printable (m : Model) : Prop where
  line : ∀ b ∈ m.line.text, PrintableByte b
  log : ∀ c ∈ m.log, ∀ b ∈ c, PrintableByte b

namespace Model.Printable

variable {m : Model} {cols : Nat}

theorem withLine (hp : m.Printable) {l : Terminal.Line} (hl : ∀ b ∈ l.text, PrintableByte b) :
    ({ m with line := l } : Model).Printable :=
  ⟨hl, hp.log⟩

theorem edit (hp : m.Printable) (op : EditOp) (hop : ∀ b ∈ editBytes op, PrintableByte b) :
    ({ m with line := m.line.apply op } : Model).Printable :=
  hp.withLine fun _ hb => (mem_text_apply hb).elim (hp.line _) (hop _)

theorem newPrompt (hp : m.Printable) : (m.newPrompt cols).Printable :=
  ⟨fun _ hb => absurd hb List.not_mem_nil, hp.log⟩

theorem runCommand {W : Type*} (hp : m.Printable) (execute : Interpreter W) (w : W)
    (cmd : ParsedCommand) : (m.runCommand cols execute w cmd).1.Printable := by
  unfold Model.runCommand
  dsimp only
  cases (execute w cmd).2.2 with
  | exit => exact ⟨hp.line, hp.log⟩
  | clear => exact newPrompt ⟨hp.line, hp.log⟩
  | ok | notFound | error => exact newPrompt ⟨hp.line, hp.log⟩

/-- Storing the line keeps the log printable: what is stored is a prefix of it. -/
theorem push (hp : m.Printable) : (m.push m.line.text).Printable := by
  unfold Model.push
  split_ifs
  · exact hp
  · refine ⟨hp.line, fun c hc b hb => ?_⟩
    rcases mem_pushLog hc with hc | rfl
    · exact hp.log c hc b hb
    · exact hp.line b (List.mem_of_mem_take hb)

theorem control (hp : m.Printable) (ch : Char) : (m.control cols ch).Printable := by
  unfold Model.control
  split_ifs
  · exact newPrompt ⟨hp.line, hp.log⟩
  · exact ⟨hp.line, hp.log⟩
  · exact hp
  · exact ⟨hp.line, hp.log⟩
  · exact hp.edit .cursorHome fun _ hb => absurd hb List.not_mem_nil
  · exact hp.edit .cursorEnd fun _ hb => absurd hb List.not_mem_nil
  · exact hp.edit .clear fun _ hb => absurd hb List.not_mem_nil
  · -- Ctrl+K keeps the text before the cursor
    exact hp.withLine fun b hb => hp.line b (List.mem_append_left _ (by simpa [Line.text] using hb))
  · exact hp

/-- A command recalled from the log is printable. -/
theorem recalled (hp : m.Printable) {s : List UInt8} (hs : s ∈ m.log) :
    ∀ b ∈ (Terminal.Line.set s).text, PrintableByte b := fun b hb =>
  hp.log s hs b (List.mem_of_mem_take (by simpa [Terminal.Line.set, Line.text] using hb))

theorem previous (hp : m.Printable) : m.previous.2.Printable := by
  unfold Model.previous
  split_ifs
  · exact hp
  · exact ⟨hp.line, hp.log⟩

theorem next (hp : m.Printable) : m.next.2.Printable := by
  unfold Model.next
  split_ifs
  · exact hp
  · exact ⟨hp.line, hp.log⟩
  · exact ⟨hp.line, hp.log⟩

section Keys

variable {W : Type*} (execute : Interpreter W) (w : W)

theorem enter (hp : m.Printable) : (m.enter cols execute w).1.Printable := by
  have hp₁ : ({ m with screen := m.screen.newline } : Model).Printable := ⟨hp.line, hp.log⟩
  unfold Model.enter
  dsimp only
  split
  · exact hp₁.newPrompt
  · -- the line stored is the line the command is parsed from
    simp only [Model.line_push]
    split
    · exact hp₁.push.newPrompt
    · exact hp₁.push.runCommand execute w _

/-- **One key** keeps the session printable, whatever the command it runs does. -/
theorem handleKey (hp : m.Printable) (ev : Terminal.KeyEvent) :
    (m.handleKey cols execute w ev).1.Printable := by
  cases ev with
  | char ch =>
      dsimp only [Model.handleKey]
      split_ifs with hc
      · exact hp.edit (.insert _) fun b hb => by
          rw [List.mem_singleton.mp hb]
          exact printableByte_of_isPrintable hc
      · exact hp
  | enter => exact hp.enter execute w
  | backspace => exact hp.edit .backspace (List.forall_mem_nil _)
  | delete => exact hp.edit .delete (List.forall_mem_nil _)
  | arrowLeft => exact hp.edit .cursorLeft (List.forall_mem_nil _)
  | arrowRight => exact hp.edit .cursorRight (List.forall_mem_nil _)
  | arrowUp =>
      have hprev := hp.previous
      have hmem : ∀ s, m.previous.1 = some s → s ∈ m.log := fun _ => mem_log_of_previous
      unfold Model.handleKey
      rcases hm : m.previous with ⟨prev, m'⟩
      rw [hm] at hprev hmem
      cases prev with
      | none => exact ⟨hp.line, hprev.log⟩
      | some s => exact hprev.withLine (hp.recalled (hmem s rfl))
  | arrowDown =>
      have hnext := hp.next
      have hmem : ∀ s, m.next.1 = some s → s ∈ m.log := fun _ => mem_log_of_next
      unfold Model.handleKey
      rcases hm : m.next with ⟨next, m'⟩
      rw [hm] at hnext hmem
      cases next with
      | none => exact hnext.withLine (List.forall_mem_nil _)
      | some s => exact hnext.withLine (hp.recalled (hmem s rfl))
  | home => exact hp.edit .cursorHome (List.forall_mem_nil _)
  | «end» => exact hp.edit .cursorEnd (List.forall_mem_nil _)
  | tab =>
      -- four spaces, each through the editor's insert
      refine hp.withLine (List.foldlRecOn
        (motive := fun l : Terminal.Line => ∀ b ∈ l.text, PrintableByte b) _ _ hp.line
        fun l hl _ _ b hb => ?_)
      rcases mem_text_apply (show b ∈ (l.apply (.insert 0x20)).text from hb) with h | h
      · exact hl b h
      · rw [List.mem_singleton.mp h]
        exact printableByte_space
  | escape => exact hp.edit .clear (List.forall_mem_nil _)
  | control ch => exact hp.control ch
  | alt | pageUp | pageDown | function | insert => exact hp

theorem handleKeys (hp : m.Printable) (evs : List Terminal.KeyEvent) :
    (m.handleKeys cols execute w evs).1.Printable :=
  List.foldlRecOn (motive := fun mw : Model × W => mw.1.Printable) evs _ hp
    fun mw hmw ev _ => hmw.handleKey execute mw.2 ev

theorem run (hp : m.Printable) (batches : List (List Terminal.KeyEvent)) :
    (m.run cols execute w batches).1.Printable := by
  induction batches generalizing m w with
  | nil => exact hp
  | cons evs batches ih =>
      rw [Model.run]
      split
      · exact ih _ (hp.handleKeys execute w evs)
      · exact hp

end Keys

theorem init : (Model.init cols).Printable :=
  ⟨List.forall_mem_nil _, fun _ hc => absurd hc List.not_mem_nil⟩

end Model.Printable

/-! ### `as_str` on what the terminal stores -/

/-- An ASCII string is its characters' codes, one byte each. -/
theorem strBytes_ofList {cs : List Char} (h : ∀ c ∈ cs, c.toNat < 0x80) :
    strBytes (String.ofList cs) = cs.map fun c => UInt8.ofNat c.toNat := by
  induction cs with
  | nil => rfl
  | cons c cs ih =>
      have hc : c.utf8Size = 1 := by
        rw [Char.utf8Size_eq_one_iff, UInt32.le_iff_toNat_le]
        exact Nat.le_of_lt_succ (h c List.mem_cons_self)
      have hcs := ih fun c' hc' => h c' (List.mem_cons_of_mem c hc')
      simp only [strBytes, String.toUTF8_eq_toByteArray, String.toByteArray_ofList] at hcs ⊢
      rw [List.utf8Encode_cons, List.utf8Encode_singleton, String.utf8EncodeChar_eq_singleton hc,
        ByteArray.data_append, List.data_toByteArray, Array.toList_append, hcs, List.map_cons]
      rfl

theorem toNat_ofNat_lt {n : Nat} (h : n < 0x80) : (Char.ofNat n).toNat = n := by
  rw [Char.toNat_ofNat, if_pos (Or.inl (by omega))]

/-- On ASCII bytes, the string `as_str` makes with `from_utf8_unchecked` is valid UTF-8 that
encodes back to the very bytes of the buffer. -/
theorem asStr_bytes (b : InputBuffer) (h : ∀ x ∈ b.asBytes, x.toNat < 0x80) :
    strBytes (String.ofList b.asStr) = b.asBytes := by
  have hc : ∀ c ∈ b.asStr, c.toNat < 0x80 := by
    intro c hc
    obtain ⟨x, hx, rfl⟩ := List.mem_map.mp hc
    rw [toNat_ofNat_lt (h x hx)]
    exact h x hx
  rw [strBytes_ofList hc, InputBuffer.asStr, List.map_map]
  conv => rhs; rw [← List.map_id b.asBytes]
  apply List.map_congr_left
  intro x hx
  simp [toNat_ofNat_lt (h x hx)]

/-- **The terminal stores printable ASCII only.**  On a window of at least one row, whatever the
commands do and whatever keys come, at the end of `main` every byte of the input line and of every
command the history still holds is between the space and the tilde; so the string `as_str` hands
`parse_command` and `History::push`, built with `from_utf8_unchecked`, is valid UTF-8 and encodes
back to the line's bytes. -/
theorem main_printable {W : Type*} (rows cols : Nat) (execute : Interpreter W) (w : W)
    (batches : List (List Terminal.KeyEvent)) :
    ∃ t w', main (rows + 1) cols execute w batches = some (t, w') ∧
      (∀ b ∈ t.input.asBytes, PrintableByte b) ∧
      (∀ k, t.history.start ≤ k → k < t.history.count →
        ∀ b ∈ t.history.entries (k % History.capacity), PrintableByte b) ∧
      strBytes (String.ofList t.input.asStr) = t.input.asBytes := by
  obtain ⟨t, ht, hr⟩ := main_run rows cols execute w batches
  have hp : (Model.main (min cols MAX_LINE_LENGTH) execute w batches).1.Printable :=
    Model.Printable.init.run execute w batches
  -- the line through the refinement, the ring through its invariant
  have hline : ∀ b ∈ t.input.asBytes, PrintableByte b := by
    rw [InputBuffer.asBytes_eq_text, hr.line_eq]
    exact hp.line
  have hring : ∀ k, t.history.start ≤ k → k < t.history.count →
      ∀ b ∈ t.history.entries (k % History.capacity), PrintableByte b := by
    intro k hs hk
    have hk' : k < (Model.main (min cols MAX_LINE_LENGTH) execute w batches).1.log.length := by
      rw [← hr.history.count_eq]
      exact hk
    rw [hr.history.slot k hk' hs]
    exact hp.log _ (List.getElem_mem hk')
  refine ⟨t, _, ht, hline, hring, asStr_bytes t.input fun x hx => ?_⟩
  have := (hline x hx).2
  omega

end Atom.TerminalMain
