import Atom.Lib.Circular

/-!
# Terminal — the line editor and the command history

`InputBuffer` and `History` of `terminal/src/buffer.rs`.

The line editor keeps its text in a fixed array with a length and a cursor. Inserting shifts the
bytes from the cursor on one place right, walking down from the end; deleting shifts them one
place left, walking up. What the editor means is a pair of lists, the bytes before the cursor and
the bytes after it (`Line`), and `abs` reads that pair off the array.

* `InputBuffer` carries `cursor ≤ len < MAX_LINE_LENGTH` in its type, so every operation has to
  keep it.
* `abs_apply`: each operation acts on `abs` as the matching operation of `Line`, and returns
  what that operation returns; `abs_run` extends this to every sequence of operations.

The history keeps the last 32 commands in a ring indexed by `count % 32`, and a navigation index
that counts from the oldest command ever pushed.

* `History.Inv`: the ring holds the last `min count 32` commands of the log, in order, and the
  index stays within `[0, count]`; every call keeps it.
* `next_afterOvershoot`: `previous` moves the index below the oldest retained command when there
  is no more to go back to, and `next` then answers `None` before the end.
-/

namespace Atom.Terminal

/-- `MAX_LINE_LENGTH`. -/
def MAX_LINE_LENGTH : Nat := 256

/-! ### The line editor -/

/-- `InputBuffer`. The array is a function on indices; every index the operations touch is at
most `len`, below `MAX_LINE_LENGTH`. -/
structure InputBuffer where
  buffer : Nat → UInt8
  len : Nat
  cursor : Nat
  cursor_le_len : cursor ≤ len
  len_lt : len < MAX_LINE_LENGTH

/-- The loop `for i in (lo..lo + n).rev() { buffer[i + 1] = buffer[i] }` of `insert`. -/
def shiftRight (buffer : Nat → UInt8) (lo : Nat) : Nat → Nat → UInt8
  | 0 => buffer
  | n + 1 => shiftRight (Function.update buffer (lo + n + 1) (buffer (lo + n))) lo n

/-- The loop `for i in lo..lo + n { buffer[i - 1] = buffer[i] }` of `backspace` and `delete`. -/
def shiftLeft (buffer : Nat → UInt8) (lo : Nat) : Nat → Nat → UInt8
  | 0 => buffer
  | n + 1 => shiftLeft (Function.update buffer (lo - 1) (buffer lo)) (lo + 1) n

/-- The bytes stored from `lo` on, `n` of them. -/
def bytesFrom (buffer : Nat → UInt8) (lo n : Nat) : List UInt8 :=
  (List.range n).map fun j => buffer (lo + j)

namespace InputBuffer

/-- `InputBuffer::new`. -/
def new : InputBuffer := ⟨fun _ => 0, 0, 0, Nat.le_refl _, by decide⟩

/-- `InputBuffer::clear`. -/
def clear (b : InputBuffer) : InputBuffer := ⟨b.buffer, 0, 0, Nat.le_refl _, by decide⟩

/-- `InputBuffer::as_bytes`. -/
def asBytes (b : InputBuffer) : List UInt8 := bytesFrom b.buffer 0 b.len

/-- `InputBuffer::insert`. -/
def insert (b : InputBuffer) (ch : UInt8) : Bool × InputBuffer :=
  if h : b.len ≥ MAX_LINE_LENGTH - 1 then (false, b)
  else
    (true, ⟨Function.update (shiftRight b.buffer b.cursor (b.len - b.cursor)) b.cursor ch,
      b.len + 1, b.cursor + 1, by have := b.cursor_le_len; omega, by omega⟩)

/-- `InputBuffer::backspace`. -/
def backspace (b : InputBuffer) : Bool × InputBuffer :=
  if h : b.cursor = 0 then (false, b)
  else
    (true, ⟨shiftLeft b.buffer b.cursor (b.len - b.cursor), b.len - 1, b.cursor - 1,
      by have := b.cursor_le_len; omega, by have := b.len_lt; omega⟩)

/-- `InputBuffer::delete`. -/
def delete (b : InputBuffer) : Bool × InputBuffer :=
  if h : b.cursor ≥ b.len then (false, b)
  else
    (true, ⟨shiftLeft b.buffer (b.cursor + 1) (b.len - (b.cursor + 1)), b.len - 1, b.cursor,
      by omega, by have := b.len_lt; omega⟩)

/-- `InputBuffer::cursor_left`. -/
def cursorLeft (b : InputBuffer) : Bool × InputBuffer :=
  if h : b.cursor > 0 then
    (true, ⟨b.buffer, b.len, b.cursor - 1, by have := b.cursor_le_len; omega, b.len_lt⟩)
  else (false, b)

/-- `InputBuffer::cursor_right`. -/
def cursorRight (b : InputBuffer) : Bool × InputBuffer :=
  if h : b.cursor < b.len then (true, ⟨b.buffer, b.len, b.cursor + 1, h, b.len_lt⟩)
  else (false, b)

/-- `InputBuffer::cursor_home`. -/
def cursorHome (b : InputBuffer) : InputBuffer := ⟨b.buffer, b.len, 0, Nat.zero_le _, b.len_lt⟩

/-- `InputBuffer::cursor_end`. -/
def cursorEnd (b : InputBuffer) : InputBuffer := ⟨b.buffer, b.len, b.len, Nat.le_refl _, b.len_lt⟩

/-- The loop of `set`: each byte is stored at `len` while `len < MAX_LINE_LENGTH - 1`. -/
def setLoop (buffer : Nat → UInt8) (len : Nat) : List UInt8 → (Nat → UInt8) × Nat
  | [] => (buffer, len)
  | byte :: rest =>
      if len < MAX_LINE_LENGTH - 1 then setLoop (Function.update buffer len byte) (len + 1) rest
      else setLoop buffer len rest

theorem setLoop_len_lt : ∀ (s : List UInt8) {buffer : Nat → UInt8} {len : Nat},
    len < MAX_LINE_LENGTH → (setLoop buffer len s).2 < MAX_LINE_LENGTH
  | [], _, _, h => h
  | byte :: rest, buffer, len, h => by
      unfold setLoop
      split_ifs with hlt
      · exact setLoop_len_lt rest (by omega)
      · exact setLoop_len_lt rest h

/-- `InputBuffer::set`, on the bytes of the string. -/
def set (b : InputBuffer) (s : List UInt8) : InputBuffer :=
  let r := setLoop b.clear.buffer 0 s
  ⟨r.1, r.2, r.2, Nat.le_refl _, setLoop_len_lt s (by decide)⟩

end InputBuffer

/-! ### What the editor means -/

/-- The abstract line: the bytes before the cursor and the bytes after it. -/
structure Line where
  left : List UInt8
  right : List UInt8
  deriving DecidableEq, Repr

namespace Line

/-- The text of the line. -/
def text (l : Line) : List UInt8 := l.left ++ l.right

def insert (l : Line) (ch : UInt8) : Bool × Line :=
  if l.left.length + l.right.length < MAX_LINE_LENGTH - 1 then (true, ⟨l.left ++ [ch], l.right⟩)
  else (false, l)

def backspace (l : Line) : Bool × Line :=
  if l.left = [] then (false, l) else (true, ⟨l.left.dropLast, l.right⟩)

def delete (l : Line) : Bool × Line :=
  match l.right with
  | [] => (false, l)
  | _ :: r => (true, ⟨l.left, r⟩)

def cursorLeft (l : Line) : Bool × Line :=
  match l.left.getLast? with
  | none => (false, l)
  | some c => (true, ⟨l.left.dropLast, c :: l.right⟩)

def cursorRight (l : Line) : Bool × Line :=
  match l.right with
  | [] => (false, l)
  | c :: r => (true, ⟨l.left ++ [c], r⟩)

def cursorHome (l : Line) : Line := ⟨[], l.text⟩

def cursorEnd (l : Line) : Line := ⟨l.text, []⟩

def set (s : List UInt8) : Line := ⟨s.take (MAX_LINE_LENGTH - 1), []⟩

def clear : Line := ⟨[], []⟩

end Line

/-- The line an `InputBuffer` stands for. -/
def InputBuffer.abs (b : InputBuffer) : Line :=
  ⟨bytesFrom b.buffer 0 b.cursor, bytesFrom b.buffer b.cursor (b.len - b.cursor)⟩

/-! ### The shifting loops -/

theorem shiftRight_apply (buffer : Nat → UInt8) (lo : Nat) :
    ∀ (n j : Nat), shiftRight buffer lo n j = if lo < j ∧ j ≤ lo + n then buffer (j - 1) else buffer j
  | 0, j => by
      simp only [shiftRight]
      split_ifs <;> first | rfl | omega
  | n + 1, j => by
      rw [shiftRight, shiftRight_apply _ lo n j]
      -- the write at `lo + n + 1` is the last place the loop reaches
      by_cases hj : j = lo + n + 1
      · subst hj
        rw [if_neg (by omega), if_pos (by omega), Function.update_self, Nat.add_sub_cancel]
      · simp only [Function.update_of_ne hj]
        split_ifs <;> first | rfl | omega | (rw [Function.update_of_ne (by omega)])

theorem shiftLeft_apply (buffer : Nat → UInt8) :
    ∀ (lo n j : Nat), 1 ≤ lo →
      shiftLeft buffer lo n j = if lo ≤ j + 1 ∧ j + 1 < lo + n then buffer (j + 1) else buffer j
  | lo, 0, j, _ => by
      simp only [shiftLeft]
      split_ifs <;> first | rfl | omega
  | lo, n + 1, j, hlo => by
      rw [shiftLeft, shiftLeft_apply _ (lo + 1) n j (by omega)]
      -- the write at `lo - 1` is the first place the loop reaches
      by_cases hj : j = lo - 1
      · subst hj
        simp only [Function.update_self]
        split_ifs <;> first | omega | (congr 1; omega)
      · simp only [Function.update_of_ne hj]
        split_ifs <;> first | rfl | omega | (rw [Function.update_of_ne (by omega)])
@[simp] theorem bytesFrom_zero (buffer : Nat → UInt8) (lo : Nat) : bytesFrom buffer lo 0 = [] := rfl


theorem bytesFrom_congr {buffer buffer' : Nat → UInt8} {lo lo' n : Nat}
    (h : ∀ j < n, buffer' (lo' + j) = buffer (lo + j)) : bytesFrom buffer' lo' n = bytesFrom buffer lo n :=
  List.map_congr_left fun j hj => h j (List.mem_range.mp hj)

theorem bytesFrom_succ (buffer : Nat → UInt8) (lo n : Nat) :
    bytesFrom buffer lo (n + 1) = bytesFrom buffer lo n ++ [buffer (lo + n)] := by
  simp [bytesFrom, List.range_succ]

theorem bytesFrom_add (buffer : Nat → UInt8) (lo m n : Nat) :
    bytesFrom buffer lo (m + n) = bytesFrom buffer lo m ++ bytesFrom buffer (lo + m) n := by
  simp [bytesFrom, List.range_add, Nat.add_assoc]

theorem bytesFrom_split (buffer : Nat → UInt8) (lo : Nat) {m n : Nat} (h : m ≤ n) :
    bytesFrom buffer lo n = bytesFrom buffer lo m ++ bytesFrom buffer (lo + m) (n - m) := by
  rw [← bytesFrom_add, Nat.add_sub_cancel' h]

@[simp] theorem length_bytesFrom (buffer : Nat → UInt8) (lo n : Nat) :
    (bytesFrom buffer lo n).length = n := by
  simp [bytesFrom]

@[simp] theorem bytesFrom_eq_nil {buffer : Nat → UInt8} {lo n : Nat} : bytesFrom buffer lo n = [] ↔ n = 0 := by
  rw [← List.length_eq_zero_iff, length_bytesFrom]

theorem bytesFrom_cons (buffer : Nat → UInt8) (lo n : Nat) :
    bytesFrom buffer lo (n + 1) = buffer lo :: bytesFrom buffer (lo + 1) n := by
  rw [Nat.add_comm n 1, bytesFrom_add]
  simp [bytesFrom]

/-! ### The refinement -/

namespace InputBuffer

variable (b : InputBuffer)

theorem asBytes_eq_text : b.asBytes = b.abs.text := by
  rw [asBytes, bytesFrom_split _ 0 b.cursor_le_len, Nat.zero_add]
  rfl

theorem cursor_eq_length_left : b.cursor = b.abs.left.length := by simp [abs]

theorem length_text : b.abs.text.length = b.len := by
  simp [abs, Line.text, b.cursor_le_len]

theorem abs_insert (ch : UInt8) : (b.insert ch).1 = (b.abs.insert ch).1 ∧
    (b.insert ch).2.abs = (b.abs.insert ch).2 := by
  have hlen : b.abs.left.length + b.abs.right.length = b.len := by
    simpa [Line.text] using b.length_text
  unfold insert Line.insert
  by_cases h : b.len ≥ MAX_LINE_LENGTH - 1
  · rw [dif_pos h, if_neg (by omega)]
    exact ⟨rfl, rfl⟩
  · rw [dif_neg h, if_pos (by omega)]
    refine ⟨rfl, ?_⟩
    simp only [abs, Line.mk.injEq]
    constructor
    · -- below the cursor nothing moved; the cursor holds `ch`
      rw [bytesFrom_succ, Nat.zero_add, Function.update_self]
      congr 1
      refine bytesFrom_congr fun j hj => ?_
      rw [Function.update_of_ne (by omega), shiftRight_apply, if_neg (by omega)]
    · -- after the cursor, every byte has moved one place right
      rw [show b.len + 1 - (b.cursor + 1) = b.len - b.cursor by omega]
      refine bytesFrom_congr fun j hj => ?_
      rw [Function.update_of_ne (by omega), shiftRight_apply, if_pos (by omega)]
      congr 1
      omega

theorem abs_backspace : (b.backspace).1 = b.abs.backspace.1 ∧
    b.backspace.2.abs = b.abs.backspace.2 := by
  have hc := b.cursor_le_len
  unfold backspace Line.backspace
  by_cases h : b.cursor = 0
  · rw [dif_pos h, if_pos (by simp [abs, h])]
    exact ⟨rfl, rfl⟩
  · rw [dif_neg h, if_neg (by simp [abs, h])]
    refine ⟨rfl, ?_⟩
    obtain ⟨c, hc⟩ : ∃ c, b.cursor = c + 1 := ⟨b.cursor - 1, by omega⟩
    simp only [abs, Line.mk.injEq, hc, bytesFrom_succ, List.dropLast_concat, Nat.add_sub_cancel]
    constructor
    · refine bytesFrom_congr fun j hj => ?_
      rw [shiftLeft_apply _ _ _ _ (by omega), if_neg (by omega)]
    · rw [show b.len - 1 - c = b.len - (c + 1) by omega]
      refine bytesFrom_congr fun j hj => ?_
      rw [shiftLeft_apply _ _ _ _ (by omega), if_pos (by omega)]
      congr 1
      omega

theorem abs_delete : b.delete.1 = b.abs.delete.1 ∧ b.delete.2.abs = b.abs.delete.2 := by
  unfold delete Line.delete
  by_cases h : b.cursor ≥ b.len
  · have hr : b.abs.right = [] := by simp [abs, show b.len - b.cursor = 0 by omega]
    rw [dif_pos h, hr]
    exact ⟨rfl, rfl⟩
  · obtain ⟨n, hn⟩ : ∃ n, b.len - b.cursor = n + 1 := ⟨b.len - b.cursor - 1, by omega⟩
    have hr : b.abs.right = b.buffer b.cursor :: bytesFrom b.buffer (b.cursor + 1) n := by
      rw [abs, hn, bytesFrom_cons]
    rw [dif_neg h, hr]
    refine ⟨rfl, ?_⟩
    simp only [abs, Line.mk.injEq]
    constructor
    · refine bytesFrom_congr fun j hj => ?_
      rw [shiftLeft_apply _ _ _ _ (by omega), if_neg (by omega)]
    · rw [show b.len - 1 - b.cursor = n by omega]
      refine bytesFrom_congr fun j hj => ?_
      rw [shiftLeft_apply _ _ _ _ (by omega), if_pos (by omega)]
      congr 1
      omega

theorem abs_cursorLeft : b.cursorLeft.1 = b.abs.cursorLeft.1 ∧
    b.cursorLeft.2.abs = b.abs.cursorLeft.2 := by
  unfold cursorLeft Line.cursorLeft
  by_cases h : b.cursor > 0
  · obtain ⟨c, hc⟩ : ∃ c, b.cursor = c + 1 := ⟨b.cursor - 1, by omega⟩
    have hl : b.abs.left = bytesFrom b.buffer 0 c ++ [b.buffer c] := by
      rw [abs, hc, bytesFrom_succ, Nat.zero_add]
    rw [dif_pos h, hl, List.getLast?_concat]
    refine ⟨rfl, ?_⟩
    simp only [abs, Line.mk.injEq, List.dropLast_concat, hc, Nat.add_sub_cancel, true_and]
    rw [show b.len - c = (b.len - (c + 1)) + 1 by have := b.cursor_le_len; omega, bytesFrom_cons]
  · have hl : b.abs.left = [] := by simp [abs, show b.cursor = 0 by omega]
    rw [dif_neg h, hl, List.getLast?_nil]
    exact ⟨rfl, rfl⟩

theorem abs_cursorRight : b.cursorRight.1 = b.abs.cursorRight.1 ∧
    b.cursorRight.2.abs = b.abs.cursorRight.2 := by
  unfold cursorRight Line.cursorRight
  by_cases h : b.cursor < b.len
  · obtain ⟨n, hn⟩ : ∃ n, b.len - b.cursor = n + 1 := ⟨b.len - b.cursor - 1, by omega⟩
    have hr : b.abs.right = b.buffer b.cursor :: bytesFrom b.buffer (b.cursor + 1) n := by
      rw [abs, hn, bytesFrom_cons]
    rw [dif_pos h, hr]
    refine ⟨rfl, ?_⟩
    simp only [abs, Line.mk.injEq, bytesFrom_succ, Nat.zero_add, true_and]
    rw [show b.len - (b.cursor + 1) = n by omega]
  · have hr : b.abs.right = [] := by simp [abs, show b.len - b.cursor = 0 by omega]
    rw [dif_neg h, hr]
    exact ⟨rfl, rfl⟩

theorem abs_cursorHome : b.cursorHome.abs = b.abs.cursorHome := by
  simp only [cursorHome, Line.cursorHome, ← asBytes_eq_text]
  simp [abs, asBytes]

theorem abs_cursorEnd : b.cursorEnd.abs = b.abs.cursorEnd := by
  simp only [cursorEnd, Line.cursorEnd, ← asBytes_eq_text]
  simp [abs, asBytes]

theorem abs_clear : b.clear.abs = Line.clear := rfl

/-- What the loop of `set` stores: the bytes of `s` that fit, after the first `len`. -/
theorem setLoop_spec (buffer : Nat → UInt8) (len : Nat) (hlen : len < MAX_LINE_LENGTH) :
    ∀ s : List UInt8, (setLoop buffer len s).2 = min (len + s.length) (MAX_LINE_LENGTH - 1) ∧
      bytesFrom (setLoop buffer len s).1 0 (setLoop buffer len s).2 =
        bytesFrom buffer 0 len ++ s.take (MAX_LINE_LENGTH - 1 - len)
  | [] => by simp [setLoop]; omega
  | byte :: rest => by
      unfold setLoop
      split_ifs with hlt
      · obtain ⟨hl, hb⟩ := setLoop_spec (Function.update buffer len byte) (len + 1) (by omega) rest
        refine ⟨by simp only [hl, List.length_cons]; omega, ?_⟩
        rw [hb, bytesFrom_succ, Nat.zero_add, Function.update_self,
          bytesFrom_congr fun j hj => Function.update_of_ne (by omega) _ _,
          show MAX_LINE_LENGTH - 1 - len = (MAX_LINE_LENGTH - 1 - (len + 1)) + 1 by omega,
          List.take_succ_cons, List.append_assoc, List.singleton_append]
      · have hfull : len = MAX_LINE_LENGTH - 1 := by omega
        obtain ⟨hl, hb⟩ := setLoop_spec buffer len hlen rest
        refine ⟨by simp only [hl, List.length_cons]; omega, ?_⟩
        rw [hb, hfull, Nat.sub_self, List.take_zero, List.take_zero]

theorem abs_set (s : List UInt8) : (b.set s).abs = Line.set s := by
  obtain ⟨-, hb⟩ := setLoop_spec b.clear.buffer 0 (by decide) s
  simp only [set, abs, Line.set, Nat.sub_self, Line.mk.injEq]
  refine ⟨?_, by simp [bytesFrom]⟩
  simpa [bytesFrom] using hb

end InputBuffer

/-! ### Runs of operations -/

/-- The operations of the line editor. -/
inductive EditOp where
  | insert (ch : UInt8)
  | backspace
  | delete
  | cursorLeft
  | cursorRight
  | cursorHome
  | cursorEnd
  | set (s : List UInt8)
  | clear
  deriving DecidableEq, Repr

/-- The editor after one operation. -/
def InputBuffer.apply (b : InputBuffer) : EditOp → InputBuffer
  | .insert ch => (b.insert ch).2
  | .backspace => b.backspace.2
  | .delete => b.delete.2
  | .cursorLeft => b.cursorLeft.2
  | .cursorRight => b.cursorRight.2
  | .cursorHome => b.cursorHome
  | .cursorEnd => b.cursorEnd
  | .set s => b.set s
  | .clear => b.clear

/-- The abstract line after one operation. -/
def Line.apply (l : Line) : EditOp → Line
  | .insert ch => (l.insert ch).2
  | .backspace => l.backspace.2
  | .delete => l.delete.2
  | .cursorLeft => l.cursorLeft.2
  | .cursorRight => l.cursorRight.2
  | .cursorHome => l.cursorHome
  | .cursorEnd => l.cursorEnd
  | .set s => Line.set s
  | .clear => Line.clear

theorem InputBuffer.abs_apply (b : InputBuffer) : ∀ op : EditOp, (b.apply op).abs = b.abs.apply op
  | .insert ch => (b.abs_insert ch).2
  | .backspace => b.abs_backspace.2
  | .delete => b.abs_delete.2
  | .cursorLeft => b.abs_cursorLeft.2
  | .cursorRight => b.abs_cursorRight.2
  | .cursorHome => b.abs_cursorHome
  | .cursorEnd => b.abs_cursorEnd
  | .set s => b.abs_set s
  | .clear => b.abs_clear

/-- **The line editor refines the two-list model**: after any sequence of operations from any
editor state, the array read up to `len` is `left ++ right` of the model run on the same
operations, the cursor is the length of `left`, and `cursor ≤ len ≤ MAX_LINE_LENGTH - 1`. -/
theorem InputBuffer.abs_run (b : InputBuffer) (ops : List EditOp) :
    let b' := ops.foldl InputBuffer.apply b
    let l' := ops.foldl Line.apply b.abs
    b'.abs = l' ∧ b'.asBytes = l'.text ∧ b'.cursor = l'.left.length ∧
      b'.cursor ≤ b'.len ∧ b'.len ≤ MAX_LINE_LENGTH - 1 := by
  intro b' l'
  have habs : b'.abs = l' := by
    induction ops generalizing b with
    | nil => rfl
    | cons op ops ih => simpa [b', l', List.foldl_cons, abs_apply] using ih (b.apply op)
  refine ⟨habs, habs ▸ b'.asBytes_eq_text, habs ▸ b'.cursor_eq_length_left, b'.cursor_le_len, ?_⟩
  have := b'.len_lt
  omega

/-! ### The command history -/

/-- `History`. `entries i` is what slot `i` holds, `entries[i][..lengths[i]]`: the bytes of a
slot that are ever read. -/
structure History where
  entries : Nat → List UInt8
  count : Nat
  index : Nat

namespace History

/-- `self.capacity`, which `new` sets to 32 and nothing changes. -/
def capacity : Nat := 32

/-- `History::new`. -/
def new : History := ⟨fun _ => [], 0, 0⟩

/-- `History::reset_navigation`. -/
def resetNavigation (h : History) : History := { h with index := h.count }

/-- `History::push`: an empty command, or one equal to the last stored, only resets the
navigation; any other is stored, cut to `MAX_LINE_LENGTH - 1` bytes, in slot `count % capacity`. -/
def push (h : History) (cmd : List UInt8) : History :=
  if cmd.isEmpty then h
  else if h.count > 0 ∧ h.entries ((h.count - 1) % capacity) = cmd then h.resetNavigation
  else
    let idx := h.count % capacity
    let len := min cmd.length (MAX_LINE_LENGTH - 1)
    resetNavigation { h with
      entries := Function.update h.entries idx (cmd.take len)
      count := h.count + 1 }

/-- The oldest command the ring still holds, counted from the first ever pushed. -/
def start (h : History) : Nat := if h.count ≤ capacity then 0 else h.count - capacity

/-- `History::get_current`. -/
def getCurrent (h : History) : Option (List UInt8) :=
  if h.index ≥ h.count then none
  else if h.index < h.start then none
  else some (h.entries (h.index % capacity))

/-- `History::previous`. -/
def previous (h : History) : Option (List UInt8) × History :=
  if h.count = 0 ∨ h.index = 0 then (none, h)
  else
    let h' := { h with index := h.index - 1 }
    (h'.getCurrent, h')

/-- `History::next`. -/
def next (h : History) : Option (List UInt8) × History :=
  if h.index ≥ h.count then (none, h)
  else
    let h' := { h with index := h.index + 1 }
    if h'.index ≥ h'.count then (none, h') else (h'.getCurrent, h')

/-- What the history stands for: the log of stored commands. The ring holds the last
`min count capacity` of them, each in slot `k % capacity`, and the index is within `[0, count]`. -/
structure Inv (h : History) (log : List (List UInt8)) : Prop where
  count_eq : h.count = log.length
  index_le : h.index ≤ h.count
  slot : ∀ k (hk : k < log.length), h.start ≤ k → h.entries (k % capacity) = log[k]

theorem inv_new : new.Inv [] := ⟨rfl, Nat.le_refl _, fun _ hk => absurd hk (Nat.not_lt_zero _)⟩

/-- The log after a push: consecutive duplicates collapse, and a stored command is cut to
`MAX_LINE_LENGTH - 1` bytes. -/
def pushLog (log : List (List UInt8)) (cmd : List UInt8) : List (List UInt8) :=
  if cmd.isEmpty then log
  else if log.getLast? = some cmd then log
  else log ++ [cmd.take (MAX_LINE_LENGTH - 1)]

theorem start_eq (h : History) : h.start = h.count - min h.count capacity := by
  unfold start
  split_ifs <;> omega

theorem start_lt_count (h : History) (hpos : 0 < h.count) : h.start < h.count := by
  unfold start capacity
  split_ifs <;> omega

variable {h : History} {log : List (List UInt8)}

/-- The last stored command sits in slot `(count - 1) % capacity`. -/
theorem Inv.last (hi : h.Inv log) (hpos : h.count > 0) :
    log.getLast? = some (h.entries ((h.count - 1) % capacity)) := by
  have hlen : h.count - 1 < log.length := by rw [← hi.count_eq]; omega
  rw [hi.slot (h.count - 1) hlen (by have := h.start_lt_count hpos; omega),
    List.getLast?_eq_getElem?, ← hi.count_eq, List.getElem?_eq_getElem hlen]

theorem Inv.push (hi : h.Inv log) (cmd : List UInt8) : (h.push cmd).Inv (pushLog log cmd) := by
  unfold History.push pushLog
  by_cases he : cmd.isEmpty
  · rw [if_pos he, if_pos he]
    exact hi
  rw [if_neg he, if_neg he]
  by_cases hd : h.count > 0 ∧ h.entries ((h.count - 1) % capacity) = cmd
  · rw [if_pos hd, if_pos (by rw [hi.last hd.1, hd.2])]
    exact ⟨hi.count_eq, Nat.le_refl _, hi.slot⟩
  · rw [if_neg hd, if_neg ?_]
    · have hc := hi.count_eq
      refine ⟨by simp [resetNavigation, hc], Nat.le_refl _, fun k hk hs => ?_⟩
      simp only [resetNavigation, start_eq] at hk hs ⊢
      simp only [List.length_append, List.length_singleton] at hk
      rcases Nat.lt_or_ge k h.count with hlt | hge
      · -- an older command: its slot is not the one written, fewer than `capacity` back
        have hne : k % capacity ≠ h.count % capacity := by
          have : (k + 0) % capacity ≠ (k + (h.count - k)) % capacity :=
            Atom.Lib.Circular.mod_ne_of_lt (by omega) (by omega)
          rwa [Nat.add_zero, Nat.add_sub_cancel' (Nat.le_of_lt hlt)] at this
        rw [Function.update_of_ne hne, hi.slot k (by omega) (by rw [start_eq]; omega),
          List.getElem_append_left]
      · -- the command just stored
        obtain rfl : k = h.count := by omega
        rw [Function.update_self, List.getElem_append_right (by omega)]
        simp [hc, Nat.min_comm]
    · intro hl
      by_cases hpos : h.count > 0
      · exact hd ⟨hpos, Option.some.inj ((hi.last hpos).symm.trans hl)⟩
      · rw [List.getLast?_eq_none_iff.mpr (List.length_eq_zero_iff.mp (by rw [← hi.count_eq]; omega))]
          at hl
        cases hl

/-- Moving the index within `[0, count]` keeps the invariant: the ring does not depend on it. -/
theorem Inv.withIndex (hi : h.Inv log) {i : Nat} (hle : i ≤ h.count) :
    ({ h with index := i } : History).Inv log :=
  ⟨hi.count_eq, hle, hi.slot⟩

theorem Inv.previous (hi : h.Inv log) : h.previous.2.Inv log := by
  unfold History.previous
  dsimp only
  split_ifs
  · exact hi
  · exact hi.withIndex (by have := hi.index_le; omega)

theorem Inv.next (hi : h.Inv log) : h.next.2.Inv log := by
  unfold History.next
  dsimp only
  split_ifs with hend
  · exact hi
  · exact hi.withIndex (by omega)
  · exact hi.withIndex (by omega)

/-- The calls the terminal makes on its history: `push` on Enter, `previous` and `next` on the
arrow keys. -/
inductive Call where
  | push (cmd : List UInt8)
  | previous
  | next
  deriving DecidableEq, Repr

/-- The history after one call. -/
def apply (h : History) : Call → History
  | .push cmd => h.push cmd
  | .previous => h.previous.2
  | .next => h.next.2

/-- The log after one call: only a push changes it. -/
def logApply (log : List (List UInt8)) : Call → List (List UInt8)
  | .push cmd => pushLog log cmd
  | .previous | .next => log

/-- **The history keeps its invariant on every run** from `new`: the ring holds the last 32
commands of the log and the navigation index stays within `[0, count]`. -/
theorem inv_run (calls : List Call) :
    (calls.foldl apply new).Inv (calls.foldl logApply []) := by
  suffices ∀ (h : History) log, h.Inv log → (calls.foldl apply h).Inv (calls.foldl logApply log) from
    this new [] inv_new
  induction calls with
  | nil => exact fun _ _ hi => hi
  | cons c calls ih =>
      intro h log hi
      apply ih
      cases c with
      | push cmd => exact hi.push cmd
      | previous => exact hi.previous
      | next => exact hi.next

end History

/-- Thirty-four commands `[0]` to `[33]`, pushed in turn; the ring holds `[2]` to `[33]`. -/
def History.thirtyFour : History :=
  (List.range 34).foldl (fun h i => h.push [UInt8.ofNat i]) History.new

/-- The history of thirty-four commands after thirty-four `previous` calls, the last two of
which went below the oldest retained command. -/
def History.overshot : History :=
  (List.range 34).foldl (fun h _ => h.previous.2) History.thirtyFour

/-- **`next` answers `None` before the end**: after the overshoot, `next` answers `None` although
the index is below `count`, and the `next` after it answers `[2]`. -/
theorem History.next_afterOvershoot :
    History.overshot.next.1 = none ∧ History.overshot.next.2.index < History.overshot.next.2.count ∧
      History.overshot.next.2.next.1 = some [2] := by
  decide +kernel

end Atom.Terminal
