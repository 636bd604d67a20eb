import Atom.Kernel.Syscall.Ipc

/-!
# System calls — timeouts and deadlines

`sys_ipc_recv` and `sys_ipc_wait_any` turn a timeout in milliseconds into a deadline in timer
ticks of ten milliseconds, `get_ticks() + (timeout_ms + 9) / 10`, in `u64`; `u64::MAX` means no
deadline, and `sys_ipc_wait_any` takes a zero timeout as the current tick. A waiter expires once
the tick count reaches its deadline: `handle_timeouts` tests `current_ticks >= deadline`, and so
does the polling loop of `sys_ipc_wait_any`.

The rounding sum `timeout_ms + 9` wraps for the eight timeouts from `2 ^ 64 - 9` to
`2 ^ 64 - 2`: their deadline is the current tick itself.

* `recvDeadline_nearMax`: the timeout `2 ^ 64 - 9` at tick `0`, whose rounded deadline fits in
  `u64`, gets the deadline `0`, earlier than the deadline of a timeout of ten milliseconds.
-/

namespace Atom

namespace Kernel

/-- The deadline `sys_ipc_wait_any` gives its polling loop: none for `u64::MAX`, the current tick
for a zero timeout, and otherwise the deadline of `sys_ipc_recv`'s expression. -/
def waitAnyDeadline (ticks timeoutMs : UInt64) : Option UInt64 :=
  if timeoutMs = 0xFFFFFFFFFFFFFFFF then none
  else if timeoutMs = 0 then some ticks
  else some (ticks + (timeoutMs + 9) / 10)

/-! ### The rounded number of ticks -/

/-! ### Deadlines -/

section Deadline

variable {ticks timeoutMs : UInt64}

end Deadline

/-! ### Expiry -/

section Expiry

variable {m : IpcManager} {tid : ThreadId} {port : PortId} {ticks timeoutMs : UInt64}

end Expiry

/-- **The rounding wraps**: at tick `0`, the timeout `2 ^ 64 - 9`, which is not `u64::MAX` and
whose rounded number of ticks fits in `u64`, gets the deadline `0` from both handlers, where the
ceiling of its tenth is `1844674407370955161`; a timeout of ten milliseconds gets the later
deadline `1`. -/
theorem recvDeadline_nearMax :
    recvDeadline 0 0xFFFFFFFFFFFFFFF7 = some 0 ∧ waitAnyDeadline 0 0xFFFFFFFFFFFFFFF7 = some 0 ∧
      recvDeadline 0 10 = some 1 ∧
      (0xFFFFFFFFFFFFFFF7 : UInt64) ≠ 0xFFFFFFFFFFFFFFFF ∧
      0 + ((0xFFFFFFFFFFFFFFF7 : UInt64).toNat + 9) / 10 < 2 ^ 64 ∧
      ((0xFFFFFFFFFFFFFFF7 : UInt64).toNat + 9) / 10 = 1844674407370955161 := by
  decide

end Kernel

end Atom
