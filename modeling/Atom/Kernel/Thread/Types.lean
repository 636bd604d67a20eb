import Mathlib.Data.UInt

/-!
# Kernel — threads: identities, states, priorities and CPU contexts

The data model of `kernel/src/thread.rs`, and the segment selectors of `kernel/src/arch/gdt.rs`
that its contexts carry.

* `ThreadId` is the `u64` the counter `NEXT_ID` hands out; the counter is a natural number here
  (no run allocates `2⁶⁴` threads), so two threads never share an id.
* `CpuContext` keeps the registers the kernel sets or reads: the instruction and stack pointers,
  the flags, the six segment selectors and `cr3`.  The general-purpose registers are zero in
  every constructor and read by no modelled function.
* `CpuContext.new` is the ring-0 context every `Thread::new` gets; `CpuContext.newUser` the ring-3
  one the init process builds.  `validateContextForIret` is the guard `switch_thread_context`
  and `jump_to_context` run before an `iret`; the guard only logs
  (`switchThreadContext_resumes`).
-/

namespace Atom

/-- `ThreadId(u64)`. -/
abbrev ThreadId := Nat

/-- `ThreadState`. -/
inductive ThreadState where
  | running
  | ready
  | blocked
  | exited
  deriving DecidableEq, Repr

/-- `ThreadPriority`, with `Idle = 0 < Low = 1 < Normal = 2 < High = 3`. -/
inductive ThreadPriority where
  | idle
  | low
  | normal
  | high
  deriving DecidableEq, Repr

namespace ThreadPriority

/-- `priority as usize`: the index of the ready queue a thread of this priority joins. -/
def toNat : ThreadPriority → Nat
  | idle => 0
  | low => 1
  | normal => 2
  | high => 3

theorem toNat_lt_four (p : ThreadPriority) : p.toNat < 4 := by
  cases p <;> decide

/-- The derived `Ord` of the source compares the discriminants. -/
instance : LT ThreadPriority := ⟨fun p q => p.toNat < q.toNat⟩

instance (p q : ThreadPriority) : Decidable (p < q) := inferInstanceAs (Decidable (p.toNat < q.toNat))

/-- `Ord::max`. -/
def max (p q : ThreadPriority) : ThreadPriority := if q.toNat < p.toNat then p else q

theorem toNat_max_le {p q b : ThreadPriority} (hp : p.toNat ≤ b.toNat) (hq : q.toNat ≤ b.toNat) :
    (p.max q).toNat ≤ b.toNat := by
  unfold max
  split_ifs
  · exact hp
  · exact hq

/-- `impl Default for ThreadPriority`. -/
instance : Inhabited ThreadPriority := ⟨normal⟩

end ThreadPriority

/-! ### Segment selectors (`arch/gdt.rs`) -/

def KERNEL_CODE_SELECTOR : UInt16 := 0x08
def KERNEL_DATA_SELECTOR : UInt16 := 0x10
def USER_CODE_SELECTOR : UInt16 := 0x18 ||| 3
def USER_DATA_SELECTOR : UInt16 := 0x20 ||| 3

/-- `CpuContext`, less the general-purpose registers. -/
structure CpuContext where
  rsp : UInt64
  rip : UInt64
  rflags : UInt64
  cs : UInt16
  ss : UInt16
  ds : UInt16
  es : UInt16
  fs : UInt16
  gs : UInt16
  cr3 : UInt64
  deriving DecidableEq, Repr

namespace CpuContext

/-- `CpuContext::new`: a ring-0 context on the kernel selectors. -/
def new (entryPoint stackPointer pageTable : UInt64) : CpuContext where
  rsp := stackPointer
  rip := entryPoint
  rflags := 0x200
  cs := 0x08
  ss := 0x10
  ds := 0x10
  es := 0x10
  fs := 0x10
  gs := 0x10
  cr3 := pageTable

/-- `CpuContext::new_user`: a ring-3 context on the user selectors, 16 bytes below the stack
top. -/
def newUser (entryPoint userStack pageTable : UInt64) : CpuContext where
  rsp := userStack - 16
  rip := entryPoint
  rflags := 0x202
  cs := USER_CODE_SELECTOR
  ss := USER_DATA_SELECTOR
  ds := USER_DATA_SELECTOR
  es := USER_DATA_SELECTOR
  fs := USER_DATA_SELECTOR
  gs := USER_DATA_SELECTOR
  cr3 := pageTable

/-- The requested privilege level of the code selector: `cs & 0x3`. -/
def rpl (c : CpuContext) : UInt16 := c.cs &&& 0x3

end CpuContext

/-- `is_canonical`: bits 48–63 all clear or all set. -/
def isCanonical (addr : UInt64) : Bool :=
  let signExtension := addr >>> 48
  signExtension == 0 || signExtension == 0xFFFF

/-- `validate_context_for_iret`. -/
def validateContextForIret (target : CpuContext) : Except String Unit :=
  if !isCanonical target.rip || !isCanonical target.rsp then
    .error "non-canonical RIP or RSP"
  else if target.cs &&& 0x3 == 0x3 then
    if target.cs != USER_CODE_SELECTOR then .error "user CS selector invalid"
    else if target.ss != USER_DATA_SELECTOR then .error "user SS selector invalid"
    else .ok ()
  else if target.cs != KERNEL_CODE_SELECTOR then .error "kernel CS selector invalid"
  else if target.ss != KERNEL_DATA_SELECTOR then .error "kernel SS selector invalid"
  else .ok ()

/-- `guard_context_or_halt`: the reason it logs when the context fails
`validate_context_for_iret`.  It logs through `log_panic!`, which prints and returns. -/
def guardContextOrHalt (target : CpuContext) : Option String :=
  match validateContextForIret target with
  | .error reason => some reason
  | .ok () => none

/-- What a switch does: the reason the guard logged, if any, and the context the CPU resumes. -/
structure Switch where
  logged : Option String
  resumed : CpuContext
  deriving DecidableEq, Repr

/-- `switch_thread_context`: the guard, then `switch_context` to `next`. -/
def switchThreadContext (_current next : CpuContext) : Switch := ⟨guardContextOrHalt next, next⟩

/-- `jump_to_context`: the guard, then `switch_to_context`. -/
def jumpToContext (context : CpuContext) : Switch := ⟨guardContextOrHalt context, context⟩

end Atom

