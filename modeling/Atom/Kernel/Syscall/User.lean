import Atom.Kernel.Syscall.Ipc
import Atom.Kernel.Mm.AddrSpace

/-!
# System calls — user pointers

The handlers whose pointer arguments the kernel dereferences and that are not IPC sends or
receives: `sys_debug_log`, `sys_get_framebuffer`, `sys_ipc_port_stats` and
`sys_cap_query_children`.  Each reports the user memory it reads or writes as `UserAccess`es;
an access is *confined* when every byte of it lies at or below `USER_CANONICAL_MAX`.

The only checks on a pointer are that it is not null and that the length is bounded; the range
accessed is the one the arguments name, wherever it lies.
-/

namespace Atom

open Syscall

/-- Every byte of the access lies at or below `USER_CANONICAL_MAX`. -/
def UserAccess.Confined (a : UserAccess) : Prop :=
  a.len = 0 ∨ a.addr.toNat + a.len ≤ USER_CANONICAL_MAX.toNat + 1

instance (a : UserAccess) : Decidable a.Confined :=
  inferInstanceAs (Decidable (a.len = 0 ∨ _))

namespace Kernel

/-- `sys_debug_log`: `len` bytes are read from `msg_ptr` to be logged. -/
def sysDebugLog (k : Kernel) (msgPtr len : UInt64) : Outcome :=
  if msgPtr = 0 ∨ len > 256 then ⟨EINVAL, k, []⟩
  else ⟨ESUCCESS, k, [⟨msgPtr, len.toNat, false⟩]⟩

/-- `sys_get_framebuffer`: five `u64` are written at `info_ptr` once `graphics` has a
framebuffer. -/
def sysGetFramebuffer (k : Kernel) (env : Env) (infoPtr : UInt64) : Outcome :=
  if infoPtr = 0 then ⟨EINVAL, k, []⟩
  else
    match env.framebuffer with
    | some _ => ⟨ESUCCESS, k, [⟨infoPtr, 5 * 8, true⟩]⟩
    | none => ⟨EINVAL, k, []⟩

/-- `sys_ipc_port_stats`: the 64-byte `RawIpcPortStats` is written at `stats_ptr` when it is not
null. -/
def sysIpcPortStats (k : Kernel) (portIdRaw statsPtr : UInt64) : Outcome :=
  if portIdRaw.toNat ∈ k.ipc.ports then
    ⟨ESUCCESS, k, if statsPtr ≠ 0 then [⟨statsPtr, 8 * 8, true⟩] else []⟩
  else ⟨EINVAL, k, []⟩

/-- `sys_cap_query_children`: a caller holding the handle gets the number of its children, and
up to `buffer_size` of their handles are written at `buffer_ptr`. -/
def sysCapQueryChildren (k : Kernel) (handleRaw bufferPtr bufferSize : UInt64) : Outcome :=
  match k.currentThread with
  | none => ⟨EINVAL, k, []⟩
  | some caller =>
      if !k.caps.threads.hasCapability caller handleRaw.toNat then ⟨EPERM, k, []⟩
      else
        match k.caps.queryChildren handleRaw.toNat with
        | .ok children =>
            let accesses :=
              if bufferPtr ≠ 0 ∧ bufferSize > 0 then
                [⟨bufferPtr, 8 * min children.length bufferSize.toNat, true⟩]
              else []
            ⟨UInt64.ofNat children.length, k, accesses⟩
        | .error _ => ⟨EINVAL, k, []⟩

/-! ### The ranges the calls touch -/

end Kernel

end Atom
