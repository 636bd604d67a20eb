import Mathlib.Data.Finmap
import Mathlib.Data.Finset.Sort
import Atom.Kernel.Thread.Types

/-!
# Capabilities — handles, permissions, resources and the per-thread table

The data model of `kernel/src/cap.rs`.

* `CapHandle` is the `u64` the counter `NEXT_HANDLE` hands out; as for thread ids the counter is
  a natural number, so a handle is never handed out twice.
* `CapPermissions` keeps the source's `u32` bit set and its four operations on it.
* A `Capability` records its resource, permissions, owner and lineage: the parent it was derived
  from and the children derived from it.
* `CapabilityTable` is a thread's view, a `BTreeMap<CapHandle, Capability>`: a `Finmap` here,
  extensional like the source's map, so two tables with the same entries are equal; `list` walks
  its keys in order, as the source's iteration does.

The audit log of `CapabilityManager` is written by every operation and read by none, and is
left out.
-/

namespace Atom

/-- `CapHandle(u64)`. -/
abbrev CapHandle := Nat

/-- `CapPermissions { bits: u32 }`. -/
structure CapPermissions where
  bits : UInt32
  deriving DecidableEq, Repr

namespace CapPermissions

def READ : CapPermissions := ⟨(1 : UInt32) <<< 0⟩
def WRITE : CapPermissions := ⟨(1 : UInt32) <<< 1⟩
def EXECUTE : CapPermissions := ⟨(1 : UInt32) <<< 2⟩
def GRANT : CapPermissions := ⟨(1 : UInt32) <<< 3⟩
def REVOKE : CapPermissions := ⟨(1 : UInt32) <<< 4⟩

/-- `CapPermissions::from_bits`. -/
def fromBits (bits : UInt32) : CapPermissions := ⟨bits⟩

/-- `contains`: every bit of `other` is set. -/
def contains (p other : CapPermissions) : Bool := (p.bits &&& other.bits) == other.bits

/-- `union`. -/
def union (p other : CapPermissions) : CapPermissions := ⟨p.bits ||| other.bits⟩

/-- `is_subset_of`: no bit outside `other` is set. -/
def isSubsetOf (p other : CapPermissions) : Bool := (p.bits &&& ~~~other.bits) == 0

end CapPermissions

/-- `ResourceType`.  The `u64` and `usize` fields are only compared, so they are numbers. -/
inductive ResourceType where
  | thread (id : ThreadId)
  | memoryRegion (virtAddr physAddr size : Nat)
  | ipcPort (portId : Nat)
  | irq (irqNum : UInt8)
  | device (bdf : UInt16)
  | dmaBuffer (physAddr size : Nat)
  | sharedMemoryRegion (regionId : Nat)
  deriving DecidableEq, Repr

/-- `CapError`. -/
inductive CapError where
  | notFound
  | permissionDenied
  | invalidHandle
  | alreadyExists
  | wrongResourceType
  | notOwner
  deriving DecidableEq, Repr

/-- `Capability`. -/
structure Capability where
  handle : CapHandle
  resource : ResourceType
  permissions : CapPermissions
  owner : ThreadId
  parent : Option CapHandle
  children : List CapHandle
  deriving DecidableEq, Repr

namespace Capability

/-- `Capability::new_root`, at the handle `CapHandle::new()` returned. -/
def newRoot (handle : CapHandle) (resource : ResourceType) (owner : ThreadId)
    (permissions : CapPermissions) : Capability :=
  { handle, resource, permissions, owner, parent := none, children := [] }

/-- `Capability::derive`.  The source draws the child's handle from `NEXT_HANDLE` only once the
subset check has passed; the caller passes that handle in and advances the counter exactly when
the result is `ok`.  The result is the parent with the child appended to its children, and the
child. -/
def derive (self : Capability) (childHandle : CapHandle) (newOwner : ThreadId)
    (reducedPermissions : CapPermissions) : Except CapError (Capability × Capability) :=
  if !reducedPermissions.isSubsetOf self.permissions then
    .error .permissionDenied
  else
    .ok ({ self with children := self.children ++ [childHandle] },
      { handle := childHandle, resource := self.resource, permissions := reducedPermissions,
        owner := newOwner, parent := some self.handle, children := [] })

theorem derive_eq_ok {self : Capability} {childHandle : CapHandle} {newOwner : ThreadId}
    {reducedPermissions : CapPermissions} {parent' child : Capability}
    (h : self.derive childHandle newOwner reducedPermissions = .ok (parent', child)) :
    reducedPermissions.isSubsetOf self.permissions = true ∧
      parent' = { self with children := self.children ++ [childHandle] } ∧
      child = { handle := childHandle, resource := self.resource,
                permissions := reducedPermissions, owner := newOwner,
                parent := some self.handle, children := [] } := by
  unfold derive at h
  split_ifs at h with hsub
  cases h
  simpa using hsub

/-- `has_permission`. -/
def hasPermission (c : Capability) (perm : CapPermissions) : Bool := c.permissions.contains perm

/-- `is_owned_by`. -/
def isOwnedBy (c : Capability) (threadId : ThreadId) : Bool := c.owner == threadId

end Capability

/-- A `BTreeMap<CapHandle, Capability>`. -/
abbrev CapMap := Finmap (fun _ : CapHandle => Capability)

/-- `CapabilityTable`: a thread's capabilities, by handle. -/
structure CapabilityTable where
  capabilities : CapMap
  owner : ThreadId

namespace CapabilityTable

/-- `CapabilityTable::new`. -/
def new (owner : ThreadId) : CapabilityTable := ⟨∅, owner⟩

/-- `get`. -/
def get (t : CapabilityTable) (handle : CapHandle) : Option Capability := t.capabilities.lookup handle

/-- `contains`. -/
def contains (t : CapabilityTable) (handle : CapHandle) : Bool := decide (handle ∈ t.capabilities)

/-- `insert`: refused when the handle is already present. -/
def insert (t : CapabilityTable) (cap : Capability) : Except CapError (CapHandle × CapabilityTable) :=
  if t.contains cap.handle then .error .alreadyExists
  else .ok (cap.handle, { t with capabilities := t.capabilities.insert cap.handle cap })

/-- `remove`. -/
def remove (t : CapabilityTable) (handle : CapHandle) : Option Capability × CapabilityTable :=
  (t.get handle, { t with capabilities := t.capabilities.erase handle })

/-- `validate`. -/
def validate (t : CapabilityTable) (handle : CapHandle) (requiredPermission : CapPermissions) :
    Except CapError Capability :=
  match t.get handle with
  | none => .error .notFound
  | some cap => if !cap.hasPermission requiredPermission then .error .permissionDenied else .ok cap

/-- `list`: the handles, in key order. -/
def list (t : CapabilityTable) : List CapHandle := t.capabilities.keys.sort (· ≤ ·)

end CapabilityTable

end Atom
