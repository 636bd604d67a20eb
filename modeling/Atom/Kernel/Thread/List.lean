import Atom.Lib.KeyedList
import Atom.Kernel.Cap.Types

/-!
# Kernel — the thread list

`Thread` and the global `ThreadList` of `kernel/src/thread.rs`: a vector of threads that every
operation searches for the first thread with the given id (`lookup`), and changes in place
(`update`).  The operations here are the ones the capability system and the scheduler call:
`add`, `find`, `set_state`, and the capability-table helpers `add_capability`,
`remove_capability`, `has_capability`, `validate_capability` and
`validate_capability_by_type`.

The thread's name, read only by log messages, is left out.  Each operation comes with the
lemma that says what `lookup` sees after it; the proofs about the capability system use those
and never unfold the operations.
-/

namespace Atom

/-- `Thread`. -/
structure Thread where
  id : ThreadId
  state : ThreadState
  context : CpuContext
  kernelStack : UInt64
  kernelStackSize : Nat
  addressSpace : UInt64
  priority : ThreadPriority
  capabilityTable : CapabilityTable

/-- `Thread::new`, at the id `ThreadId::new()` drew: a ready thread with the ring-0 context
`CpuContext::new` builds and an empty capability table.  The stack canary it writes goes to
memory, not into the thread. -/
def Thread.new (id : ThreadId) (entryPoint kernelStack : UInt64) (kernelStackSize : Nat)
    (addressSpace : UInt64) (priority : ThreadPriority) : Thread where
  id
  state := .ready
  context := CpuContext.new entryPoint kernelStack addressSpace
  kernelStack
  kernelStackSize
  addressSpace
  priority
  capabilityTable := CapabilityTable.new id

/-- `ThreadList`: the threads, in the order they were added. -/
abbrev ThreadList := List Thread

namespace ThreadList

open Lib.KeyedList

/-- `threads.iter().find(|t| t.id == id)`. -/
def lookup (ts : ThreadList) (id : ThreadId) : Option Thread := Lib.KeyedList.lookup Thread.id ts id

/-- The first thread with id `id`, changed by `f` in place. -/
def update (ts : ThreadList) (id : ThreadId) (f : Thread → Thread) : ThreadList :=
  Lib.KeyedList.update Thread.id ts id f

/-- `ThreadList::add`: `threads.push(thread)`. -/
def add (ts : ThreadList) (t : Thread) : ThreadList := ts ++ [t]

/-- `ThreadList::find`. -/
def find (ts : ThreadList) (id : ThreadId) : Option ThreadId := (ts.lookup id).map Thread.id

/-- `ThreadList::set_state`: whether the thread was found, and the list. -/
def setState (ts : ThreadList) (id : ThreadId) (state : ThreadState) : Bool × ThreadList :=
  ((ts.lookup id).isSome, ts.update id fun t => { t with state })

/-- `ThreadList::add_capability`: `NotFound` without the thread, else the table's `insert`. -/
def addCapability (ts : ThreadList) (threadId : ThreadId) (capability : Capability) :
    Except CapError CapHandle × ThreadList :=
  match ts.lookup threadId with
  | none => (.error .notFound, ts)
  | some t =>
      match t.capabilityTable.insert capability with
      | .error e => (.error e, ts)
      | .ok (h, table) => (.ok h, ts.update threadId fun t => { t with capabilityTable := table })

/-- `ThreadList::remove_capability`. -/
def removeCapability (ts : ThreadList) (threadId : ThreadId) (capHandle : CapHandle) :
    Option Capability × ThreadList :=
  match ts.lookup threadId with
  | none => (none, ts)
  | some t =>
      let (removed, table) := t.capabilityTable.remove capHandle
      (removed, ts.update threadId fun t => { t with capabilityTable := table })

/-- `ThreadList::has_capability`. -/
def hasCapability (ts : ThreadList) (threadId : ThreadId) (capHandle : CapHandle) : Bool :=
  match ts.lookup threadId with
  | none => false
  | some t => t.capabilityTable.contains capHandle

/-- `ThreadList::validate_capability`. -/
def validateCapability (ts : ThreadList) (threadId : ThreadId) (capHandle : CapHandle)
    (requiredPermission : CapPermissions) : Except CapError Unit :=
  match ts.lookup threadId with
  | none => .error .notFound
  | some t => (t.capabilityTable.validate capHandle requiredPermission).map fun _ => ()

/-- `ThreadList::validate_capability_by_type`: walks the caller's handles in order and answers
`true` at the first capability whose resource passes the filter and which carries the
permission. -/
def validateCapabilityByType (ts : ThreadList) (threadId : ThreadId)
    (requiredPermission : CapPermissions) (resourceFilter : ResourceType → Bool) : Bool :=
  match ts.lookup threadId with
  | none => false
  | some t =>
      t.capabilityTable.list.any fun handle =>
        match t.capabilityTable.get handle with
        | some cap => resourceFilter cap.resource && cap.hasPermission requiredPermission
        | none => false

/-! ### What `lookup` sees after each operation -/

/-- The capability table of thread `id`, if there is one. -/
def table? (ts : ThreadList) (id : ThreadId) : Option CapabilityTable :=
  (ts.lookup id).map Thread.capabilityTable

theorem keepsKey_table (table : CapabilityTable) :
    KeepsKey Thread.id fun t => { t with capabilityTable := table } := fun _ => rfl

theorem lookup_update_table_self (ts : ThreadList) (id : ThreadId) (table : CapabilityTable) :
    (ts.update id fun t => { t with capabilityTable := table }).lookup id =
      (ts.lookup id).map fun t => { t with capabilityTable := table } :=
  lookup_update_self (keepsKey_table table) ts id

theorem lookup_update_table_ne (ts : ThreadList) {id id' : ThreadId} (table : CapabilityTable)
    (h : id' ≠ id) :
    (ts.update id fun t => { t with capabilityTable := table }).lookup id' = ts.lookup id' :=
  lookup_update_ne (keepsKey_table table) ts h

theorem lookup_setState (ts : ThreadList) (id id' : ThreadId) (state : ThreadState) :
    (ts.setState id state).2.lookup id' =
      if id' = id then (ts.lookup id).map fun t => { t with state } else ts.lookup id' := by
  have hkeep : KeepsKey Thread.id fun t => { t with state } := fun _ => rfl
  split_ifs with h
  · subst h
    exact lookup_update_self hkeep ts id'
  · exact lookup_update_ne hkeep ts h

/-- `add_capability` in its three outcomes: no thread, the handle already in its table, or the
capability inserted into the table of the thread found. -/
theorem addCapability_cases (ts : ThreadList) (threadId : ThreadId) (cap : Capability) :
    (ts.lookup threadId = none ∧ ts.addCapability threadId cap = (.error .notFound, ts)) ∨
    (∃ t, ts.lookup threadId = some t ∧ cap.handle ∈ t.capabilityTable.capabilities ∧
      ts.addCapability threadId cap = (.error .alreadyExists, ts)) ∨
    (∃ t, ts.lookup threadId = some t ∧ cap.handle ∉ t.capabilityTable.capabilities ∧
      ts.addCapability threadId cap = (.ok cap.handle, ts.update threadId fun t' =>
        { t' with capabilityTable := { t.capabilityTable with
            capabilities := t.capabilityTable.capabilities.insert cap.handle cap } })) := by
  unfold addCapability
  cases hl : ts.lookup threadId with
  | none => exact .inl ⟨rfl, rfl⟩
  | some t =>
      by_cases hc : cap.handle ∈ t.capabilityTable.capabilities
      · exact .inr (.inl ⟨t, rfl, hc, by simp [CapabilityTable.insert, CapabilityTable.contains, hc]⟩)
      · exact .inr (.inr ⟨t, rfl, hc, by simp [CapabilityTable.insert, CapabilityTable.contains, hc]⟩)

/-- A failed `add_capability` leaves the list as it was. -/
theorem addCapability_of_error {ts : ThreadList} {threadId : ThreadId} {cap : Capability}
    {e : CapError} (h : (ts.addCapability threadId cap).1 = .error e) :
    (ts.addCapability threadId cap).2 = ts := by
  rcases addCapability_cases ts threadId cap with ⟨-, he⟩ | ⟨t, -, -, he⟩ | ⟨t, -, -, he⟩
  · rw [he]
  · rw [he]
  · rw [he] at h
    cases h

/-- `remove_capability`: nothing without the thread, else the handle erased from its table. -/
theorem removeCapability_cases (ts : ThreadList) (threadId : ThreadId) (capHandle : CapHandle) :
    (ts.lookup threadId = none ∧ ts.removeCapability threadId capHandle = (none, ts)) ∨
    (∃ t, ts.lookup threadId = some t ∧ ts.removeCapability threadId capHandle =
      (t.capabilityTable.get capHandle, ts.update threadId fun t' =>
        { t' with capabilityTable := { t.capabilityTable with
            capabilities := t.capabilityTable.capabilities.erase capHandle } })) := by
  unfold removeCapability
  cases hl : ts.lookup threadId with
  | none => exact .inl ⟨rfl, rfl⟩
  | some t => exact .inr ⟨t, rfl, rfl⟩

end ThreadList

end Atom

