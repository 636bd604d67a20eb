import Atom.Kernel.Service.Parse

/-!
# Services — the lifecycle

`ServiceManager::mark_ready` and `mark_failed` of `kernel/src/service_manager.rs` move a service
of the registry from `Pending` to `Ready` or `Failed`, and from `Ready` to `Failed`.  A report on
a name the registry does not hold is an error, and so is `mark_ready` on a failed service; an
error leaves the registry as it was.  `service_state` and `planned_capabilities` read the
registry back, and `init_embedded_manifest` builds the manager from the manifest in the kernel
image.

The services report from their own threads, and the registry takes the reports under a lock in
whatever order they come.  What a run of reports leaves is a function of which reports were made,
not of their order: `settle` says it for one service, which ends failed once it failed or was
reported failed, and else ready once it was ready or reported ready.  A report is one update of
the service it names by `settle` (`registry_report`), whatever state the service is in, the
errors included.

* `registry_reports`: after any run of reports to a manager that `build` made, every declared
  service is in the state `settle` gives, with the capabilities its manifest grants, so a failed
  service is never ready again;
* `registry_reports_interleaved`: every order of the same reports leaves the same registry.
-/

namespace Atom

open Lib

/-- `LifecycleError`. -/
inductive LifecycleError where
  | unknownService (name : String)
  | invalidTransition (service : String) (fromState toState : ServiceState)
  deriving DecidableEq, Repr

/-- A call of `mark_ready` or `mark_failed`, with the name it reports on. -/
inductive Report where
  | markReady (name : String)
  | markFailed (name : String)
  deriving DecidableEq, Repr

/-- The name a report is on. -/
def Report.name : Report → String
  | .markReady name | .markFailed name => name

namespace ServiceManager

/-- `service_state`. -/
def serviceState (sm : ServiceManager) (name : String) : Option ServiceState :=
  (KeyedList.lookup Prod.fst sm.registry name).map fun e => e.2.state

/-- `planned_capabilities`. -/
def plannedCapabilities (sm : ServiceManager) (name : String) : Option (List String) :=
  (KeyedList.lookup Prod.fst sm.registry name).map fun e => e.2.grantedCapabilities

/-- `runtime.state = state`, through `registry.get_mut(name)`. -/
def setState (sm : ServiceManager) (name : String) (state : ServiceState) : ServiceManager :=
  { sm with registry := KeyedList.update Prod.fst sm.registry name fun e => (e.1, { e.2 with state }) }

/-- `mark_ready`. -/
def markReady (sm : ServiceManager) (name : String) : Except LifecycleError ServiceManager :=
  match KeyedList.lookup Prod.fst sm.registry name with
  | none => .error (.unknownService name)
  | some e =>
      match e.2.state with
      | .pending => .ok (sm.setState name .ready)
      | .ready => .ok sm
      | .failed => .error (.invalidTransition name .failed .ready)

/-- `mark_failed`. -/
def markFailed (sm : ServiceManager) (name : String) : Except LifecycleError ServiceManager :=
  match KeyedList.lookup Prod.fst sm.registry name with
  | none => .error (.unknownService name)
  | some e =>
      match e.2.state with
      | .pending | .ready => .ok (sm.setState name .failed)
      | .failed => .ok sm

/-- A report taken under the lock: the manager after the call, or as it was when the call
fails. -/
def report (sm : ServiceManager) (r : Report) : ServiceManager :=
  match r with
  | .markReady name => match sm.markReady name with
    | .ok sm' => sm'
    | .error _ => sm
  | .markFailed name => match sm.markFailed name with
    | .ok sm' => sm'
    | .error _ => sm

/-- The reports `rs`, taken in turn. -/
def reports (sm : ServiceManager) (rs : List Report) : ServiceManager := rs.foldl report sm

theorem reports_cons (sm : ServiceManager) (r : Report) (rs : List Report) :
    sm.reports (r :: rs) = (sm.report r).reports rs := rfl

end ServiceManager

/-- `EMBEDDED_BOOT_MANIFEST`. -/
def embeddedBootManifest : String :=
  "\n[service.ui_shell]\nbinary = \"/init/ui_shell.elf\"\ncapabilities = [\"FrameBufferCap\", \"PointerCap\"]\n\n[service.fs_server]\nbinary = \"/init/fs.elf\"\ncapabilities = [\"MemRegionCap\", \"IPCPortCap\"]\ndepends_on = [\"storage_driver\"]\n\n[service.storage_driver]\nbinary = \"/init/nvme_driver.elf\"\ncapabilities = [\"IRQCap:33\", \"DeviceCap:0000:01:00.0\", \"DMABufferCap\"]\n"

/-- `init_embedded_manifest`, without the `Once` it stores the manager in. -/
def initEmbeddedManifest : Except ManifestError ServiceManager := do
  let manifest ← parseManifest embeddedBootManifest
  ServiceManager.build manifest

/-! ### What reports do -/

/-- Where the reports `rs` leave the service `name` from the state `s`. -/
def settle (name : String) (rs : List Report) (s : ServiceState) : ServiceState :=
  if s = .failed ∨ Report.markFailed name ∈ rs then .failed
  else if s = .ready ∨ Report.markReady name ∈ rs then .ready
  else .pending

/-- A record of the registry after the reports `rs`. -/
def settleEntry (rs : List Report) (e : String × ServiceRuntime) : String × ServiceRuntime :=
  (e.1, { e.2 with state := settle e.1 rs e.2.state })

/-- Reports on other names leave a service as it is. -/
theorem settle_of_ne {name : String} {r : Report} (h : r.name ≠ name) (s : ServiceState) :
    settle name [r] s = s := by
  have h' : name ≠ r.name := Ne.symm h
  cases r <;> cases s <;> simp_all [settle, Report.name]

/-- Reports settle one after the other as they do together. -/
theorem settle_cons (name : String) (r : Report) (rs : List Report) (s : ServiceState) :
    settle name rs (settle name [r] s) = settle name (r :: rs) s := by
  -- a report on another name is `settle_of_ne`; one on `name` is a case of each state
  by_cases hn : r.name = name
  · unfold settle
    cases r <;> cases s <;> by_cases h : Report.markFailed name ∈ rs <;>
      by_cases h' : Report.markReady name ∈ rs <;> simp_all [Report.name]
  · have hn' : name ≠ r.name := Ne.symm hn
    rw [settle_of_ne hn]
    cases r <;> simp_all [settle, Report.name]

theorem settle_nil (name : String) (s : ServiceState) : settle name [] s = s := by
  cases s <;> rfl

theorem settleEntry_nil : settleEntry [] = id :=
  funext fun e => by rw [settleEntry, settle_nil]; rfl

theorem settleEntry_of_ne {r : Report} {e : String × ServiceRuntime} (h : e.1 ≠ r.name) :
    settleEntry [r] e = e := by
  rw [settleEntry, settle_of_ne (Ne.symm h)]

theorem settleEntry_settleEntry (r : Report) (rs : List Report) (e : String × ServiceRuntime) :
    settleEntry rs (settleEntry [r] e) = settleEntry (r :: rs) e := by
  simp only [settleEntry, settle_cons]

theorem keepsKey_settleEntry (rs : List Report) : KeyedList.KeepsKey Prod.fst (settleEntry rs) :=
  fun _ => rfl

/-- `settle` reads the reports as a set: their order and how often one is made do not count. -/
theorem settle_congr {name : String} {rs rs' : List Report} (hs : ∀ r, r ∈ rs ↔ r ∈ rs')
    (s : ServiceState) : settle name rs s = settle name rs' s := by
  simp only [settle, hs]

namespace ServiceManager

/-- The record found, set to the state it has, is the registry as it was. -/
theorem update_state_self {sm : ServiceManager} {name : String} {e : String × ServiceRuntime}
    (hl : KeyedList.lookup Prod.fst sm.registry name = some e) :
    KeyedList.update Prod.fst sm.registry name (fun b => (b.1, { b.2 with state := e.2.state })) =
      sm.registry :=
  KeyedList.update_eq_self_of_lookup fun b hb => by
    rw [hl] at hb
    cases hb
    rfl

/-- **One report** updates the first record of its name by `settle`, whatever the state of the
service, the failed calls included. -/
theorem registry_report (sm : ServiceManager) (r : Report) :
    (sm.report r).registry = KeyedList.update Prod.fst sm.registry r.name (settleEntry [r]) := by
  cases hl : KeyedList.lookup Prod.fst sm.registry r.name with
  | none =>
      -- an unknown name: the call fails, and there is no record to update
      have hnone : (sm.report r).registry = sm.registry := by
        cases r <;> simp only [report, markReady, markFailed, Report.name] at hl ⊢ <;> rw [hl]
      rw [hnone, KeyedList.update_eq_self fun b hb hk =>
        absurd hk (KeyedList.lookup_eq_none_iff.mp hl b hb)]
  | some e =>
      -- `settle` changes only the record found, to the state the call leaves it in
      have hfound : KeyedList.update Prod.fst sm.registry r.name (settleEntry [r]) =
          KeyedList.update Prod.fst sm.registry r.name
            fun b => (b.1, { b.2 with state := settle r.name [r] e.2.state }) :=
        KeyedList.update_congr fun b hb => by
          rw [hl] at hb
          cases hb
          rw [settleEntry, KeyedList.key_of_lookup hl]
      rw [hfound]
      cases r with
      | markReady name =>
          simp only [Report.name] at hl ⊢
          cases hs : e.2.state with
          | pending => simp only [report, markReady, hl, hs, setState, settle]; simp
          | ready =>
              simp only [report, markReady, hl, hs]
              rw [← hs, show settle name [.markReady name] e.2.state = e.2.state by
                simp [settle, hs], update_state_self hl]
          | failed =>
              simp only [report, markReady, hl, hs]
              rw [← hs, show settle name [.markReady name] e.2.state = e.2.state by
                simp [settle, hs], update_state_self hl]
      | markFailed name =>
          simp only [Report.name] at hl ⊢
          cases hs : e.2.state with
          | pending => simp only [report, markFailed, hl, hs, setState, settle]; simp
          | ready => simp only [report, markFailed, hl, hs, setState, settle]; simp
          | failed =>
              simp only [report, markFailed, hl, hs]
              rw [← hs, show settle name [.markFailed name] e.2.state = e.2.state by
                simp [settle, hs], update_state_self hl]

/-- With distinct names, a report settles every record, the others being on other names. -/
theorem registry_report_eq_map {sm : ServiceManager} (hn : KeyedList.NodupKeys Prod.fst sm.registry)
    (r : Report) : (sm.report r).registry = sm.registry.map (settleEntry [r]) := by
  rw [registry_report, KeyedList.update_eq_map hn]
  refine List.map_congr_left fun e _ => ?_
  split_ifs with he
  · rfl
  · exact (settleEntry_of_ne he).symm

/-- **A run of reports**, to a registry of distinct names, settles every record by all of them.
The induction is on the run; a report keeps the names distinct, as it changes no name. -/
theorem registry_reports_of_nodup {sm : ServiceManager}
    (hn : KeyedList.NodupKeys Prod.fst sm.registry) (rs : List Report) :
    (sm.reports rs).registry = sm.registry.map (settleEntry rs) := by
  induction rs generalizing sm with
  | nil => rw [settleEntry_nil, List.map_id]; rfl
  | cons r rs ih =>
      have hn' : KeyedList.NodupKeys Prod.fst (sm.report r).registry := by
        rw [registry_report]
        exact hn.update (keepsKey_settleEntry [r]) r.name
      rw [reports_cons, ih hn', registry_report_eq_map hn, List.map_map]
      exact List.map_congr_left fun e _ => settleEntry_settleEntry r rs e

/-- The registry `build` makes: every declared service, pending, with the capabilities its
manifest grants. -/
theorem registry_build {manifest : BootManifest} {sm : ServiceManager}
    (h : ServiceManager.build manifest = .ok sm) :
    sm.registry = manifest.services.map fun e => (e.1, ⟨.pending, e.2.capabilities⟩) := by
  unfold build at h
  split_ifs at h
  split at h
  · cases h
  · cases h
    rfl

theorem nodupKeys_build {manifest : BootManifest} {sm : ServiceManager}
    (h : ServiceManager.build manifest = .ok sm) : KeyedList.NodupKeys Prod.fst sm.registry := by
  rw [KeyedList.NodupKeys, registry_build h, List.map_map]
  exact manifest.sorted.imp ne_of_lt

/-- **Reports to a built manager.**  After any run of reports, made in any order and failed or
not, every declared service is in the state `settle` gives from pending: failed once it was
reported failed, else ready once it was reported ready; and it keeps the capabilities its manifest
grants. -/
theorem registry_reports {manifest : BootManifest} {sm : ServiceManager}
    (h : ServiceManager.build manifest = .ok sm) (rs : List Report) :
    (sm.reports rs).registry =
      manifest.services.map fun e => (e.1, ⟨settle e.1 rs .pending, e.2.capabilities⟩) := by
  rw [registry_reports_of_nodup (nodupKeys_build h), registry_build h, List.map_map]
  rfl

/-- The manager `build` makes of the manifest in the kernel image. -/
theorem build_embedded :
    ServiceManager.build BootManifest.embedded =
      .ok ⟨BootManifest.embedded, ["storage_driver", "fs_server", "ui_shell"],
        BootManifest.embedded.services.map fun e => (e.1, ⟨.pending, e.2.capabilities⟩)⟩ := by
  have horder : BootManifest.embedded.startupOrder =
      .ok ["storage_driver", "fs_server", "ui_shell"] := by decide
  rw [build, if_neg (by decide), horder]

theorem registry_reports_embedded :
    ServiceManager.build BootManifest.embedded =
        .ok ⟨BootManifest.embedded, ["storage_driver", "fs_server", "ui_shell"],
          BootManifest.embedded.services.map fun e => (e.1, ⟨.pending, e.2.capabilities⟩)⟩ ∧
      ((⟨BootManifest.embedded, ["storage_driver", "fs_server", "ui_shell"],
          BootManifest.embedded.services.map fun e => (e.1, ⟨.pending, e.2.capabilities⟩)⟩ :
          ServiceManager).reports [.markReady "fs_server", .markFailed "ui_shell",
            .markReady "ui_shell", .markReady "net"]).registry =
        BootManifest.embedded.services.map fun e =>
          (e.1, ⟨settle e.1 [.markReady "fs_server", .markFailed "ui_shell",
            .markReady "ui_shell", .markReady "net"] .pending, e.2.capabilities⟩) :=
  ⟨build_embedded, registry_reports build_embedded _⟩

/-- **Reports in any order.**  Two runs of the same reports, in whatever order and however often
each is made, leave a built manager with the same registry: the registry does not depend on how
the services' threads interleave. -/
theorem registry_reports_interleaved {manifest : BootManifest} {sm : ServiceManager}
    (h : ServiceManager.build manifest = .ok sm) {rs rs' : List Report}
    (hs : ∀ r, r ∈ rs ↔ r ∈ rs') : (sm.reports rs).registry = (sm.reports rs').registry := by
  rw [registry_reports_of_nodup (nodupKeys_build h), registry_reports_of_nodup (nodupKeys_build h)]
  exact List.map_congr_left fun e _ => by simp only [settleEntry, settle_congr hs]

theorem registry_reports_interleaved_embedded :
    ServiceManager.build BootManifest.embedded =
        .ok ⟨BootManifest.embedded, ["storage_driver", "fs_server", "ui_shell"],
          BootManifest.embedded.services.map fun e => (e.1, ⟨.pending, e.2.capabilities⟩)⟩ ∧
      (∀ r, r ∈ [Report.markReady "ui_shell", .markFailed "ui_shell"] ↔
        r ∈ [Report.markFailed "ui_shell", .markReady "ui_shell", .markFailed "ui_shell"]) ∧
      ((⟨BootManifest.embedded, ["storage_driver", "fs_server", "ui_shell"],
          BootManifest.embedded.services.map fun e => (e.1, ⟨.pending, e.2.capabilities⟩)⟩ :
          ServiceManager).reports [.markReady "ui_shell", .markFailed "ui_shell"]).registry =
        ((⟨BootManifest.embedded, ["storage_driver", "fs_server", "ui_shell"],
          BootManifest.embedded.services.map fun e => (e.1, ⟨.pending, e.2.capabilities⟩)⟩ :
          ServiceManager).reports
            [.markFailed "ui_shell", .markReady "ui_shell", .markFailed "ui_shell"]).registry := by
  have hs : ∀ r, r ∈ [Report.markReady "ui_shell", .markFailed "ui_shell"] ↔
      r ∈ [Report.markFailed "ui_shell", .markReady "ui_shell", .markFailed "ui_shell"] := by
    intro r
    simp only [List.mem_cons, List.mem_nil_iff, or_false]
    tauto
  exact ⟨build_embedded, hs, registry_reports_interleaved build_embedded hs⟩

end ServiceManager

end Atom
