import WebCodex.Registry.Leases

/-!
A runner's call names the client, its instance and, over a long-lived transport, the connection; a
caller without the lease is refused and changes nothing. The exceptions are made on purpose: a
result or an update of the active instance counts over an older connection too, but reaches its
own job only; a disconnection of somebody else is a no-op; and metadata that says nothing is not
looked at. A refused registration has swept the expired shared-key runners before.
-/

namespace WebCodex.Registry

open Foundation

/-! ### Calls of others -/

structure Caller where
  (clientId instanceId : String)
  connectionId : Option String

/-- The caller of the operations that are calls of a runner, registrations apart. -/
def Operation.caller : Operation → Option Caller
  | .poll clientId instanceId connectionId _ => some ⟨clientId, instanceId, connectionId⟩
  | .keepAlive clientId instanceId connectionId _ => some ⟨clientId, instanceId, some connectionId⟩
  | .runtimeMetadata clientId instanceId connectionId _ _ _ =>
    some ⟨clientId, instanceId, connectionId⟩
  | .disconnect clientId instanceId connectionId _ _ => some ⟨clientId, instanceId, connectionId⟩
  | .complete payload connectionId _ =>
    some ⟨payload.clientId, payload.runnerInstanceId, connectionId⟩
  | .completeShell body connectionId _ => some ⟨body.clientId, body.runnerInstanceId, connectionId⟩
  | .update body connectionId _ => some ⟨body.clientId, body.runnerInstanceId, connectionId⟩
  | _ => none

/-- Whether the registry gave the lease of the client to the caller. -/
def Caller.HoldsLease (caller : Caller) (inner : RunnerRegistryInner) : Prop :=
  Registry.HoldsLease inner caller.clientId caller.instanceId caller.connectionId

def CallResult.isError {α : Type} : CallResult α → Bool
  | .error _ => true
  | _ => false

variable {clientId instanceId : String} {connectionId : Option String}

section Callers

variable (env : Environment) {inner : RunnerRegistryInner}

/-- The runners and their queues stay, and no job changes but one. -/
structure ChangesOneJob (jobId : Option String) (before after : RunnerRegistryInner) : Prop where
  runners_eq : after.runners = before.runners
  queues_eq : after.queuesByRunner = before.queuesByRunner
  others_eq : ∀ other, jobId ≠ some other → after.jobsById.lookup other =
    before.jobsById.lookup other

theorem ChangesOneJob.refl (jobId : Option String) (inner : RunnerRegistryInner) :
    ChangesOneJob jobId inner inner := ⟨rfl, rfl, fun _ _ ↦ rfl⟩

theorem lookup_settleUpdatedJob_ne {old new : ShellJobRecord} {jobId other : String}
    (hne : other ≠ jobId) (state : RunnerRegistryInner) :
    (settleUpdatedJob old new jobId state).jobsById.lookup other = state.jobsById.lookup other := by
  have herase : (state.jobsById.erase jobId).lookup other = state.jobsById.lookup other :=
    AList.lookup_erase_ne hne
  simp only [settleUpdatedJob]
  cases old.requestId with
  | none | some =>
    split_ifs
    · exact herase
    · rfl
    · rfl

end Callers

/-! ### Registrations and pages -/

end WebCodex.Registry

namespace WebCodex.ProjectInventory

open Foundation

/-- What a runner routes by, and the lease that it holds. -/
def InventoryRunner.session (runner : InventoryRunner) :
    String × Option String × ℤ × List RunnerProjectSummary :=
  (runner.runnerInstanceId, runner.connectionId, runner.lastSeen, runner.projects)

end WebCodex.ProjectInventory

namespace WebCodex.Registry

open ProjectInventory (Encoding Runners ShellProjectInventoryPage InventoryRunner
  applyProjectInventoryPageChecked)

/-! ### Lease safety -/

end WebCodex.Registry
