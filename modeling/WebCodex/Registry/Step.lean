import WebCodex.Registry.Registration

/-!
Every call of the registry holds its lock from the first read to the last write, so an execution
is a sequence of operations (`Operation`), each a step from one state to the next (`step`). The
time and the drawn ids are part of the operation. A registry starts empty, or with the receipts of
jobs that ended under an earlier process.
-/

namespace WebCodex.Registry

open Foundation JobLog

inductive Operation
  | register (body : RunnerRegisterRequest) (now : ℤ)
  | disconnect (clientId instanceId : String) (connectionId : Option String)
      (transport : Option RunnerTransport) (now : ℤ)
  | keepAlive (clientId instanceId connectionId : String) (now : ℤ)
  | runtimeMetadata (clientId instanceId : String) (connectionId : Option String)
      (toolProviders : Bool) (providers : Option (List ProviderBinding)) (now : ℤ)
  | publishProjects (clientId instanceId : String)
      (projects : List ProjectInventory.RunnerProjectSummary)
  | beginUnregister (access : Option RunnerAccess) (projectId : String) (now : ℤ)
  | endUnregister (projectId : String)
  | poll (clientId instanceId : String) (connectionId : Option String) (now : ℤ)
  | complete (payload : RunnerResultPayload) (connectionId : Option String) (now : ℤ)
  | completeShell (body : PersistentShellResult) (connectionId : Option String) (now : ℤ)
  | update (body : RunnerJobUpdateRequest) (connectionId : Option String) (now : ℤ)
  | start (body : ShellJobStart) (now : ℤ)
  | stop (access : Option RunnerAccess) (jobId stopRequestId : String) (now : ℤ)
  | promote (jobId : String) (now : ℤ)
  | cancelHidden (access : Option RunnerAccess) (jobId stopRequestId : String) (now : ℤ)
  | discardProjected (jobId : String) (now : ℤ)
  | enqueue (check : RunnerRecord → Except String Unit) (pending : PendingShellRequest)
      (waiter : SyncWaiter) (now : ℤ)
  | cancel (requestId : String)
  | cancelAbandoned (closed : List String)
  | readJob (jobId : String) (now : ℤ)
  | readJobs (now : ℤ)
  | pruneRunners (now : ℤ)
  | sweep (now : ℤ)

/-- What a step leaves: the next state, what waiters are sent, and the request that a runner
takes. -/
structure Outcome where
  state : RunnerRegistryInner
  responses : List Response := []
  handed : Option RunnerRequest := none

def Reply.outcome {α : Type} (reply : Reply α) : Outcome where
  state := reply.state
  responses := reply.responses

def CallResult.handed : CallResult (Option RunnerRequest) → Option RunnerRequest
  | .ok request => request
  | _ => none

variable (env : Environment) (inner : RunnerRegistryInner)

def step : Operation → Outcome
  | .register body now => (registerSession env inner body now).outcome
  | .disconnect clientId instanceId connectionId transport now =>
    (reconcileDisconnectChecked inner clientId instanceId connectionId transport now).outcome
  | .keepAlive clientId instanceId connectionId now =>
    (touchRunnerForConnection inner clientId instanceId connectionId now).outcome
  | .runtimeMetadata clientId instanceId connectionId toolProviders providers now =>
    (updateRuntimeMetadata inner clientId instanceId connectionId toolProviders providers
      now).outcome
  | .publishProjects clientId instanceId projects =>
    (publishProjects inner clientId instanceId projects).outcome
  | .beginUnregister access projectId now =>
    (beginProjectUnregister env inner access projectId now).outcome
  | .endUnregister projectId => { state := endProjectUnregister projectId inner }
  | .poll clientId instanceId connectionId now =>
    let reply := pollChecked inner clientId instanceId connectionId now
    { state := reply.state, responses := reply.responses, handed := reply.result.handed }
  | .complete payload connectionId now => (completeChecked inner payload connectionId now).outcome
  | .completeShell body connectionId now =>
    (completePersistentShellChecked inner body connectionId now).outcome
  | .update body connectionId now => (updateJobChecked env inner body connectionId now).outcome
  | .start body now => (startJob env inner body now).outcome
  | .stop access jobId stopRequestId now =>
    (stopJob env inner access jobId stopRequestId now).outcome
  | .promote jobId now => (promoteHiddenJob env inner jobId now).outcome
  | .cancelHidden access jobId stopRequestId now =>
    (cancelHiddenJob env inner access jobId stopRequestId now).outcome
  | .discardProjected jobId now =>
    { state := (removeProjectedHiddenTerminalJobRecord inner jobId now).1 }
  | .enqueue check pending waiter now =>
    { state := (enqueueSync inner check pending waiter now).toOption.getD inner }
  | .cancel requestId => { state := (cancelRequest requestId inner).1 }
  | .cancelAbandoned closed => { state := cancelAbandonedSyncRequests closed inner }
  | .readJob jobId now => { state := refreshJobStatus env now jobId inner }
  | .readJobs now => { state := refreshAllJobs env now inner }
  | .pruneRunners now =>
    let pruned := pruneExpiredSharedKeyRunners env now inner
    { state := pruned.1, responses := pruned.2 }
  | .sweep now =>
    let swept := recoveryTimeoutSweep env now inner
    { state := swept.1, responses := swept.2 }

/-- The state after a sequence of operations. -/
def run (operations : List Operation) :
    RunnerRegistryInner :=
  operations.foldl (fun state operation ↦ (step env state operation).state) inner

@[simp] theorem run_cons (operation : Operation) (rest : List Operation) :
    run env inner (operation :: rest) = run env (step env inner operation).state rest := rfl

theorem run_append (first second : List Operation) :
    run env inner (first ++ second) = run env (run env inner first) second := by
  simp [run, List.foldl_append]

/-- `TerminalJobReceipt`, of a job that ended under an earlier process. -/
structure TerminalJobReceipt where
  (clientId runnerInstanceId : String)
  authGroup : Option RunnerAccessGroup
  ownerAtAdmission : Option String
  kind : String
  (terminalObservedAt expiresAt : ℤ)
  snapshot : ShellJobSnapshot

def restoredJob (handle : ℕ) (now : ℤ) (receipt : TerminalJobReceipt) : ShellJobRecord :=
  let job := recordFromSnapshot receipt.clientId receipt.runnerInstanceId receipt.authGroup handle
    receipt.snapshot now
  { job with
    ownerAtAdmission := receipt.ownerAtAdmission
    kind := receipt.kind
    observation :=
      { job.observation with
        terminalObservedAt := some receipt.terminalObservedAt
        receiptExpiresAt := some receipt.expiresAt }
    stdout := replaceLogFromSnapshot receipt.snapshot.stdout
    stderr := replaceLogFromSnapshot receipt.snapshot.stderr }

/-- Restores one receipt, unless its job is there already. -/
def restoreReceipt (now : ℤ) (inner : RunnerRegistryInner) (receipt : TerminalJobReceipt) :
    RunnerRegistryInner :=
  if Table.has receipt.snapshot.jobId inner.jobsById then inner
  else inner.addJob receipt.snapshot.jobId (restoredJob inner.nextHandle now receipt)

/-- `with_job_receipt_store`, for the receipts that were found valid. -/
def hydrated (receipts : List TerminalJobReceipt) (now : ℤ) : RunnerRegistryInner :=
  receipts.foldl (restoreReceipt now) {}

inductive Reachable (env : Environment) : RunnerRegistryInner → Prop
  | start (receipts : List TerminalJobReceipt) (now : ℤ) : Reachable env (hydrated receipts now)
  | step {inner : RunnerRegistryInner} (operation : Operation) (h : Reachable env inner) :
    Reachable env (step env inner operation).state

theorem reachable_empty : Reachable env {} := .start [] 0

theorem Reachable.run {env : Environment} {inner : RunnerRegistryInner} (h : Reachable env inner)
    (operations : List Operation) : Reachable env (run env inner operations) := by
  induction operations generalizing inner with
  | nil => exact h
  | cons operation _ ih => exact ih (h.step operation)

/-- The answers of the core crate about jobs with plain previews and no validation plan. -/
def plainChecks : Checks where
  commandPreview := id
  stepIsCanonical _ := true
  stepIsGoTestJson _ := false
  validationIsValid _ := true
  structuredIsValid _ := true
  sessionIdIsValid _ := true
  isInfrastructureFailure _ := false
  inventoryBytes _ := 0
  digest := id

end WebCodex.Registry
