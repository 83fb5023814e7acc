import WebCodex.Foundation.Layout
import WebCodex.Registry.State

/-!
The small steps that the operations of the registry share. A job ends, starts to recover, or is
lost, and every read refreshes its job first. A request waits in the table of pending requests and
its id in the queue of its runner. The sending halves of the waiters stand in the request itself
or in a table by kind; what a waiter is sent is the second component of the operation
(`Response`).
-/

namespace WebCodex.Registry

open Foundation

section

/-- `observe_job_terminal`: the first time that this process saw the job ended. -/
def observeJobTerminal (now : ℤ) (job : ShellJobRecord) : ShellJobRecord :=
  if job.lifecycle.isTerminal && job.observation.terminalObservedAt.isNone then
    { job with observation := { job.observation with terminalObservedAt := some now } }
  else job

/-- `notify_job_update`: observers see a new revision. -/
def notifyJobUpdate (job : ShellJobRecord) : ShellJobRecord :=
  { job with observation := { job.observation with revision := job.observation.revision + 1 } }

def beginJobRecovery (now : ℤ) (reason : JobRecoveryReason) (job : ShellJobRecord) :
    ShellJobRecord :=
  if job.lifecycle.isTerminal || job.lifecycle == .queued then job
  else
    notifyJobUpdate
      { job with
        recovery :=
          { job.recovery with
            phase := some .recovering
            reason := some reason
            recoveringSince :=
              if job.recovery.recovering then job.recovery.recoveringSince else some now }
        endedAt := none
        activity := none }

/-- What the registry says about the command of a structured job whose runner it gives up on. -/
def abandonedExecutionState (job : ShellJobRecord) : Option ShellCommandExecutionState :=
  if job.structuredExecution.isSome then
    some (if job.startedAt.isSome then .outcomeUnknown else .notStarted)
  else job.commandExecutionState

def markJobLost (now : ℤ) (reason : JobRecoveryReason) (message : String) (job : ShellJobRecord) :
    ShellJobRecord :=
  if job.lifecycle.isTerminal then job
  else
    let lost := observeJobTerminal now { job with lifecycle := .lost, activity := none }
    notifyJobUpdate
      { lost with
        endedAt := job.endedAt.or (some now)
        error := some message
        commandExecutionState := abandonedExecutionState job
        recovery :=
          { job.recovery with
            phase := if reason.impliesLostAfterReconcile then some .lostAfterReconcile else none
            reason := some reason
            recoveringSince := none } }

variable (inner : RunnerRegistryInner)

/-- `runner_is_connected_locked`. -/
def runnerIsConnected (clientId : String) (now : ℤ) : Bool :=
  (inner.runners.lookup clientId).any fun runner ↦
    decide (now - runner.lastSeen ≤ runnerOnlineWindowSecs)

def offlineLastSeen (now : ℤ) : ℤ := now - (runnerOnlineWindowSecs + 1)

/-- The lease check of `assert_active_instance_locked`. -/
def instanceFault (clientId instanceId : String) : Option String :=
  match inner.runners.lookup clientId with
  | none => some s!"unknown shell client: {clientId}"
  | some runner =>
    if runner.runnerInstanceId != instanceId then
      some s!"runner {clientId} is no longer the active instance (stale or replaced)"
    else none

/-- Applies a change to the record of a job, when there is one. -/
def RunnerRegistryInner.modifyJob (jobId : String) (change : ShellJobRecord → ShellJobRecord) :
    RunnerRegistryInner :=
  { inner with jobsById := Table.modify jobId change inner.jobsById }

def RunnerRegistryInner.setJob (jobId : String) (job : ShellJobRecord) : RunnerRegistryInner :=
  { inner with jobsById := inner.jobsById.insert jobId job }

/-- Stores a record that was made at the next address. -/
def RunnerRegistryInner.addJob (jobId : String) (job : ShellJobRecord) : RunnerRegistryInner :=
  { inner with
    jobsById := inner.jobsById.insert jobId job
    nextHandle := inner.nextHandle + 1 }

variable (env : Environment)

/-- Whether the recovery of a job has lasted longer than the grace period. -/
def recoveryExpired (now : ℤ) (job : ShellJobRecord) : Bool :=
  job.recovery.recoveringSince.any fun since ↦ decide (now - since ≥ env.jobRecoveryGraceSecs)

/-- The change that a read makes to a job of the registry first. -/
def refreshed (inner : RunnerRegistryInner) (now : ℤ) (job : ShellJobRecord) :
    ShellJobRecord :=
  if job.lifecycle.isTerminal || !job.lifecycle.isRunnerActive then job
  else if job.recoveryActive then
    if recoveryExpired env now job then
      markJobLost now .runnerRecoveryDeadlineExceeded
        "runner did not reconcile the job before the recovery deadline" job
    else job
  else if runnerIsConnected inner job.clientId now then job
  else if (inner.runners.lookup job.clientId).any fun runner ↦
      runner.supports .jobStateReconciliation then
    beginJobRecovery now .runnerTransportStale job
  else
    markJobLost now .runnerDisconnectedWithoutReconciliation
      "runner went stale while job was running" job

/-- `refresh_job_status_locked`. -/
def refreshJobStatus (now : ℤ) (jobId : String) (inner : RunnerRegistryInner) :
    RunnerRegistryInner :=
  inner.modifyJob jobId (refreshed env inner now)

/-- The refresh of every job, which the lists of jobs make first. -/
def refreshAllJobs (now : ℤ) (inner : RunnerRegistryInner) :
    RunnerRegistryInner :=
  inner.jobsById.keys.foldl (fun current jobId ↦ refreshJobStatus env now jobId current) inner

/-- `job_visible_to_access`, for a caller that is known (`some`) or internal (`none`). -/
def jobVisibleToAccess (access : Option RunnerAccess) (now : ℤ) (job : ShellJobRecord) : Bool :=
  if job.observation.receiptExpiresAt.any fun expires ↦ decide (expires ≤ now) then false
  else
    match access with
    | none => true
    | some access =>
      if access.globalVisibility then true
      else
        match job.authGroup with
        | some group => access.group == some group
        | none =>
          access.group.isNone && access.username.any fun username ↦
              !Text.isBlank username.toList && job.ownerAtAdmission == some username

end

/-- How far a request behind a gateway got before it failed. -/
inductive DispatchState
  | notStarted | outcomeUnknown
  deriving DecidableEq

/-- The three gateways whose answers have a contract of their own. -/
inductive Gateway
  | mcp | plugin | codingAgent

structure ShellRunResponse where
  success : Bool
  (requestId clientId : String)
  cwd : Option String
  commandPreview : String
  exitCode : Option ℤ
  (stdout stderr : Option Text.Str)
  durationMs : Option ℕ
  error : Option String
  requestDispatched : Option Bool
  commandExecutionState : Option ShellCommandExecutionState

inductive Response
  | shell (response : ShellRunResponse)
  | answered (gateway : Gateway) (requestId : String)
  | failed (gateway : Gateway) (requestId : String) (state : DispatchState) (code message : String)
  | persistentShell (requestId : String)

def Response.requestId : Response → String
  | .shell response => response.requestId
  | .answered _ requestId => requestId
  | .failed _ requestId _ _ _ => requestId
  | .persistentShell requestId => requestId

/-- A response that says that the request did not reach its runner. -/
def Response.saysNotDispatched : Response → Bool
  | .shell response => response.requestDispatched == some false
  | .failed _ _ state _ _ => state == .notStarted
  | _ => false

/-- The response of the registry itself to the waiter of a pending request. -/
def refusal (pending : PendingShellRequest) (requestId clientId : String) (cwd : Option String)
    (preview error : String) (dispatched : Bool)
    (state : Option ShellCommandExecutionState) : List Response :=
  if pending.waiter then
    [.shell ⟨false, requestId, clientId, cwd, preview, none, none, none, none, some error,
      some dispatched, state⟩]
  else []

/-- The failure of a gateway request, when somebody waits for it. -/
def gatewayFailure (waiters : Finset String) (gateway : Gateway) (requestId : String)
    (state : DispatchState) (code message : String) : List Response :=
  if requestId ∈ waiters then [.failed gateway requestId state code message] else []

def dispatchStateOf (dispatched : Bool) : DispatchState :=
  if dispatched then .outcomeUnknown else .notStarted

variable (inner : RunnerRegistryInner) (clientId : String)

/-- The queue of a runner, empty when it has none. -/
def queueOf : List String := (inner.queuesByRunner.lookup clientId).getD []

/-- Takes a request out of the queue of one runner. -/
def removeFromQueue (requestId : String) (inner : RunnerRegistryInner) :
    RunnerRegistryInner :=
  { inner with
    queuesByRunner := Table.modify clientId (fun queue ↦ queue.filter fun id ↦ id != requestId)
        inner.queuesByRunner }

/-- `remove_request_from_queues_locked`. -/
def removeFromQueues (requestId : String) (inner : RunnerRegistryInner) : RunnerRegistryInner :=
  { inner with
    queuesByRunner := Table.mapValues (fun _ queue ↦ queue.filter fun id ↦ id != requestId)
        inner.queuesByRunner }

def dropPending (requestId : String) (inner : RunnerRegistryInner) : RunnerRegistryInner :=
  { inner with pendingById := inner.pendingById.erase requestId }

/-- `remove_pending_request_locked`. -/
def removePendingRequest (requestId : String) (inner : RunnerRegistryInner) : RunnerRegistryInner :=
  removeFromQueues requestId (dropPending requestId inner)

/-- Drops the waiters and fences that are kept apart from the pending request. -/
def dropSideTables (requestId : String) (inner : RunnerRegistryInner) : RunnerRegistryInner :=
  { inner with
    persistentWaiters := inner.persistentWaiters.erase requestId
    mcpGatewayWaiters := inner.mcpGatewayWaiters.erase requestId
    pluginGatewayWaiters := inner.pluginGatewayWaiters.erase requestId
    pluginGatewayFences := inner.pluginGatewayFences.erase requestId
    codingAgentWaiters := inner.codingAgentWaiters.erase requestId
    codingAgentFences := inner.codingAgentFences.erase requestId }

/-- `PendingRequestEnqueueError`, for a runner that is not there, silent or full. -/
def enqueueFault (now : ℤ) : Option String :=
  if !Table.has clientId inner.runners then some s!"unknown shell client: {clientId}"
  else if !runnerIsConnected inner clientId now then
    some (s!"runner {clientId} is offline (no keepalive within {runnerOnlineWindowSecs}s); " ++
      "reconnect the Runner before retrying")
  else if (queueOf inner clientId).length ≥ maxQueuedRequestsPerRunner then
    some s!"too many pending requests for runner {clientId} (limit {maxQueuedRequestsPerRunner})"
  else none

/-- `enqueue_pending_request_locked`, for a pending request that has its fences. -/
def enqueuePendingRequest (pending : PendingShellRequest) (now : ℤ) :
    Except String RunnerRegistryInner :=
  let clientId := pending.request.clientId
  match enqueueFault inner clientId now with
  | some message => .error message
  | none =>
    .ok
      { inner with
        queuesByRunner := inner.queuesByRunner.insert clientId
            (queueOf inner clientId ++ [pending.request.requestId])
        pendingById :=
          inner.pendingById.insert pending.request.requestId { pending with dispatched := false } }

/-- Where the answer of a synchronous request goes. -/
inductive SyncWaiter
  | shell
  | mcpGateway
  | pluginGateway (fence : PluginGatewayDispatchFence)
  | codingAgent (fence : CodingAgentDispatchFence)
  | persistentShell
  deriving DecidableEq

/-- Installs the waiter of a synchronous request next to its fence. -/
def installWaiter (requestId : String) (waiter : SyncWaiter) (inner : RunnerRegistryInner) :
    RunnerRegistryInner :=
  match waiter with
  | .shell => inner
  | .mcpGateway => { inner with mcpGatewayWaiters := insert requestId inner.mcpGatewayWaiters }
  | .pluginGateway fence =>
    { inner with
      pluginGatewayWaiters := insert requestId inner.pluginGatewayWaiters
      pluginGatewayFences := inner.pluginGatewayFences.insert requestId fence }
  | .codingAgent fence =>
    { inner with
      codingAgentWaiters := insert requestId inner.codingAgentWaiters
      codingAgentFences := inner.codingAgentFences.insert requestId fence }
  | .persistentShell =>
    { inner with persistentWaiters := insert requestId inner.persistentWaiters }

/-- The synchronous enqueue functions. Each makes checks of its own on the runner, which refuse
without changing anything (`check`), and then enqueues its request with its fences and its
waiter. -/
def enqueueSync (check : RunnerRecord → Except String Unit) (pending : PendingShellRequest)
    (waiter : SyncWaiter) (now : ℤ) :
    Except String RunnerRegistryInner := do
  match inner.runners.lookup pending.request.clientId with
  | none => .error s!"unknown shell client: {pending.request.clientId}"
  | some runner =>
    check runner
    let enqueued ← enqueuePendingRequest inner
      { pending with waiter := waiter == .shell, jobId := none } now
    .ok (installWaiter pending.request.requestId waiter enqueued)

/-- `cancel_request_dispatch_state`: also says whether a runner had taken the request. -/
def cancelRequest (requestId : String) (inner : RunnerRegistryInner) :
    RunnerRegistryInner × Option Bool :=
  (removePendingRequest requestId (dropSideTables requestId inner),
    (inner.pendingById.lookup requestId).map (·.dispatched))

/-- `cancel_abandoned_sync_requests`, for the requests whose receivers are gone. -/
def cancelAbandonedSyncRequests (closed : List String) (inner : RunnerRegistryInner) :
    RunnerRegistryInner :=
  let abandoned := inner.pendingById.entries.filter fun entry ↦
    entry.2.jobId.isNone && closed.contains entry.2.request.requestId &&
      (entry.2.waiter || decide (entry.2.request.requestId ∈ inner.mcpGatewayWaiters) ||
        decide (entry.2.request.requestId ∈ inner.pluginGatewayWaiters) ||
        decide (entry.2.request.requestId ∈ inner.codingAgentWaiters))
  abandoned.foldl (fun current entry ↦ (cancelRequest entry.1 current).1) inner

/-- The answers to the waiters of a request that its runner will not finish. -/
def disconnectResponses (requestId : String) (pending : PendingShellRequest) (error : String) :
    List Response :=
  let state := dispatchStateOf pending.dispatched
  refusal pending requestId clientId pending.request.cwd pending.request.preview error
      pending.dispatched none ++
    gatewayFailure inner.mcpGatewayWaiters .mcp requestId state "runner_unavailable"
      (if pending.dispatched then
        "Runner transport failed after dispatch; downstream outcome is unknown and the call must not be retried automatically"
      else "Runner transport failed before dispatch; provider request was not started") ++
    gatewayFailure inner.pluginGatewayWaiters .plugin requestId state "runner_unavailable"
      (if pending.dispatched then
        "Runner transport failed after Plugin dispatch; downstream outcome is unknown and the call must not be retried automatically"
      else "Runner transport failed before Plugin dispatch; request was not started") ++
    gatewayFailure inner.codingAgentWaiters .codingAgent requestId state "runner_unavailable"
      (if pending.dispatched then
        "Runner transport failed after CodingAgentRun dispatch; reconcile the same run_id before any new initiation"
      else "Runner transport failed before CodingAgentRun dispatch; request was not started")

/-- Resolves one synchronous request of a runner that is gone. -/
def resolveDisconnected (error : String) (state : RunnerRegistryInner × List Response)
    (requestId : String) : RunnerRegistryInner × List Response :=
  match state.1.pendingById.lookup requestId with
  | none => state
  | some pending =>
    (dropSideTables requestId (removeFromQueue clientId requestId (dropPending requestId state.1)),
      state.2 ++ disconnectResponses state.1 clientId requestId pending error)

/-- `resolve_disconnected_sync_requests_locked`. -/
def resolveDisconnectedSyncRequests (error : String) (inner : RunnerRegistryInner) :
    RunnerRegistryInner × List Response :=
  let requestIds := (inner.pendingById.entries.filter fun entry ↦
    entry.2.jobId.isNone && entry.2.request.clientId == clientId).map fun entry ↦ entry.1
  requestIds.foldl (resolveDisconnected clientId error) (inner, [])

end WebCodex.Registry
