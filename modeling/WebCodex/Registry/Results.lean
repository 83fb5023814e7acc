import WebCodex.Registry.Polling

/-!
A result names a pending request of its own runner. It removes the request, and answers the waiter
that belongs to the kind of the request. The result of a request with a job behind it also ends the
job; it does so whatever state the job is in.
-/

namespace WebCodex.Registry

open Foundation.Text JobLog

def ordinaryResultStreamRetentionBytes : ℕ := 256 * 1024
def maxMcpImageResponseBytes : ℕ := 1536 * 1024

/-- `RunnerResultPayload`. Of the answer of a gateway, which is passed through to its waiter, only
its presence and whether it keeps the contract of the gateway matter here. -/
structure RunnerResultPayload where
  (clientId runnerInstanceId requestId : String)
  exitCode : Option ℤ := none
  stdout : Option Str := none
  stderr : Option Str := none
  durationMs : Option ℕ := none
  error : Option String := none
  commandExecutionState : Option ShellCommandExecutionState := none
  mcpGateway : Option Bool := none
  pluginGateway : Option Bool := none
  codingAgent : Option Bool := none

variable (payload : RunnerResultPayload)

/-- No field of an ordinary command result is set. -/
def RunnerResultPayload.hasNoCommandResult : Bool :=
  payload.commandExecutionState.isNone && payload.exitCode.isNone && payload.stdout.isNone &&
    payload.stderr.isNone && payload.durationMs.isNone && payload.error.isNone

/-- Why a result does not fit the request it names. -/
def payloadFault (pending : PendingShellRequest) (payload : RunnerResultPayload) : Option String :=
  if pending.request.clientId != payload.clientId then
    some "request_id does not belong to client_id"
  else if pending.request.operation != .codingAgent && payload.codingAgent.isSome then
    some "unexpected CodingAgentRun result for non-coding request"
  else if !(pending.request.operation matches .mcpGateway _) && payload.mcpGateway.isSome then
    some "unexpected MCP gateway result for non-bridge request"
  else if !(pending.request.operation matches .pluginGateway _) && payload.pluginGateway.isSome then
    some "unexpected Plugin gateway result for non-Plugin request"
  else none

/-- The answer of a gateway, or the failure that stands for an answer that breaks its contract. -/
def gatewayAnswer (gateway : Gateway) (requestId : String) (valid : Bool) (dispatched : Bool)
    (afterDispatch beforeDispatch : String) : Response :=
  if valid then .answered gateway requestId
  else
    .failed gateway requestId (dispatchStateOf dispatched) "invalid_runner_response"
      (if dispatched then afterDispatch else beforeDispatch)

/-- Whether the command of a result succeeded. -/
def RunnerResultPayload.success : Bool :=
  (payload.commandExecutionState.all fun state ↦ state == .completed) && payload.error.isNone &&
    payload.exitCode == some 0

/-- The job behind a request, ended by the result. -/
def completedJob (now : ℤ) (job : ShellJobRecord) :
    ShellJobRecord :=
  let ended := observeJobTerminal now
    { job with lifecycle := if payload.success then .completed else .failed }
  notifyJobUpdate
    { ended with
      endedAt := some now
      exitCode := payload.exitCode
      durationMs := payload.durationMs
      stdout := replaceLogLimited job.stdout payload.stdout
      stderr := replaceLogLimited job.stderr payload.stderr
      error := payload.error }

def commandResponse (pending : PendingShellRequest) (payload : RunnerResultPayload) :
    List Response :=
  if pending.waiter then
    [.shell ⟨payload.success, payload.requestId, payload.clientId, pending.request.cwd,
      pending.request.preview, payload.exitCode,
      payload.stdout.map (retainResultStreamTo
        (if pending.request.largeNativeImage then maxMcpImageResponseBytes
        else ordinaryResultStreamRetentionBytes)),
      payload.stderr.map (retainResultStreamTo ordinaryResultStreamRetentionBytes),
      payload.durationMs, payload.error, some pending.dispatched, payload.commandExecutionState⟩]
  else []

variable (inner : RunnerRegistryInner)

/-- A result whose request was found and fits: the request is taken and its waiter answered. -/
def resolveRequest (pending : PendingShellRequest) (payload : RunnerResultPayload) (now : ℤ) :
    RunnerRegistryInner × List Response :=
  let requestId := payload.requestId
  let taken := dropPending requestId inner
  match pending.request.operation with
  | .mcpGateway _ =>
    ({ taken with mcpGatewayWaiters := taken.mcpGatewayWaiters.erase requestId },
      if requestId ∈ inner.mcpGatewayWaiters then
        [gatewayAnswer .mcp requestId (payload.mcpGateway == some true &&
          payload.hasNoCommandResult) pending.dispatched
          "Runner returned an invalid bridge response after dispatch; downstream outcome is unknown and must not be retried automatically"
          "Runner returned an invalid bridge response before provider dispatch"]
      else [])
  | .pluginGateway _ =>
    ({ taken with
        pluginGatewayWaiters := taken.pluginGatewayWaiters.erase requestId
        pluginGatewayFences := taken.pluginGatewayFences.erase requestId },
      if requestId ∈ inner.pluginGatewayWaiters then
        [gatewayAnswer .plugin requestId
          (payload.pluginGateway == some true && payload.mcpGateway.isNone &&
            payload.codingAgent.isNone && payload.hasNoCommandResult)
          pending.dispatched
          "Runner returned an invalid Plugin response after dispatch; downstream outcome is unknown and must not be retried automatically"
          "Runner returned an invalid Plugin response before provider dispatch"]
      else [])
  | .codingAgent =>
    ({ taken with
        codingAgentWaiters := taken.codingAgentWaiters.erase requestId
        codingAgentFences := taken.codingAgentFences.erase requestId },
      if requestId ∈ inner.codingAgentWaiters then
        [gatewayAnswer .codingAgent requestId
          (payload.codingAgent == some true && payload.mcpGateway.isNone &&
            payload.hasNoCommandResult)
          pending.dispatched
          "Runner returned an invalid CodingAgentRun response after dispatch; reconcile the same run_id before any new initiation"
          "Runner returned an invalid CodingAgentRun response before dispatch"]
      else [])
  | _ =>
    let finished :=
      match pending.jobId with
      | none => taken
      | some jobId =>
        { taken with requestToJob := taken.requestToJob.erase requestId }.modifyJob jobId
          (completedJob payload now)
    (finished, commandResponse pending payload)

/-- Liveness is refreshed only by the connection that holds the lease. -/
def touchIfCurrent (clientId : String) (expectedConnectionId : Option String) (now : ℤ)
    (inner : RunnerRegistryInner) : RunnerRegistryInner :=
  if expectedConnectionId.isNone || (inner.runners.lookup clientId).any fun runner ↦
      runner.connectionId == expectedConnectionId then
    touchRunner clientId now inner
  else inner

/-- The checks on the names in a request of a runner. -/
def checkNames (names : List (String × String)) (instanceId : String) : Except String Unit := do
  names.forM fun name ↦ validateId name.1 name.2
  ProjectInventory.validateRunnerInstanceId instanceId

def completeChecked (payload : RunnerResultPayload) (expectedConnectionId : Option String)
    (now : ℤ) : Reply Unit :=
  match checkNames [(payload.clientId, "client_id"), (payload.requestId, "request_id")]
      payload.runnerInstanceId with
  | .error message => .refuse inner message
  | .ok _ =>
    match instanceFault inner payload.clientId payload.runnerInstanceId with
    | some message => .refuse inner message
    | none =>
      let touched := touchIfCurrent payload.clientId expectedConnectionId now inner
      match touched.pendingById.lookup payload.requestId with
      | none => .refuse touched s!"unknown or expired shell request: {payload.requestId}"
      | some pending =>
        match payloadFault pending payload with
        | some message => .refuse touched message
        | none =>
          let (final, responses) := resolveRequest touched pending payload now
          ⟨final, responses, .ok ()⟩

/-- `RunnerPersistentShellResultRequest`, of which the registry reads the identity of the shell. -/
structure PersistentShellResult where
  (clientId runnerInstanceId requestId shellId workflowSessionId runtimeProjectId : String)

/-- `complete_persistent_shell_checked`, behind the normalization of the result. -/
def completePersistentShellChecked (body : PersistentShellResult)
    (expectedConnectionId : Option String) (now : ℤ) : Reply Unit :=
  match checkNames [(body.clientId, "client_id"), (body.requestId, "request_id")]
      body.runnerInstanceId with
  | .error message => .refuse inner message
  | .ok _ =>
    match instanceFault inner body.clientId body.runnerInstanceId with
    | some message => .refuse inner message
    | none =>
      let touched := touchIfCurrent body.clientId expectedConnectionId now inner
      match touched.pendingById.lookup body.requestId with
      | none => .refuse touched s!"unknown or expired persistent shell request: {body.requestId}"
      | some pending =>
        if pending.request.clientId != body.clientId then
          .refuse touched "request_id does not belong to client_id"
        else
          match pending.request.operation with
          | .persistentShell shellId workflowSessionId runtimeProjectId =>
            let unwaited :=
              { touched with persistentWaiters := touched.persistentWaiters.erase body.requestId }
            if shellId != body.shellId || workflowSessionId != body.workflowSessionId ||
                runtimeProjectId != body.runtimeProjectId then
              .refuse (removePendingRequest body.requestId unwaited)
                "persistent shell result identity mismatch"
            else
              ⟨dropPending body.requestId unwaited,
                if body.requestId ∈ touched.persistentWaiters then
                  [.persistentShell body.requestId]
                else [], .ok ()⟩
          | _ => .refuse touched "request_id does not belong to a persistent shell request"

end WebCodex.Registry
