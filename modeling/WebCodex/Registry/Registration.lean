import WebCodex.Registry.Reconciliation

/-!
A registration takes the lease of a runner. A different instance retires the one before it: the jobs
and the synchronous requests of the old instance are given up before the new record stands. The same
instance keeps its registration time, its projects and its memory of jobs that ended inside a call.
Either way the jobs are then reconciled with the inventory of the registration.
-/

namespace WebCodex.Registry

open Foundation

/-- The part of `StreamingSessionRegistration` that the registry records. -/
structure StreamingSession where
  connectionId : String
  transport : RunnerTransport

/-- `RunnerRegisterRequest` with the access of its caller. The fields that the registry only stores
(names, host, policy, build, protocol generation) are checked before anything else happens; `fault`
is what these checks find. -/
structure RunnerRegisterRequest where
  (clientId runnerInstanceId : String)
  owner : Option String := none
  features : List RunnerFeature := []
  hasPolicy : Bool := false
  mcpGatewayProviders : List ProviderBinding := []
  codingAgentProviders : List CodingAgentProvider := []
  jobInventory : Option ShellJobInventory := none
  group : Option RunnerAccessGroup := none
  streaming : Option StreamingSession := none
  fault : Option String := none

namespace RunnerRegisterRequest

def supports (body : RunnerRegisterRequest) (feature : RunnerFeature) : Bool :=
  body.features.contains feature

def trimString (value : Option String) : Option String :=
  (value.map fun text ↦ String.ofList (Text.trim text.toList)).filter fun text ↦ !text.isEmpty

def record (body : RunnerRegisterRequest) (now : ℤ) : RunnerRecord where
  clientId := body.clientId
  runnerInstanceId := body.runnerInstanceId
  owner := trimString body.owner
  runnerFeatures := body.features
  projects := []
  lastSeen := now
  transport := (body.streaming.map (·.transport)).getD .polling
  hasPolicy := body.hasPolicy
  mcpGatewayProviders := if body.hasPolicy then body.mcpGatewayProviders else []
  authGroup := body.group
  registeredAt := now
  connectedAt := now
  connectionId := body.streaming.map (·.connectionId)
  disconnectedAt := none
  codingAgentProviders := body.codingAgentProviders
  suppressions := []

/-- The checks on the transport of a registration. -/
def validateStreaming (body : RunnerRegisterRequest) : Except String Unit :=
  match body.streaming with
  | none => .ok ()
  | some session => do
    validateId session.connectionId "connection_id"
    if session.transport == .polling then .error "streaming Runner transport is unsupported"

/-- The check of the inventory, which goes with the feature that needs it. -/
def validateInventory (checks : Checks) (body : RunnerRegisterRequest) : Except String Unit :=
  match body.supports .jobStateReconciliation, body.jobInventory with
  | true, some inventory => validateJobInventory checks body.clientId inventory
  | true, none => .error "job_state_reconciliation capability requires job_inventory"
  | false, some _ => .error "job_inventory requires job_state_reconciliation capability"
  | false, none => .ok ()

/-- The checks on a registration before the lock is taken. -/
def validate (checks : Checks) (body : RunnerRegisterRequest) : Except String Unit := do
  body.validateStreaming
  validateId body.clientId "client_id"
  ProjectInventory.validateRunnerInstanceId body.runnerInstanceId
  body.fault.elim (.ok ()) .error
  body.validateInventory checks

end RunnerRegisterRequest

/-! ### Shared-key runners -/

def isSharedKey : Option RunnerAccessGroup → Bool
  | some (.sharedKey _) => true
  | _ => false

variable (env : Environment) (inner : RunnerRegistryInner)

/-- A shared-key runner that has been away for too long. -/
def sharedKeyExpired (now : ℤ) (runner : RunnerRecord) (clientId : String) : Bool :=
  isSharedKey runner.authGroup && !Table.has clientId inner.notifiers &&
    !decide (now - runner.lastSeen ≤ runnerOnlineWindowSecs) &&
    decide (now - runner.disconnectedAt.getD runner.lastSeen > env.sharedKeyOfflineTtlSecs)

def expiredRunners (now : ℤ) (inner : RunnerRegistryInner) : List String :=
  (inner.runners.entries.filter fun entry ↦
    sharedKeyExpired env inner now entry.2 entry.1).map fun entry ↦ entry.1

/-- Resolves the synchronous requests of several runners, one runner after another. -/
def resolveDisconnectedRunners (error : String) (clientIds : List String)
    (inner : RunnerRegistryInner) : RunnerRegistryInner × List Response :=
  clientIds.foldl (fun state clientId ↦
    let resolved := resolveDisconnectedSyncRequests clientId error state.1
    (resolved.1, state.2 ++ resolved.2)) (inner, [])

/-- Declares the jobs of forgotten runners lost. -/
def loseRunnerJobs (now : ℤ) (jobIds : List String) (inner : RunnerRegistryInner) :
    RunnerRegistryInner :=
  jobIds.foldl (fun current jobId ↦ current.modifyJob jobId (markJobLost now .sharedKeyRunnerExpired
      "shared-key runner registration expired after being offline")) inner

/-- Forgets runners with their requests, queues and fences. -/
def forgetRunners (expired requestIds jobIds : List String) (inner : RunnerRegistryInner) :
    RunnerRegistryInner :=
  { inner with
    pendingById := Table.keep (fun id _ ↦ !requestIds.contains id) inner.pendingById
    persistentWaiters := inner.persistentWaiters.filter fun id ↦ !requestIds.contains id
    requestToJob := Table.keep
      (fun id jobId ↦ !requestIds.contains id && !jobIds.contains jobId) inner.requestToJob
    runners := Table.keep (fun id _ ↦ !expired.contains id) inner.runners
    queuesByRunner := Table.keep (fun id _ ↦ !expired.contains id) inner.queuesByRunner
    notifiers := Table.keep (fun id _ ↦ !expired.contains id) inner.notifiers
    retiredInstances := Table.keep (fun id _ ↦ !expired.contains id) inner.retiredInstances
    unregisteringProjects := Table.keep
      (fun id _ ↦ !expired.any fun clientId ↦ s!"agent:{clientId}:".toList.isPrefixOf id.toList)
      inner.unregisteringProjects }

/-- `prune_expired_shared_key_runners_locked`. -/
def pruneExpiredSharedKeyRunners (now : ℤ) (inner : RunnerRegistryInner) :
    RunnerRegistryInner × List Response :=
  let expired := expiredRunners env now inner
  if expired.isEmpty then (inner, [])
  else
    let requestIds := (inner.pendingById.entries.filter fun entry ↦
      expired.contains entry.2.request.clientId).map fun entry ↦ entry.1
    let jobIds := (jobsWhere (fun _ job ↦ expired.contains job.clientId) inner).map fun entry ↦
      entry.1
    let resolved := resolveDisconnectedRunners
      "runner went offline: shared-key runner registration expired" expired inner
    (forgetRunners expired requestIds jobIds (loseRunnerJobs now jobIds resolved.1), resolved.2)

/-- `recovery_timeout_sweep`, behind the cancellations that it starts with. -/
def recoveryTimeoutSweep (now : ℤ) (inner : RunnerRegistryInner) :
    RunnerRegistryInner × List Response :=
  let (pruned, responses) := pruneExpiredSharedKeyRunners env now inner
  (pruneExpiredTerminalJobs now
    (expireRecoveringJobs env none now recoverySweepPassCap (pruneAllSuppressions now pruned)),
    responses)

/-! ### Registration -/

def sharedKeyLimitFault (body : RunnerRegisterRequest) : Option String :=
  if !isSharedKey body.group || Table.has body.clientId inner.runners then none
  else
    let runners := Table.values inner.runners
    if runners.countP (fun runner ↦ runner.authGroup == body.group) ≥ env.sharedKeyPerGroup then
      some s!"shared-key runner group limit reached (maximum {env.sharedKeyPerGroup} runners)"
    else if runners.countP (fun runner ↦ isSharedKey runner.authGroup) ≥ env.sharedKeyGlobal then
      some s!"shared-key runner global limit reached (maximum {env.sharedKeyGlobal} runners)"
    else none

/-- The features that an instance cannot give up, with their names. -/
def lastingFeatures : List (RunnerFeature × String) :=
  [(.jobStateReconciliation, "job_state_reconciliation"), (.codingAgentRuns, "coding_agent_runs"),
    (.structuredCargoTestExecutionPolicy, "structured_cargo_test_execution_policy"),
    (.structuredScriptJavascript, "structured_script_javascript"),
    (.structuredScriptTypescript, "structured_script_typescript"),
    (.nativeToolPlugins, "native_tool_plugins")]

/-- `reject_same_instance_feature_downgrade` for each lasting feature, then the providers. -/
def sameInstanceFault (existing : RunnerRecord) (body : RunnerRegisterRequest) : Option String :=
  if existing.runnerInstanceId != body.runnerInstanceId then none
  else
    match lastingFeatures.find? fun feature ↦
        existing.supports feature.1 && !body.supports feature.1 with
    | some (_, name) => some s!"same runner instance cannot downgrade {name} capability"
    | none =>
      if existing.codingAgentProviders != body.codingAgentProviders then
        some "same runner instance cannot change ACP coding-agent provider inventory"
      else none

/-- Why the registry does not give the lease to a registration. -/
def leaseFault (body : RunnerRegisterRequest) :
    Option String :=
  let existing := inner.runners.lookup body.clientId
  if existing.any fun runner ↦ runner.authGroup != body.group then
    some "runner identity is unavailable"
  else
    match sharedKeyLimitFault env inner body with
    | some message => some message
    | none =>
      if (inner.retiredInstances.lookup body.clientId).any fun retired ↦
          retired.contains body.runnerInstanceId then
        some s!"runner {body.clientId} instance was replaced and cannot reclaim the lease"
      else
        match existing.bind fun runner ↦ sameInstanceFault runner body with
        | some message => some message
        | none =>
          match body.jobInventory.map
              (preflightInventory inner body.clientId body.runnerInstanceId) with
          | some (.error message) => some message
          | _ => none

variable (clientId instanceId : String)

/-- Remembers that an instance was replaced; the oldest memories fall out. -/
def retireInstance (inner : RunnerRegistryInner) :
    RunnerRegistryInner :=
  let retired := (inner.retiredInstances.lookup clientId).getD []
  let updated :=
    if retired.contains instanceId then retired
    else
      let grown := retired ++ [instanceId]
      grown.drop (grown.length - maxRetiredInstancesPerRunner)
  { inner with retiredInstances := inner.retiredInstances.insert clientId updated }

/-- Gives up what belongs to an instance that a registration replaces. -/
def replaceInstance (body : RunnerRegisterRequest) (now : ℤ) (inner : RunnerRegistryInner) :
    RunnerRegistryInner × List Response :=
  match inner.runners.lookup body.clientId with
  | none => (inner, [])
  | some existing =>
    if existing.runnerInstanceId == body.runnerInstanceId then (inner, [])
    else
      let terminated := terminateInstanceJobs body.clientId existing.runnerInstanceId
        body.jobInventory now inner
      let (resolved, responses) := resolveDisconnectedSyncRequests body.clientId
        "runner instance was replaced before the request completed; the request was not handed to the replacement instance"
        terminated
      (retireInstance body.clientId existing.runnerInstanceId resolved, responses)

/-- The record that a registration installs over the one that it finds. -/
def installedRecord (existing : Option RunnerRecord) (body : RunnerRegisterRequest) (now : ℤ) :
    RunnerRecord :=
  match existing with
  | none => body.record now
  | some existing =>
    if existing.runnerInstanceId == body.runnerInstanceId then
      { body.record now with
        registeredAt := existing.registeredAt
        suppressions := (existing.pruneSuppressions now).suppressions
        projects := existing.projects }
    else body.record now

/-- Installs the record and the notifier of a registration. -/
def installRunner (body : RunnerRegisterRequest) (now : ℤ) (inner : RunnerRegistryInner) :
    RunnerRegistryInner :=
  { inner with
    runners := inner.runners.insert body.clientId
      (installedRecord (inner.runners.lookup body.clientId) body now)
    notifiers :=
      match body.streaming with
      | none => inner.notifiers.erase body.clientId
      | some session =>
        inner.notifiers.insert body.clientId ⟨body.runnerInstanceId, some session.connectionId⟩ }

/-- Reconciles the jobs with the inventory of a registration, when it has one. -/
def reconcileRegistration (body : RunnerRegisterRequest) (now : ℤ) (inner : RunnerRegistryInner) :
    RunnerRegistryInner :=
  match body.jobInventory with
  | none => inner
  | some inventory =>
    reconcileInventory env inner body.clientId body.runnerInstanceId body.group inventory now

def registerSession (body : RunnerRegisterRequest) (now : ℤ) : Reply Unit :=
  match body.validate env.checks with
  | .error message => .refuse inner message
  | .ok _ =>
    let (pruned, responses) := pruneExpiredSharedKeyRunners env now inner
    match leaseFault env pruned body with
    | some message => ⟨pruned, responses, .error message⟩
    | none =>
      let (replaced, failures) := replaceInstance body now pruned
      ⟨reconcileRegistration env body now (installRunner body now replaced),
        responses ++ failures, .ok ()⟩

/-! ### Disconnection -/

/-- Whether a disconnection is about the lease that stands. -/
def disconnectApplies (runner : RunnerRecord) (instanceId : String) (connectionId : Option String)
    (transport : Option RunnerTransport) : Bool :=
  runner.runnerInstanceId == instanceId &&
    (connectionId.all fun id ↦ runner.connectionId == some id) && transport.all fun expected ↦
      runner.transport == expected

/-- What a disconnection makes of a job of its runner. -/
def disconnectedJob (recoverable : Bool) (now : ℤ) (job : ShellJobRecord) : ShellJobRecord :=
  if recoverable && job.lifecycle != .queued then
    beginJobRecovery now .runnerTransportDisconnected job
  else if job.lifecycle == .queued then
    markJobLost now .runnerRequestNotDispatched
      "Runner transport disconnected before the queued request was dispatched" job
  else
    markJobLost now .runnerDisconnectedWithoutReconciliation
      "Runner transport disconnected without reconciliation support" job

/-- Forgets a request of a job of a runner that is gone. -/
def forgetJobRequest (requestId : String) (inner : RunnerRegistryInner) :
    RunnerRegistryInner :=
  let dropped := dropPending requestId inner
  removeFromQueue clientId requestId
    { dropped with requestToJob := dropped.requestToJob.erase requestId }

/-- A disconnection leaves one job of its runner. -/
def disconnectJob (recoverable : Bool) (now : ℤ) (inner : RunnerRegistryInner)
    (entry : String × ShellJobRecord) : RunnerRegistryInner :=
  let changed := inner.modifyJob entry.1 (disconnectedJob recoverable now)
  match entry.2.requestId with
  | none => changed
  | some requestId => forgetJobRequest clientId requestId changed

def isAffected (job : ShellJobRecord) : Bool := job.clientId == clientId &&
    !job.lifecycle.isTerminal && (job.lifecycle == .queued || job.lifecycle.isRunnerActive)

/-- The lease of a runner whose transport is gone: its notifier is dropped and it counts as
offline. -/
def markDisconnected (connectionId : Option String) (now : ℤ) (inner : RunnerRegistryInner) :
    RunnerRegistryInner :=
  { inner with
    notifiers :=
      if (inner.notifiers.lookup clientId).any fun entry ↦
          entry.runnerInstanceId == instanceId &&
            connectionId.all fun id ↦ entry.connectionId == some id then
        inner.notifiers.erase clientId
      else inner.notifiers
    runners := Table.modify clientId
      (fun runner ↦ { runner with lastSeen := offlineLastSeen now, disconnectedAt := some now })
      inner.runners }

/-- The requests of jobs of a runner that are pending. -/
def jobRequests (inner : RunnerRegistryInner) : List String :=
  (inner.pendingById.entries.filter fun entry ↦
    entry.2.request.clientId == clientId && entry.2.jobId.isSome).map fun entry ↦ entry.1

/-- `reconcile_disconnect_checked`: whether the lease that stands was disconnected. -/
def reconcileDisconnectChecked (connectionId : Option String) (transport : Option RunnerTransport)
    (now : ℤ) : Reply Bool :=
  match inner.runners.lookup clientId with
  | none => ⟨inner, [], .ok false⟩
  | some runner =>
    if !disconnectApplies runner instanceId connectionId transport then ⟨inner, [], .ok false⟩
    else
      let offline := markDisconnected clientId instanceId connectionId now inner
      let affected := jobsWhere (fun _ ↦ isAffected clientId) offline
      let left := affected.foldl
        (disconnectJob clientId (runner.supports .jobStateReconciliation) now) offline
      let drained := (jobRequests clientId left).foldl
        (fun current requestId ↦ forgetJobRequest clientId requestId current) left
      let (resolved, responses) := resolveDisconnectedSyncRequests clientId
        "runner went offline: transport disconnected before returning a result" drained
      ⟨resolved, responses, .ok true⟩

/-- Why a message is not from the connection that holds the lease. -/
def leaseHolderFault (expectedConnectionId : Option String) : Option String :=
  match ProjectInventory.validateRunnerInstanceId instanceId with
  | .error message => some message
  | .ok _ => (instanceFault inner clientId instanceId).or
      (connectionFault inner clientId expectedConnectionId)

def touchRunnerForConnection (connectionId : String) (now : ℤ) : Reply Unit :=
  match leaseHolderFault inner clientId instanceId (some connectionId) with
  | some message => .refuse inner message
  | none => ⟨touchRunner clientId now inner, [], .ok ()⟩

/-- `update_runtime_metadata_checked`, for an inventory of providers that was found valid. -/
def updateRuntimeMetadata (expectedConnectionId : Option String) (toolProviders : Bool)
    (providers : Option (List ProviderBinding)) (now : ℤ) : Reply Unit :=
  if !toolProviders && providers.isNone then ⟨inner, [], .ok ()⟩
  else
    match leaseHolderFault inner clientId instanceId expectedConnectionId with
    | some message => .refuse inner message
    | none =>
      ⟨{ inner with
          runners := Table.modify clientId (fun runner ↦
              { runner with
                lastSeen := now
                mcpGatewayProviders :=
                  if runner.hasPolicy then providers.getD runner.mcpGatewayProviders
                  else runner.mcpGatewayProviders }) inner.runners }, [], .ok ()⟩

/-- Sets the projects that a runner routes, as the inventory protocol and the project operations do
for the instance that holds the lease. -/
def publishProjects (projects : List ProjectInventory.RunnerProjectSummary) : Reply Unit :=
  match instanceFault inner clientId instanceId with
  | some message => .refuse inner message
  | none =>
    ⟨{ inner with
        runners := Table.modify clientId (fun runner ↦ { runner with projects := projects })
          inner.runners }, [], .ok ()⟩

/-- `begin_project_unregister`: starts are fenced off when no active job of the project is left. -/
def beginProjectUnregister (access : Option RunnerAccess) (projectId : String) (now : ℤ) :
    Reply ℕ :=
  let fresh := refreshAllJobs env now inner
  let active := (Table.values fresh.jobsById).countP fun job ↦
    jobVisibleToAccess access now job && job.projectId == some projectId && job.lifecycle.isActive
  ⟨if active = 0 then
      { fresh with
        unregisteringProjects := fresh.unregisteringProjects.insert projectId
          ((fresh.unregisteringProjects.lookup projectId).getD 0 + 1) }
    else fresh, [], .ok active⟩

def endProjectUnregister (projectId : String) (inner : RunnerRegistryInner) : RunnerRegistryInner :=
  match inner.unregisteringProjects.lookup projectId with
  | none => inner
  | some count =>
    { inner with
      unregisteringProjects :=
        if count - 1 = 0 then inner.unregisteringProjects.erase projectId
        else inner.unregisteringProjects.insert projectId (count - 1) }

end WebCodex.Registry
