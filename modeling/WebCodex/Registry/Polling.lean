import WebCodex.Registry.Requests

/-!
A poll takes request ids from the queue of its runner until it finds one that it can hand out. A
request whose fence no longer holds is dropped on the way and its waiter is told that it was not
started; the seven fences are checked in the order of the source (`staleRequest`). A result
resolves the waiter of its request and the job behind it (`completeChecked`).
-/

namespace WebCodex.Registry

open Foundation

def maxIdLength : ℕ := 80

def validateId (value field : String) : Except String Unit :=
  if value.isEmpty || decide (value.utf8ByteSize > maxIdLength) then
    .error s!"{field} must be 1..={maxIdLength} characters"
  else if !value.toList.all ProjectInventory.isNameChar then
    .error s!"{field} may only contain ASCII letters, digits, '-', '_', and '.'"
  else .ok ()

/-- A fence that no longer holds, with the code and the message of its failure. -/
inductive StaleRequest
  | runnerConfig (code message : String)
  | sshResource (code message : String)
  | bridge (code error : String)
  | plugin (code message : String)
  | skillStore (error : String)
  | codingAgent (code message : String)
  | project (error : String)

/-- The fence of an operation on one exact runner process that needs one feature. -/
def exactRunnerFault (runner : Option RunnerRecord) (expected : String) (feature : RunnerFeature)
    (gone changed capability : String × String) : Option (String × String) :=
  match runner with
  | none => some gone
  | some runner =>
    if runner.runnerInstanceId != expected then some changed
    else if !runner.supports feature then some capability
    else none

section Fences

variable (inner : RunnerRegistryInner) (clientId requestId : String) (pending : PendingShellRequest)

def staleRunnerConfigError : Option StaleRequest :=
  match pending.request.operation, pending.expectedRunnerConfigRunnerInstanceId with
  | .runnerConfig, some expected =>
    (exactRunnerFault (inner.runners.lookup clientId) expected .runnerConfigControl
      ("runner_replaced", "Exact Runner disappeared before config operation dispatch")
      ("runner_replaced", "Exact Runner changed before config operation dispatch")
      ("capability_unavailable", "Runner config-control capability changed before dispatch")).map
      fun fault ↦ .runnerConfig fault.1 fault.2
  | .runnerConfig, none =>
    some (.runnerConfig "runner_replaced" "Runner config exact-process fence is missing")
  | _, some _ =>
    some (.runnerConfig "runner_replaced" "Runner config exact-process fence is inconsistent")
  | _, none => none

def staleSshResourceError : Option StaleRequest :=
  match pending.request.operation, pending.expectedSshResourceRunnerInstanceId with
  | .sshResource, some expected =>
    (exactRunnerFault (inner.runners.lookup clientId) expected .managedSshResources
      ("runner_replaced", "Exact Runner disappeared before SSH resource dispatch")
      ("runner_replaced", "Exact Runner changed before SSH resource dispatch")
      ("ssh_resource_registry_unavailable",
        "Managed SSH resource capability changed before dispatch")).map
      fun fault ↦ .sshResource fault.1 fault.2
  | .sshResource, none =>
    some (.sshResource "runner_replaced" "SSH resource exact Runner fence is missing")
  | _, some _ =>
    some (.sshResource "runner_replaced" "SSH resource exact Runner fence is inconsistent")
  | _, none => none

/-- Whether the runner still has the provider behind a bridge. -/
def staleBridgeTarget (expectedRunner : String) (expected : ProviderBinding) :
    Option StaleRequest :=
  match inner.runners.lookup clientId with
  | none =>
    some (.bridge "stale_runner" "stale_mcp_gateway: target Runner disappeared before dispatch")
  | some runner =>
    if runner.runnerInstanceId != expectedRunner then
      some (.bridge "stale_runner" "stale_mcp_gateway: target Runner changed before dispatch")
    else if !runner.mcpGatewayProviders.contains expected then
      some (.bridge "stale_provider" "stale_mcp_gateway: target provider changed before dispatch")
    else none

def staleBridgeError : Option StaleRequest :=
  match pending.request.operation, pending.expectedMcpGatewayRunnerInstanceId,
      pending.expectedMcpGatewayProviderId, pending.expectedMcpGatewayProviderInstanceId with
  | .mcpGateway provider, some expectedRunner, some expectedProvider, some expectedInstance =>
    if provider != ⟨expectedProvider, expectedInstance⟩ then
      some (.bridge "stale_provider"
        "stale_mcp_gateway: pending exact-provider fence is inconsistent")
    else staleBridgeTarget inner clientId expectedRunner ⟨expectedProvider, expectedInstance⟩
  | .mcpGateway _, _, _, _ =>
    some (.bridge "stale_provider" "stale_mcp_gateway: pending exact bridge fence is incomplete")
  | _, none, none, none => none
  | _, _, _, _ =>
    some (.bridge "stale_provider" "stale_mcp_gateway: pending exact bridge fence is incomplete")

def stalePluginError : Option StaleRequest :=
  match pending.request.operation with
  | .pluginGateway provider =>
    match inner.pluginGatewayFences.lookup requestId with
    | none => some (.plugin "stale_plugin_fence" "native Plugin exact dispatch fence is missing")
    | some fence =>
      if provider != fence.provider then
        some (.plugin "stale_plugin_provider"
          "native Plugin provider binding changed before dispatch")
      else
        (exactRunnerFault (inner.runners.lookup clientId) fence.runnerInstanceId .nativeToolPlugins
          ("stale_runner", "native Plugin target Runner disappeared before dispatch")
          ("stale_runner", "native Plugin target Runner changed before dispatch")
          ("plugin_capability_unavailable", "native Plugin capability changed before dispatch")).map
          fun fault ↦ .plugin fault.1 fault.2
  | _ => none

/-- The feature that a skill-store request needs, with its name on the wire. -/
def skillStoreFeature (management : Bool) : RunnerFeature × String :=
  if management then (.skillStoreManage, "skill_store_manage")
  else (.skillStoreRead, "skill_store_read")

def staleSkillStoreError : Option StaleRequest :=
  match pending.request.operation, pending.skillStoreFence with
  | .skillStore, some fence =>
    if fence.configuredRoots then
      some (.skillStore
        "stale_runner: Skill source dispatch fence mode does not match the request kind")
    else
      let (feature, name) := skillStoreFeature fence.management
      (exactRunnerFault (inner.runners.lookup clientId) fence.runnerInstanceId feature
        ("", "stale_runner: Skill store target Runner disappeared before dispatch")
        ("", "stale_runner: Skill store target Runner changed before dispatch")
        ("", s!"skill_store_capability_unavailable: exact Runner no longer advertises {name} before dispatch")).map
        fun fault ↦ .skillStore fault.2
  | .configuredSkillRoots, some fence =>
    if !fence.configuredRoots || fence.management then
      some (.skillStore
        "stale_runner: Skill source dispatch fence mode does not match the request kind")
    else
      (exactRunnerFault (inner.runners.lookup clientId) fence.runnerInstanceId
        .configuredSkillRootsRead
          ("", "stale_runner: configured Skill roots target Runner disappeared before dispatch")
        ("", "stale_runner: configured Skill roots target Runner changed before dispatch")
        ("", "configured_skill_roots_capability_unavailable: exact Runner no longer advertises configured_skill_roots_read before dispatch")).map
        fun fault ↦ .skillStore fault.2
  | .skillStore, none | .configuredSkillRoots, none =>
    some (.skillStore "stale_runner: Skill source exact dispatch fence is missing")
  | _, some _ =>
    some (.skillStore
      "stale_runner: Skill source dispatch fence is attached to the wrong request kind")
  | _, none => none

def staleCodingAgentError : Option StaleRequest :=
  match pending.request.operation with
  | .codingAgent =>
    match inner.codingAgentFences.lookup requestId with
    | none =>
      some (.codingAgent "stale_coding_agent_fence"
        "CodingAgentRun exact dispatch fence is missing")
    | some fence =>
      match inner.runners.lookup clientId with
      | none =>
        some (.codingAgent "stale_runner"
          "CodingAgentRun target Runner disappeared before dispatch")
      | some runner =>
        if runner.runnerInstanceId != fence.runnerInstanceId then
          some (.codingAgent "stale_runner" "CodingAgentRun target Runner changed before dispatch")
        else if !runner.codingAgentProviders.any
            (fun provider ↦ provider.binding == fence.provider) then
          some (.codingAgent "stale_provider"
            "CodingAgentRun target ACP provider changed before dispatch")
        else none
  | _ => none

def staleProjectError : Option StaleRequest :=
  match pending.expectedProjectId, pending.expectedProjectCwd with
  | some projectId, some projectCwd =>
    let gone :=
      s!"stale_project: target project {projectId} is no longer registered at the resolved path"
    match inner.runners.lookup clientId with
    | none => some (.project gone)
    | some runner =>
      if runner.owner != pending.expectedRunnerOwner then
        some (.project "stale_authority: target Runner owner changed before dispatch")
      else if !runner.supports .fileWrite then
        some (.project
          "stale_authority: target Runner no longer advertises file_write before dispatch")
      else if runner.projects.any fun project ↦
          !project.disabled && project.id == projectId && project.path == projectCwd then
        none
      else some (.project gone)
  | none, none => none
  | _, _ => some (.project "stale_project: pending project placement fence is incomplete")

/-- The first fence of a request that no longer holds. -/
def staleRequest : Option StaleRequest :=
    (staleRunnerConfigError inner clientId pending).orElse fun _ ↦
  (staleSshResourceError inner clientId pending).orElse fun _ ↦
  (staleBridgeError inner clientId pending).orElse fun _ ↦
  (stalePluginError inner clientId requestId pending).orElse fun _ ↦
  (staleSkillStoreError inner clientId pending).orElse fun _ ↦
  (staleCodingAgentError inner clientId requestId pending).orElse fun _ ↦
  staleProjectError inner clientId pending

/-- What the waiters of a stale request are told. -/
def staleResponses : StaleRequest → List Response
  | .runnerConfig code message | .sshResource code message =>
    refusal pending requestId clientId none "" (code ++ ": " ++ message) false (some .notStarted)
  | .bridge code error =>
    refusal pending requestId clientId pending.request.cwd pending.request.preview error false
        (some .notStarted) ++
      gatewayFailure inner.mcpGatewayWaiters .mcp requestId .notStarted code
        (if code == "stale_runner" then
          "Exact Runner changed before bridge dispatch; request was not started"
        else "Exact provider changed before bridge dispatch; request was not started")
  | .plugin code message =>
    refusal pending requestId clientId pending.request.cwd pending.request.preview message false
        (some .notStarted) ++
      gatewayFailure inner.pluginGatewayWaiters .plugin requestId .notStarted code
        "Exact native Plugin dispatch target changed before dispatch; request was not started"
  | .skillStore error =>
    refusal pending requestId clientId none pending.request.preview error false (some .notStarted)
  | .codingAgent code message =>
    gatewayFailure inner.codingAgentWaiters .codingAgent requestId .notStarted code message
  | .project error =>
    refusal pending requestId clientId pending.request.cwd pending.request.preview error false
      (some .notStarted)

end Fences

/-- Drops a stale request with what belongs to it. -/
def dropStale (requestId : String) (inner : RunnerRegistryInner) :
    StaleRequest → RunnerRegistryInner
  | .runnerConfig _ _ | .sshResource _ _ => dropPending requestId inner
  | .bridge _ _ =>
    { dropPending requestId inner with
      mcpGatewayWaiters := inner.mcpGatewayWaiters.erase requestId
      persistentWaiters := inner.persistentWaiters.erase requestId }
  | .plugin _ _ => dropSideTables requestId (dropPending requestId inner)
  | .skillStore _ | .project _ =>
    { dropPending requestId inner with
      persistentWaiters := inner.persistentWaiters.erase requestId }
  | .codingAgent _ _ =>
    { dropPending requestId inner with
      codingAgentWaiters := inner.codingAgentWaiters.erase requestId
      codingAgentFences := inner.codingAgentFences.erase requestId
      mcpGatewayWaiters := inner.mcpGatewayWaiters.erase requestId
      persistentWaiters := inner.persistentWaiters.erase requestId }

/-- The job of a request that a runner has taken: it belongs to the runner now, and a job without a
structured command counts as started. -/
def dispatchedJob (now : ℤ) (job : ShellJobRecord) : ShellJobRecord :=
  if job.lifecycle == .queued then
    notifyJobUpdate
      { job with
        lifecycle := .runnerQueued
        startedAt := if job.structuredExecution.isNone then some now else job.startedAt }
  else job

def markDispatched (requestId : String) (pending : PendingShellRequest)
    (inner : RunnerRegistryInner) : RunnerRegistryInner :=
  { inner with
    pendingById := inner.pendingById.insert requestId { pending with dispatched := true } }

variable (inner : RunnerRegistryInner)

/-- Hands a request out: a stop request is forgotten at once, any other waits for its answer. -/
def dispatchRequest (requestId : String) (pending : PendingShellRequest) (now : ℤ) :
    RunnerRegistryInner :=
  match pending.request.operation with
  | .job (.stop _) => dropPending requestId inner
  | _ =>
    let marked := markDispatched requestId pending inner
    match pending.jobId with
    | none => marked
    | some jobId => marked.modifyJob jobId (dispatchedJob now)

variable (clientId : String)

/-- Leaves a runner with the rest of its queue. -/
def setQueue (rest : List String) (inner : RunnerRegistryInner) :
    RunnerRegistryInner :=
  { inner with queuesByRunner := inner.queuesByRunner.insert clientId rest }

/-- The loop of a poll, along the queue of its runner. -/
def pollQueue (clientId : String) (now : ℤ) :
    List String → RunnerRegistryInner → RunnerRegistryInner × List Response × Option RunnerRequest
  | [], inner => (inner, [], none)
  | requestId :: rest, inner =>
    let popped := setQueue clientId rest inner
    match popped.pendingById.lookup requestId with
    | none => pollQueue clientId now rest popped
    | some pending =>
      match staleRequest popped clientId requestId pending with
      | some stale =>
        let (final, responses, request) := pollQueue clientId now rest
          (dropStale requestId popped stale)
        (final, staleResponses popped clientId requestId pending stale ++ responses, request)
      | none => (dispatchRequest popped requestId pending now, [], some pending.request)

/-- The result of an operation that answers waiters. -/
structure Reply (α : Type) where
  state : RunnerRegistryInner
  responses : List Response := []
  result : CallResult α

/-- An operation that refuses and leaves the registry alone. -/
def Reply.refuse {α : Type} (message : String) : Reply α := ⟨inner, [], .error message⟩

def connectionFault (expectedConnectionId : Option String) : Option String :=
  if expectedConnectionId.any fun expected ↦
      (inner.runners.lookup clientId).bind (·.connectionId) != some expected then
    some s!"runner {clientId} transport connection is no longer active"
  else none

def touchRunner (now : ℤ) (inner : RunnerRegistryInner) : RunnerRegistryInner :=
  { inner with
    runners := Table.modify clientId (fun runner ↦ { runner with lastSeen := now }) inner.runners }

def pollChecked (instanceId : String) (expectedConnectionId : Option String) (now : ℤ) :
    Reply (Option RunnerRequest) :=
  match validateId clientId "client_id", ProjectInventory.validateRunnerInstanceId instanceId with
  | .error message, _ | _, .error message => .refuse inner message
  | .ok _, .ok _ =>
    match instanceFault inner clientId instanceId with
    | some message => .refuse inner message
    | none =>
      match connectionFault inner clientId expectedConnectionId with
      | some message => .refuse inner message
      | none =>
        let (final, responses, request) :=
          pollQueue clientId now (queueOf inner clientId) (touchRunner clientId now inner)
        ⟨final, responses, .ok request⟩

end WebCodex.Registry
