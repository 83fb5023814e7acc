import WebCodex.Registry.Updates

/-!
A job is started by enqueuing its request and inserting its record. A structured tool call starts
its job hidden, and either promotes it when the call has to return before the job ends, or cancels
it, or discards the record after its result went into the answer of the call; in the last case the
runner remembers for a while that this terminal job must not come back from an inventory.
-/

namespace WebCodex.Registry

open Foundation

inductive StructuredJobExecution
  | process (argv : ShellProcessArgv)
  | detachedProcess (argv : ShellProcessArgv)
  | script (language : ShellScriptLanguage) (scriptBytes : ℕ) (args : List String)

/-- A start whose payload was found valid, with what the process draws for it: the id of the request
and the id of the job. -/
structure ShellJobStart where
  (requestId drawnJobId clientId : String)
  projectId : Option String := none
  sessionId : Option String := none
  sshResource : Option String := none
  projectCwd : Option String := none
  cwd : Option String := none
  purpose : Option String := none
  shell : Option String := none
  commandPreview : String := ""
  validationSteps : List ShellJobValidationStep := []
  validation : Option ShellJobValidationMetadata := none
  validationIdentity : Option String := none
  validationTool : Option String := none
  assertionName : Option String := none
  structuredExecution : Option StructuredJobExecution := none
  stdin : Option String := none
  timeoutSecs : ℕ := 120
  visibility : ShellJobVisibility := .isPublic
  detachedIdempotencyKey : Option String := none
  detachedInitiator : Option String := none
  access : Option RunnerAccess := none
  createdAt : ℤ

namespace ShellJobStart

def isDetached (start : ShellJobStart) : Bool :=
  start.structuredExecution matches some (.detachedProcess _)

def kind (start : ShellJobStart) : String :=
  match start.structuredExecution with
  | some (.process _) => "run_process"
  | some (.detachedProcess _) => "run_detached_process"
  | some (.script _ _ _) => "run_script"
  | none => "shell"

/-- The intent that a repeated detached start has to match. -/
def detachedIntent (start : ShellJobStart) : Option DetachedIdempotencyIntent :=
  match start.structuredExecution with
  | some (.detachedProcess argv) =>
    some ⟨start.projectId, start.sessionId, start.projectCwd, start.cwd, start.purpose, start.shell,
      argv, start.stdin, start.timeoutSecs⟩
  | _ => none

/-- The metadata that describes the structured command of a start. -/
def structuredMetadata (start : ShellJobStart) : Option ShellJobStructuredExecutionMetadata :=
  start.structuredExecution.map fun execution ↦
    match execution with
    | .process argv =>
      { executionSource := "run_process"
        argCount := argv.args.length
        stdinPresent := start.stdin.isSome
        validationIdentity := start.validationIdentity
        validationTool := start.validationTool
        assertionName := start.assertionName }
    | .detachedProcess argv =>
      { executionSource := "run_detached_process"
        argCount := argv.args.length
        stdinPresent := start.stdin.isSome
        validationIdentity := start.validationIdentity
        validationTool := start.validationTool }
    | .script language scriptBytes args =>
      { executionSource := "run_script"
        language := some language
        scriptBytes := some scriptBytes
        argCount := args.length
        stdinPresent := start.stdin.isSome
        validationIdentity := start.validationIdentity
        validationTool := start.validationTool
        assertionName := start.assertionName }

end ShellJobStart

def detachedIdempotencyKeyMaxBytes : ℕ := 128

variable (checks : Checks)

def detachedJobIdForKey (initiator key : String) : Except String String :=
  if key.isEmpty || decide (key.utf8ByteSize > detachedIdempotencyKeyMaxBytes) ||
      key.toList.any (fun c ↦ c == Char.ofNat 0 || c == '\r' || c == '\n') then
    .error s!"detached idempotency_key must be 1..={detachedIdempotencyKeyMaxBytes} bytes and contain no NUL/CR/LF"
  else
    .ok ("detached_" ++ checks.digest
      ("webcodex-detached-initiation-v1\x00" ++ initiator ++ "\x00" ++ key))

def startJobId (start : ShellJobStart) : Except String String :=
  if start.isDetached != start.detachedIdempotencyKey.isSome then
    .error "detached idempotency_key must be present exactly for detached process Job starts"
  else
    match start.detachedIdempotencyKey, start.detachedInitiator with
    | none, _ => .ok start.drawnJobId
    | some _, none =>
      .error "detached idempotency requires a stable authenticated caller identity"
    | some key, some initiator => detachedJobIdForKey checks initiator key

def badSshResource (resource : String) : Bool :=
  resource.isEmpty || decide (resource.utf8ByteSize > 80) || (resource.splitOn "..").length != 1 ||
    !resource.toList.all ProjectInventory.isNameChar

/-- The checks of a start on the plan and the metadata that it carries. -/
def validateStart (start : ShellJobStart) : Except String Unit :=
  if start.sshResource.isSome && start.sessionId.isNone then
    .error "ssh_session_required: an SSH resource requires a Workflow Session id"
  else if start.sshResource.any badSshResource then
    .error "ssh_resource_invalid: resource name is invalid"
  else if decide (start.validationSteps.length > 3) ||
      start.validationSteps.any (fun step ↦ !checks.stepIsCanonical step) ||
      (start.validationSteps.map (·.name)).dedup.length != start.validationSteps.length then
    .error "invalid structured validation plan"
  else if start.validation.any fun validation ↦
      !checks.validationIsValid validation || validation.steps != start.validationSteps then
    .error "invalid structured validation metadata"
  else if start.structuredExecution.isSome &&
      (!start.validationSteps.isEmpty || start.validation.isSome) then
    .error "typed structured Job starts require command=\"\" and no validation plan"
  else .ok ()

/-- The demands of a start on its runner, in the order of the source: whether a demand is not met,
and the error that says so. -/
def startDemands (runner : RunnerRecord) (start : ShellJobStart) : List (Bool × String) :=
  let clientId := start.clientId
  let lacks := fun feature ↦ !runner.supports feature
  let goSteps := start.validationSteps.filter checks.stepIsGoTestJson
  [(lacks .asyncJobs && lacks .asyncShellJobs,
    s!"runner {clientId} does not support async shell jobs"),
      (start.structuredExecution.isSome && lacks .structuredExecutionJobs,
        s!"capability_unavailable: runner {clientId} does not support structured_execution_jobs"),
    ((start.structuredExecution matches some (.script .javascript _ _)) &&
        lacks .structuredScriptJavascript,
      s!"capability_unavailable: runner {clientId} does not support structured_script_javascript"),
    ((start.structuredExecution matches some (.script .typescript _ _)) &&
        lacks .structuredScriptTypescript,
      s!"capability_unavailable: runner {clientId} does not support structured_script_typescript"),
    (start.isDetached && lacks .detachedProcessJobs,
      s!"capability_unavailable: runner {clientId} does not support detached_process_jobs"),
    (start.structuredExecution.isSome && start.sshResource.isSome,
      "ssh_resource_unsupported_for_request: typed structured Jobs do not support SSH resources"),
    (start.sshResource.isSome && lacks .sshShell,
      s!"agent_capability_unavailable: runner {clientId} does not support ssh_shell"),
    (!start.validationSteps.isEmpty && lacks .structuredValidationArgv,
      s!"structured_validation_unavailable: runner {clientId} does not support structured argv validation jobs"),
    ((start.validation.any fun validation ↦ validation.minimumTests.isSome) &&
        lacks .structuredCargoTestCountAssertion,
      s!"structured_cargo_test_count_assertion_unavailable: runner {clientId} does not support durable Cargo test-count assertions"),
    ((start.validation.any fun validation ↦
          validation.requireTests.isSome || validation.noRun.isSome) &&
        lacks .structuredCargoTestExecutionPolicy,
      s!"structured_cargo_test_execution_policy_unavailable: runner {clientId} does not support durable Cargo validation execution-policy metadata"),
    (!goSteps.isEmpty && lacks .structuredGoTestJson,
      s!"structured_go_test_json_unavailable: runner {clientId} does not support machine-readable Go test validation"),
    ((goSteps.any fun step ↦ step.args != ["test", "-json", "./..."]) &&
        lacks .structuredGoTestPackages,
      s!"structured_go_test_packages_unavailable: runner {clientId} does not support focused Go package validation argv"),
    ((start.validation.any fun validation ↦ validation.tool == "go_test") &&
        lacks .structuredGoTestTool,
      s!"structured_go_test_tool_unavailable: runner {clientId} does not support the first-class go_test validation contract")]

variable (inner : RunnerRegistryInner)

def startFault (runner : RunnerRecord) (start : ShellJobStart) : Option String :=
  match (startDemands checks runner start).find? fun demand ↦ demand.1 with
  | some (_, message) => some message
  | none =>
    if start.projectId.any fun project ↦ Table.has project inner.unregisteringProjects then
      some "project_unregister_in_progress"
    else none

/-- The record of a job that has just been started. -/
def startedRecord (runner : RunnerRecord) (start : ShellJobStart) (jobId : String) :
    ShellJobRecord where
  jobId := jobId
  requestId := some start.requestId
  clientId := start.clientId
  authGroup := runner.authGroup
  ownerAtAdmission := runner.owner
  runnerInstanceId := runner.runnerInstanceId
  kind := start.kind
  projectId := start.projectId
  sessionId := start.sessionId
  sshResource := start.sshResource
  cwd := start.cwd
  projectCwd := start.projectCwd
  purpose := start.purpose
  shell := start.shell
  commandPreview := start.commandPreview
  detachedIdempotencyIntent := start.detachedIntent
  lifecycle := .queued
  createdAt := start.createdAt
  structuredExecution := start.structuredMetadata
  validationSteps := start.validationSteps.map (·.name)
  validation := start.validation
  visibility := start.visibility
  observation := { handle := inner.nextHandle }

/-- The answer to a detached start whose job is still there. -/
def detachedReplay (existing : ShellJobRecord) (intent : DetachedIdempotencyIntent)
    (jobId : String) : CallResult ShellJobRecord :=
  if existing.kind != "run_detached_process" then
    .error "detached_idempotency_conflict: idempotency key resolves to a non-detached Job"
  else
    match existing.detachedIdempotencyIntent with
    | some known =>
      if known = intent then .ok existing
      else
        .error "detached_idempotency_conflict: idempotency key was already used for different detached process intent"
    | none => .error s!"detached_idempotency_recovery_required:{jobId}"

/-- Enqueues the request of a start and inserts its record. -/
def admitStart (runner : RunnerRecord) (start : ShellJobStart) (jobId : String) (now : ℤ) :
    Reply ShellJobRecord :=
  let pending : PendingShellRequest :=
    { request :=
        { requestId := start.requestId
          clientId := start.clientId
          operation := .job (.start jobId)
          cwd := start.cwd
          preview := start.commandPreview }
      waiter := false
      jobId := some jobId }
  match enqueuePendingRequest inner pending now with
  | .error message => .refuse inner message
  | .ok enqueued =>
    let record := startedRecord inner runner start jobId
    ⟨{ enqueued with
        requestToJob := enqueued.requestToJob.insert start.requestId jobId }.addJob jobId record,
      [], .ok record⟩

/-- `assert_runner_access`. -/
def runnerAccessFault (access : RunnerAccess) (runner : RunnerRecord) : Option String :=
  let named := fun (value : Option String) ↦ value.filter fun text ↦ !Text.isBlank text.toList
  let username := named access.username
  let visible :=
    access.globalVisibility ||
      (if access.group != runner.authGroup then false
      else runner.authGroup.isSome || (username.isSome && username == named runner.owner))
  if !visible then some s!"unknown shell client: {runner.clientId}"
  else if runner.authGroup.isSome || access.ownerBypass then none
  else
    match named runner.owner with
    | none => some s!"runner {runner.clientId} has no owner"
    | some owner =>
      if username = some owner then none
      else
        some (s!"runner {runner.clientId} is owned by {owner}; current api key belongs to " ++
          username.getD "anonymous")

variable (env : Environment)

/-- `start_job_with_metadata_for_access`. -/
def startJob (inner : RunnerRegistryInner) (start : ShellJobStart) (now : ℤ) :
    Reply ShellJobRecord :=
  match validateStart env.checks start, startJobId env.checks start with
  | .error message, _ | .ok _, .error message => .refuse inner message
  | .ok _, .ok jobId =>
    match inner.runners.lookup start.clientId with
    | none => .refuse inner s!"unknown shell client: {start.clientId}"
    | some runner =>
      match start.access.bind fun access ↦ runnerAccessFault access runner with
      | some message => .refuse inner message
      | none =>
        match startFault env.checks inner runner start with
        | some message => .refuse inner message
        | none =>
          match start.detachedIntent, inner.jobsById.lookup jobId with
          | some intent, some existing => ⟨inner, [], detachedReplay existing intent jobId⟩
          | _, _ => admitStart inner runner start jobId now

/-- A request that asks the runner to stop a job. -/
def stopRequest (job : ShellJobRecord) (jobId requestId : String) : PendingShellRequest where
  request := { requestId := requestId, clientId := job.clientId, operation := .job (.stop jobId) }
  waiter := false
  jobId := some jobId

/-- A job that is stopped before a runner took it. -/
def stoppedQueuedJob (now : ℤ) (job : ShellJobRecord) : ShellJobRecord :=
  let stopped := observeJobTerminal now { job with lifecycle := .stopped }
  notifyJobUpdate
    { stopped with
      endedAt := some now
      error := some "job stopped before Runner picked it up"
      commandExecutionState :=
        if job.structuredExecution.isSome then some .notStarted else job.commandExecutionState }

def forgetStartRequest (job : ShellJobRecord) (inner : RunnerRegistryInner) : RunnerRegistryInner :=
  match job.requestId with
  | none => inner
  | some requestId =>
    let removed := removePendingRequest requestId inner
    { removed with requestToJob := removed.requestToJob.erase requestId }

/-- `stop_job_for_auth`. -/
def stopJob (inner : RunnerRegistryInner) (access : Option RunnerAccess)
    (jobId stopRequestId : String) (now : ℤ) : Reply ShellJobRecord :=
  match validateId jobId "job_id" with
  | .error message => .refuse inner message
  | .ok _ =>
    let fresh := refreshJobStatus env now jobId inner
    match fresh.jobsById.lookup jobId with
    | none => .refuse fresh s!"unknown shell job: {jobId}"
    | some job =>
      if job.visibility != .isPublic || !jobVisibleToAccess access now job then
        .refuse fresh s!"unknown shell job: {jobId}"
      else if job.recoveryActive then
        .refuse fresh
          "runner_unavailable_recovering: wait for same-instance job reconciliation before retrying stop_job"
      else
        match job.lifecycle with
        | .queued =>
          let stopped := stoppedQueuedJob now job
          ⟨(forgetStartRequest job fresh).modifyJob jobId (stoppedQueuedJob now), [], .ok stopped⟩
        | .runnerQueued | .running =>
          match enqueuePendingRequest fresh (stopRequest job jobId stopRequestId) now with
          | .error message => .refuse fresh message
          | .ok enqueued =>
            let change := fun (record : ShellJobRecord) ↦ notifyJobUpdate
              { record with lifecycle := .stopRequested, error := some "stop requested" }
            ⟨enqueued.modifyJob jobId change, [], .ok (change job)⟩
        | _ => ⟨fresh, [], .ok job⟩

/-- `promote_hidden_job`. A job that has already ended stays hidden. -/
def promoteHiddenJob (inner : RunnerRegistryInner) (jobId : String) (now : ℤ) :
    Reply ShellJobRecord :=
  let fresh := refreshJobStatus env now jobId inner
  match fresh.jobsById.lookup jobId with
  | none => .refuse fresh s!"unknown shell job: {jobId}"
  | some job =>
    if job.visibility == .cleanupPending then
      .refuse fresh s!"structured job cleanup is pending: {jobId}"
    else if job.lifecycle.isTerminal then ⟨fresh, [], .ok job⟩
    else
      ⟨fresh.modifyJob jobId fun record ↦ { record with visibility := .isPublic }, [], .ok job⟩

def removeJob (jobId : String) (inner : RunnerRegistryInner) : RunnerRegistryInner :=
  { inner with jobsById := inner.jobsById.erase jobId }

/-- The part of a cancellation that asks the runner to stop a job that it owns. -/
def requestCleanupStop (marked : RunnerRegistryInner) (job : ShellJobRecord)
    (jobId stopRequestId : String) (now : ℤ) : Reply Bool :=
  if !job.recoveryActive && job.lifecycle.isRunnerActive && job.lifecycle != .stopRequested then
    match enqueuePendingRequest marked (stopRequest job jobId stopRequestId) now with
    | .error message => .refuse marked message
    | .ok enqueued =>
      ⟨enqueued.modifyJob jobId fun record ↦
          { record with
            lifecycle := .stopRequested
            error := some "internal structured execution cleanup requested" }, [], .ok false⟩
  else ⟨marked, [], .ok false⟩

/-- `cancel_hidden_job_for_auth`: a job that no runner has taken and a job that has ended are
removed at once; any other is marked for cleanup and asked to stop. -/
def cancelHiddenJob (inner : RunnerRegistryInner) (access : Option RunnerAccess)
    (jobId stopRequestId : String) (now : ℤ) : Reply Bool :=
  match validateId jobId "job_id" with
  | .error message => .refuse inner message
  | .ok _ =>
    let fresh := refreshJobStatus env now jobId inner
    match fresh.jobsById.lookup jobId with
    | none => .refuse fresh s!"unknown shell job: {jobId}"
    | some job =>
      if job.visibility == .isPublic || !jobVisibleToAccess access now job then
        .refuse fresh s!"unknown shell job: {jobId}"
      else if job.lifecycle == .queued then
        ⟨removeJob jobId (forgetStartRequest job fresh), [], .ok true⟩
      else if job.lifecycle.isTerminal then ⟨removeJob jobId fresh, [], .ok true⟩
      else
        requestCleanupStop
          (fresh.modifyJob jobId fun record ↦ { record with visibility := .cleanupPending })
          job jobId stopRequestId now

/-- `remove_projected_hidden_terminal_job_record`: the record is discarded after its result was
projected, and the runner that still holds the lease remembers it. -/
def removeProjectedHiddenTerminalJobRecord (jobId : String) (now : ℤ) :
    RunnerRegistryInner × Bool :=
  match inner.jobsById.lookup jobId with
  | none => (inner, false)
  | some job =>
    match job.requestId with
    | none => (inner, false)
    | some requestId =>
      if job.visibility != .hiddenUntilHandoff || !job.lifecycle.isTerminal then (inner, false)
      else
        let remembered :=
          { inner with
            runners := Table.modify job.clientId (fun runner ↦
                if runner.runnerInstanceId == job.runnerInstanceId then
                  runner.rememberProjectedTerminal jobId requestId now
                else runner) inner.runners }
        let removed := removeJob jobId remembered
        (removeFromQueue job.clientId requestId
          { dropPending requestId removed with
            requestToJob := removed.requestToJob.erase requestId }, true)

end WebCodex.Registry
