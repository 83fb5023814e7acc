import WebCodex.Registry.JobControl

/-!
A runner that reconciles its jobs sends all of them when it registers. The inventory is checked
twice before anything changes: on its own (`validateJobInventory`), and against the jobs that the
registry knows (`preflightInventory`).
-/

namespace WebCodex.Registry

def maxContextFieldChars : ℕ := 1024
def maxSnapshotErrorChars : ℕ := 4096
def commandPreviewMaxChars : ℕ := 120
def jobInventoryMaxSerializedBytes : ℕ := 1024 * 1024

def validBoundedText (value : String) (maxChars : ℕ) : Bool :=
  !value.toList.contains (Char.ofNat 0) && decide (value.length ≤ maxChars)

def knownPurposes : List String :=
  ["validation", "test", "build", "format", "release", "diagnostic", "operation", "other"]

def knownShells : List String :=
  ["sh", "bash", "powershell", "javascript", "typescript", "direct_argv", "configured", "custom",
    "remote"]

/-- The check of the project namespace of a context. -/
def validateRuntimeProject (clientId runtimeProjectId : String) : Except String Unit :=
  match s!"agent:{clientId}:".toList.isPrefixOf? runtimeProjectId.toList with
  | none | some [] => .error "job inventory runtime_project_id does not belong to client_id"
  | some projectId => validateId (String.ofList projectId) "project_id"

/-- A plan that is too long, repeats a step or names an unknown one. -/
def badValidationSteps (steps : List String) : Bool :=
  decide (steps.length > 3) || steps.dedup.length != steps.length ||
    steps.any fun step ↦ !(["format", "check", "test"].contains step)

variable (checks : Checks) (clientId : String)

/-- `validate_context`, without project membership. -/
def validateContext (context : ShellJobContext) :
    Except String Unit := do
  if checks.commandPreview context.commandPreview != context.commandPreview ||
      decide (context.commandPreview.length > commandPreviewMaxChars + 1) then
    .error "job inventory command_preview is not canonical and bounded"
  [("project_cwd", context.projectCwd), ("cwd", context.cwd), ("purpose", context.purpose),
      ("shell", context.shell)].forM fun field ↦
    if field.2.any fun value ↦ !validBoundedText value maxContextFieldChars then
      .error s!"job inventory {field.1} is invalid or oversized"
    else .ok ()
  if context.purpose.any fun purpose ↦ !knownPurposes.contains purpose then
    .error "job inventory purpose is invalid"
  if context.shell.any fun shell ↦ !knownShells.contains shell then
    .error "job inventory shell is invalid"
  if badValidationSteps context.validationSteps then
    .error "job inventory validation_steps are invalid"
  if context.validation.any fun validation ↦
      !checks.validationIsValid validation ||
        validation.steps.map (·.name) != context.validationSteps then
    .error "job inventory validation metadata is invalid"
  if context.structuredExecution.any (fun metadata ↦ !checks.structuredIsValid metadata) ||
      (context.structuredExecution.isSome &&
        (!context.validationSteps.isEmpty || context.validation.isSome)) then
    .error "job inventory structured execution metadata is invalid"
  if context.workflowSessionId.any fun sessionId ↦
      !checks.sessionIdIsValid sessionId || decide (sessionId.length > 128) then
    .error "job inventory workflow_session_id is invalid"
  if context.workflowSessionId.isSome && context.runtimeProjectId.isNone then
    .error "job inventory workflow_session_id requires runtime_project_id"
  match context.runtimeProjectId with
  | none => .ok ()
  | some runtimeProjectId => validateRuntimeProject clientId runtimeProjectId

/-- Whether the execution state of a snapshot fits its status. -/
def snapshotStateFits (snapshot : ShellJobSnapshot) : ShellCommandExecutionState → Bool
  | .notStarted =>
    snapshot.startedAt.isNone && (snapshot.status == .failed || snapshot.status == .stopped ||
      snapshot.status == .cancelled || snapshot.status == .lost)
  | .outcomeUnknown => snapshot.status == .failed || snapshot.status == .lost
  | .timedOut => snapshot.status == .timeout || snapshot.status == .timedOut
  | .completed =>
    snapshot.status == .completed || snapshot.status == .failed || snapshot.status == .stopped ||
      snapshot.status == .cancelled

/-- The checks of a snapshot on its times and its result. -/
def validateOutcome (snapshot : ShellJobSnapshot) : Except String Unit := do
  let active := snapshot.status.isRunnerActive
  let terminal := snapshot.status.isTerminal
  if snapshot.createdAt ≤ 0 ||
      snapshot.startedAt.any (fun started ↦ decide (started < snapshot.createdAt)) ||
      snapshot.endedAt.any (fun ended ↦
        decide (ended < snapshot.startedAt.getD snapshot.createdAt)) then
    .error "job inventory timestamps are inconsistent"
  if active && snapshot.endedAt.isSome then
    .error "active job inventory snapshot must not have ended_at"
  if active && (snapshot.exitCode.isSome || snapshot.durationMs.isSome) then
    .error "active job inventory snapshot must not contain terminal result fields"
  if terminal && snapshot.endedAt.isNone then
    .error "terminal job inventory snapshot requires ended_at"
  if snapshot.status == .completed && snapshot.exitCode != some 0 then
    .error "completed job inventory snapshot requires exit_code=0"
  if (snapshot.status == .running || snapshot.status == .stopRequested) &&
      snapshot.startedAt.isNone then
    .error "running job inventory snapshot requires started_at"
  if snapshot.error.any fun error ↦ !validBoundedText error maxSnapshotErrorChars then
    .error "job inventory error is invalid or oversized"
  if active && snapshot.commandExecutionState.isSome then
    .error "active job inventory snapshot must not contain terminal lifecycle"
  if snapshot.context.structuredExecution.isSome && terminal &&
      snapshot.commandExecutionState.isNone then
    .error "terminal structured job inventory snapshot requires command_execution_state"
  if !snapshot.commandExecutionState.all (snapshotStateFits snapshot) then
    .error "job inventory command_execution_state is inconsistent"

/-- Whether the progress of a snapshot with a plan has the shape that its status asks for. -/
def snapshotProgressFits (snapshot : ShellJobSnapshot) : Bool :=
  let steps := snapshot.context.validationSteps
  let progress := snapshot.validationProgress
  match snapshot.status with
  | .runnerQueued => progress.isNone
  | .running | .stopRequested =>
    progress.any fun progress ↦
      decide (progress.completed < steps.length) &&
        progress.currentStep == steps[progress.completed]? && progress.failedStep.isNone
  | .completed =>
    progress.any fun progress ↦
      progress.completed == steps.length && progress.currentStep.isNone &&
        progress.failedStep.isNone
  | .failed =>
    progress.all fun progress ↦
      progress.currentStep.isNone && progress.failedStep.all fun failed ↦
          decide (progress.completed < steps.length) && steps[progress.completed]? == some failed
  | .stopped | .timeout | .timedOut | .cancelled | .lost =>
    progress.all fun progress ↦ progress.currentStep.isNone && progress.failedStep.isNone
  | _ => false

/-- The checks of a snapshot on its progress. -/
def validateProgress (snapshot : ShellJobSnapshot) : Except String Unit := do
  let steps := snapshot.context.validationSteps
  if steps.isEmpty && snapshot.validationProgress.isSome then
    .error "job inventory validation_progress is unexpected"
  if snapshot.validationProgress.any fun progress ↦
      decide (progress.completed > steps.length) ||
        progress.currentStep.any (fun step ↦ !steps.contains step) ||
        progress.failedStep.any (fun step ↦ !steps.contains step) ||
        (progress.currentStep.isSome && progress.failedStep.isSome) then
    .error "job inventory validation_progress is inconsistent"
  if !steps.isEmpty && !snapshotProgressFits snapshot then
    .error "job inventory validation_progress does not match status"

/-- The check of a snapshot on the source of its activity. -/
def validateActivitySource (snapshot : ShellJobSnapshot) (activity : ShellJobActivity) :
    Except String Unit :=
  match activity.source with
  | .runnerExecution =>
    if !snapshot.context.validationSteps.isEmpty || activity.phase != .processRunning then
      .error "job inventory activity is inconsistent with execution kind"
    else .ok ()
  | .validationPlan =>
    if (snapshot.validationProgress.bind (·.currentStep)).bind validationActivityPhase !=
        some activity.phase then
      .error "job inventory activity is inconsistent with validation progress"
    else .ok ()
  | .cargoOutput =>
    match snapshot.validationProgress with
    | none => .error "job inventory Cargo activity requires validation progress"
    | some progress =>
      if progress.currentStep.isNone || snapshot.context.validationSteps.isEmpty then
        .error "job inventory Cargo activity requires an active validation step"
      else if snapshot.context.validation.any fun validation ↦
          validation.steps[progress.completed]?.all fun step ↦
            step.program != "cargo" || !checks.stepIsCanonical step then
        .error "job inventory Cargo activity is inconsistent with validation metadata"
      else .ok ()

/-- The checks of a snapshot on its activity. -/
def validateActivity (snapshot : ShellJobSnapshot) : Except String Unit :=
  match snapshot.activity with
  | none => .ok ()
  | some activity =>
    if !activity.isCanonical ||
        !(snapshot.status == .running || snapshot.status == .stopRequested) then
      .error "job inventory activity is invalid for status"
    else validateActivitySource checks snapshot activity

/-- `validate_snapshot`: whether the job is active. -/
def validateSnapshot (snapshot : ShellJobSnapshot) :
    Except String Bool := do
  validateId snapshot.jobId "job_id"
  validateId snapshot.requestId "request_id"
  if snapshot.updateSeq == 0 then
    .error "job inventory update_seq must be greater than zero"
  if !snapshot.status.isRunnerActive && !snapshot.status.isTerminal then
    .error s!"job inventory status '{snapshot.status.asWire}' is invalid"
  validateOutcome snapshot
  validateContext checks clientId snapshot.context
  validateStreamSnapshot snapshot.stdout "stdout"
  validateStreamSnapshot snapshot.stderr "stderr"
  validateProgress snapshot
  validateActivity checks snapshot
  .ok snapshot.status.isRunnerActive

/-- The loop over the snapshots of an inventory, with the ids and the states seen before. -/
def validateSnapshots (checks : Checks) (clientId : String) (ids requestIds : List String)
    (sawTerminal : Bool) : List ShellJobSnapshot → Except String Unit
  | [] => .ok ()
  | snapshot :: rest => do
    if ids.contains snapshot.jobId then
      .error s!"job inventory contains duplicate job_id {snapshot.jobId}"
    if requestIds.contains snapshot.requestId then
      .error s!"job inventory contains duplicate request_id {snapshot.requestId}"
    let active ← validateSnapshot checks clientId snapshot
    if active && sawTerminal then
      .error "job inventory must order all active jobs before terminal history"
    validateSnapshots checks clientId (snapshot.jobId :: ids) (snapshot.requestId :: requestIds)
      (sawTerminal || !active) rest

/-- `validate_job_inventory_without_project_membership`. -/
def validateJobInventory (inventory : ShellJobInventory) :
    Except String Unit := do
  if !inventory.activeComplete then
    .error "job_state_reconciliation requires active_complete job inventory"
  if inventory.jobs.length > jobInventoryMaxJobs then
    .error s!"job inventory exceeds {jobInventoryMaxJobs} records"
  if checks.inventoryBytes inventory > jobInventoryMaxSerializedBytes then
    .error s!"job inventory exceeds {jobInventoryMaxSerializedBytes} serialized bytes"
  validateSnapshots checks clientId [] [] false inventory.jobs
  if (inventory.jobs.countP fun snapshot ↦ snapshot.status.isRunnerActive) >
      jobInventoryMaxActiveJobs then
    .error s!"job inventory exceeds {jobInventoryMaxActiveJobs} active records"
  if (inventory.jobs.countP fun snapshot ↦ !snapshot.status.isRunnerActive) >
      jobInventoryMaxTerminalJobs then
    .error s!"job inventory exceeds {jobInventoryMaxTerminalJobs} terminal records"

def sameContext (job : ShellJobRecord) (snapshot : ShellJobSnapshot) : Bool :=
  let context := snapshot.context
  job.requestId == some snapshot.requestId && job.projectId == context.runtimeProjectId &&
    job.sessionId == context.workflowSessionId && job.sshResource == context.sshResource &&
    job.cwd == context.cwd && job.projectCwd == context.projectCwd &&
    job.purpose == context.purpose && job.shell == context.shell &&
    job.commandPreview == context.commandPreview &&
    job.validationSteps == context.validationSteps && job.validation == context.validation &&
    job.structuredExecution == context.structuredExecution

def detachedInstanceTransferAllowed (job : ShellJobRecord) (snapshot : ShellJobSnapshot) : Bool :=
  job.kind == "run_detached_process" && (job.structuredExecution.any fun metadata ↦
      metadata.executionSource == "run_detached_process") &&
    (snapshot.context.structuredExecution.any fun metadata ↦
      metadata.executionSource == "run_detached_process") &&
    sameContext job snapshot

/-- A detached job that another instance of its runner takes over. -/
def isDetachedTransfer (instanceId : String) (job : ShellJobRecord)
    (snapshot : ShellJobSnapshot) : Bool :=
  job.runnerInstanceId != instanceId && detachedInstanceTransferAllowed job snapshot

/-- The prediction of the preflight that a snapshot will be applied. -/
def wouldApply (job : ShellJobRecord) (snapshot : ShellJobSnapshot) : Bool :=
  decide (snapshot.updateSeq > job.lastUpdateSeq) ||
    (snapshot.updateSeq == job.lastUpdateSeq && job.recoveryActive)

/-- Why a snapshot cannot be applied to the job that the registry knows under its id. -/
def knownJobFault (instanceId : String) (existing : ShellJobRecord) (snapshot : ShellJobSnapshot) :
    Option String :=
  let jobId := snapshot.jobId
  if existing.clientId != clientId then
    some s!"job inventory job_id {jobId} belongs to a different runner"
  else if existing.lifecycle.isTerminal && existing.observation.receiptExpiresAt.isSome then none
  else
    let transfer := isDetachedTransfer instanceId existing snapshot
    if existing.runnerInstanceId != instanceId && !transfer then
      some s!"job inventory job_id {jobId} belongs to a replaced runner instance"
    else if !sameContext existing snapshot then
      some s!"job inventory job_id {jobId} has inconsistent ownership context"
    else if transfer && !existing.lifecycle.isTerminal &&
        decide (snapshot.updateSeq < existing.lastUpdateSeq) then
      some s!"job inventory job_id {jobId} regresses update sequence across detached runner replacement"
    else if !existing.lifecycle.isTerminal && wouldApply existing snapshot then
      if completedSteps snapshot.validationProgress < completedSteps
          existing.validationProgress then
        some s!"job inventory job_id {jobId} regresses validation progress"
      else if snapshot.stdout.nextLine < existing.stdout.nextLine ||
          snapshot.stderr.nextLine < existing.stderr.nextLine then
        some s!"job inventory job_id {jobId} regresses an absolute log cursor"
      else none
    else none

def snapshotFault (inner : RunnerRegistryInner) (clientId instanceId : String)
    (snapshot : ShellJobSnapshot) : Option String :=
  if (inner.requestToJob.lookup snapshot.requestId).any fun jobId ↦ jobId != snapshot.jobId then
    some s!"job inventory request_id {snapshot.requestId} belongs to a different job"
  else
    match inner.jobsById.lookup snapshot.jobId with
    | none => none
    | some existing => knownJobFault clientId instanceId existing snapshot

/-- `preflight_inventory_locked`: the first fault of an inventory. -/
def preflightInventory (inner : RunnerRegistryInner) (clientId instanceId : String)
    (inventory : ShellJobInventory) : Except String Unit :=
  match inventory.jobs.findSome? (snapshotFault inner clientId instanceId) with
  | some message => .error message
  | none => .ok ()

end WebCodex.Registry
