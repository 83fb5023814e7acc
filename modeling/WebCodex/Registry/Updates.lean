import WebCodex.Registry.Results

/-!
A runner reports the progress of a job by updates. A runner that reconciles its jobs numbers them,
and an update that is not newer than the last one is ignored, as is every update of a job that has
ended. An update that breaks the protocol of validation plans, execution states or activities fails
the job.
-/

namespace WebCodex.Registry

open Foundation.Text JobLog

def jobSnapshotStreamMaxBytes : ℕ := 64 * 1024

def validateStreamSnapshot (stream : ShellJobStreamSnapshot) (field : String) :
    Except String Unit :=
  if String.utf8Len stream.tail > jobSnapshotStreamMaxBytes then
    .error s!"job inventory {field} exceeds {jobSnapshotStreamMaxBytes} bytes"
  else if stream.firstRetainedLine == 0 ||
      stream.nextLine != stream.firstRetainedLine + retainedLineCount stream.tail then
    .error s!"job inventory {field} line range is inconsistent"
  else if decide (stream.firstRetainedLine > 1) && !stream.truncated then
    .error s!"job inventory {field} omits earlier lines without truncated=true"
  else .ok ()

/-- The states that end a plan without judging it. -/
def isCancelling : RunnerJobLifecycle → Bool
  | .stopped | .cancelled | .timeout | .timedOut | .lost => true
  | _ => false

def isWaiting : RunnerJobLifecycle → Bool
  | .queued | .runnerQueued => true
  | _ => false

section Validators

variable (checks : Checks) (job : ShellJobRecord) (update : RunnerJobUpdateRequest)
  (lifecycle : RunnerJobLifecycle)

/-- Whether the shape of a progress fits the state that the update reports. -/
def progressFits (progress : ShellJobValidationProgress) : Bool :=
  let noActiveStep := progress.currentStep.isNone && progress.failedStep.isNone
  let infrastructureFailure := lifecycle == .failed && update.finished && update.exitCode.isNone &&
    update.error.any checks.isInfrastructureFailure
  if isCancelling lifecycle then noActiveStep
  else if infrastructureFailure then
    decide (progress.completed < job.validationSteps.length) && noActiveStep
  else if !lifecycle.isTerminal then
    job.validationSteps[progress.completed]? == progress.currentStep && progress.failedStep.isNone
  else if lifecycle == .completed && update.exitCode == some 0 then
    progress.completed == job.validationSteps.length && noActiveStep
  else if lifecycle == .failed then
    job.validationSteps[progress.completed]? == progress.failedStep && progress.currentStep.isNone
  else false

def validateValidationProgress : Except String Unit :=
  if job.validationSteps.isEmpty then
    if update.validationProgress.isNone then .ok () else .error "validation_progress_unexpected"
  else if job.validationSteps.dedup.length != job.validationSteps.length then
    .error "validation_plan_invalid"
  else if update.finished && !lifecycle.isTerminal then .error "validation_progress_invalid"
  else
    match update.validationProgress with
    | none =>
      if isWaiting lifecycle || isCancelling lifecycle then .ok ()
      else .error "validation_progress_missing"
    | some progress =>
      let previous := completedSteps job.validationProgress
      if isWaiting lifecycle || decide (progress.completed > job.validationSteps.length) then
        .error "validation_progress_invalid"
      else if progress.completed < previous || progress.completed > previous + 1 then
        .error "validation_progress_invalid"
      else if progressFits checks job update lifecycle progress then .ok ()
      else if lifecycle == .completed && update.exitCode == some 0 then
        .error "validation_progress_incomplete"
      else .error "validation_progress_invalid"

/-- Whether an execution state fits the state that the update reports. -/
def executionStateFits : ShellCommandExecutionState → Bool
  | .notStarted =>
    (lifecycle == .failed || lifecycle == .stopped || lifecycle == .cancelled ||
      lifecycle == .lost) && job.startedAt.isNone
  | .outcomeUnknown => lifecycle == .failed || lifecycle == .lost
  | .timedOut => lifecycle.isTimedOut
  | .completed =>
    lifecycle == .completed || lifecycle == .failed || lifecycle == .stopped ||
      lifecycle == .cancelled

def validateCommandExecutionState : Except String Unit :=
  if !lifecycle.isTerminal && update.commandExecutionState.isSome then
    .error "command_execution_state_on_active_job"
  else if job.structuredExecution.isSome && lifecycle.isTerminal &&
      update.commandExecutionState.isNone then
    .error "structured_job_lifecycle_missing"
  else if update.commandExecutionState.all (executionStateFits job lifecycle) then .ok ()
  else .error "structured_job_lifecycle_invalid"

def validationActivityPhase : String → Option ShellJobActivityPhase
  | "format" => some .validationFormat
  | "check" => some .validationCheck
  | "test" => some .validationTest
  | _ => none

/-- Whether the source of an activity is one that the job can have. -/
def activityFits (activity : ShellJobActivity) : Bool :=
  match activity.source with
  | .runnerExecution => job.validationSteps.isEmpty && activity.phase == .processRunning
  | .validationPlan =>
    (update.validationProgress.bind (·.currentStep)).any fun step ↦
      validationActivityPhase step == some activity.phase
  | .cargoOutput =>
    update.validationProgress.any fun progress ↦
      progress.currentStep.isSome && !job.validationSteps.isEmpty &&
          job.validation.all fun validation ↦
          validation.steps[progress.completed]?.any fun step ↦
            step.program == "cargo" && checks.stepIsCanonical step

def validateJobActivity : Except String Unit :=
  match update.activity with
  | none => .ok ()
  | some activity =>
    if activity.isCanonical && (lifecycle == .running || lifecycle == .stopRequested) &&
        activityFits checks job update activity then
      .ok ()
    else .error "job_activity_invalid"

/-- The three protocol checks in their order. -/
def protocolFault : Option String :=
  match (do
    validateValidationProgress checks job update lifecycle
    validateCommandExecutionState job update lifecycle
    validateJobActivity checks job update lifecycle : Except String Unit) with
  | .error code => some code
  | .ok _ => none

end Validators

/-- The checks on an update before the lock is taken. -/
def validateUpdate (update : RunnerJobUpdateRequest) : Except String Unit := do
  validateId update.clientId "client_id"
  validateId update.jobId "job_id"
  ProjectInventory.validateRunnerInstanceId update.runnerInstanceId
  match update.logSnapshot with
  | none => .ok ()
  | some snapshot =>
    validateStreamSnapshot snapshot.stdout "job update stdout snapshot"
    validateStreamSnapshot snapshot.stderr "job update stderr snapshot"
    if update.stdoutChunk.isSome || update.stderrChunk.isSome || update.stdoutTail.isSome ||
        update.stderrTail.isSome then
      .error "job update log_snapshot cannot be combined with chunk or legacy tail fields"
    else .ok ()

/-- Whether the updates of a runner are numbered. -/
def isSequenced (inner : RunnerRegistryInner) (clientId : String) : Bool :=
  (inner.runners.lookup clientId).any fun runner ↦ runner.supports .jobStateReconciliation

/-- The state that an update reports, when its envelope is well formed. -/
def incomingLifecycle (sequenced : Bool) (update : RunnerJobUpdateRequest) :
    Except String RunnerJobLifecycle :=
  let status := String.ofList (trim update.status.toList)
  if sequenced && update.updateSeq.all fun sequence ↦ sequence == 0 then
    .error "job_state_reconciliation update requires update_seq"
  else if sequenced && update.status != status then
    .error "job_state_reconciliation update status must be canonical without surrounding whitespace"
  else
    match RunnerJobLifecycle.fromWire status with
    | none =>
      .error (if sequenced then s!"job_state_reconciliation update status '{status}' is invalid"
        else s!"job update status '{status}' is invalid")
    | some lifecycle =>
      if sequenced && !(lifecycle.isRunnerActive || lifecycle.isTerminal) then
        .error s!"job_state_reconciliation update status '{status}' is invalid"
      else if sequenced && update.finished != lifecycle.isTerminal then
        .error "job_state_reconciliation update has inconsistent finished/status"
      else if sequenced && !lifecycle.isTerminal &&
          (update.exitCode.isSome || update.durationMs.isSome) then
        .error "active job_state_reconciliation update contains terminal result fields"
      else if sequenced && lifecycle == .completed && update.exitCode != some 0 then
        .error "completed job_state_reconciliation update requires exit_code=0"
      else .ok lifecycle

variable (job : ShellJobRecord)

/-- Why an update does not belong to the job it names. -/
def jobUpdateFault (sequenced : Bool) (update : RunnerJobUpdateRequest) :
    Option String :=
  if job.clientId != update.clientId then some "job_id does not belong to client_id"
  else if job.runnerInstanceId != update.runnerInstanceId then
    some "job_id belongs to a replaced runner instance"
  else if update.requestId.any fun requestId ↦ job.requestId != some requestId then
    some "job update request_id does not match job_id"
  else if update.logSnapshot.isSome && !sequenced then
    some "job update log_snapshot requires job_state_reconciliation capability"
  else if job.recoveryActive && sequenced && update.logSnapshot.isNone then
    some "recovering job update requires an authoritative log_snapshot or register inventory"
  else none

/-- An update that says nothing new: it is not newer than the last one, or the job has ended. -/
def isIgnored (sequenced : Bool) (update : RunnerJobUpdateRequest) : Bool :=
  (sequenced && update.updateSeq.any fun sequence ↦ decide (sequence ≤ job.lastUpdateSeq)) ||
    job.lifecycle.isTerminal

/-- An authoritative log that would move a cursor backwards. -/
def regressesCursor (update : RunnerJobUpdateRequest) : Bool :=
    update.logSnapshot.any fun snapshot ↦
    decide (snapshot.stdout.nextLine < job.stdout.nextLine) ||
      decide (snapshot.stderr.nextLine < job.stderr.nextLine)

/-- The job after an update that breaks the protocol. -/
def violatedJob (update : RunnerJobUpdateRequest) (code : String) (now : ℤ) (job : ShellJobRecord) :
    ShellJobRecord :=
  let failed := observeJobTerminal now { job with lifecycle := .failed }
  { failed with
    endedAt := some now
    exitCode := update.exitCode
    durationMs := update.durationMs
    error := some s!"executor protocol violation: {code}"
    activity := none
    commandExecutionState := abandonedExecutionState job }

/-- The streams of a job after an update. An append can panic, and leaves the streams as they stood
at that point. -/
inductive StreamsOutcome
  | returned (stdout stderr : ShellJobLogState)
  | panicked (stdout stderr : ShellJobLogState)

def updatedStreams (update : RunnerJobUpdateRequest) : StreamsOutcome :=
  match update.logSnapshot with
  | some snapshot =>
    .returned (replaceLogFromSnapshot snapshot.stdout) (replaceLogFromSnapshot snapshot.stderr)
  | none =>
    let stdout := replaceLogLimited job.stdout update.stdoutTail
    let stderr := replaceLogLimited job.stderr update.stderrTail
    match appendLogLimited stdout update.stdoutChunk with
    | .panicked stdout => .panicked stdout stderr
    | .returned stdout =>
      match appendLogLimited stderr update.stderrChunk with
      | .panicked stderr => .panicked stdout stderr
      | .returned stderr => .returned stdout stderr

/-- The states that show that the command was started. -/
def provesStart : RunnerJobLifecycle → Bool
  | .running | .completed | .failed | .stopped | .timeout => true
  | _ => false

/-- Progress, activity and start of a job after an update. -/
def progressedJob (update : RunnerJobUpdateRequest) (lifecycle : RunnerJobLifecycle) (now : ℤ)
    (job : ShellJobRecord) : ShellJobRecord :=
  let startedAt :=
    if job.startedAt.isNone && update.commandExecutionState != some .notStarted &&
        provesStart lifecycle then
      some now
    else job.startedAt
  { job with
    validationProgress := update.validationProgress.or job.validationProgress
    activity := update.activity.or job.activity
    startedAt := startedAt
    lifecycle :=
      if lifecycle == .queued && startedAt.isSome then .runnerQueued else lifecycle }

/-- The result fields of a job after an update that reports an end, or the error of one that does
not. -/
def reportedJob (update : RunnerJobUpdateRequest) (lifecycle : RunnerJobLifecycle)
    (wasRecovering : Bool) (now : ℤ) (job : ShellJobRecord) : ShellJobRecord :=
  if lifecycle.isTerminal then
    let ended := observeJobTerminal now { job with lifecycle := lifecycle }
    { ended with
      endedAt := some now
      exitCode := update.exitCode
      durationMs := update.durationMs
      error := update.error
      commandExecutionState := update.commandExecutionState
      activity := none
      recovery :=
        { job.recovery with
          phase :=
            if wasRecovering then job.recovery.phase
            else job.recovery.reconciledAt.map fun _ ↦ .reconciled
          recoveringSince := none } }
  else { job with error := update.error.or job.error }

/-- The job after an update that says it is finished without an end state. -/
def finishedJob (update : RunnerJobUpdateRequest) (now : ℤ) (job : ShellJobRecord) :
    ShellJobRecord :=
  if update.finished && !job.lifecycle.isTerminal then
    let ended := observeJobTerminal now
      { job with
        lifecycle := if job.error.isNone && job.exitCode == some 0 then .completed else .failed }
    { ended with endedAt := some now, activity := none }
  else job

def recoveredJob (wasRecovering : Bool) (now : ℤ) (job : ShellJobRecord) : ShellJobRecord :=
  if wasRecovering then
    { job with
      recovery :=
        { job.recovery with
          phase := some .reconciled
          reconciledAt := some now
          reason := some .sameInstanceUpdateReconciliation
          recoveringSince := none } }
  else job

/-- The job after an update that keeps the protocol, with its streams. -/
def appliedJob (update : RunnerJobUpdateRequest) (lifecycle : RunnerJobLifecycle)
    (stdout stderr : ShellJobLogState) (now : ℤ) (job : ShellJobRecord) : ShellJobRecord :=
  let wasRecovering := job.recoveryActive
  recoveredJob wasRecovering now
        (finishedJob update now (reportedJob update lifecycle wasRecovering now
          (progressedJob update lifecycle now { job with stdout := stdout, stderr := stderr })))

/-- The parts of a record whose change is announced. -/
structure JobPublicMutationSignature where
  lifecycle : RunnerJobLifecycle
  recovery : JobRecoveryState
  lastUpdateSeq : ℕ
  (stdout stderr : ShellJobLogState)
  error : Option String
  (startedAt endedAt exitCode : Option ℤ)
  durationMs : Option ℕ
  commandExecutionState : Option ShellCommandExecutionState
  validationProgress : Option ShellJobValidationProgress
  activity : Option ShellJobActivity
  deriving DecidableEq

def publicMutationSignature : JobPublicMutationSignature :=
  ⟨job.lifecycle, job.recovery, job.lastUpdateSeq, job.stdout, job.stderr, job.error, job.startedAt,
    job.endedAt, job.exitCode, job.durationMs, job.commandExecutionState, job.validationProgress,
    job.activity⟩

/-- The sequence of an update is recorded and a change is announced. -/
def acceptedJob (update : RunnerJobUpdateRequest) (before changed : ShellJobRecord) :
    ShellJobRecord :=
  let numbered := { changed with lastUpdateSeq := update.updateSeq.getD changed.lastUpdateSeq }
  if publicMutationSignature numbered != publicMutationSignature before then
    notifyJobUpdate numbered
  else numbered

/-- Removes what an update that ended a job leaves behind: its request, and the record itself when
it only waited for cleanup. -/
def settleUpdatedJob (before after : ShellJobRecord) (jobId : String)
    (inner : RunnerRegistryInner) : RunnerRegistryInner :=
  if after.lifecycle.isTerminal then
    let unrequested :=
      match before.requestId with
      | none => inner
      | some requestId =>
        { dropPending requestId inner with
          requestToJob := inner.requestToJob.erase requestId }
    if after.visibility == .cleanupPending then
      { unrequested with jobsById := unrequested.jobsById.erase jobId }
    else unrequested
  else inner

/-- The effect of an update that was neither refused nor ignored. -/
def applyUpdate (checks : Checks) (inner : RunnerRegistryInner) (job : ShellJobRecord)
    (update : RunnerJobUpdateRequest) (lifecycle : RunnerJobLifecycle) (now : ℤ) :
    Reply ShellJobRecord :=
  let jobId := update.jobId
  match protocolFault checks job update lifecycle with
  | some code =>
    let after := acceptedJob update job (violatedJob update code now job)
    ⟨settleUpdatedJob job after jobId (inner.setJob jobId after), [], .ok after⟩
  | none =>
    match updatedStreams job update with
    | .panicked stdout stderr =>
      ⟨inner.setJob jobId { job with stdout := stdout, stderr := stderr }, [], .panicked⟩
    | .returned stdout stderr =>
      let after := acceptedJob update job (appliedJob update lifecycle stdout stderr now job)
      ⟨settleUpdatedJob job after jobId (inner.setJob jobId after), [], .ok after⟩

def updateJobChecked (env : Environment) (inner : RunnerRegistryInner)
    (update : RunnerJobUpdateRequest) (expectedConnectionId : Option String) (now : ℤ) :
    Reply ShellJobRecord :=
  match validateUpdate update with
  | .error message => .refuse inner message
  | .ok _ =>
    match instanceFault inner update.clientId update.runnerInstanceId with
    | some message => .refuse inner message
    | none =>
      let sequenced := isSequenced inner update.clientId
      match incomingLifecycle sequenced update with
      | .error message => .refuse inner message
      | .ok lifecycle =>
        let touched := touchIfCurrent update.clientId expectedConnectionId now inner
        match touched.jobsById.lookup update.jobId with
        | none => .refuse touched s!"unknown shell job: {update.jobId}"
        | some job =>
          match jobUpdateFault job sequenced update with
          | some message => .refuse touched message
          | none =>
            if isIgnored job sequenced update then ⟨touched, [], .ok job⟩
            else if regressesCursor job update then
              .refuse touched "job update authoritative log snapshot regresses an absolute cursor"
            else applyUpdate env.checks touched job update lifecycle now

end WebCodex.Registry
