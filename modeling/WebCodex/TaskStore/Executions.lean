import WebCodex.Foundation.Fallible
import WebCodex.TaskStore.Rows

/-!
An execution is reserved, handed to an executor and observed until it ends. The store records what
the executor reports; the process itself belongs to the job manager. Each operation is a transaction
on the rows of one task: it returns the rows that it commits together with its answer, and changes
nothing when it fails.
-/

namespace WebCodex.TaskStore

open Foundation
open Registry (RunnerJobLifecycle)

def maxAssertionEvidenceBytes : ℕ := 16 * 1024

def maxMcpTaskOutputTailBytes : ℕ := 4 * 1024 * 1024

/-! ### Reports of an executor -/

/-- `ConnectorExecutionFailure`. The evidence of a workspace failure is its JSON text. -/
inductive ConnectorExecutionFailure
  | submission (code : String)
  | unknown (code : String)
  | workspace (code evidence : String)

/-- `ConnectorExecutionObservation`. Evidence and output tail are JSON texts. -/
structure ConnectorExecutionObservation where
  executorStatus : String
  stdoutCursor : ℕ := 1
  stderrCursor : ℕ := 1
  exitCode : Option ℤ := none
  startedAt : Option ℤ := none
  finishedAt : Option ℤ := none
  checkCompleted : Option ℕ := none
  failedCheck : Option String := none
  assertionEvidence : Option String := none
  validatedWorkspaceSha256 : Option String := none
  executorFailureCode : Option String := none
  mcpTaskOutputTail : Option String := none
  now : ℤ

/-- `StateOutcome`: a state with the source, the code and the reason that go with it. -/
structure StateOutcome where
  state : ConnectorExecutionState
  source : Option String := none
  code : Option String := none
  reason : Option String := none

variable (execution : ConnectorExecution)

def activeState (state : ConnectorExecutionState) : StateOutcome :=
  { state := if execution.state == .cancelRequested then .cancelRequested else state }

/-- `failed`. -/
def failedOutcome (source code reason : String) : StateOutcome :=
  ⟨.failed, some source, some code, some reason⟩

/-- `unknown`. -/
def unknownOutcome (code : String) : StateOutcome :=
  ⟨.unknown, some "executor", some code, some "executor_terminal_unknown"⟩

def completedOutcome (observation : ConnectorExecutionObservation) : StateOutcome :=
  if execution.kind == .check then
    if observation.exitCode == some 0 &&
        observation.checkCompleted == some execution.checkPlan.length &&
        observation.failedCheck.isNone then
      { state := .succeeded, reason := some "exit_zero" }
    else
      failedOutcome "executor"
          (if observation.checkCompleted.isNone then "validation_progress_missing"
            else "validation_progress_incomplete")
        "executor_protocol_violation"
  else if observation.exitCode == some 0 then
    { state := .succeeded, reason := some "exit_zero" }
  else if observation.exitCode.isNone then unknownOutcome "executor_exit_code_missing"
  else failedOutcome "command" "nonzero_exit" "nonzero_exit"

/-- The end of a job that was stopped. A stop that nobody asked for is not an end. -/
def stoppedOutcome : StateOutcome :=
  if execution.state == .cancelRequested && execution.failureCode == some "queue_deadline" then
    failedOutcome "queue" "queue_deadline" "queue_timeout"
  else if execution.state == .cancelRequested then
    { state := .cancelled, reason := some "user_cancelled" }
  else activeState execution .running

def failureOutcome (observation : ConnectorExecutionObservation) : StateOutcome :=
  if execution.kind == .check then
    if observation.failedCheck.isSome &&
        observation.checkCompleted.any fun completed ↦ completed < execution.checkPlan.length then
      failedOutcome "check" "assertion_failed" "nonzero_exit"
    else
      failedOutcome "executor"
          (if observation.checkCompleted.isNone then "validation_progress_missing"
            else "validation_progress_invalid")
        "executor_protocol_violation"
  else failedOutcome "command" "nonzero_exit" "nonzero_exit"

def observedState (observation : ConnectorExecutionObservation) :
    StateOutcome :=
  match observation.executorFailureCode with
  | some code => failedOutcome "executor" code "executor_protocol_violation"
  | none =>
    if observation.executorStatus == "recovering" then
      activeState execution (if execution.state == .queued then .queued else .running)
    else
      match RunnerJobLifecycle.fromWire observation.executorStatus with
      | none => activeState execution .running
      | some .queued | some .runnerQueued => activeState execution .queued
      | some .running | some .startedLegacy | some .stopRequested => activeState execution .running
      | some .completed => completedOutcome execution observation
      | some .stopped | some .cancelled => stoppedOutcome execution
      | some .timeout | some .timedOut => failedOutcome "executor" "command_timeout" "timeout"
      | some .lost => unknownOutcome "executor_lost"
      | some .failed => failureOutcome execution observation

/-- The checks that an observation has to pass, given the outcome that was read from it. -/
def checkObservation (observation : ConnectorExecutionObservation) (outcome : StateOutcome) :
    Fallible Unit := do
  ensure (observation.checkCompleted.all fun completed ↦ completed ≤ execution.checkPlan.length)
    (.invalidState "validation progress exceeds its durable check plan")
  ensure (observation.checkCompleted.all fun completed ↦ execution.checkCompleted ≤ completed)
    (.invalidState "validation progress cannot move backwards")
  ensure (!(execution.kind == .command && (observation.checkCompleted.isSome ||
      observation.failedCheck.isSome || observation.validatedWorkspaceSha256.isSome)))
    (.invalidState "ordinary execution cannot record validation progress")
  ensure (observation.failedCheck.all fun failed ↦
      execution.checkPlan[observation.checkCompleted.getD execution.checkCompleted]? == some failed)
    (.invalidState "failed check does not match durable validation progress")
  ensure (observation.mcpTaskOutputTail.all fun tail ↦
      tail.utf8ByteSize ≤ maxMcpTaskOutputTailBytes)
    (.invalidState "MCP task output tail exceeds its durable size limit")
  ensure (observation.assertionEvidence.all fun evidence ↦
      evidence.utf8ByteSize ≤ maxAssertionEvidenceBytes)
    (.invalidState "assertion evidence exceeds its durable size limit")
  ensure (!(observation.assertionEvidence.isSome && (observation.failedCheck.isNone ||
      outcome.state != .failed || outcome.source != some "check")))
    (.invalidState "assertion evidence requires trusted failed-check progress")
  ensure (!(outcome.state == .succeeded && execution.kind == .check &&
      (observation.checkCompleted != some execution.checkPlan.length ||
        observation.failedCheck.isSome || observation.validatedWorkspaceSha256.isNone ||
        execution.checkWorkspaceSha256 != observation.validatedWorkspaceSha256)))
    (.invalidState "successful check requires complete progress and matching workspace provenance")
  ensure (!(observation.validatedWorkspaceSha256.isSome &&
      !(outcome.state == .succeeded && execution.kind == .check)))
    (.invalidState "validated workspace provenance requires a successful check")

/-- The end of an execution in the MCP task that was made of it. -/
def ConnectorExecution.finalizeMcpTask (now : ℤ) (execution : ConnectorExecution) :
    ConnectorExecution :=
  { execution with
    mcpTaskResultFinalizedAt :=
      if execution.mcpTaskMaterializedAt.isSome then
        execution.mcpTaskResultFinalizedAt.or (some now)
      else execution.mcpTaskResultFinalizedAt }

/-- The row after an observation was recorded. -/
def ConnectorExecution.recordObservation (observation : ConnectorExecutionObservation)
    (outcome : StateOutcome) (execution : ConnectorExecution) : ConnectorExecution :=
  let stdoutCursor := max execution.stdoutCursor observation.stdoutCursor
  let stderrCursor := max execution.stderrCursor observation.stderrCursor
  let failedAsCheck :=
    outcome.state == .failed && execution.kind == .check && outcome.source == some "check"
  let recorded : ConnectorExecution :=
    { execution with
      state := outcome.state
      stdoutCursor := stdoutCursor
      stderrCursor := stderrCursor
      lastOutputAt :=
        if execution.stdoutCursor < stdoutCursor || execution.stderrCursor < stderrCursor then
          some observation.now
        else execution.lastOutputAt
      startedAt := execution.startedAt.or observation.startedAt
      finishedAt :=
        if outcome.state.isTerminal then observation.finishedAt.or (some observation.now) else none
      exitCode := observation.exitCode.or execution.exitCode
      failureSource := outcome.source.or execution.failureSource
      failureCode := outcome.code.or execution.failureCode
      terminalReason := outcome.reason.or execution.terminalReason
      firstStatusFailureAt := none
      lastSuccessfulObservationAt := some observation.now
      statusFailureCode := none
      checkCompleted := observation.checkCompleted.getD execution.checkCompleted
      failedCheck := if failedAsCheck then observation.failedCheck else execution.failedCheck
      assertionEvidence :=
        if failedAsCheck then observation.assertionEvidence else execution.assertionEvidence
      validatedWorkspaceSha256 :=
        if outcome.state == .succeeded && execution.kind == .check then
          observation.validatedWorkspaceSha256
        else none
      mcpTaskOutputTail :=
        if execution.mcpTaskMaterializedAt.isSome && observation.mcpTaskOutputTail.isSome then
          observation.mcpTaskOutputTail
        else execution.mcpTaskOutputTail }
  if outcome.state.isTerminal then recorded.finalizeMcpTask observation.now else recorded

/-- The row after an executor was attached to it. -/
def ConnectorExecution.attach (executorReference : String) (state : ConnectorExecutionState)
    (recognized : Bool) (now : ℤ) (execution : ConnectorExecution) : ConnectorExecution :=
  { execution with
    executorReference := some executorReference
    state := state
    queuedAt := if state == .queued then execution.queuedAt.or (some now) else execution.queuedAt
    startedAt := if state == .running then execution.startedAt.or
      (some now) else execution.startedAt
    firstStatusFailureAt :=
      if recognized then execution.firstStatusFailureAt
      else execution.firstStatusFailureAt.or (some now)
    statusFailureCode :=
      if recognized then execution.statusFailureCode else some "executor_status_unrecognized" }

def ConnectorExecution.requestQueueTimeout (now : ℤ) (execution : ConnectorExecution) :
    ConnectorExecution :=
  { execution with
    state := .cancelRequested
    cancelRequestedAt := some now
    failureSource := some "queue"
    failureCode := some "queue_deadline"
    terminalReason := some "queue_timeout_requested" }

/-- The row after a status could not be read. -/
def ConnectorExecution.recordStatusFailure (code : String) (now : ℤ)
    (execution : ConnectorExecution) : ConnectorExecution :=
  { execution with
    firstStatusFailureAt := execution.firstStatusFailureAt.or (some now)
    statusFailureCode := some code }

/-- Whether the plan of an execution goes with its kind. -/
def planMatches (kind : ConnectorExecutionKind) (checkPlan : List String)
    (checkRecipe checkWorkspaceSha256 : Option String) : Bool :=
  match kind with
  | .command => checkPlan.isEmpty && checkWorkspaceSha256.isNone && checkRecipe.isNone
  | .check => !checkPlan.isEmpty && checkWorkspaceSha256.isSome && checkRecipe.isSome

/-- A request to reserve an execution. The id is drawn at random by the store. -/
structure NewExecution where
  (executionId kind operationId requestSha256 : String)
  checkPlan : List String := []
  checkRecipe : Option String := none
  checkWorkspaceSha256 : Option String := none
  (queueDeadline now : ℤ)

inductive ConnectorExecutionReservation
  | created (execution : ConnectorExecution)
  | existing (execution : ConnectorExecution)

def NewExecution.row (request : NewExecution) (kind : ConnectorExecutionKind) :
    ConnectorExecution where
  executionId := request.executionId
  kind := kind
  state := .accepted
  submittedAt := request.now
  queueDeadline := request.queueDeadline
  operationId := request.operationId
  requestSha256 := request.requestSha256
  checkPlanText := if kind == .check then some (",".intercalate request.checkPlan) else none
  checkRecipe := request.checkRecipe
  checkWorkspaceSha256 := request.checkWorkspaceSha256

namespace TaskRows

def appendExecutionEvent (execution : ConnectorExecution) (state : ConnectorExecutionState)
    (now : ℤ) (rows : TaskRows) : Fallible TaskRows :=
  rows.insertEvent rows.nextEventSequence (.execution execution.executionId execution.kind state)
    now

/-- An event when the state of an execution changed. -/
def appendStateChange (execution : ConnectorExecution) (state : ConnectorExecutionState) (now : ℤ)
    (rows : TaskRows) : Fallible TaskRows :=
  if state != execution.state then rows.appendExecutionEvent execution state now else return rows

def interruptRun (reason : String) (now : ℤ) (rows : TaskRows) : Fallible TaskRows := do
  let ended : TaskRows :=
    if rows.run.status == .running then
      { rows with run := { rows.run with status := .interrupted, finishedAt := some now } }
    else rows
  let logged ← ended.insertEvent ended.nextEventSequence (.runInterrupted reason) now
  return logged.expireApprovals.touch now

def finalizeTaskCancel (executionId reason : Option String) (now : ℤ) (rows : TaskRows) :
    Fallible TaskRows := do
  let ended : TaskRows :=
    { rows with run := { rows.run with status := .interrupted, finishedAt := some now } }
  let logged ← ended.insertEvent ended.nextEventSequence (.taskCancelled executionId reason) now
  return logged.expireApprovals.touch now

variable (executionId : String)

/-- What the end of an execution does to the run of its task. -/
def settleRun (state : ConnectorExecutionState) (now : ℤ) (rows : TaskRows) :
    Fallible TaskRows :=
  if state == .unknown then rows.interruptRun "execution_terminal_unknown" now
  else if state == .cancelled then rows.finalizeTaskCancel (some executionId) none now
  else return rows

def commitExecution (rows : TaskRows) : Fallible (TaskRows × ConnectorExecution) := do
  return (rows, ← rows.loadExecution executionId)

/-! ### The start of an execution -/

/-- `reserve_connector_execution`. The ids of all executions in the store are given, because the id
of an execution is the key of its table. -/
def reserveConnectorExecution (executionIds : List String) (request : NewExecution)
    (rows : TaskRows) : Fallible (TaskRows × ConnectorExecutionReservation) := do
  let kind ← required (ConnectorExecutionKind.requested request.kind)
    (.invalidState "execution kind and check plan do not match")
  rows.requireRunning
  match rows.executions.find? fun execution ↦ execution.operationId == request.operationId with
  | some existing =>
    ensure (existing.requestSha256 == request.requestSha256)
      (.operationIdConflict request.operationId)
    return (rows, .existing existing)
  | none =>
    match rows.connectorFinishBlocker with
    | some active =>
      .error (.invalidState
        (s!"execution {active.executionId} is {active.state.asStr}; review or " ++
          "cancel it before starting another execution"))
    | none =>
      ensure (planMatches kind request.checkPlan request.checkRecipe request.checkWorkspaceSha256)
        (.invalidState "execution kind and check plan do not match")
      ensure (!executionIds.contains request.executionId) (.storage "wc_executions.id")
      let execution := request.row kind
      let inserted : TaskRows := { rows with executions := rows.executions ++ [execution] }
      let logged ← inserted.appendExecutionEvent execution .accepted request.now
      return (logged.touch request.now, .created execution)

def startConnectorExecution (now : ℤ) (rows : TaskRows) :
    Fallible (TaskRows × ConnectorExecution) := do
  let execution ← rows.loadExecution executionId
  if execution.state != .accepted then return (rows, execution)
  else
    let started := rows.setExecution executionId fun row ↦ { row with state := .starting }
    let logged ← started.appendExecutionEvent execution .starting now
    (logged.touch now).commitExecution executionId

variable (execution : ConnectorExecution)

/-- The state of an execution once an executor is attached to it. -/
def attachedState (executorStatus : String) :
    ConnectorExecutionState :=
  if execution.state == .cancelRequested then .cancelRequested
  else
    match RunnerJobLifecycle.fromWire executorStatus with
    | some .queued | some .runnerQueued => .queued
    | some .running | some .startedLegacy => .running
    | _ => execution.state

def attachConnectorExecutor (executorReference executorStatus : String) (now : ℤ)
    (rows : TaskRows) : Fallible (TaskRows × ConnectorExecution) := do
  let execution ← rows.loadExecution executionId
  ensure (execution.executorReference.all fun existing ↦ existing == executorReference)
    (.invalidState (s!"execution {execution.executionId} is already attached to a different " ++
      "executor reference"))
  if execution.isTerminal then
    let attached := rows.setExecution executionId fun row ↦
      { row with executorReference := row.executorReference.or (some executorReference) }
    (attached.touch now).commitExecution executionId
  else
    let recognized := ConnectorExecution.executorStatusRecognized executorStatus
    let state := attachedState execution executorStatus
    let attached := rows.setExecution executionId (·.attach executorReference state recognized now)
    let logged ← attached.appendStateChange execution state now
    (logged.touch now).commitExecution executionId

/-! ### The course of an execution -/

/-- `materialize_connector_execution_mcp_task_for_subject`. -/
def materializeConnectorExecutionMcpTask (projectId subjectId : String) (now : ℤ)
    (rows : TaskRows) : Fallible (TaskRows × ConnectorExecution) := do
  let execution ← rows.loadExecution executionId
  ensure (rows.projectId == projectId && rows.ownerSubjectId == subjectId) .notFound
  if execution.mcpTaskMaterializedAt.isSome || execution.isTerminal then return (rows, execution)
  else
    ensure execution.continuationArmedAt.isSome
      (.invalidState "active Connector execution is not durably armed for MCP task polling")
    (rows.setExecution executionId fun row ↦
      { row with
        mcpTaskMaterializedAt := row.mcpTaskMaterializedAt.or (some now) }).commitExecution
          executionId

def recordConnectorMcpTaskOutputTail (outputTail : String) (rows : TaskRows) :
    Fallible (TaskRows × ConnectorExecution) := do
  ensure (outputTail.utf8ByteSize ≤ maxMcpTaskOutputTailBytes)
    (.invalidState "MCP task output tail exceeds its durable size limit")
  let execution ← rows.loadExecution executionId
  if execution.mcpTaskMaterializedAt.isNone || execution.mcpTaskResultFinalizedAt.isSome ||
      execution.isTerminal then return (rows, execution)
  else
    (rows.setExecution executionId fun row ↦
      { row with mcpTaskOutputTail := some outputTail }).commitExecution executionId

/-- `arm_connector_terminal_continuation`. The intent is armed exactly when its time is set. -/
def armConnectorTerminalContinuation (now : ℤ) (rows : TaskRows) :
    Fallible (TaskRows × ConnectorExecution) := do
  let execution ← rows.loadExecution executionId
  if execution.isTerminal || execution.continuationArmedAt.isSome then return (rows, execution)
  else
    (rows.setExecution executionId fun row ↦
      { row with continuationArmedAt := some now }).commitExecution executionId

def recordConnectorExecutionStatusFailure (failureCode : String) (now : ℤ) (rows : TaskRows) :
    Fallible (TaskRows × ConnectorExecution) := do
  let execution ← rows.loadExecution executionId
  if execution.isTerminal then return (rows, execution)
  else
    let recorded := rows.setExecution executionId (·.recordStatusFailure failureCode now)
    (recorded.touch now).commitExecution executionId

def observeConnectorExecution (observation : ConnectorExecutionObservation) (rows : TaskRows) :
    Fallible (TaskRows × ConnectorExecution) := do
  let execution ← rows.loadExecution executionId
  if execution.isTerminal then return (rows, execution)
  else if !ConnectorExecution.executorStatusRecognized observation.executorStatus then
    let recorded := rows.setExecution executionId
      (·.recordStatusFailure "executor_status_unrecognized" observation.now)
    (recorded.touch observation.now).commitExecution executionId
  else
    let outcome := observedState execution observation
    checkObservation execution observation outcome
    let recorded := rows.setExecution executionId (·.recordObservation observation outcome)
    let logged ← recorded.appendStateChange execution outcome.state observation.now
    let settled ← logged.settleRun execution.executionId outcome.state observation.now
    (settled.touch observation.now).commitExecution executionId

/-! ### The end of an execution -/

def requestConnectorQueueTimeout (now : ℤ) (rows : TaskRows) :
    Fallible (TaskRows × ConnectorExecution) := do
  let execution ← rows.loadExecution executionId
  if execution.state != .queued then return (rows, execution)
  else
    let requested := rows.setExecution executionId (·.requestQueueTimeout now)
    let logged ← requested.appendExecutionEvent execution .cancelRequested now
    (logged.touch now).commitExecution executionId

/-- The row after the user asked to cancel it. An execution that has no executor ends at once. -/
def cancelExecution (immediate : Bool) (now : ℤ) (execution : ConnectorExecution) :
    ConnectorExecution :=
  let requested : ConnectorExecution :=
    { execution with
      state := if immediate then .cancelled else .cancelRequested
      cancelRequestedAt := execution.cancelRequestedAt.or (some now)
      terminalReason := some "user_cancelled"
      finishedAt := if immediate then some now else execution.finishedAt }
  if immediate then requested.finalizeMcpTask now else requested

/-- The cancellation of the active execution of a task. -/
def cancelActiveExecution (reason : Option String) (now : ℤ) (rows : TaskRows) :
    Fallible TaskRows := do
  let immediate := execution.state == .accepted && execution.executorReference.isNone
  let requested := rows.setExecution execution.executionId (cancelExecution immediate now)
  if immediate then
    let logged ← requested.appendExecutionEvent execution .cancelled now
    logged.finalizeTaskCancel (some execution.executionId) none now
  else if execution.state == .cancelRequested then return requested
  else
    let logged ← requested.appendExecutionEvent execution .cancelRequested now
    match reason with
    | some reason => logged.insertEvent logged.nextEventSequence (.taskCancelRequested reason) now
    | none => return logged

def requestConnectorExecutionCancel (reason : Option String) (now : ℤ) (rows : TaskRows) :
    Fallible (TaskRows × Option ConnectorExecution) := do
  if rows.taskStatus == .cancelled then return (rows, rows.latestExecution)
  else
    rows.requireRunning
    match rows.latestExecution with
    | none =>
      let cancelled ← rows.finalizeTaskCancel none reason now
      return (cancelled, none)
    | some execution =>
      if execution.isTerminal then
        let cancelled ← rows.finalizeTaskCancel none reason now
        return (cancelled, some execution)
      else
        let requested ← rows.cancelActiveExecution execution reason now
        let (committed, answer) ← (requested.touch now).commitExecution execution.executionId
        return (committed, some answer)

/-- The evidence of a workspace failure, or a note that it was too large to keep. -/
def workspaceEvidence (detail : String) : String :=
  let evidence := "\x7b\"detail\":" ++ detail ++ ",\"invariant\":\"workspace_provenance\"\x7d"
  if evidence.utf8ByteSize ≤ maxAssertionEvidenceBytes then evidence
  else "\x7b\"detail\":\"workspace provenance mismatch evidence exceeded the durable size limit\"," ++
    "\"invariant\":\"workspace_provenance\"\x7d"

/-- How an execution ends that failed outside its executor. -/
def failureState : ConnectorExecutionFailure → StateOutcome
  | .submission code =>
    if execution.state == .cancelRequested then
      ⟨.cancelled, some "cancellation", some "cancelled_before_submission", some "user_cancelled"⟩
    else failedOutcome "submission" code "submission_failed"
  | .unknown code => ⟨.unknown, some "transport", some code, some "executor_terminal_unknown"⟩
  | .workspace code _ => failedOutcome "workspace" code "workspace_invariant_failed"

def failExecution (failure : ConnectorExecutionFailure) (outcome : StateOutcome) (now : ℤ)
    (execution : ConnectorExecution) : ConnectorExecution :=
  let evidence :=
    match failure with
    | .workspace _ detail => some (workspaceEvidence detail)
    | _ => none
  let ended : ConnectorExecution :=
    { execution with
      state := outcome.state
      finishedAt := some now
      exitCode := none
      failureSource := outcome.source
      failureCode := outcome.code
      terminalReason := outcome.reason
      assertionEvidence := evidence.or execution.assertionEvidence }
  ended.finalizeMcpTask now

def finishConnectorExecution (failure : ConnectorExecutionFailure) (now : ℤ) (rows : TaskRows) :
    Fallible (TaskRows × ConnectorExecution) := do
  let execution ← rows.loadExecution executionId
  if !execution.isActive then return (rows, execution)
  else
    let outcome := failureState execution failure
    let ended := rows.setExecution execution.executionId (failExecution failure outcome now)
    let logged ← ended.appendExecutionEvent execution outcome.state now
    let settled ← logged.settleRun execution.executionId outcome.state now
    (settled.touch now).commitExecution executionId

/-- The row of an execution that a restart found active. -/
def interruptExecution (now : ℤ) (execution : ConnectorExecution) : ConnectorExecution :=
  let ended : ConnectorExecution :=
    { execution with
      state := .interrupted
      finishedAt := some now
      failureSource := some "runtime"
      failureCode := some "executor_handle_unverified"
      terminalReason := some "runtime_restarted" }
  ended.finalizeMcpTask now

/-- `reconcile_connector_executions_inner`, for the run of one task. One active execution is
interrupted with the run, the newest. -/
def reconcileConnectorExecutions (now : ℤ) (rows : TaskRows) : Fallible TaskRows := do
  if rows.run.status != .running then return rows
  else
    match newest (rows.executions.filter ConnectorExecution.isActive) with
    | none => rows.interruptRun "runtime_restarted" now
    | some execution =>
      let ended := rows.setExecution execution.executionId (interruptExecution now)
      let logged ← ended.appendExecutionEvent execution .interrupted now
      logged.interruptRun "runtime_restarted" now

end TaskRows

end WebCodex.TaskStore
