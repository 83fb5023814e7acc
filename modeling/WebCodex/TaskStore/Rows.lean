import Mathlib.Data.List.MinMax
import WebCodex.Foundation.Table
import WebCodex.Registry.Protocol

/-!
The task store keeps tasks, runs, results, approvals, executions and events in tables of one
database. No statement reads rows of several tasks at once except to find a row by its id, so the
rows are grouped by their task (`TaskRows`). A task has one run, and at most one result and one
decision intent.
-/

namespace WebCodex.TaskStore

open Registry (RunnerJobLifecycle)

inductive ConnectorTaskMode
  | normal | readOnly | inspectLegacy
  deriving DecidableEq

def ConnectorTaskMode.requested : String → Option ConnectorTaskMode
  | "normal" => some normal
  | "read_only" => some readOnly
  | _ => none

inductive ConnectorTaskLifecycle
  | active | readyForReview | accepted | rejected

inductive ConnectorTaskState
  | active | readyForReview | accepted | rejected | cancelled | needsAttention
  deriving DecidableEq

def ConnectorTaskState.asStr : ConnectorTaskState → String
  | active => "active"
  | readyForReview => "ready_for_review"
  | accepted => "accepted"
  | rejected => "rejected"
  | cancelled => "cancelled"
  | needsAttention => "needs_attention"

inductive ConnectorRunLifecycle
  | running | completed | interrupted
  deriving DecidableEq

inductive ConnectorRunState
  | running | completed | interrupted | cancelled
  deriving DecidableEq

def ConnectorRunState.asStr : ConnectorRunState → String
  | running => "running"
  | completed => "completed"
  | interrupted => "interrupted"
  | cancelled => "cancelled"

inductive ConnectorResultDecisionStatus
  | pending | accepted | rejected
  deriving DecidableEq

inductive ConnectorResultDecision
  | accepted | rejected
  deriving DecidableEq

def ConnectorResultDecision.requested : String → Option ConnectorResultDecision
  | "accepted" => some accepted
  | "rejected" => some rejected
  | _ => none

def ConnectorResultDecision.status : ConnectorResultDecision → ConnectorResultDecisionStatus
  | accepted => .accepted
  | rejected => .rejected

def ConnectorResultDecision.lifecycle : ConnectorResultDecision → ConnectorTaskLifecycle
  | accepted => .accepted
  | rejected => .rejected

inductive ConnectorResultDecisionRecoveryState
  | pending | needsAttention
  deriving DecidableEq

inductive ConnectorApprovalState
  | pending | approved | denied | consumed | expired
  deriving DecidableEq

def ConnectorApprovalState.asStr : ConnectorApprovalState → String
  | pending => "pending"
  | approved => "approved"
  | denied => "denied"
  | consumed => "consumed"
  | expired => "expired"

inductive ConnectorExecutionKind
  | command | check
  deriving DecidableEq

def ConnectorExecutionKind.requested : String → Option ConnectorExecutionKind
  | "command" => some command
  | "check" => some check
  | _ => none

inductive ConnectorExecutionState
  | accepted | queued | starting | running | cancelRequested | succeeded | failed | cancelled
  | interrupted | unknown
  deriving DecidableEq

namespace ConnectorExecutionState

def asStr : ConnectorExecutionState → String
  | accepted => "accepted"
  | queued => "queued"
  | starting => "starting"
  | running => "running"
  | cancelRequested => "cancel_requested"
  | succeeded => "succeeded"
  | failed => "failed"
  | cancelled => "cancelled"
  | interrupted => "interrupted"
  | unknown => "unknown"

def isActive : ConnectorExecutionState → Bool
  | accepted | queued | starting | running | cancelRequested => true
  | _ => false

def isTerminal (state : ConnectorExecutionState) : Bool := !state.isActive

def blocksFinish (state : ConnectorExecutionState) : Bool := state.isActive || state == unknown

end ConnectorExecutionState

inductive ConnectorTaskStoreError
  | notFound
  | operationIdConflict (operationId : String)
  | decision (code message : String)
  | invalidState (message : String)
  | storage (constraint : String)

/-- The result of a transaction that is rolled back when it fails. -/
abbrev Fallible (α : Type) := Except ConnectorTaskStoreError α

/-- What an event says: its kind with its payload. The payloads of callers are JSON texts. -/
inductive EventBody
  | taskStarted (goal : String) (mode : ConnectorTaskMode) (isolated : Bool)
      (baselineCommit : Option String)
  | taskInstruction (instruction : String) (mode : ConnectorTaskMode) (applied : Bool)
  | capability (name payload : String)
  | humanGuidance (payload : String)
  | taskFinished (resultId : String)
  | workspaceRelease (released : Bool) (cleanupWarning : Option String)
  | approvalRequested (approvalId actionKind actionHash : String) (expiresAt : ℤ) (renewed : Bool)
  | approvalConsumed (approvalId actionHash : String)
  | approvalGranted (approvalId actionHash actor : String) (reason : Option String)
  | approvalDenied (approvalId actionHash actor : String) (reason : Option String)
  | runResumed (actor : String)
  | runInterrupted (reason : String)
  | taskAbandoned (actor resultId : String)
  | resultRecoveryNeedsAttention (resultId errorCode errorMessage : String)
  | taskDecided (decision : ConnectorResultDecision) (actor : String)
      (cleanupWarning : Option String)
  | taskCancelRequested (reason : String)
  | taskCancelled (executionId reason : Option String)
  | execution (executionId : String) (kind : ConnectorExecutionKind)
      (state : ConnectorExecutionState)
  deriving DecidableEq

def EventBody.isGuidance : EventBody → Bool
  | humanGuidance _ => true
  | _ => false

def EventBody.isCancellation : EventBody → Bool
  | taskCancelled _ _ => true
  | _ => false

/-- `wc_task_events`. -/
structure ConnectorTaskEvent where
  sequence : ℕ
  body : EventBody
  createdAt : ℤ
  deriving DecidableEq

/-- `wc_runs` with `wc_run_contexts`. -/
structure RunRow where
  (runId workspaceId : String)
  status : ConnectorRunLifecycle
  startedAt : ℤ
  finishedAt : Option ℤ
  (targetExecutorRef executionExecutorRef targetRoot executionRoot : String)
  (baselineCommit baselineTree : Option String)
  isolated : Bool

/-- `wc_task_results`. -/
structure ConnectorTaskResult where
  (resultId summary : String)
  (patchArtifact patchSha256 : Option String)
  patchBytes : ℕ
  changedPaths : List String
  validation : String
  warnings : List String
  decisionStatus : ConnectorResultDecisionStatus
  decidedBy : Option String := none
  decidedAt : Option ℤ := none
  cleanupWarning : Option String := none
  createdAt : ℤ

/-- `wc_result_decision_intents`. -/
structure ResultDecisionIntent where
  resultId : String
  decision : ConnectorResultDecision
  actor : String
  startedAt : ℤ
  state : ConnectorResultDecisionRecoveryState := .pending
  errorCode : Option String := none
  errorMessage : Option String := none
  lastAttemptAt : Option ℤ := none

structure ConnectorApproval where
  (approvalId actionKind actionHash actionSummary : String)
  state : ConnectorApprovalState
  (requestedAt expiresAt : ℤ)
  decidedBy : Option String := none
  decidedAt : Option ℤ := none
  consumedAt : Option ℤ := none
  decisionReason : Option String := none

/-- `ConnectorExecution`, with the column `cancel_requested_at`. The plan of a check is stored as
one text. -/
structure ConnectorExecution where
  executionId : String
  kind : ConnectorExecutionKind
  state : ConnectorExecutionState
  submittedAt : ℤ
  queuedAt : Option ℤ := none
  queueDeadline : ℤ
  startedAt : Option ℤ := none
  lastOutputAt : Option ℤ := none
  finishedAt : Option ℤ := none
  stdoutCursor : ℕ := 1
  stderrCursor : ℕ := 1
  exitCode : Option ℤ := none
  failureSource : Option String := none
  failureCode : Option String := none
  cancelRequestedAt : Option ℤ := none
  terminalReason : Option String := none
  (operationId requestSha256 : String)
  executorReference : Option String := none
  firstStatusFailureAt : Option ℤ := none
  lastSuccessfulObservationAt : Option ℤ := none
  statusFailureCode : Option String := none
  checkPlanText : Option String := none
  checkRecipe : Option String := none
  checkCompleted : ℕ := 0
  checkWorkspaceSha256 : Option String := none
  validatedWorkspaceSha256 : Option String := none
  failedCheck : Option String := none
  assertionEvidence : Option String := none
  continuationArmedAt : Option ℤ := none
  mcpTaskMaterializedAt : Option ℤ := none
  mcpTaskResultFinalizedAt : Option ℤ := none
  mcpTaskOutputTail : Option String := none

namespace ConnectorExecution

variable (execution : ConnectorExecution)

def isActive : Bool := execution.state.isActive

def isTerminal : Bool := execution.state.isTerminal

def blocksFinish : Bool := execution.state.blocksFinish

def checkPlan : List String := (execution.checkPlanText.map fun text ↦ text.splitOn ",").getD []

def executorStatusRecognized (status : String) : Bool :=
  status == "recovering" || (RunnerJobLifecycle.fromWire status).isSome

end ConnectorExecution

/-- The rows of one task. Executions and events stand in the order in which they were inserted. -/
structure TaskRows where
  (taskId projectId ownerSubjectId goal : String)
  mode : ConnectorTaskMode
  lifecycle : ConnectorTaskLifecycle
  (createdAt updatedAt : ℤ)
  guidanceSeenSeq : ℕ := 0
  run : RunRow
  result : Option ConnectorTaskResult := none
  intent : Option ResultDecisionIntent := none
  approvals : List ConnectorApproval := []
  executions : List ConnectorExecution := []
  events : List ConnectorTaskEvent := []

def effectiveTaskState (lifecycle : ConnectorTaskLifecycle) (runLifecycle : ConnectorRunLifecycle)
    (resultDecision : Option ConnectorResultDecisionStatus) (cancelled : Bool) :
    ConnectorTaskState :=
  if cancelled then .cancelled
  else
    match resultDecision with
    | some .accepted => .accepted
    | some .rejected => .rejected
    | some .pending | none =>
      if runLifecycle = .interrupted then .needsAttention
      else
        match lifecycle with
        | .active => .active
        | .readyForReview => .readyForReview
        | .accepted => .accepted
        | .rejected => .rejected

def effectiveRunState (lifecycle : ConnectorRunLifecycle) (cancelled : Bool) : ConnectorRunState :=
  if cancelled then .cancelled
  else
    match lifecycle with
    | .running => .running
    | .completed => .completed
    | .interrupted => .interrupted

namespace TaskRows

/-- Whether an event says that the task was cancelled. -/
def cancelled (rows : TaskRows) : Bool := rows.events.any fun event ↦ event.body.isCancellation

def taskStatus (rows : TaskRows) : ConnectorTaskState :=
  effectiveTaskState rows.lifecycle rows.run.status (rows.result.map fun result ↦
    result.decisionStatus) rows.cancelled

def runStatus (rows : TaskRows) : ConnectorRunState :=
    effectiveRunState rows.run.status rows.cancelled

/-- The greatest number of an event, or zero. -/
def eventCursor (rows : TaskRows) : ℕ := rows.events.foldl
    (fun top event ↦ max top event.sequence) 0

def requireRunning (rows : TaskRows) : Fallible Unit :=
  if rows.taskStatus != .active || rows.runStatus != .running then
    .error (.invalidState (s!"task {rows.taskId} is {rows.taskStatus.asStr}, run is " ++
      s!"{rows.runStatus.asStr}; start a new task for more work"))
  else .ok ()

/-- `touch_task`. -/
def touch (now : ℤ) (rows : TaskRows) : TaskRows := { rows with updatedAt := now }

/-- `insert_event`: the numbers of the events of a task are positive and distinct. -/
def insertEvent (sequence : ℕ) (body : EventBody) (now : ℤ) (rows : TaskRows) : Fallible TaskRows :=
  if sequence == 0 then .error (.storage "wc_task_events.sequence")
  else if rows.events.any fun event ↦ event.sequence == sequence then
    .error (.storage "wc_task_events.task_id, wc_task_events.sequence")
  else .ok { rows with events := rows.events ++ [⟨sequence, body, now⟩] }

def nextEventSequence (rows : TaskRows) : ℕ := rows.eventCursor + 1

/-- `expire_task_approvals`. -/
def expireApprovals (rows : TaskRows) : TaskRows :=
  { rows with
    approvals := rows.approvals.map fun approval ↦
      if approval.state == .pending || approval.state == .approved then
        { approval with state := .expired }
      else approval }

end TaskRows

/-- The execution that comes first by `submitted_at` downwards, and among those with the same time
the one that was inserted last. -/
def newest (executions : List ConnectorExecution) : Option ConnectorExecution :=
  -- Mathlib also knows the order of the integers as a conditionally complete one, which does not
  -- compute.
  letI : Preorder ℤ := Int.instLinearOrder.toPreorder
  executions.reverse.argmax fun execution ↦ execution.submittedAt

def TaskRows.latestExecution (rows : TaskRows) : Option ConnectorExecution := newest rows.executions

def TaskRows.connectorFinishBlocker (rows : TaskRows) : Option ConnectorExecution :=
  rows.latestExecution.filter ConnectorExecution.blocksFinish

/-- `load_execution`, among the executions of the task. -/
def TaskRows.loadExecution (executionId : String) (rows : TaskRows) : Fallible ConnectorExecution :=
  match rows.executions.find? fun execution ↦ execution.executionId == executionId with
  | none => .error .notFound
  | some execution => .ok execution

def TaskRows.setExecution (executionId : String) (f : ConnectorExecution → ConnectorExecution)
    (rows : TaskRows) : TaskRows :=
  { rows with
    executions := rows.executions.map fun execution ↦
      if execution.executionId == executionId then f execution else execution }

end WebCodex.TaskStore
