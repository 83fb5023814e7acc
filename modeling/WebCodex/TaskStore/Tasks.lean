import Mathlib.Data.List.Sort
import WebCodex.Foundation.Layout
import WebCodex.TaskStore.Executions

/-!
A task is started with its run, takes instructions and guidance, asks for approvals, and ends with a
result that the owner of the project accepts or rejects. The operations here are transactions on the
rows of one task, like those on its executions. Ids that the store draws at random are part of the
request; the ids that are in use are given, because they are the keys of their tables.
-/

namespace WebCodex.TaskStore

open Foundation

structure NewConnectorTask where
  (taskId runId projectId workspaceId subjectId goal mode targetExecutorRef : String)
  (executionExecutorRef targetRoot executionRoot : String)
  baselineCommit : Option String := none
  baselineTree : Option String := none
  isolated : Bool
  now : ℤ

/-- `ConnectorWindowBinding`, as far as it can be refused. -/
structure ConnectorWindowBinding where
  (projectRootSha256 fingerprintRootSha256 : String)

structure ConnectorWorkspaceTransition where
  (targetExecutorRef executionExecutorRef targetRoot executionRoot baselineCommit : String)
  baselineTree : String

structure ConnectorTaskContinuation where
  (instruction mode : String)
  workspace : Option ConnectorWorkspaceTransition := none
  binding : Option ConnectorWindowBinding := none
  now : ℤ

structure NewConnectorResult where
  (resultId summary : String)
  patchArtifact : Option String := none
  patchSha256 : Option String := none
  patchBytes : ℕ := 0
  changedPaths : List String := []
  validation : String
  warnings : List String := []

structure ApprovalRequest where
  (approvalId actionKind actionHash actionSummary : String)
  (now expiresAt : ℤ)

inductive ConnectorApprovalGate
  | authorized (approval : ConnectorApproval)
  | pending (approval : ConnectorApproval)
  | denied (approval : ConnectorApproval)
  | expired (approval : ConnectorApproval)
  | consumed (approval : ConnectorApproval)

structure GuidanceReadState where
  seenSeq : ℕ
  lastPendingSeq : Option ℕ

/-- What a caller records on the timeline of a task: the use of a capability, or guidance. The names
of capabilities are none of the kinds that the store itself records. -/
inductive TimelineEntry
  | capability (name payload : String)
  | humanGuidance (payload : String)

def TimelineEntry.body : TimelineEntry → EventBody
  | capability name payload => .capability name payload
  | humanGuidance payload => .humanGuidance payload

/-! ### Checks -/

/-- `ConnectorTaskMode::requested`, with its refusal. -/
def requestedMode (mode : String) : Fallible ConnectorTaskMode :=
  required (ConnectorTaskMode.requested mode)
    (.invalidState "task mode must be normal or read_only")

def validateConnectorTaskWorkspaceShape (mode : ConnectorTaskMode) (isolated : Bool)
    (targetRoot executionRoot : String) (baselineCommit baselineTree : Option String) :
    Fallible Unit :=
  match mode with
  | .normal =>
    ensure (isolated && executionRoot != targetRoot && !baselineCommit.all String.isEmpty &&
        !baselineTree.all String.isEmpty)
      (.invalidState "normal tasks require an isolated execution root and Git baseline")
  | .readOnly =>
    ensure (!isolated && executionRoot == targetRoot)
      (.invalidState "read_only tasks must use the target workspace without isolation")
  | .inspectLegacy => .error (.invalidState "task mode must be normal or read_only")

def bindWindowContext (binding : Option ConnectorWindowBinding) : Fallible Unit :=
  ensure (binding.all fun binding ↦ binding.fingerprintRootSha256 == binding.projectRootSha256)
    (.invalidState "window context root identity does not match its fingerprint")

/-- The row that a first request for an approval inserts. -/
def ApprovalRequest.row (request : ApprovalRequest) : ConnectorApproval where
  approvalId := request.approvalId
  actionKind := request.actionKind
  actionHash := request.actionHash
  actionSummary := request.actionSummary
  state := .pending
  requestedAt := request.now
  expiresAt := request.expiresAt

namespace ConnectorApproval

def expire (approval : ConnectorApproval) : ConnectorApproval := { approval with state := .expired }

def consume (now : ℤ) (approval : ConnectorApproval) : ConnectorApproval :=
  { approval with state := .consumed, consumedAt := some now }

/-- The row after it was asked for again. The reason of an earlier decision stays. -/
def renew (now expiresAt : ℤ) (approval : ConnectorApproval) : ConnectorApproval :=
  { approval with
    state := .pending
    requestedAt := now
    expiresAt := expiresAt
    decidedBy := none
    decidedAt := none
    consumedAt := none }

def decide (approve : Bool) (actor : String) (reason : Option String) (now : ℤ)
    (approval : ConnectorApproval) : ConnectorApproval :=
  { approval with
    state := if approve then .approved else .denied
    decidedBy := some actor
    decidedAt := some now
    decisionReason := reason }

end ConnectorApproval

/-- A reason without the white space around it, when something is left. -/
def trimmedReason (reason : Option String) : Option String :=
  (reason.map fun text ↦ String.ofList (Foundation.Text.trim text.toList)).filter fun text ↦
    !text.isEmpty

namespace TaskRows

/-- The workspace of the run has the shape that its mode asks for. -/
def validateWorkspace (rows : TaskRows) : Fallible Unit :=
  validateConnectorTaskWorkspaceShape rows.mode rows.run.isolated rows.run.targetRoot
    rows.run.executionRoot rows.run.baselineCommit rows.run.baselineTree

def loadApprovalByHash (actionHash : String) (rows : TaskRows) : Option ConnectorApproval :=
  rows.approvals.find? fun approval ↦ approval.actionHash == actionHash

def loadApproval (approvalId : String) (rows : TaskRows) : Option ConnectorApproval :=
  rows.approvals.find? fun approval ↦ approval.approvalId == approvalId

def setApproval (approvalId : String) (f : ConnectorApproval → ConnectorApproval)
    (rows : TaskRows) :
    TaskRows :=
  { rows with
    approvals := rows.approvals.map fun approval ↦
      if approval.approvalId == approvalId then f approval else approval }

/-! ### Start and continuation -/

def started (task : NewConnectorTask) (mode : ConnectorTaskMode) : TaskRows where
  taskId := task.taskId
  projectId := task.projectId
  ownerSubjectId := task.subjectId
  goal := task.goal
  mode := mode
  lifecycle := .active
  createdAt := task.now
  updatedAt := task.now
  run :=
    { runId := task.runId
      workspaceId := task.workspaceId
      status := .running
      startedAt := task.now
      finishedAt := none
      targetExecutorRef := task.targetExecutorRef
      executionExecutorRef := task.executionExecutorRef
      targetRoot := task.targetRoot
      executionRoot := task.executionRoot
      baselineCommit := task.baselineCommit
      baselineTree := task.baselineTree
      isolated := task.isolated }
  events := [⟨1, .taskStarted task.goal mode task.isolated task.baselineCommit, task.now⟩]

/-- The run in the workspace that it moves to. -/
def moveRun (workspace : ConnectorWorkspaceTransition) (run : RunRow) : RunRow :=
  { run with
    targetExecutorRef := workspace.targetExecutorRef
    executionExecutorRef := workspace.executionExecutorRef
    targetRoot := workspace.targetRoot
    executionRoot := workspace.executionRoot
    baselineCommit := some workspace.baselineCommit
    baselineTree := some workspace.baselineTree
    isolated := true }

/-- `continue_connector_task_transaction`. -/
def continueConnectorTask (continuation : ConnectorTaskContinuation) (rows : TaskRows) :
    Fallible (TaskRows × ℕ) := do
  let mode ← requestedMode continuation.mode
  rows.requireRunning
  ensure (rows.mode != .inspectLegacy)
    (.invalidState ("inspect_mode_retired: this pre-0.4 inspect task can no longer execute; " ++
      "start a new read_only task for analysis or a new normal task for writable work"))
  ensure (rows.taskStatus == .active) (.invalidState "only an active task can continue")
  ensure (!(rows.mode == .normal && mode == .readOnly))
    (.invalidState ("normal tasks cannot transition to read_only; finish or reject the " ++
      "current writable task and start a new read_only task"))
  ensure (!(mode == .normal && !rows.run.isolated && continuation.workspace.isNone))
    (.invalidState "read-only workspace must be upgraded before enabling writes")
  let run := (continuation.workspace.map fun workspace ↦ moveRun workspace rows.run).getD rows.run
  let moved : TaskRows := { rows with run := run, mode := mode }
  moved.validateWorkspace
  let sequence := rows.eventCursor + 1
  let logged ← (moved.touch continuation.now).insertEvent sequence
    (.taskInstruction continuation.instruction mode true) continuation.now
  bindWindowContext continuation.binding
  return (logged, sequence)

/-- `append_interrupted_connector_instruction_transaction`. -/
def appendInterruptedConnectorInstruction (instruction requested : String) (now : ℤ)
    (binding : Option ConnectorWindowBinding) (rows : TaskRows) : Fallible (TaskRows × ℕ) := do
  let mode ← requestedMode requested
  ensure (rows.mode != .inspectLegacy)
    (.invalidState ("inspect_mode_retired: this pre-0.4 inspect task can no longer execute; " ++
      "start a new read_only task for analysis or a new normal task for writable work"))
  ensure (!(rows.mode == .normal && mode == .readOnly))
    (.invalidState ("normal tasks cannot transition to read_only; finish or reject the " ++
      "current writable task and start a new read_only task"))
  rows.validateWorkspace
  ensure (rows.runStatus == .interrupted && rows.taskStatus == .needsAttention)
    (.invalidState "only an interrupted task accepts a blocked continuation instruction")
  let sequence := rows.eventCursor + 1
  let logged ← rows.insertEvent sequence (.taskInstruction instruction mode false) now
  bindWindowContext binding
  return (logged.touch now, sequence)

def appendConnectorTaskEvent (entry : TimelineEntry) (now : ℤ) (rows : TaskRows) :
    Fallible (TaskRows × ℕ) := do
  rows.requireRunning
  let sequence := rows.eventCursor + 1
  let logged ← rows.insertEvent sequence entry.body now
  return (logged.touch now, sequence)

def appendConnectorDecisionGuidance (payload : String) (now : ℤ) (rows : TaskRows) :
    Fallible (TaskRows × ℕ) := do
  let sequence := rows.eventCursor + 1
  let logged ← rows.insertEvent sequence (.humanGuidance payload) now
  return (logged.touch now, sequence)

def pendingGuidance (rows : TaskRows) : List ConnectorTaskEvent :=
  rows.events.filter fun event ↦ event.body.isGuidance &&
    decide (rows.guidanceSeenSeq < event.sequence)

/-- A limit that does not fit a signed 64-bit number is negative there, and no limit. -/
def limited {α : Type} (limit : ℕ) (items : List α) : List α :=
  if limit < 2 ^ 63 then items.take limit else items

def claimPendingConnectorGuidance (maxGuidance : ℕ) (rows : TaskRows) :
    TaskRows × List ConnectorTaskEvent :=
  let claimed := limited maxGuidance
    (rows.pendingGuidance.insertionSort fun first second ↦ first.sequence ≤ second.sequence)
  match (claimed.map fun event ↦ event.sequence).max? with
  | some last => ({ rows with guidanceSeenSeq := max rows.guidanceSeenSeq last }, claimed)
  | none => (rows, claimed)

def connectorGuidanceReadState (rows : TaskRows) : GuidanceReadState where
  seenSeq := rows.guidanceSeenSeq
  lastPendingSeq := (rows.pendingGuidance.map fun event ↦ event.sequence).max?

/-- `unread_guidance`, in the lists of reviewable tasks. -/
def unreadGuidance (rows : TaskRows) : ℕ := rows.pendingGuidance.length

/-! ### Results -/

variable (resultIds : List String)

/-- An insertion into `wc_task_results`: a result has an id of its own, and a task has one
result. -/
def insertResult (result : ConnectorTaskResult) (rows : TaskRows) :
    Fallible TaskRows := do
  ensure (!resultIds.contains result.resultId) (.storage "wc_task_results.id")
  ensure rows.result.isNone (.storage "wc_task_results.task_id")
  return { rows with result := some result }

def finishConnectorTask (result : NewConnectorResult) (now : ℤ) (rows : TaskRows) :
    Fallible (TaskRows × ℕ) := do
  ensure (result.patchArtifact.isSome == (result.patchBytes != 0) &&
      result.patchSha256.isSome == (result.patchBytes != 0))
    (.invalidState "task result patch metadata is inconsistent")
  rows.requireRunning
  let sequence := rows.eventCursor + 1
  let logged ← rows.insertEvent sequence (.taskFinished result.resultId) now
  let finished ← logged.insertResult resultIds
    { resultId := result.resultId
      summary := result.summary
      patchArtifact := result.patchArtifact
      patchSha256 := result.patchSha256
      patchBytes := result.patchBytes
      changedPaths := result.changedPaths
      validation := result.validation
      warnings := result.warnings
      decisionStatus := .pending
      createdAt := now }
  let completed : TaskRows :=
    { finished with
      run := { finished.run with status := .completed, finishedAt := some now }
      lifecycle := .readyForReview
      updatedAt := now }
  return (completed.expireApprovals, sequence)

/-- `task_finish` of the connector runtime, as far as the store is concerned: a task is finished
when nothing blocks it. -/
def taskFinish (result : NewConnectorResult) (now : ℤ) (rows : TaskRows) :
    Fallible (TaskRows × ℕ) :=
  match rows.connectorFinishBlocker with
  | some _ =>
    .error (.decision "execution_not_terminal"
      "task_finish is blocked until the active execution reaches a known terminal state")
  | none => rows.finishConnectorTask resultIds result now

def recordConnectorWorkspaceRelease (released : Bool) (cleanupWarning : Option String) (now : ℤ)
    (rows : TaskRows) : Fallible (TaskRows × ℕ) := do
  ensure ((rows.taskStatus == .readyForReview || rows.taskStatus == .accepted ||
      rows.taskStatus == .rejected) && rows.runStatus == .completed)
    (.invalidState "workspace release can only follow a completed task result")
  let result ← required rows.result
    (.invalidState "workspace release requires a stable task result")
  let warning :=
    match cleanupWarning with
    | some warning =>
      some ((result.cleanupWarning.map fun earlier ↦ earlier ++ "; " ++ warning).getD warning)
    | none => if released then none else result.cleanupWarning
  let noted : TaskRows := { rows with result := some { result with cleanupWarning := warning } }
  let sequence := rows.eventCursor + 1
  let logged ← noted.insertEvent sequence (.workspaceRelease released cleanupWarning) now
  return (logged.touch now, sequence)

def resumeConnectorTask (actor : String) (now : ℤ) (rows : TaskRows) : Fallible TaskRows := do
  ensure (rows.mode != .inspectLegacy)
    (.invalidState ("inspect_mode_retired: this pre-0.4 inspect task can no longer execute; " ++
      "reject it locally and start a new read_only or normal task"))
  rows.validateWorkspace
  ensure (rows.runStatus == .interrupted && rows.taskStatus == .needsAttention)
    (.invalidState "only an interrupted task can be resumed")
  ensure rows.result.isNone (.invalidState "a task with a stable result cannot be resumed")
  let resumed : TaskRows :=
    { rows with run := { rows.run with status := .running, finishedAt := none } }
  let logged ← resumed.insertEvent (rows.eventCursor + 1) (.runResumed actor) now
  return logged.touch now

variable (resultId : String)

def abandonInterruptedConnectorTask (actor : String) (now : ℤ) (rows : TaskRows) :
    Fallible TaskRows := do
  ensure (rows.run.status == .interrupted && rows.result.isNone)
    (.invalidState "only an interrupted task without a Result can be abandoned")
  let abandoned ← rows.insertResult resultIds
    { resultId := resultId
      summary := "Interrupted task abandoned locally without capturing a patch."
      patchArtifact := none
      patchSha256 := none
      patchBytes := 0
      changedPaths := []
      validation := "\x7b\"status\":\"not_run\"\x7d"
      warnings := ["interrupted workspace changes were discarded locally"]
      decisionStatus := .rejected
      decidedBy := some actor
      decidedAt := some now
      createdAt := now }
  let logged ← abandoned.insertEvent (rows.eventCursor + 1) (.taskAbandoned actor resultId) now
  let completed : TaskRows :=
    { logged with
      run := { logged.run with status := .completed, finishedAt := some now }
      lifecycle := .readyForReview
      updatedAt := now }
  return completed.expireApprovals

/-! ### Decisions -/

def beginConnectorResultDecision (requested actor : String) (now : ℤ) (rows : TaskRows) :
    Fallible TaskRows := do
  let decision ← required (ConnectorResultDecision.requested requested)
    (.invalidState "result decision must be accepted or rejected")
  let lost : ConnectorTaskStoreError :=
    .decision "result_decision_in_progress" "another result decision won the durable intent race"
  let result ← required (rows.result.filter fun result ↦
    result.resultId == resultId && result.decisionStatus == .pending) lost
  ensure (rows.intent.all fun intent ↦
    intent.resultId == resultId && intent.state == .needsAttention && decision == .rejected) lost
  return { rows with
    intent := some
      { resultId := result.resultId, decision := decision, actor := actor, startedAt := now } }

def abortConnectorResultDecision (rows : TaskRows) : TaskRows :=
  { rows with intent := rows.intent.filter fun intent ↦ intent.resultId != resultId }

def markConnectorResultDecisionNeedsAttention (errorCode errorMessage : String) (now : ℤ)
    (rows : TaskRows) : Fallible TaskRows := do
  let intent ← required
    (rows.intent.filter fun intent ↦ intent.resultId == resultId && intent.state == .pending)
    (.decision "result_recovery_state_changed"
      "result recovery state changed while it was being quarantined")
  let marked : TaskRows :=
    { rows with
      intent := some
        { intent with
          state := .needsAttention
          errorCode := some errorCode
          errorMessage := some errorMessage
          lastAttemptAt := some now }
      run :=
        { rows.run with
          status := .interrupted
          finishedAt := rows.run.finishedAt.or (some now) } }
  let logged ← marked.insertEvent (rows.eventCursor + 1)
    (.resultRecoveryNeedsAttention resultId errorCode errorMessage) now
  return logged.touch now

def finalizeConnectorResultDecision (cleanupWarning : Option String) (now : ℤ) (rows : TaskRows) :
    Fallible (TaskRows × ConnectorTaskResult) := do
  let decided : ConnectorTaskStoreError :=
    .decision "result_already_decided" "task result was already decided"
  let intent ← required
    (rows.intent.filter fun intent ↦ intent.resultId == resultId &&
      intent.state == .pending) decided
  let result ← required (rows.result.filter fun result ↦ result.decisionStatus == .pending) decided
  ensure (result.resultId == resultId) decided
  let settled :=
    { result with
      decisionStatus := intent.decision.status
      decidedBy := some intent.actor
      decidedAt := some now
      cleanupWarning := cleanupWarning.or result.cleanupWarning }
  let closed : TaskRows :=
    { rows with
      result := some settled
      lifecycle := intent.decision.lifecycle
      updatedAt := now
      run :=
        { rows.run with
          status := .completed
          finishedAt := rows.run.finishedAt.or (some now) } }
  let logged ← closed.insertEvent (rows.eventCursor + 1)
    (.taskDecided intent.decision intent.actor cleanupWarning) now
  return ({ logged with intent := none }, settled)

/-- The answer to a request whose approval is there. -/
def answerApproval (request : ApprovalRequest) (cursor : ℕ) (approval : ConnectorApproval)
    (rows : TaskRows) : Fallible (TaskRows × ConnectorApprovalGate) :=
  match approval.state with
  | .pending =>
    if approval.expiresAt ≤ request.now then
      return (rows.setApproval approval.approvalId ConnectorApproval.expire,
        .expired approval.expire)
    else return (rows, .pending approval)
  | .approved =>
    if approval.expiresAt ≤ request.now then
      return (rows.setApproval approval.approvalId ConnectorApproval.expire,
        .expired approval.expire)
    else do
      let used := rows.setApproval approval.approvalId (·.consume request.now)
      let logged ← used.insertEvent (cursor + 1)
        (.approvalConsumed approval.approvalId approval.actionHash) request.now
      return (logged.touch request.now, .authorized (approval.consume request.now))
  | .denied => return (rows, .denied approval)
  | .consumed => return (rows, .consumed approval)
  | .expired => do
    ensure (request.now < request.expiresAt) (.storage "wc_approvals.expires_at")
    let renewed := rows.setApproval approval.approvalId (·.renew request.now request.expiresAt)
    let logged ← renewed.insertEvent (cursor + 1)
      (.approvalRequested approval.approvalId request.actionKind request.actionHash
        request.expiresAt true) request.now
    return (logged.touch request.now, .pending (approval.renew request.now request.expiresAt))

def requestOrConsumeConnectorApproval (approvalIds : List String) (request : ApprovalRequest)
    (rows : TaskRows) : Fallible (TaskRows × ConnectorApprovalGate) := do
  rows.requireRunning
  match rows.loadApprovalByHash request.actionHash with
  | some approval => rows.answerApproval request rows.eventCursor approval
  | none =>
    ensure (request.now < request.expiresAt) (.storage "wc_approvals.expires_at")
    ensure (!approvalIds.contains request.approvalId) (.storage "wc_approvals.id")
    let inserted : TaskRows := { rows with approvals := rows.approvals ++ [request.row] }
    let logged ← inserted.insertEvent (rows.eventCursor + 1)
      (.approvalRequested request.approvalId request.actionKind request.actionHash
        request.expiresAt false) request.now
    (logged.touch request.now).answerApproval request rows.eventCursor request.row

/-- `decide_connector_approval`. A decision that comes too late is refused, and the refusal is not
rolled back: the approval has expired. -/
def decideConnectorApproval (approvalId : String) (approve : Bool) (actor : String)
    (reason : Option String) (now : ℤ) (rows : TaskRows) :
    Fallible (TaskRows × Fallible ConnectorApproval) := do
  rows.requireRunning
  let approval ← required (rows.loadApproval approvalId) .notFound
  ensure (approval.state == .pending)
    (.invalidState s!"approval is {approval.state.asStr}; only pending approvals can be decided")
  if approval.expiresAt ≤ now then
    return (rows.setApproval approvalId ConnectorApproval.expire, .error (.invalidState
        "approval expired; submit the exact action again to request a new decision"))
  else
    let decided := rows.setApproval approvalId (·.decide approve actor (trimmedReason reason) now)
    let logged ← decided.insertEvent decided.nextEventSequence
      (if approve then
        .approvalGranted approvalId approval.actionHash actor (trimmedReason reason)
      else .approvalDenied approvalId approval.actionHash actor (trimmedReason reason)) now
    let answer ← required (logged.loadApproval approvalId) .notFound
    return (logged.touch now, .ok answer)

end TaskRows

end WebCodex.TaskStore
