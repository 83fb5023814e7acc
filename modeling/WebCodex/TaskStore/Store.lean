import WebCodex.TaskStore.Tasks

/-!
Every call of the store holds the lock of its connection and runs in one transaction, so an
execution of the store, whatever its callers, is a sequence of operations (`Operation`), each a step
from one state to the next (`step`). A transaction that fails leaves the state as it was.
-/

namespace WebCodex.TaskStore

open Foundation

/-- The operations of the subject that owns a task. -/
inductive OwnerRequest
  | reserve (request : NewExecution)
  | cancel (reason : Option String) (now : ℤ)
  | continueTask (continuation : ConnectorTaskContinuation)
  | instruct (instruction mode : String) (now : ℤ) (binding : Option ConnectorWindowBinding)
  | append (entry : TimelineEntry) (now : ℤ)
  | guide (payload : String) (now : ℤ)
  | finish (result : NewConnectorResult) (now : ℤ)
  | release (released : Bool) (cleanupWarning : Option String) (now : ℤ)
  | claimGuidance (maxGuidance : ℕ)
  | approval (request : ApprovalRequest)

inductive HostRequest
  | resume (actor : String) (now : ℤ)
  | abandon (resultId actor : String) (now : ℤ)
  | beginDecision (resultId decision actor : String) (now : ℤ)
  | needsAttention (resultId errorCode errorMessage : String) (now : ℤ)
  | finalizeDecision (resultId : String) (cleanupWarning : Option String) (now : ℤ)
  | decideApproval (approvalId : String) (approve : Bool) (actor : String) (reason : Option String)
      (now : ℤ)

inductive ExecutionRequest
  | start (now : ℤ)
  | attach (executorReference executorStatus : String) (now : ℤ)
  | statusFailure (failureCode : String) (now : ℤ)
  | observe (observation : ConnectorExecutionObservation)
  | queueTimeout (now : ℤ)
  | finish (failure : ConnectorExecutionFailure) (now : ℤ)
  | arm (now : ℤ)
  | materialize (projectId subjectId : String) (now : ℤ)
  | outputTail (tail : String)

/-- What an operation asks of the rows of a task. -/
inductive TaskRequest
  | owner (request : OwnerRequest)
  | host (request : HostRequest)
  | execution (executionId : String) (request : ExecutionRequest)
  | abort (resultId : String)
  | restart (now : ℤ)

inductive Answer
  | done
  | sequence (number : ℕ)
  | execution (execution : ConnectorExecution)
  | reservation (reservation : ConnectorExecutionReservation)
  | cancelled (execution : Option ConnectorExecution)
  | claimed (events : List ConnectorTaskEvent)
  | gate (gate : ConnectorApprovalGate)
  | decision (approval : Fallible ConnectorApproval)
  | result (result : ConnectorTaskResult)

/-- The keys in use in the tables of executions, approvals and results. -/
structure Keys where
  (executionIds approvalIds resultIds : List String)

/-- The answer of an operation that returns rows and a value. -/
def answered {α : Type} (answer : α → Answer) (result : Fallible (TaskRows × α)) :
    Fallible (TaskRows × Answer) :=
  result.map fun outcome ↦ (outcome.1, answer outcome.2)

namespace TaskRows

def handleOwner (keys : Keys) (request : OwnerRequest) (rows : TaskRows) :
    Fallible (TaskRows × Answer) :=
  match request with
  | .reserve request =>
    answered .reservation (rows.reserveConnectorExecution keys.executionIds request)
  | .cancel reason now => answered .cancelled (rows.requestConnectorExecutionCancel reason now)
  | .continueTask continuation => answered .sequence (rows.continueConnectorTask continuation)
  | .instruct instruction mode now binding =>
    answered .sequence (rows.appendInterruptedConnectorInstruction instruction mode now binding)
  | .append entry now => answered .sequence (rows.appendConnectorTaskEvent entry now)
  | .guide payload now => answered .sequence (rows.appendConnectorDecisionGuidance payload now)
  | .finish result now => answered .sequence (rows.taskFinish keys.resultIds result now)
  | .release released cleanupWarning now =>
    answered .sequence (rows.recordConnectorWorkspaceRelease released cleanupWarning now)
  | .claimGuidance maxGuidance =>
    answered .claimed (.ok (rows.claimPendingConnectorGuidance maxGuidance))
  | .approval request =>
    answered .gate (rows.requestOrConsumeConnectorApproval keys.approvalIds request)

def handleHost (keys : Keys) (request : HostRequest) (rows : TaskRows) :
    Fallible (TaskRows × Answer) :=
  match request with
  | .resume actor now => (rows.resumeConnectorTask actor now).map fun rows ↦ (rows, .done)
  | .abandon resultId actor now =>
    (rows.abandonInterruptedConnectorTask keys.resultIds resultId actor now).map fun rows ↦
      (rows, .done)
  | .beginDecision resultId decision actor now =>
    (rows.beginConnectorResultDecision resultId decision actor now).map fun rows ↦ (rows, .done)
  | .needsAttention resultId errorCode errorMessage now =>
    (rows.markConnectorResultDecisionNeedsAttention resultId errorCode errorMessage now).map
      fun rows ↦ (rows, .done)
  | .finalizeDecision resultId cleanupWarning now =>
    answered .result (rows.finalizeConnectorResultDecision resultId cleanupWarning now)
  | .decideApproval approvalId approve actor reason now =>
    answered .decision (rows.decideConnectorApproval approvalId approve actor reason now)

def handleExecution (executionId : String) (request : ExecutionRequest) (rows : TaskRows) :
    Fallible (TaskRows × Answer) :=
  answered .execution <|
    match request with
    | .start now => rows.startConnectorExecution executionId now
    | .attach executorReference executorStatus now =>
      rows.attachConnectorExecutor executionId executorReference executorStatus now
    | .statusFailure failureCode now =>
      rows.recordConnectorExecutionStatusFailure executionId failureCode now
    | .observe observation => rows.observeConnectorExecution executionId observation
    | .queueTimeout now => rows.requestConnectorQueueTimeout executionId now
    | .finish failure now => rows.finishConnectorExecution executionId failure now
    | .arm now => rows.armConnectorTerminalContinuation executionId now
    | .materialize projectId subjectId now =>
      rows.materializeConnectorExecutionMcpTask executionId projectId subjectId now
    | .outputTail tail => rows.recordConnectorMcpTaskOutputTail executionId tail

def handle (keys : Keys) (request : TaskRequest) (rows : TaskRows) : Fallible (TaskRows × Answer) :=
  match request with
  | .owner request => rows.handleOwner keys request
  | .host request => rows.handleHost keys request
  | .execution executionId request => rows.handleExecution executionId request
  | .abort resultId => .ok (rows.abortConnectorResultDecision resultId, .done)
  | .restart now => (rows.reconcileConnectorExecutions now).map fun rows ↦ (rows, .done)

end TaskRows

structure Database where
  grants : List (String × String) := []
  workspaces : List String := []
  tasks : Table String TaskRows := ∅

namespace Database

def ownerOfExecution (executionId : String) (database : Database) : Option String :=
  (database.tasks.entries.find? fun entry ↦
    entry.2.executions.any fun execution ↦ execution.executionId == executionId).map (·.1)

def keys (database : Database) : Keys where
  executionIds := (Table.values database.tasks).flatMap fun rows ↦
    rows.executions.map fun execution ↦ execution.executionId
  approvalIds := (Table.values database.tasks).flatMap fun rows ↦
    rows.approvals.map fun approval ↦ approval.approvalId
  resultIds := (Table.values database.tasks).flatMap fun rows ↦
    (rows.result.map fun result ↦ result.resultId).toList

def runIds (database : Database) : List String :=
  (Table.values database.tasks).map fun rows ↦ rows.run.runId

end Database

inductive Operation
  | bind (projectId subjectId workspaceId : String)
  | start (task : NewConnectorTask) (binding : Option ConnectorWindowBinding)
  | owner (taskId projectId subjectId : String) (request : OwnerRequest)
  | host (taskId projectId : String) (request : HostRequest)
  | execution (executionId : String) (request : ExecutionRequest)
  | abort (taskId resultId : String)
  | restart (projectId : String) (now : ℤ)

/-- The state after an operation, and its answer. -/
structure Outcome where
  database : Database
  answer : Fallible Answer

/-- The refusal when the subject has no such task. -/
def OwnerRequest.missing : OwnerRequest → ConnectorTaskStoreError
  | reserve request =>
    if (ConnectorExecutionKind.requested request.kind).isNone then
      .invalidState "execution kind and check plan do not match"
    else .notFound
  | continueTask ⟨_, mode, _, _, _⟩ | instruct _ mode _ _ =>
    if (ConnectorTaskMode.requested mode).isNone then
      .invalidState "task mode must be normal or read_only"
    else .notFound
  | _ => .notFound

/-- The refusal when the project has no such task. -/
def HostRequest.missing : HostRequest → ConnectorTaskStoreError
  | abandon _ _ _ => .invalidState "only an interrupted task without a Result can be abandoned"
  | beginDecision _ decision _ _ =>
    if (ConnectorResultDecision.requested decision).isNone then
      .invalidState "result decision must be accepted or rejected"
    else
      .decision "result_decision_in_progress" "another result decision won the durable intent race"
  | finalizeDecision _ _ _ => .decision "result_already_decided" "task result was already decided"
  | _ => .notFound

namespace Database

/-- `start_connector_task_transaction`. -/
def startConnectorTask (task : NewConnectorTask) (binding : Option ConnectorWindowBinding)
    (database : Database) : Fallible Database := do
  let mode ← requestedMode task.mode
  validateConnectorTaskWorkspaceShape mode task.isolated task.targetRoot task.executionRoot
    task.baselineCommit task.baselineTree
  ensure (database.grants.contains (task.projectId, task.subjectId)) .notFound
  ensure (!Table.has task.taskId database.tasks) (.storage "wc_tasks.id")
  ensure (!database.runIds.contains task.runId) (.storage "wc_runs.id")
  ensure (database.workspaces.contains task.workspaceId) (.storage "wc_runs.workspace_id")
  bindWindowContext binding
  return { database with tasks := database.tasks.insert task.taskId (.started task mode) }

/-- A request to the rows of a task, when they can be seen. -/
def request (taskId : String) (visible : TaskRows → Bool) (missing : ConnectorTaskStoreError)
    (request : TaskRequest) (database : Database) : Outcome :=
  match (database.tasks.lookup taskId).filter visible with
  | none => ⟨database, .error missing⟩
  | some rows =>
    match rows.handle database.keys request with
    | .error error => ⟨database, .error error⟩
    | .ok (after, answer) =>
      ⟨{ database with tasks := database.tasks.insert taskId after }, .ok answer⟩

/-- `reconcile_connector_startup`: all runs of the project are reconciled, or none. -/
def reconcileConnectorStartup (projectId : String) (now : ℤ) (database : Database) : Outcome :=
  let inProject := (Table.values database.tasks).filter fun rows ↦ rows.projectId == projectId
  match inProject.findSome? fun rows ↦
      match rows.reconcileConnectorExecutions now with
      | .error error => some error
      | .ok _ => none with
  | some error => ⟨database, .error error⟩
  | none =>
    let after := Table.mapValues (fun _ rows ↦
      if rows.projectId == projectId then
        (rows.reconcileConnectorExecutions now).toOption.getD rows
      else rows) database.tasks
    ⟨{ database with tasks := after }, .ok .done⟩

end Database

variable (database : Database)

def step : Operation → Outcome
  | .bind projectId subjectId workspaceId =>
    ⟨{ database with
      grants := (projectId, subjectId) :: database.grants
      workspaces := workspaceId :: database.workspaces }, .ok .done⟩
  | .start task binding =>
    match database.startConnectorTask task binding with
    | .error error => ⟨database, .error error⟩
    | .ok after => ⟨after, .ok .done⟩
  | .owner taskId projectId subjectId request =>
    database.request taskId
      (fun rows ↦ rows.projectId == projectId && rows.ownerSubjectId == subjectId) request.missing
      (.owner request)
  | .host taskId projectId request =>
    database.request taskId (fun rows ↦ rows.projectId == projectId) request.missing (.host request)
  | .execution executionId request =>
    match database.ownerOfExecution executionId with
    | none => ⟨database, .error .notFound⟩
    | some taskId =>
      database.request taskId (fun _ ↦ true) .notFound (.execution executionId request)
  | .abort taskId resultId =>
    match database.tasks.lookup taskId with
    | none => ⟨database, .ok .done⟩
    | some _ => database.request taskId (fun _ ↦ true) .notFound (.abort resultId)
  | .restart projectId now => database.reconcileConnectorStartup projectId now

/-- The state after a sequence of operations. -/
def run (operations : List Operation) : Database :=
  operations.foldl (fun state operation ↦ (step state operation).database) database

@[simp] theorem run_nil : run database [] = database := rfl

@[simp] theorem run_cons (operation : Operation) (rest : List Operation) :
    run database (operation :: rest) = run (step database operation).database rest := rfl

theorem run_append (first second : List Operation) :
    run database (first ++ second) = run (run database first) second := by
  simp [run, List.foldl_append]

end WebCodex.TaskStore
