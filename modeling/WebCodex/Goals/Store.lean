import Mathlib.Data.List.Sort
import WebCodex.AgentTasks.Rows

/-!
A goal is an objective of a principal with the agent tasks and workflow sessions that it is
correlated with (`GoalRow`). The store keeps a row for every request key that has taken effect
(`IdempotencyRow`); digests are taken to have no collisions, and a row keeps the key and the
request. An id is drawn by the caller, and one that is taken is refused.
-/

namespace WebCodex.Goals

open Foundation
open AgentTasks (CommunicationPrincipal CommunicationStoreError validateCommunicationPrincipal
  validateId saturatingAdd)

structure GoalStoreError where
  (code message : String)
  currentRevision : Option ℤ := none

abbrev Fallible := Except GoalStoreError

namespace GoalStoreError

def revisionChanged (currentRevision : ℤ) : GoalStoreError := ⟨"goal_revision_changed",
    "Goal changed; current authoritative revision is " ++ toString currentRevision,
    some currentRevision⟩

/-- `goal_store_error`. -/
def unavailable : GoalStoreError :=
    ⟨"goal_store_unavailable", "Durable Goal store is unavailable", none⟩

/-- `persisted_goal_state_error`. -/
def persistedGoalState : GoalStoreError :=
  ⟨"goal_store_unavailable", "Durable Goal store contains invalid persisted state", none⟩

def notFound : GoalStoreError := ⟨"goal_not_found", "Goal does not exist", none⟩

def terminal : GoalStoreError := ⟨"goal_terminal", "Terminal Goal state is immutable", none⟩

def idempotencyConflict (message : String) : GoalStoreError :=
  ⟨"goal_idempotency_conflict", message, none⟩

end GoalStoreError

def mapCommunicationValidationError {A : Type} : Except CommunicationStoreError A → Fallible A :=
  Except.mapError fun error ↦ ⟨error.code, error.message, none⟩

def maxGoalTitleChars : ℕ := 200
def maxGoalObjectiveBytes : ℕ := 8192
def maxGoalTerminalReasonBytes : ℕ := 4096
def maxGoalCorrelations : ℕ := 64
def maxGoalIdempotencyKeyChars : ℕ := 128

inductive GoalLifecycle
  | active | completed | cancelled
  deriving DecidableEq

def GoalLifecycle.terminal : GoalLifecycle → Bool
  | completed | cancelled => true
  | active => false

inductive GoalCorrelationKind
  | agentTask | workflowSession
  deriving DecidableEq

def GoalCorrelationKind.asStr : GoalCorrelationKind → String
  | agentTask => "agent_task"
  | workflowSession => "workflow_session"

structure GoalCorrelation where
  kind : GoalCorrelationKind
  referenceId : String
  createdAtUnixMs : ℤ

structure GoalSummary where
  (goalId title : String)
  lifecycle : GoalLifecycle
  (revision createdAtUnixMs updatedAtUnixMs : ℤ)
  terminalAtUnixMs : Option ℤ
  (agentTaskCount workflowSessionCount : ℤ)

structure GoalDetail where
  summary : GoalSummary
  objective : String
  terminalReason : Option String
  correlations : List GoalCorrelation

structure GoalMutation where
  goal : GoalDetail
  (created replayed stateChanged : Bool)

structure NewGoal where
  (title objective idempotencyKey : String)

structure GoalPatch where
  title : Option String := none
  objective : Option String := none
  lifecycle : Option GoalLifecycle := none
  terminalReason : Option String := none

def validateGoalPrincipal (principal : CommunicationPrincipal) : Fallible Unit :=
  mapCommunicationValidationError (validateCommunicationPrincipal principal)

def validateGoalId (goalId : String) : Fallible Unit :=
  mapCommunicationValidationError (validateId goalId "wc_goal_" "invalid_goal_id")

/-- The check of the id that a correlation refers to. -/
def validateReference : GoalCorrelationKind → String → Except CommunicationStoreError Unit
  | .agentTask, taskId => validateId taskId "wc_agent_task_" "invalid_agent_task_id"
  | .workflowSession, sessionId => validateId sessionId "wc_sess_" "invalid_workflow_session_id"

/-- A text without its outer white space, when it is not empty and not too large. -/
def validateText (size : String → ℕ) (maximum : ℕ) (error : GoalStoreError) (value : String) :
    Fallible String := do
  let value := String.ofList (Text.trim value.toList)
  ensure (!(value.isEmpty || decide (maximum < size value))) error
  return value

def validateTitle : String → Fallible String := validateText String.length maxGoalTitleChars
    ⟨"invalid_goal_title", "Goal title must contain 1..=200 characters", none⟩

def validateObjective : String → Fallible String :=
  validateText String.utf8ByteSize maxGoalObjectiveBytes
    ⟨"invalid_goal_objective", "Goal objective must contain 1..=8192 UTF-8 bytes", none⟩

def validateTerminalReason : String → Fallible String :=
  validateText String.utf8ByteSize maxGoalTerminalReasonBytes
    ⟨"invalid_goal_terminal_reason", "Goal terminal_reason must contain 1..=4096 UTF-8 bytes", none⟩

def validateIdempotencyKey : String → Fallible String :=
  validateText String.length maxGoalIdempotencyKeyChars
    ⟨"invalid_goal_idempotency_key", "idempotency_key must contain 1..=128 characters", none⟩

/-- The check of a field that need not be given. -/
def validateOptional (validate : String → Fallible String) :
    Option String → Fallible (Option String)
  | none => .ok none
  | some value => some <$> validate value

/-- A row of `wc_goals` with its rows of `wc_goal_correlations`. -/
structure GoalRow where
  goalId : String
  owner : CommunicationPrincipal
  (title objective : String)
  lifecycle : GoalLifecycle := .active
  revision : ℤ := 1
  (createdAtUnixMs updatedAtUnixMs : ℤ)
  terminalAtUnixMs : Option ℤ := none
  terminalReason : Option String := none
  correlations : List GoalCorrelation := []

inductive GoalOperation
  | createGoal | updateGoal | associateGoalAgentTask | associateGoalWorkflowSession
  deriving DecidableEq

/-- What `goal_request_hash` is taken of. -/
inductive GoalRequest
  | create (title objective : String)
  | update (goalId : String) (expectedRevision : ℤ) (title objective : Option String)
      (lifecycle : Option GoalLifecycle) (terminalReason : Option String)
  | associate (goalId : String) (kind : GoalCorrelationKind) (referenceId : String)
  deriving DecidableEq

/-- The primary key of `wc_goal_idempotency`. -/
structure RequestKey where
  principalDigest : String
  operation : GoalOperation
  idempotencyKey : String
  deriving DecidableEq

structure IdempotencyRow where
  key : RequestKey
  request : GoalRequest
  goalId : String
  createdAtUnixMs : ℤ

structure GoalStore where
  goals : List GoalRow := []
  idempotency : List IdempotencyRow := []

/-- An insertion into a table with a primary key. -/
def insertRow {A K : Type} [DecidableEq K] (key : A → K) (row : A) (rows : List A) :
    Fallible (List A) :=
  if key row ∈ rows.map key then .error .unavailable else .ok (rows ++ [row])

/-! ### Reading -/

/-- `ORDER BY created_at_unix_ms, kind, reference_id`. -/
def GoalCorrelation.precedes (first second : GoalCorrelation) : Bool :=
  if first.createdAtUnixMs = second.createdAtUnixMs then
    if first.kind = second.kind then decide (first.referenceId ≤ second.referenceId)
    else decide (first.kind.asStr ≤ second.kind.asStr)
  else decide (first.createdAtUnixMs ≤ second.createdAtUnixMs)

namespace GoalRow

def countOf (kind : GoalCorrelationKind) (row : GoalRow) : ℤ :=
  row.correlations.countP fun correlation ↦ correlation.kind == kind

def detail (row : GoalRow) : GoalDetail where
  summary :=
    { goalId := row.goalId
      title := row.title
      lifecycle := row.lifecycle
      revision := row.revision
      createdAtUnixMs := row.createdAtUnixMs
      updatedAtUnixMs := row.updatedAtUnixMs
      terminalAtUnixMs := row.terminalAtUnixMs
      agentTaskCount := row.countOf .agentTask
      workflowSessionCount := row.countOf .workflowSession }
  objective := row.objective
  terminalReason := row.terminalReason
  correlations := (row.correlations.insertionSort fun first second ↦ first.precedes second).take
    (maxGoalCorrelations + 1)

end GoalRow

/-- A check of a stored text: it is what the check of an input makes of it. -/
def validateLoadedText (validate : String → Fallible String) (value : String) : Fallible Unit :=
  ensure ((validate value).toOption == some value) .persistedGoalState

def validateLoadedGoalSummary (summary : GoalSummary) : Fallible Unit := do
  validateLoadedText validateTitle summary.title
  ensure (!(decide (summary.revision < 1) || decide (summary.agentTaskCount < 0) ||
      decide (summary.workflowSessionCount < 0) ||
      decide ((maxGoalCorrelations : ℤ) <
        saturatingAdd summary.agentTaskCount summary.workflowSessionCount) ||
      (summary.lifecycle == .active && summary.terminalAtUnixMs.isSome) ||
      (summary.lifecycle.terminal && summary.terminalAtUnixMs.isNone)))
    .persistedGoalState

def validateLoadedReason : Option String → Fallible Unit
  | none => .ok ()
  | some reason => validateLoadedText validateTerminalReason reason

def validateLoadedGoalDetail (detail : GoalDetail) : Fallible Unit := do
  validateLoadedGoalSummary detail.summary
  validateLoadedText validateObjective detail.objective
  ensure (!(detail.summary.lifecycle == .active && detail.terminalReason.isSome))
    .persistedGoalState
  validateLoadedReason detail.terminalReason
  ensure (decide (detail.correlations.length ≤ maxGoalCorrelations)) .persistedGoalState
  ensure (detail.correlations.all fun correlation ↦
    (validateReference correlation.kind correlation.referenceId).isOk) .persistedGoalState

/-- The row that was found is read. A revision beyond `i64` is stored as a real number, which is not
read as an integer. -/
def GoalRow.load (row : GoalRow) : Fallible GoalDetail := do
  ensure (decide (row.revision < 2 ^ 63)) .unavailable
  ensure (decide (saturatingAdd (row.countOf .agentTask) (row.countOf .workflowSession) ≤
    maxGoalCorrelations)) .persistedGoalState
  validateLoadedGoalDetail row.detail
  return row.detail

namespace GoalStore

def goal? (goalId : String) (store : GoalStore) : Option GoalRow :=
  store.goals.find? fun row ↦ row.goalId == goalId

def loadOwnedGoal (principal : CommunicationPrincipal) (goalId : String) (store : GoalStore) :
    Fallible GoalDetail := do
  validateGoalId goalId
  let row ← required ((store.goal? goalId).filter fun row ↦ row.owner == principal) .notFound
  row.load

def readGoal (principal : CommunicationPrincipal) (goalId : String) (store : GoalStore) :
    Fallible GoalDetail := do
  validateGoalPrincipal principal
  validateGoalId goalId
  store.loadOwnedGoal principal goalId

def lookupIdempotentGoal (key : RequestKey) (request : GoalRequest) (store : GoalStore) :
    Fallible (Option String) :=
  match store.idempotency.find? fun row ↦ row.key == key with
  | none => .ok none
  | some row =>
    if row.request = request then .ok (some row.goalId)
    else .error
      (.idempotencyConflict "Idempotency key was already used with a different Goal request")

/-- `SELECT COUNT(*)` over the correlations with an agent task of the active goals of an owner. -/
def activeGoalFanout (owner : CommunicationPrincipal) (taskId : String) (store : GoalStore) : ℕ :=
  ((store.goals.filter fun row ↦ row.lifecycle == .active && row.owner == owner).flatMap
    GoalRow.correlations).countP fun correlation ↦
      correlation.kind == .agentTask && correlation.referenceId == taskId

def setGoal (goalId : String) (f : GoalRow → GoalRow) (store : GoalStore) : GoalStore :=
  { store with goals := store.goals.map (updateRow GoalRow.goalId goalId f) }

def recordIdempotentGoal (key : RequestKey) (request : GoalRequest) (goalId : String) (now : ℤ)
    (store : GoalStore) : Fallible GoalStore := do
  let rows ← insertRow IdempotencyRow.key
    { key := key, request := request, goalId := goalId, createdAtUnixMs := now } store.idempotency
  return { store with idempotency := rows }

/-- The answer to a request whose key is recorded already. -/
def replay (principal : CommunicationPrincipal) (goalId : String) (store : GoalStore) :
    Fallible (GoalMutation × GoalStore) := do
  let goal ← store.loadOwnedGoal principal goalId
  return ({ goal := goal, created := false, replayed := true, stateChanged := false }, store)

/-- The end of a transaction: the key is recorded and the goal read back. -/
def finish (principal : CommunicationPrincipal) (key : RequestKey) (request : GoalRequest)
    (goalId : String) (now : ℤ) (created stateChanged : Bool) (store : GoalStore) :
    Fallible (GoalMutation × GoalStore) := do
  let store ← store.recordIdempotentGoal key request goalId now
  let goal ← store.loadOwnedGoal principal goalId
  return ({ goal := goal, created := created, replayed := false, stateChanged := stateChanged },
    store)

end GoalStore

/-- What an operation has checked before it opens its transaction. -/
structure Submission where
  key : RequestKey
  request : GoalRequest

/-- The checks of `create_goal_at`. -/
def submitCreate (principal : CommunicationPrincipal) (input : NewGoal) : Fallible Submission := do
  validateGoalPrincipal principal
  let title ← validateTitle input.title
  let objective ← validateObjective input.objective
  let idempotencyKey ← validateIdempotencyKey input.idempotencyKey
  return ⟨⟨principal.digest, .createGoal, idempotencyKey⟩, .create title objective⟩

/-- The checks of `update_goal_at`. -/
def submitUpdate (principal : CommunicationPrincipal) (goalId : String) (expectedRevision : ℤ)
    (patch : GoalPatch) (idempotencyKey : String) : Fallible Submission := do
  validateGoalPrincipal principal
  validateGoalId goalId
  ensure (decide (1 ≤ expectedRevision))
    ⟨"invalid_goal_revision", "expected_revision must be at least 1", none⟩
  let title ← validateOptional validateTitle patch.title
  let objective ← validateOptional validateObjective patch.objective
  let terminalReason ← validateOptional validateTerminalReason patch.terminalReason
  ensure (title.isSome || objective.isSome || patch.lifecycle.isSome || terminalReason.isSome)
    ⟨"goal_update_empty", "Goal update must change bounded metadata or lifecycle", none⟩
  ensure (!terminalReason.isSome || patch.lifecycle.any GoalLifecycle.terminal)
    ⟨"goal_terminal_reason_requires_terminal_lifecycle",
      "terminal_reason requires an explicit completed or cancelled lifecycle transition", none⟩
  let idempotencyKey ← validateIdempotencyKey idempotencyKey
  return ⟨⟨principal.digest, .updateGoal, idempotencyKey⟩,
    .update goalId expectedRevision title objective patch.lifecycle terminalReason⟩

def associationOperation : GoalCorrelationKind → GoalOperation
  | .agentTask => .associateGoalAgentTask
  | .workflowSession => .associateGoalWorkflowSession

/-- The checks of `associate_goal_agent_task` and `associate_goal_workflow_session`, each with those
of `associate_goal_reference`. -/
def submitAssociation (principal : CommunicationPrincipal) (goalId : String)
    (kind : GoalCorrelationKind) (referenceId idempotencyKey : String) : Fallible Submission := do
  mapCommunicationValidationError (validateReference kind referenceId)
  validateGoalPrincipal principal
  validateGoalId goalId
  let idempotencyKey ← validateIdempotencyKey idempotencyKey
  return ⟨⟨principal.digest, associationOperation kind, idempotencyKey⟩,
    .associate goalId kind referenceId⟩

/-! ### Transactions -/

def GoalRow.withUpdate (title objective : String) (lifecycle : GoalLifecycle)
    (terminalReason : Option String) (now : ℤ) (row : GoalRow) : GoalRow :=
  { row with
    title := title
    objective := objective
    lifecycle := lifecycle
    revision := row.revision + 1
    updatedAtUnixMs := now
    terminalAtUnixMs := if lifecycle.terminal then some now else none
    terminalReason := if lifecycle.terminal then terminalReason else none }

/-- The row after a correlation was inserted. -/
def GoalRow.withCorrelation (kind : GoalCorrelationKind) (referenceId : String) (now : ℤ)
    (row : GoalRow) : GoalRow :=
  { row with
    correlations := row.correlations ++ [⟨kind, referenceId, now⟩]
    revision := row.revision + 1
    updatedAtUnixMs := now }

namespace GoalStore

/-- The transaction of `create_goal_at`. -/
def createGoal (principal : CommunicationPrincipal) (key : RequestKey) (title objective : String)
    (now : ℤ) (newId : String) (store : GoalStore) : Fallible (GoalMutation × GoalStore) := do
  let request := GoalRequest.create title objective
  match ← store.lookupIdempotentGoal key request with
  | some goalId => store.replay principal goalId
  | none =>
    let goals ← insertRow GoalRow.goalId
      { goalId := newId, owner := principal, title := title, objective := objective,
        createdAtUnixMs := now, updatedAtUnixMs := now } store.goals
    { store with goals := goals }.finish principal key request newId now true true

/-- The transaction of `update_goal_at`. -/
def updateGoal (principal : CommunicationPrincipal) (key : RequestKey) (goalId : String)
    (expectedRevision : ℤ) (title objective : Option String) (lifecycle : Option GoalLifecycle)
    (terminalReason : Option String) (now : ℤ) (store : GoalStore) :
    Fallible (GoalMutation × GoalStore) := do
  let request := GoalRequest.update goalId expectedRevision title objective lifecycle terminalReason
  match ← store.lookupIdempotentGoal key request with
  | some replayedGoalId => do
    ensure (replayedGoalId == goalId)
      (.idempotencyConflict "Goal update idempotency replay points at a different Goal")
    store.replay principal goalId
  | none => do
    let current ← store.loadOwnedGoal principal goalId
    ensure (current.summary.revision == expectedRevision)
      (.revisionChanged current.summary.revision)
    ensure (!current.summary.lifecycle.terminal) .terminal
    let targetLifecycle := lifecycle.getD .active
    let targetTitle := title.getD current.summary.title
    let targetObjective := objective.getD current.objective
    let stateChanged := targetTitle != current.summary.title ||
      targetObjective != current.objective || targetLifecycle != current.summary.lifecycle ||
      terminalReason != current.terminalReason
    let changed :=
      if stateChanged then
        store.setGoal goalId
          (GoalRow.withUpdate targetTitle targetObjective targetLifecycle terminalReason now)
      else store
    changed.finish principal key request goalId now false stateChanged

def hasCorrelation (goalId : String) (kind : GoalCorrelationKind) (referenceId : String)
    (store : GoalStore) : Bool :=
  (store.goal? goalId).any fun row ↦ row.correlations.any fun correlation ↦
    correlation.kind == kind && correlation.referenceId == referenceId

/-- The checks on the way of a new correlation. -/
def checkCapacity (principal : CommunicationPrincipal) (goalId : String)
    (kind : GoalCorrelationKind) (referenceId : String) (store : GoalStore) : Fallible Unit := do
  ensure (decide (((store.goal? goalId).elim 0 fun row ↦ row.correlations.length) <
      maxGoalCorrelations))
    ⟨"goal_correlation_capacity_exceeded", "Goal correlation count is limited to 64", none⟩
  ensure (kind != .agentTask ||
      decide (store.activeGoalFanout principal referenceId < maxGoalCorrelations))
    ⟨"goal_agent_task_fanout_capacity_exceeded",
      "One AgentTask may be correlated to at most 64 active Goals per owner", none⟩

/-- The transaction of `associate_goal_reference`. -/
def associateGoal (principal : CommunicationPrincipal) (key : RequestKey) (goalId : String)
    (kind : GoalCorrelationKind) (referenceId : String) (now : ℤ) (store : GoalStore) :
    Fallible (GoalMutation × GoalStore) := do
  let request := GoalRequest.associate goalId kind referenceId
  match ← store.lookupIdempotentGoal key request with
  | some replayedGoalId => do
    ensure (replayedGoalId == goalId)
      (.idempotencyConflict "Goal association idempotency replay points at a different Goal")
    store.replay principal goalId
  | none => do
    let current ← store.loadOwnedGoal principal goalId
    ensure (!current.summary.lifecycle.terminal) .terminal
    if store.hasCorrelation goalId kind referenceId then
      store.finish principal key request goalId now false false
    else do
      store.checkCapacity principal goalId kind referenceId
      (store.setGoal goalId (GoalRow.withCorrelation kind referenceId now)).finish
        principal key request goalId now false true

/-- The transaction of a request, which holds everything that the transaction needs. -/
def transact (principal : CommunicationPrincipal) (submission : Submission) (now : ℤ)
    (newId : String) (store : GoalStore) : Fallible (GoalMutation × GoalStore) :=
  match submission.request with
  | .create title objective => store.createGoal principal submission.key title objective now newId
  | .update goalId expectedRevision title objective lifecycle terminalReason =>
    store.updateGoal principal submission.key goalId expectedRevision title objective lifecycle
      terminalReason now
  | .associate goalId kind referenceId =>
    store.associateGoal principal submission.key goalId kind referenceId now

end GoalStore

/-- A call, with the clock and, for a new goal, the id that it draws. -/
inductive Call
  | createGoalAt (principal : CommunicationPrincipal) (input : NewGoal) (now : ℤ) (newId : String)
  | updateGoalAt (principal : CommunicationPrincipal) (goalId : String) (expectedRevision : ℤ)
      (patch : GoalPatch) (idempotencyKey : String) (now : ℤ)
  | associateGoalReference (principal : CommunicationPrincipal) (goalId : String)
      (kind : GoalCorrelationKind) (referenceId idempotencyKey : String) (now : ℤ)

namespace Call

def principal : Call → CommunicationPrincipal
  | createGoalAt principal .. | updateGoalAt principal .. | associateGoalReference principal .. =>
    principal

def now : Call → ℤ
  | createGoalAt _ _ now _ | updateGoalAt _ _ _ _ _ now | associateGoalReference _ _ _ _ _ now =>
    now

def newId : Call → String
  | createGoalAt _ _ _ newId => newId
  | _ => ""

def submit : Call → Fallible Submission
  | createGoalAt principal input _ _ => submitCreate principal input
  | updateGoalAt principal goalId expectedRevision patch idempotencyKey _ =>
    submitUpdate principal goalId expectedRevision patch idempotencyKey
  | associateGoalReference principal goalId kind referenceId idempotencyKey _ =>
    submitAssociation principal goalId kind referenceId idempotencyKey

def perform (call : Call) (store : GoalStore) : Fallible (GoalMutation × GoalStore) := do
  let submission ← call.submit
  store.transact call.principal submission call.now call.newId

def answer (call : Call) (store : GoalStore) : Fallible GoalMutation := Prod.fst <$>
    call.perform store

/-- The store after a call. A transaction that fails is rolled back. -/
def next (call : Call) (store : GoalStore) : GoalStore :=
  match call.perform store with
  | .ok result => result.2
  | .error _ => store

end Call

def run (calls : List Call) : GoalStore := calls.foldl (fun store call ↦ call.next store) {}

end WebCodex.Goals
