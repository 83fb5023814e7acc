import WebCodex.AgentTasks.CodingRun
import WebCodex.Foundation.Keyed

/-!
The store keeps agent tasks, their attempts, and the backend that an attempt is bound to: the run of
a coding agent or the continuation of an endpoint. Every row belongs to a task and is reached
through it, so the rows are grouped by their task (`AgentTaskRows`), as the connector tasks are.
-/

namespace WebCodex.AgentTasks

open Foundation

structure CommunicationStoreError where
  (code message : String)
  deriving DecidableEq

abbrev Fallible := Except CommunicationStoreError

def storeError : CommunicationStoreError :=
  ⟨"communication_store_unavailable", "Durable communication store is unavailable"⟩

def storageInvariant (message : String) : CommunicationStoreError :=
  ⟨"agent_task_storage_invariant", message⟩

structure CommunicationPrincipal where
  (kind digest : String)
  deriving DecidableEq

def isLowerHex (c : Char) : Bool :=
  let n := c.toNat
  (0x30 ≤ n && n ≤ 0x39) || (0x61 ≤ n && n ≤ 0x66)

def stripStart (start value : String) : Option (List Char) := start.toList.isPrefixOf? value.toList

/-- The text is `start` and a number of lower-case hexadecimal digits. -/
def isHexId (start value : String) (digits : ℕ) : Bool :=
  (stripStart start value).any fun rest ↦ rest.length == digits && rest.all isLowerHex

def validateId (value start code : String) : Fallible Unit :=
  ensure (isHexId start value 32) ⟨code, "Invalid canonical id: " ++ value⟩

def validateCommunicationPrincipal (principal : CommunicationPrincipal) : Fallible Unit := do
  let kind := Text.trim principal.kind.toList
  ensure (!(kind.isEmpty || decide (64 < kind.length)) &&
      kind.all fun c ↦ c.isAlphanum || c == '_' || c == '-' || c == ':' || c == '.')
    ⟨"invalid_communication_principal", "Communication principal kind is invalid"⟩
  ensure (isHexId "wc_commprincipal_" principal.digest 64)
    ⟨"invalid_communication_principal", "Communication principal digest is invalid"⟩

def validateIdempotencyKey (value : String) : Fallible String := do
  let value := Text.trim value.toList
  ensure (!(value.isEmpty || decide (128 < value.length)))
    ⟨"invalid_communication_idempotency_key", "idempotency_key must contain 1..=128 characters"⟩
  return String.ofList value

def validateAgentTaskId (taskId : String) : Fallible Unit :=
  validateId taskId "wc_agent_task_" "invalid_agent_task_id"

def validateAttemptId (attemptId : String) : Fallible Unit :=
  validateId attemptId "wc_agent_task_attempt_" "invalid_agent_task_attempt_id"

def validateAgentId (agentId : String) : Fallible Unit :=
  validateId agentId "wc_dagent_" "invalid_agent_id"

inductive AgentTaskState
  | ready | active | succeeded | failed
  deriving DecidableEq

def AgentTaskState.terminal : AgentTaskState → Bool
  | succeeded | failed => true
  | _ => false

inductive AgentTaskAttemptState
  | active | expired | succeeded | failed
  deriving DecidableEq

inductive DispatchState
  | prepared | notStarted | outcomeUnknown | bound | terminal
  deriving DecidableEq

def DispatchState.blocksReplacement : DispatchState → Bool
  | outcomeUnknown | bound => true
  | _ => false

/-- No dispatch was made, or the last one is known not to have started anything. -/
def DispatchState.mayDispatch : DispatchState → Bool
  | prepared | notStarted => true
  | _ => false

structure StoredAttempt where
  attemptId : String
  attemptNumber : ℤ
  assigneeAgentId : String
  storedState : AgentTaskAttemptState := .active
  leaseExpiresAt : ℤ
  attemptFence : String
  controllerGeneration : ℤ := 1
  createdAt : ℤ
  terminalAt : Option ℤ := none
  terminalResult : Option String := none
  terminalReason : Option String := none

/-- `AgentTaskCodingRunBindingIntent`. -/
structure BindingIntent where
  (runId runtimeProjectId providerId providerInstanceId authorityFingerprint : String)
  (codingAgentIntentFingerprint bindingIntentFingerprint : String)

/-- `AgentTaskCodingRunObservation`. -/
structure Observation where
  (runId runtimeProjectId providerId providerInstanceId authorityFingerprint : String)
  codingAgentIntentFingerprint : String
  runState : CodingAgentRunState
  executionState : CodingAgentExecutionState
  observationRevision : ℤ
  terminalStopReason : Option String := none
  terminalErrorCode : Option String := none
  terminalMessage : Option String := none
  completedAt : Option ℤ := none

/-- `AgentTaskCodingRunBindingRecord`. -/
structure CodingRunBinding where
  (attemptId runId runtimeProjectId providerId providerInstanceId authorityFingerprint : String)
  (codingAgentIntentFingerprint bindingIntentFingerprint : String)
  dispatchState : DispatchState := .prepared
  lastObservedRunState : Option CodingAgentRunState := none
  lastObservedExecutionState : Option CodingAgentExecutionState := none
  lastObservationRevision : Option ℤ := none
  terminalStopReason : Option String := none
  terminalErrorCode : Option String := none
  terminalMessage : Option String := none
  completedAt : Option ℤ := none
  (createdAt updatedAt : ℤ)
  terminalAt : Option ℤ := none
  deriving DecidableEq

/-- What a caller says about the attempt that it acts for. -/
structure AttemptAssertion where
  (attemptId assigneeAgentId attemptFence : String)
  controllerGeneration : ℤ
  deriving DecidableEq

/-- An endpoint execution of an attempt, with what its caller said when it was started (the store
keeps a digest of that). The state of its wake is kept with the wakes. -/
structure EndpointExecution where
  (attemptId wakeId : String)
  startIdentity : AttemptAssertion
  createdAt : ℤ
  deriving DecidableEq

structure AgentTaskRows where
  owner : CommunicationPrincipal
  assigneeAgentId : Option String
  (title instruction : String)
  sourceConversationId : Option String := none
  sourceMessageId : Option String := none
  referencedProjectId : Option String := none
  storedState : AgentTaskState := .ready
  latestAttemptId : Option String := none
  terminalAttemptId : Option String := none
  (createdAt updatedAt : ℤ)
  terminalAt : Option ℤ := none
  attempts : List StoredAttempt := []
  codingRuns : List CodingRunBinding := []
  endpointExecutions : List EndpointExecution := []

/-- `AgentTaskAttemptRecord`: what a caller sees of an attempt. -/
structure AttemptRecord where
  attemptId : String
  attemptNumber : ℤ
  assigneeAgentId : String
  state : AgentTaskAttemptState
  leaseExpiresAt : ℤ
  leaseActive : Bool
  (controllerGeneration createdAt : ℤ)
  terminalAt : Option ℤ
  (terminalResult terminalReason : Option String)
  deriving DecidableEq

def StoredAttempt.effectiveState (now : ℤ) (attempt : StoredAttempt) : AgentTaskAttemptState :=
  if attempt.storedState = .active ∧ attempt.leaseExpiresAt ≤ now then .expired
  else attempt.storedState

def StoredAttempt.record (now : ℤ) (attempt : StoredAttempt) : AttemptRecord where
  attemptId := attempt.attemptId
  attemptNumber := attempt.attemptNumber
  assigneeAgentId := attempt.assigneeAgentId
  state := attempt.effectiveState now
  leaseExpiresAt := attempt.leaseExpiresAt
  leaseActive := attempt.effectiveState now == .active
  controllerGeneration := attempt.controllerGeneration
  createdAt := attempt.createdAt
  terminalAt := attempt.terminalAt
  terminalResult := attempt.terminalResult
  terminalReason := attempt.terminalReason

/-- Addition of two `i64`. -/
def saturatingAdd (a b : ℤ) : ℤ := max (-2 ^ 63) (min (2 ^ 63 - 1) (a + b))

/-- `DEFAULT_AGENT_TASK_ATTEMPT_LEASE_MS`. -/
def defaultLease : ℤ := 60000

namespace AgentTaskRows

variable (attemptId : String)

def findAttempt (rows : AgentTaskRows) : Option StoredAttempt :=
  rows.attempts.find? fun attempt ↦ attempt.attemptId == attemptId

def loadAttemptForTask (rows : AgentTaskRows) : Fallible (Option StoredAttempt) := do
  validateAttemptId attemptId
  return rows.findAttempt attemptId

def loadCodingRunBindingForAttempt (rows : AgentTaskRows) :
    Option CodingRunBinding :=
  rows.codingRuns.find? fun binding ↦ binding.attemptId == attemptId

def loadEndpointExecutionForAttempt (rows : AgentTaskRows) :
    Option EndpointExecution :=
  rows.endpointExecutions.find? fun execution ↦ execution.attemptId == attemptId

def latestAttempt (rows : AgentTaskRows) : Option StoredAttempt :=
  rows.latestAttemptId.bind fun attemptId ↦ rows.findAttempt attemptId

def latestCodingRun (rows : AgentTaskRows) : Option CodingRunBinding :=
  rows.latestAttemptId.bind fun attemptId ↦ rows.loadCodingRunBindingForAttempt attemptId

/-- The latest attempt, which `load_owned_task` reads together with the row of the task. -/
def loadLatestAttempt (rows : AgentTaskRows) : Fallible Unit :=
  match rows.latestAttemptId with
  | none => .ok ()
  | some attemptId => do
    let attempt ← rows.loadAttemptForTask attemptId
    ensure attempt.isSome (storageInvariant "AgentTask latest Attempt is missing")

/-- An execution of the latest attempt stands in the way of another attempt. -/
def blocked (rows : AgentTaskRows) : Bool :=
  rows.latestCodingRun.any fun binding ↦ binding.dispatchState.blocksReplacement

/-- `blocking_execution_error`, as the check that it is made for. -/
def requireUnblocked (rows : AgentTaskRows) : Fallible Unit :=
  match rows.latestCodingRun.filter fun binding ↦ binding.dispatchState.blocksReplacement with
  | none => .ok ()
  | some binding =>
    .error <|
      if binding.dispatchState == .outcomeUnknown || binding.lastObservedRunState == some .lost then
        ⟨"agent_task_execution_outcome_unknown",
          "AgentTask has a CodingAgent execution whose outcome is unresolved; reconcile the exact bound Run before replacement"⟩
      else
        ⟨"agent_task_execution_active",
          "AgentTask has a bound CodingAgent execution that must be reconciled before replacement"⟩

/-- The latest attempt is active in its row, whatever its lease. -/
def attemptActive (rows : AgentTaskRows) : Bool :=
  rows.latestAttempt.any fun attempt ↦ attempt.storedState == .active

/-- The attempts after an update of one of them. -/
def setAttempt (f : StoredAttempt → StoredAttempt) (rows : AgentTaskRows) :
    AgentTaskRows :=
  { rows with attempts := rows.attempts.map (updateRow StoredAttempt.attemptId attemptId f) }

/-- The coding runs after an update of one of them. -/
def setCodingRun (f : CodingRunBinding → CodingRunBinding) (rows : AgentTaskRows) : AgentTaskRows :=
  { rows with codingRuns := rows.codingRuns.map (updateRow CodingRunBinding.attemptId attemptId f) }

def touch (now : ℤ) (rows : AgentTaskRows) : AgentTaskRows :=
  { rows with updatedAt := max rows.updatedAt now }

def terminate (outcome : AgentTaskState) (attemptState : AgentTaskAttemptState)
    (terminalResult terminalReason : Option String) (now : ℤ) (rows : AgentTaskRows) :
    AgentTaskRows :=
  let rows := rows.setAttempt attemptId fun attempt ↦
    { attempt with storedState := attemptState, terminalAt := some now,
                   terminalResult := terminalResult, terminalReason := terminalReason }
  { rows with
    storedState := outcome
    terminalAttemptId := some attemptId
    terminalAt := some now
    updatedAt := max rows.updatedAt now }

/-- `materialize_expired_latest_attempt`. The endpoint execution of the attempt keeps its row; its
wake is retired with the wakes. -/
def materializeExpiredLatestAttempt (now : ℤ) (rows : AgentTaskRows) : AgentTaskRows :=
  match rows.latestAttempt with
  | none => rows
  | some attempt =>
    if attempt.storedState = .active ∧ attempt.leaseExpiresAt ≤ now then
      let expired := rows.setAttempt attempt.attemptId fun attempt ↦
        if attempt.storedState = .active then
          { attempt with storedState := .expired, terminalAt := some now }
        else attempt
      if rows.blocked = false ∧ rows.storedState = .active then
        { expired with storedState := .ready, updatedAt := max rows.updatedAt now }
      else expired
    else rows

def taskTerminalError : CommunicationStoreError :=
  ⟨"agent_task_terminal", "AgentTask is terminal and cannot start or mutate execution ownership"⟩

end AgentTaskRows

def validateAttemptMutationInputs (principal : CommunicationPrincipal) (taskId : String)
    (asserted : AttemptAssertion) : Fallible Unit := do
  validateCommunicationPrincipal principal
  validateAgentTaskId taskId
  validateAttemptId asserted.attemptId
  validateAgentId asserted.assigneeAgentId
  validateId asserted.attemptFence "wc_agent_task_fence_" "invalid_agent_task_attempt_fence"
  ensure (decide (1 ≤ asserted.controllerGeneration))
    ⟨"invalid_agent_task_attempt_controller_generation",
      "attempt_controller_generation must be at least 1"⟩

namespace AgentTaskRows

def staleError (message : String) : CommunicationStoreError := ⟨"agent_task_attempt_stale", message⟩

def attemptNotFound (message : String) : CommunicationStoreError :=
  ⟨"agent_task_attempt_not_found", message⟩

def requireCurrentAttempt (asserted : AttemptAssertion) (now : ℤ) (rows : AgentTaskRows) :
    Fallible StoredAttempt := do
  ensure (!rows.storedState.terminal) taskTerminalError
  ensure (rows.latestAttemptId == some asserted.attemptId)
    (staleError "AgentTaskAttempt is not the latest authoritative Attempt")
  ensure (rows.assigneeAgentId == some asserted.assigneeAgentId) ⟨"agent_task_assignee_mismatch",
      "AgentTask current assignee does not match the Attempt caller assertion"⟩
  let found ← rows.loadAttemptForTask asserted.attemptId
  let attempt ← required found (attemptNotFound "AgentTaskAttempt does not exist")
  ensure (attempt.assigneeAgentId == asserted.assigneeAgentId &&
      attempt.attemptFence == asserted.attemptFence &&
      attempt.controllerGeneration == asserted.controllerGeneration)
    (staleError "AgentTaskAttempt fence, assignee, or controller generation is stale")
  ensure (attempt.storedState == .active && decide (now < attempt.leaseExpiresAt))
    (staleError "AgentTaskAttempt is terminal, superseded, or its lease has expired")
  return attempt

end AgentTaskRows

end WebCodex.AgentTasks
