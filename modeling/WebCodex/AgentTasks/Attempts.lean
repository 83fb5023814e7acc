import WebCodex.AgentTasks.Rows

/-!
The operations on the attempts of a task are functions of its rows. What the other tables of the
database answer is passed in: whether the principal owns an agent, the ids in use, and the
attention events of a completion. An attempt can hand its work to a coding agent; only the caller
that claims the dispatch may send the work to a runner (`claimDispatch`). From then on the binding
blocks another attempt until the dispatch is recorded as not started, or the task was reconciled
with the end of the run (`terminalizeCodingRun`).
-/

namespace WebCodex.AgentTasks

open Foundation

/-- The values of unique columns that are in use in the tables of all tasks. -/
structure Keys where
  (attemptIds attemptFences runIds wakeIds : List String)

structure NewAttempt where
  (attemptId attemptFence : String)

/-- What a caller says of the end of an attempt. -/
structure Completion where
  outcome : AgentTaskState
  (terminalResult terminalReason : Option String)
  deriving DecidableEq

def validateOptionalTerminalText (value : Option String) (label : String) :
    Fallible (Option String) :=
  match value with
  | none => .ok none
  | some value => do
    let text := String.ofList (Text.trim value.toList)
    ensure (!(text.isEmpty || decide (4096 < text.utf8ByteSize)))
        ⟨"invalid_agent_task_terminal_text",
          label ++ " must contain 1..=4096 UTF-8 bytes when provided"⟩
    return some text

def requireOwnedAgent (owned : Bool) : Fallible Unit :=
  ensure owned ⟨"agent_not_found", "Agent identity does not exist"⟩

/-- The state of an attempt whose task ends with the outcome. -/
def AgentTaskState.attemptState : AgentTaskState → AgentTaskAttemptState
  | succeeded => .succeeded
  | _ => .failed

namespace AgentTaskRows

/-- `assign_agent_task`. -/
def assign (owned : Bool) (assigneeAgentId : String) (now : ℤ) (rows : AgentTaskRows) :
    Fallible (AgentTaskRows × Bool) := do
  ensure (!rows.storedState.terminal) taskTerminalError
  requireOwnedAgent owned
  let rows := rows.materializeExpiredLatestAttempt now
  if rows.assigneeAgentId = some assigneeAgentId then return (rows, false)
  else do
    rows.requireUnblocked
    ensure (!rows.attemptActive) ⟨"agent_task_attempt_active",
        "AgentTask has an unexpired active Attempt; reassignment is fenced"⟩
    return ({ rows with
      assigneeAgentId := some assigneeAgentId
      storedState := .ready
      updatedAt := max now rows.updatedAt }, true)

def nextAttemptNumber (rows : AgentTaskRows) : ℤ :=
  match rows.latestAttempt with
  | some attempt => saturatingAdd attempt.attemptNumber 1
  | none => 1

/-- The unique columns of the attempts admit a row: ids and fences are unique among all tasks,
numbers within the task, and no other attempt of the task is active. -/
def admitsAttempt (keys : Keys) (attempt : StoredAttempt) (rows : AgentTaskRows) : Bool :=
  !keys.attemptIds.contains attempt.attemptId &&
    !keys.attemptFences.contains attempt.attemptFence && rows.attempts.all fun other ↦
      other.attemptNumber != attempt.attemptNumber && other.storedState != .active

def addAttempt (attempt : StoredAttempt) (now : ℤ) (rows : AgentTaskRows) : AgentTaskRows :=
  { rows with
    attempts := rows.attempts ++ [attempt]
    storedState := .active
    latestAttemptId := some attempt.attemptId
    updatedAt := max now rows.updatedAt }

/-- `start_agent_task_attempt`, when the request is a new one. -/
def startAttempt (keys : Keys) (owned : Bool) (assigneeAgentId : String) (new : NewAttempt)
    (now : ℤ) (rows : AgentTaskRows) : Fallible (AgentTaskRows × StoredAttempt) := do
  ensure (!rows.storedState.terminal) taskTerminalError
  let current ← required rows.assigneeAgentId
    ⟨"agent_task_unassigned",
      "AgentTask must have an explicit assignee before an Attempt can start"⟩
  ensure (current == assigneeAgentId)
    ⟨"agent_task_assignee_mismatch",
      "Requested Agent does not match the AgentTask current assignee"⟩
  requireOwnedAgent owned
  let rows := rows.materializeExpiredLatestAttempt now
  rows.requireUnblocked
  ensure (!rows.attemptActive)
    ⟨"agent_task_attempt_active", "AgentTask already has an unexpired authoritative Attempt"⟩
  let attempt : StoredAttempt :=
    { attemptId := new.attemptId
      attemptNumber := rows.nextAttemptNumber
      assigneeAgentId := assigneeAgentId
      leaseExpiresAt := saturatingAdd now defaultLease
      attemptFence := new.attemptFence
      createdAt := now }
  ensure (rows.admitsAttempt keys attempt) storeError
  validateAttemptId attempt.attemptId
  return (rows.addAttempt attempt now, attempt)

/-- `start_agent_task_endpoint_continuation`; the flag says whether it was started before. -/
def startEndpointContinuation (keys : Keys) (asserted : AttemptAssertion) (wakeId : String)
    (now : ℤ) (rows : AgentTaskRows) : Fallible (AgentTaskRows × EndpointExecution × Bool) :=
  match rows.loadEndpointExecutionForAttempt asserted.attemptId with
  | some existing => do
    ensure (existing.startIdentity == asserted) ⟨"agent_task_endpoint_execution_binding_conflict",
        "AgentTaskAttempt Endpoint execution already exists for a different exact start identity"⟩
    return (rows, existing, true)
  | none => do
    let _ ← rows.requireCurrentAttempt asserted now
    ensure (rows.loadCodingRunBindingForAttempt asserted.attemptId).isNone
      ⟨"agent_task_execution_backend_conflict",
        "AgentTaskAttempt is already bound to the CodingAgentRun execution backend"⟩
    ensure (!keys.wakeIds.contains wakeId) storeError
    let execution : EndpointExecution := ⟨asserted.attemptId, wakeId, asserted, now⟩
    return ({ rows with endpointExecutions := rows.endpointExecutions ++ [execution] },
      execution, false)

/-- An attempt that was just changed, as its caller sees it. -/
def reread (attemptId message : String) (now : ℤ) (rows : AgentTaskRows) :
    Fallible AttemptRecord := do
  let found ← rows.loadAttemptForTask attemptId
  let attempt ← required found (attemptNotFound message)
  return attempt.record now

/-- `heartbeat_agent_task_attempt`. -/
def heartbeat (asserted : AttemptAssertion) (now : ℤ) (rows : AgentTaskRows) :
    Fallible (AgentTaskRows × AttemptRecord) := do
  let attempt ← rows.requireCurrentAttempt asserted now
  let lease := max attempt.leaseExpiresAt (saturatingAdd now defaultLease)
  let rows := (rows.setAttempt asserted.attemptId fun attempt ↦
    { attempt with leaseExpiresAt := lease }).touch now
  let record ← rows.reread asserted.attemptId "AgentTaskAttempt disappeared after heartbeat" now
  return (rows, record)

/-- `replace_agent_task_attempt_controller_in_transaction`. -/
def replaceController (asserted : AttemptAssertion) (now : ℤ) (rows : AgentTaskRows) :
    Fallible (AgentTaskRows × AttemptRecord) := do
  let attempt ← rows.requireCurrentAttempt asserted now
  let generation := saturatingAdd attempt.controllerGeneration 1
  let rows := (rows.setAttempt asserted.attemptId fun attempt ↦
    { attempt with controllerGeneration := generation }).touch now
  let record ← rows.reread asserted.attemptId
    "AgentTaskAttempt disappeared after controller replacement" now
  return (rows, record)

/-- `complete_agent_task_attempt`, when the request is a new one. -/
def complete (asserted : AttemptAssertion) (completion : Completion) (attention : Fallible ℕ)
    (now : ℤ) (rows : AgentTaskRows) : Fallible (AgentTaskRows × AttemptRecord × ℕ) := do
  let _ ← rows.requireCurrentAttempt asserted now
  let rows := rows.terminate asserted.attemptId completion.outcome completion.outcome.attemptState
    completion.terminalResult completion.terminalReason now
  let events ← attention
  let record ← rows.reread asserted.attemptId "AgentTaskAttempt disappeared after completion" now
  return (rows, record, events)

/-- `materialize_agent_task_wake_expiry`: the wake of an attempt notices that the lease has run
out. -/
def materializeAgentTaskWakeExpiry (attemptId : String) (now : ℤ) (rows : AgentTaskRows) :
    AgentTaskRows :=
  let expired := rows.setAttempt attemptId fun attempt ↦
    if attempt.storedState = .active ∧ attempt.leaseExpiresAt ≤ now then
      { attempt with storedState := .expired, terminalAt := some (attempt.terminalAt.getD now) }
    else attempt
  if rows.storedState = .active ∧ rows.latestAttemptId = some attemptId ∧
      (expired.findAttempt attemptId).any (fun attempt ↦ attempt.storedState == .expired) ∧
      !(rows.loadCodingRunBindingForAttempt attemptId).any
        (fun binding ↦ binding.dispatchState.blocksReplacement) then
    { expired with storedState := .ready, updatedAt := max rows.updatedAt now }
  else expired

end AgentTaskRows

/-! ### Bindings to coding agents -/

/-! ### Observations -/

/-- `require_coding_run_observation_identity`. -/
def requireObservationIdentity (binding : CodingRunBinding) (observation : Observation) :
    Fallible Unit :=
  ensure (binding.runId == observation.runId &&
      binding.runtimeProjectId == observation.runtimeProjectId &&
      binding.providerId == observation.providerId &&
      binding.providerInstanceId == observation.providerInstanceId &&
      binding.authorityFingerprint == observation.authorityFingerprint &&
      binding.codingAgentIntentFingerprint == observation.codingAgentIntentFingerprint)
    ⟨"agent_task_coding_run_identity_mismatch",
      "CodingAgentRun snapshot does not match the exact durable AgentTaskAttempt binding"⟩

/-- The terminal part of an observation, when it has one. -/
def Observation.terminal (observation : Observation) : Except String (Option CodingAgentTerminal) :=
  if observation.terminalStopReason.isSome || observation.terminalErrorCode.isSome ||
      observation.terminalMessage.isSome || observation.completedAt.isSome then do
    let completedAt ← required observation.completedAt
      "CodingAgentRun terminal observation lacks completed timestamp"
    return some ⟨observation.terminalStopReason, observation.terminalErrorCode,
      observation.terminalMessage, completedAt⟩
  else .ok none

def boundedTerminalText (label : String) (value : Option String) : Except String Unit :=
  ensure (!exceeds 4096 value) (label ++ " exceeds the AgentTask bounded terminal text limit")

def canonicalCodingRunSnapshot (observation : Observation) :
    Except String CodingAgentRunSnapshot := do
  boundedTerminalText "terminal_stop_reason" observation.terminalStopReason
  boundedTerminalText "terminal_error_code" observation.terminalErrorCode
  boundedTerminalText "terminal_message" observation.terminalMessage
  ensure (decide (0 ≤ observation.observationRevision))
    "CodingAgentRun snapshot contains a negative observation revision"
  let terminal ← observation.terminal
  let snapshot : CodingAgentRunSnapshot :=
    { runId := observation.runId
      intentFingerprint := observation.codingAgentIntentFingerprint
      authorityFingerprint := observation.authorityFingerprint
      runtimeProjectId := observation.runtimeProjectId
      providerId := observation.providerId
      providerInstanceId := observation.providerInstanceId
      state := observation.runState
      executionState := observation.executionState
      observationRevision := observation.observationRevision.toNat
      createdAt := 0
      updatedAt := 0
      terminal := terminal }
  validateCodingAgentRunSnapshot snapshot
  return snapshot

def CodingRunBinding.observation (runState : CodingAgentRunState)
    (executionState : CodingAgentExecutionState) (revision : ℤ) (binding : CodingRunBinding) :
    Observation where
  runId := binding.runId
  runtimeProjectId := binding.runtimeProjectId
  providerId := binding.providerId
  providerInstanceId := binding.providerInstanceId
  authorityFingerprint := binding.authorityFingerprint
  codingAgentIntentFingerprint := binding.codingAgentIntentFingerprint
  runState := runState
  executionState := executionState
  observationRevision := revision
  terminalStopReason := binding.terminalStopReason
  terminalErrorCode := binding.terminalErrorCode
  terminalMessage := binding.terminalMessage
  completedAt := binding.completedAt

def storedCodingRunSnapshot (binding : CodingRunBinding) :
    Fallible (Option CodingAgentRunSnapshot) :=
  match binding.lastObservationRevision with
  | none => do
    ensure (binding.lastObservedRunState.isNone && binding.lastObservedExecutionState.isNone &&
        binding.terminalStopReason.isNone && binding.terminalErrorCode.isNone &&
        binding.terminalMessage.isNone && binding.completedAt.isNone)
      (storageInvariant
        "CodingAgent binding has observation fields without an observation revision")
    return none
  | some revision => do
    let runState ← required binding.lastObservedRunState
      (storageInvariant "CodingAgent binding observation revision lacks run state")
    let executionState ← required binding.lastObservedExecutionState
      (storageInvariant "CodingAgent binding observation revision lacks execution state")
    match canonicalCodingRunSnapshot (binding.observation runState executionState revision) with
    | .ok snapshot => return some snapshot
    | .error message =>
      .error (storageInvariant ("stored CodingAgent observation is invalid: " ++ message))

/-- How an observation stands to the one that the binding retains. -/
def observationDisposition (binding : CodingRunBinding) (observation : Observation) :
    Fallible CodingAgentObservationMerge := do
  requireObservationIdentity binding observation
  let incoming ← (canonicalCodingRunSnapshot observation).mapError
    (⟨"invalid_agent_task_coding_run_observation", ·⟩)
  match ← storedCodingRunSnapshot binding with
  | some stored =>
    (mergeCodingAgentRunSnapshot stored incoming).mapError
      (⟨"agent_task_coding_run_observation_conflict", ·⟩)
  | none => return .advance

/-- The dispatch state that an observation leads to. -/
def Observation.dispatchState (observation : Observation) : DispatchState :=
  if observation.runState = .lost ∨ observation.executionState =
    .outcomeUnknown then .outcomeUnknown
  else .bound

def CodingRunBinding.observe (observation : Observation) (now : ℤ) (binding : CodingRunBinding) :
    CodingRunBinding :=
  { binding with
    dispatchState := observation.dispatchState
    lastObservedRunState := some observation.runState
    lastObservedExecutionState := some observation.executionState
    lastObservationRevision := some observation.observationRevision
    terminalStopReason := observation.terminalStopReason
    terminalErrorCode := observation.terminalErrorCode
    terminalMessage := observation.terminalMessage
    completedAt := observation.completedAt
    updatedAt := max binding.updatedAt now }

def CodingRunBinding.setDispatch (dispatchState : DispatchState) (now : ℤ)
    (binding : CodingRunBinding) :
    CodingRunBinding :=
  { binding with dispatchState := dispatchState, updatedAt := max binding.updatedAt now }

/-- The task state that a run with a known end leads to. -/
def desiredTaskState : Option CodingAgentRunState → Option AgentTaskState
  | some .completed => some .succeeded
  | some .failed | some .cancelled => some .failed
  | _ => none

def codingRunNotFound (message : String) : CommunicationStoreError :=
  ⟨"agent_task_coding_run_not_found", message⟩

def bindingConflict (message : String) : CommunicationStoreError :=
  ⟨"agent_task_coding_run_binding_conflict", message⟩

/-- The binding was made for the same intent, whatever the instance of the provider. -/
def CodingRunBinding.sameIntent (binding : CodingRunBinding) (intent : BindingIntent) : Bool :=
  binding.runId == intent.runId && binding.runtimeProjectId == intent.runtimeProjectId &&
    binding.providerId == intent.providerId &&
    binding.authorityFingerprint == intent.authorityFingerprint &&
    binding.codingAgentIntentFingerprint == intent.codingAgentIntentFingerprint &&
    binding.bindingIntentFingerprint == intent.bindingIntentFingerprint

def BindingIntent.binding (attemptId : String) (now : ℤ) (intent : BindingIntent) :
    CodingRunBinding where
  attemptId := attemptId
  runId := intent.runId
  runtimeProjectId := intent.runtimeProjectId
  providerId := intent.providerId
  providerInstanceId := intent.providerInstanceId
  authorityFingerprint := intent.authorityFingerprint
  codingAgentIntentFingerprint := intent.codingAgentIntentFingerprint
  bindingIntentFingerprint := intent.bindingIntentFingerprint
  createdAt := now
  updatedAt := now

namespace AgentTaskRows

/-! ### Preparing and claiming -/

variable (attemptId : String)

/-- The binding of an attempt, which has to be there. -/
def requireCodingRun (message : String) (rows : AgentTaskRows) : Fallible CodingRunBinding :=
  required (rows.loadCodingRunBindingForAttempt attemptId) (codingRunNotFound message)

/-- The preparation of a binding that exists. -/
def prepareAgain (existing : CodingRunBinding) (intent : BindingIntent) (now : ℤ)
    (rows : AgentTaskRows) : Fallible (AgentTaskRows × CodingRunBinding × Bool) := do
  ensure (existing.sameIntent intent)
    (bindingConflict "AgentTaskAttempt is already bound to a different CodingAgentRun intent")
  if existing.providerInstanceId = intent.providerInstanceId then return (rows, existing, true)
  else do
    ensure existing.dispatchState.mayDispatch (bindingConflict
        "AgentTaskAttempt CodingAgent provider instance cannot change after dispatch may have started")
    let rows := rows.setCodingRun existing.attemptId fun binding ↦
      { binding with
        providerInstanceId := intent.providerInstanceId, updatedAt := max binding.updatedAt now }
    let binding ← required (rows.loadCodingRunBindingForAttempt existing.attemptId)
      (storageInvariant "AgentTask CodingAgent binding disappeared during replay")
    return (rows, binding, true)

/-- `prepare_agent_task_coding_run`. -/
def prepareCodingRun (keys : Keys) (asserted : AttemptAssertion) (project : String)
    (intent : BindingIntent) (now : ℤ) (rows : AgentTaskRows) :
    Fallible (AgentTaskRows × CodingRunBinding × Bool) := do
  let referenced ← required rows.referencedProjectId
    ⟨"agent_task_project_required",
      "AgentTask has no referenced_project_id and cannot dispatch a CodingAgentRun"⟩
  ensure (project == referenced && intent.runtimeProjectId == referenced)
    ⟨"agent_task_project_mismatch",
      "CodingAgentRun Project does not match AgentTask referenced_project_id"⟩
  let _ ← rows.requireCurrentAttempt asserted now
  ensure (rows.loadEndpointExecutionForAttempt asserted.attemptId).isNone
    ⟨"agent_task_execution_backend_conflict",
      "AgentTaskAttempt is already bound to the Agent Endpoint continuation backend"⟩
  match rows.loadCodingRunBindingForAttempt asserted.attemptId with
  | some existing => rows.prepareAgain existing intent now
  | none => do
    ensure (!keys.runIds.contains intent.runId)
      (bindingConflict "CodingAgentRun is already bound to another AgentTaskAttempt")
    let binding := intent.binding asserted.attemptId now
    return ({ rows with codingRuns := rows.codingRuns ++ [binding] }, binding, false)

/-- The binding with its dispatch state changed. -/
def setDispatch (dispatchState : DispatchState) (now : ℤ) (rows : AgentTaskRows) :
    AgentTaskRows :=
  rows.setCodingRun attemptId (CodingRunBinding.setDispatch dispatchState now)

/-- `claim_agent_task_coding_run_dispatch`; the flag is `may_dispatch`. -/
def claimDispatch (asserted : AttemptAssertion) (bindingIntentFingerprint : String) (now : ℤ)
    (rows : AgentTaskRows) : Fallible (AgentTaskRows × CodingRunBinding × Bool) := do
  let _ ← rows.requireCurrentAttempt asserted now
  let binding ← rows.requireCodingRun asserted.attemptId
    "AgentTaskAttempt has no prepared CodingAgentRun binding"
  ensure (binding.bindingIntentFingerprint == bindingIntentFingerprint)
    (bindingConflict "CodingAgentRun binding intent does not match the durable Attempt binding")
  let mayDispatch := binding.dispatchState.mayDispatch
  let rows := if mayDispatch then rows.setDispatch asserted.attemptId .outcomeUnknown now else rows
  let binding ← required (rows.loadCodingRunBindingForAttempt asserted.attemptId)
    (storageInvariant "AgentTask CodingAgent binding disappeared during dispatch fencing")
  return (rows, binding, mayDispatch)

/-- `record_agent_task_coding_run_not_started`. -/
def recordNotStarted (runId : String) (now : ℤ) (rows : AgentTaskRows) :
    Fallible (AgentTaskRows × CodingRunBinding) := do
  let binding ← rows.requireCodingRun attemptId "AgentTaskAttempt has no bound CodingAgentRun"
  ensure (binding.runId == runId) ⟨"agent_task_coding_run_identity_mismatch",
      "CodingAgentRun does not match the durable AgentTaskAttempt binding"⟩
  let rows := if binding.dispatchState = .outcomeUnknown then rows.setDispatch attemptId
    .notStarted now else rows
  let binding ← required (rows.loadCodingRunBindingForAttempt attemptId)
    (storageInvariant "AgentTask CodingAgent binding disappeared after NotStarted observation")
  return (rows, binding)

/-- `merge_agent_task_coding_run_observation`. -/
def mergeObservation (binding : CodingRunBinding) (observation : Observation) (now : ℤ)
    (rows : AgentTaskRows) :
    Fallible (AgentTaskRows × CodingRunBinding × CodingAgentObservationMerge) := do
  let disposition ← observationDisposition binding observation
  if disposition = .stale ∨ disposition = .exactReplay then return (rows, binding, disposition)
  else do
    let rows := rows.setCodingRun binding.attemptId (CodingRunBinding.observe observation now)
    let binding ← required (rows.loadCodingRunBindingForAttempt binding.attemptId)
      (storageInvariant
        "AgentTask CodingAgent binding disappeared after monotonic observation merge")
    return (rows, binding, disposition)

/-- `record_agent_task_coding_run_observation`. -/
def recordObservation (observation : Observation) (now : ℤ) (rows : AgentTaskRows) :
    Fallible (AgentTaskRows × CodingRunBinding) := do
  let binding ← rows.requireCodingRun attemptId "AgentTaskAttempt has no bound CodingAgentRun"
  let (rows, binding, _) ← rows.mergeObservation binding observation now
  return (rows, binding)

/-- `mark_agent_task_coding_run_reconcile_unavailable`. -/
def markReconcileUnavailable (now : ℤ) (rows : AgentTaskRows) :
    Fallible (AgentTaskRows × CodingRunBinding) := do
  let binding ← rows.requireCodingRun attemptId "AgentTaskAttempt has no bound CodingAgentRun"
  let rows := if binding.dispatchState = .bound then rows.setDispatch attemptId .outcomeUnknown now
    else rows
  let binding ← required (rows.loadCodingRunBindingForAttempt attemptId)
    (storageInvariant "AgentTask CodingAgent binding disappeared during reconciliation")
  return (rows, binding)

def terminalizeWith (outcome : AgentTaskState) (terminalResult terminalReason : Option String)
    (now : ℤ) (rows : AgentTaskRows) : AgentTaskRows :=
  (rows.terminate attemptId outcome outcome.attemptState terminalResult terminalReason
    now).setCodingRun attemptId fun binding ↦
      { binding with
        dispatchState := .terminal, terminalAt := some now, updatedAt := max binding.updatedAt now }

/-- `terminalize_agent_task_coding_run`; the flag says whether the task ended with this call. -/
def terminalizeCodingRun (observation : Observation)
    (terminalResult terminalReason : Option String) (attention : Fallible ℕ) (now : ℤ)
    (rows : AgentTaskRows) : Fallible (AgentTaskRows × CodingRunBinding × Bool × ℕ) := do
  ensure (rows.latestAttemptId == some attemptId) (staleError
      "Bound CodingAgentRun no longer belongs to the latest authoritative AgentTaskAttempt")
  let binding ← rows.requireCodingRun attemptId "AgentTaskAttempt has no bound CodingAgentRun"
  let (merged, binding, disposition) ← rows.mergeObservation binding observation now
  ensure (disposition != .stale) ⟨"agent_task_coding_run_observation_stale",
      "stale CodingAgentRun observation cannot terminalize AgentTask state"⟩
  let outcome ← required (desiredTaskState binding.lastObservedRunState)
    ⟨"agent_task_coding_run_not_terminal",
      "CodingAgentRun is not an authoritative terminal result for AgentTask reconciliation"⟩
  ensure binding.lastObservationRevision.isSome (storageInvariant
      "terminal CodingAgent reconciliation lacks an authoritative observation revision")
  let found ← merged.loadAttemptForTask attemptId
  ensure found.isSome (attemptNotFound "AgentTaskAttempt does not exist")
  if merged.storedState.terminal then do
    ensure (merged.terminalAttemptId == some attemptId && merged.storedState == outcome)
      (staleError "AgentTask is already terminal from a different authoritative result")
    return (merged, binding, false, 0)
  else do
    let ended := merged.terminalizeWith attemptId outcome terminalResult terminalReason now
    let events ← attention
    let binding ← required (ended.loadCodingRunBindingForAttempt attemptId)
      (storageInvariant "AgentTask CodingAgent binding disappeared after terminal reconciliation")
    return (ended, binding, true, events)

end AgentTaskRows

end WebCodex.AgentTasks
