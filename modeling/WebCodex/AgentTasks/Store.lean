import WebCodex.AgentTasks.Attempts
import WebCodex.Foundation.Replay
import WebCodex.Foundation.Table

/-!
Every call of the store runs in one transaction under the lock of its connection, so an execution
is a sequence of operations (`Operation`), each a step from one state to the next (`step`); a call
that fails leaves the state as it was. Beside the resource of an idempotent call the source keeps
digests of the key and the request; the model keeps these themselves.
-/

namespace WebCodex.AgentTasks

open Foundation

structure NewAgentTask where
  (title instruction : String)
  assigneeAgentId : Option String := none
  sourceConversationId : Option String := none
  sourceMessageId : Option String := none
  referencedProjectId : Option String := none
  idempotencyKey : String
  deriving DecidableEq

/-- What an operation asks of the rows of a task. -/
inductive TaskRequest
  | assign (assigneeAgentId : String)
  | start (assigneeAgentId idempotencyKey : String) (new : NewAttempt)
  | continueEndpoint (asserted : AttemptAssertion) (wakeId : String)
  | heartbeat (asserted : AttemptAssertion)
  | replaceController (asserted : AttemptAssertion)
  | complete (asserted : AttemptAssertion) (completion : Completion) (completionKey : String)
      (attention : Fallible ℕ)
  | prepare (asserted : AttemptAssertion) (project : String) (intent : BindingIntent)
  | claim (asserted : AttemptAssertion) (bindingIntentFingerprint : String)
  | notStarted (attemptId runId : String)
  | observe (attemptId : String) (observation : Observation)
  | unavailable (attemptId : String)
  | terminalize (attemptId : String) (observation : Observation)
      (terminalResult terminalReason : Option String) (attention : Fallible ℕ)

/-- The operations of the store. Agents are registered, and their owners known, elsewhere; a wake
notices the expiry of its attempt by itself. -/
inductive Operation
  | register (agentId : String) (principal : CommunicationPrincipal)
  | create (principal : CommunicationPrincipal) (task : NewAgentTask) (sources : Fallible Unit)
      (taskId : String) (now : ℤ)
  | task (principal : CommunicationPrincipal) (taskId : String) (now : ℤ) (request : TaskRequest)
  | expireWake (taskId attemptId : String) (now : ℤ)

inductive Answer
  | done
  | created (taskId : String) (replayed : Bool)
  | assigned (stateChanged : Bool)
  | started (attempt : AttemptRecord) (attemptFence : String) (replayed : Bool)
  | continued (execution : EndpointExecution) (replayed : Bool)
  | attempt (attempt : AttemptRecord)
  | completed (attempt : AttemptRecord) (attentionEvents : ℕ) (replayed : Bool)
  | prepared (binding : CodingRunBinding) (replayed : Bool)
  | claimed (binding : CodingRunBinding) (mayDispatch : Bool)
  | observed (binding : CodingRunBinding)
  | terminalized (binding : CodingRunBinding) (stateChanged : Bool) (attentionEvents : ℕ)
  deriving DecidableEq

/-- The operations that take an idempotency key, with what their callers ask. -/
inductive IdempotentRequest
  | createAgentTask (task : NewAgentTask)
  | startAgentTaskAttempt (taskId assigneeAgentId : String)
  | completeAgentTaskAttempt (taskId : String) (asserted : AttemptAssertion)
    (completion : Completion)
  deriving DecidableEq

inductive IdempotentOperation
  | createAgentTask | startAgentTaskAttempt | completeAgentTaskAttempt
  deriving DecidableEq

def IdempotentRequest.operation : IdempotentRequest → IdempotentOperation
  | createAgentTask _ => .createAgentTask
  | startAgentTaskAttempt _ _ => .startAgentTaskAttempt
  | completeAgentTaskAttempt _ _ _ => .completeAgentTaskAttempt

structure IdempotencyKey where
  principalDigest : String
  operation : IdempotentOperation
  key : String
  deriving DecidableEq

structure Database where
  agents : List (String × CommunicationPrincipal) := []
  idempotency : Table IdempotencyKey (IdempotentRequest × String) := ∅
  tasks : Table String AgentTaskRows := ∅

namespace Database

def idempotencyConflict : CommunicationStoreError :=
  ⟨"communication_idempotency_conflict",
    "Idempotency key was already used with a different request"⟩

def taskNotFound : CommunicationStoreError := ⟨"agent_task_not_found", "AgentTask does not exist"⟩

def lookupIdempotentResource (principal : CommunicationPrincipal) (request : IdempotentRequest)
    (key : String) (database : Database) : Fallible (Option String) :=
  match database.idempotency.lookup ⟨principal.digest, request.operation, key⟩ with
  | none => .ok none
  | some (stored, resource) => do
    ensure (stored == request) idempotencyConflict
    return some resource

def recordIdempotentResource (principal : CommunicationPrincipal) (request : IdempotentRequest)
    (key resource : String) (database : Database) : Database :=
  { database with
    idempotency :=
      database.idempotency.insert ⟨principal.digest, request.operation, key⟩ (request, resource) }

def loadOwnedTask (principal : CommunicationPrincipal) (taskId : String) (database : Database) :
    Fallible AgentTaskRows := do
  validateAgentTaskId taskId
  let rows ← required
    ((database.tasks.lookup taskId).filter fun rows ↦ rows.owner == principal) taskNotFound
  rows.loadLatestAttempt
  return rows

def setTask (taskId : String) (rows : AgentTaskRows) (database : Database) : Database :=
  { database with tasks := database.tasks.insert taskId rows }

def owns (principal : CommunicationPrincipal) (agentId : String) (database : Database) : Bool :=
  database.agents.contains (agentId, principal)

def keys (database : Database) : Keys where
  attemptIds := (Table.values database.tasks).flatMap fun rows ↦
    rows.attempts.map StoredAttempt.attemptId
  attemptFences := (Table.values database.tasks).flatMap fun rows ↦
    rows.attempts.map StoredAttempt.attemptFence
  runIds := (Table.values database.tasks).flatMap fun rows ↦
    rows.codingRuns.map CodingRunBinding.runId
  wakeIds := (Table.values database.tasks).flatMap fun rows ↦
    rows.endpointExecutions.map EndpointExecution.wakeId

end Database

/-- The text is not blank and has a bounded number of characters. -/
def boundedChars (value : List Char) (maxChars : ℕ) : Bool :=
  !(value.isEmpty || decide (maxChars < value.length))

def validateTitle (value : String) : Fallible String := do
  let text := Text.trim value.toList
  ensure (boundedChars text 200)
    ⟨"invalid_agent_task_title", "title must contain 1..=200 characters"⟩
  return String.ofList text

def validateInstruction (value : String) : Fallible String := do
  let text := String.ofList (Text.trim value.toList)
  ensure (!(text.isEmpty || decide (8192 < text.utf8ByteSize)))
    ⟨"invalid_agent_task_instruction", "instruction must contain 1..=8192 UTF-8 bytes"⟩
  return text

def validateProjectReference (value : Option String) : Fallible (Option String) :=
  match value with
  | none => .ok none
  | some value => do
    let text := Text.trim value.toList
    ensure (boundedChars text 256) ⟨"invalid_agent_task_project_reference",
        "referenced_project_id must contain 1..=256 characters"⟩
    return some (String.ofList text)

def validateOptionalId (value : Option String) (start code : String) : Fallible Unit :=
  match value with
  | none => .ok ()
  | some value => validateId value start code

/-- The task that a principal asks for, with its texts trimmed. -/
def validateNewAgentTask (task : NewAgentTask) : Fallible NewAgentTask := do
  let title ← validateTitle task.title
  let instruction ← validateInstruction task.instruction
  validateOptionalId task.assigneeAgentId "wc_dagent_" "invalid_agent_id"
  validateOptionalId task.sourceConversationId "wc_conv_" "invalid_conversation_id"
  validateOptionalId task.sourceMessageId "wc_cmsg_" "invalid_message_id"
  ensure (!(task.sourceMessageId.isSome && task.sourceConversationId.isNone))
    ⟨"agent_task_source_invalid", "source_message_id requires source_conversation_id"⟩
  let project ← validateProjectReference task.referencedProjectId
  let key ← validateIdempotencyKey task.idempotencyKey
  return { task with
    title := title
    instruction := instruction
    referencedProjectId := project
    idempotencyKey := key }

def NewAgentTask.rows (owner : CommunicationPrincipal) (now : ℤ) (task : NewAgentTask) :
    AgentTaskRows where
  owner := owner
  assigneeAgentId := task.assigneeAgentId
  title := task.title
  instruction := task.instruction
  sourceConversationId := task.sourceConversationId
  sourceMessageId := task.sourceMessageId
  referencedProjectId := task.referencedProjectId
  createdAt := now
  updatedAt := now

/-- `create_agent_task`. What `validate_source_references` answers is passed in. -/
def Database.createAgentTask (principal : CommunicationPrincipal) (new : NewAgentTask)
    (sources : Fallible Unit) (taskId : String) (now : ℤ) (database : Database) :
    Fallible (Database × Answer) := do
  validateCommunicationPrincipal principal
  let task ← validateNewAgentTask new
  let request := IdempotentRequest.createAgentTask { task with idempotencyKey := "" }
  match ← database.lookupIdempotentResource principal request task.idempotencyKey with
  | some resource => do
    let _ ← database.loadOwnedTask principal resource
    return (database, .created resource true)
  | none => do
    requireOwnedAgent (task.assigneeAgentId.all fun agentId ↦ database.owns principal agentId)
    sources
    ensure (!Table.has taskId database.tasks) storeError
    validateAgentTaskId taskId
    let created := database.setTask taskId (task.rows principal now)
    return (created.recordIdempotentResource principal request task.idempotencyKey taskId,
      .created taskId false)

namespace TaskRequest

/-- The checks that a call makes before it reads the task. -/
def validate (principal : CommunicationPrincipal) (taskId : String) :
    TaskRequest → Fallible TaskRequest
  | assign assigneeAgentId => do
    validateCommunicationPrincipal principal
    validateAgentTaskId taskId
    validateAgentId assigneeAgentId
    return assign assigneeAgentId
  | start assigneeAgentId idempotencyKey new => do
    validateCommunicationPrincipal principal
    validateAgentTaskId taskId
    validateAgentId assigneeAgentId
    let key ← validateIdempotencyKey idempotencyKey
    return start assigneeAgentId key new
  | continueEndpoint asserted wakeId => do
    validateAttemptMutationInputs principal taskId asserted
    return continueEndpoint asserted wakeId
  | heartbeat asserted => do
    validateAttemptMutationInputs principal taskId asserted
    return heartbeat asserted
  | replaceController asserted => do
    validateAttemptMutationInputs principal taskId asserted
    return replaceController asserted
  | complete asserted completion completionKey attention => do
    validateAttemptMutationInputs principal taskId asserted
    ensure completion.outcome.terminal ⟨"invalid_agent_task_completion_outcome",
        "AgentTaskAttempt completion outcome must be succeeded or failed"⟩
    let result ← validateOptionalTerminalText completion.terminalResult "terminal_result"
    let reason ← validateOptionalTerminalText completion.terminalReason "terminal_reason"
    let key ← validateIdempotencyKey completionKey
    return complete asserted ⟨completion.outcome, result, reason⟩ key attention
  | prepare asserted project intent => do
    validateAttemptMutationInputs principal taskId asserted
    return prepare asserted project intent
  | claim asserted bindingIntentFingerprint => do
    validateAttemptMutationInputs principal taskId asserted
    return claim asserted bindingIntentFingerprint
  | terminalize attemptId observation terminalResult terminalReason attention => do
    validateCommunicationPrincipal principal
    let result ← validateOptionalTerminalText terminalResult "terminal_result"
    let reason ← validateOptionalTerminalText terminalReason "terminal_reason"
    return terminalize attemptId observation result reason attention
  | request => .ok request

/-- The key and the request of a call that is idempotent. -/
def idempotent (taskId : String) : TaskRequest → Option (String × IdempotentRequest)
  | start assigneeAgentId key _ => some (key, .startAgentTaskAttempt taskId assigneeAgentId)
  | complete asserted completion key _ =>
    some (key, .completeAgentTaskAttempt taskId asserted completion)
  | _ => none

/-- The attempt that a call asserts, with its fence, assignee and controller generation. -/
def asserted : TaskRequest → Option AttemptAssertion
  | continueEndpoint asserted _ | heartbeat asserted | replaceController asserted
  | complete asserted _ _ _ | prepare asserted _ _ | claim asserted _ => some asserted
  | _ => none

end TaskRequest

namespace AgentTaskRows

/-- A call on the rows of its task, when it is not the replay of an earlier one. -/
def handle (keys : Keys) (owns : String → Bool) (now : ℤ) (request : TaskRequest)
    (rows : AgentTaskRows) : Fallible (AgentTaskRows × Answer) :=
  match request with
  | .assign assigneeAgentId => do
    let (rows, changed) ← rows.assign (owns assigneeAgentId) assigneeAgentId now
    return (rows, .assigned changed)
  | .start assigneeAgentId _ new => do
    let (rows, attempt) ← rows.startAttempt keys (owns assigneeAgentId) assigneeAgentId new now
    return (rows, .started (attempt.record now) attempt.attemptFence false)
  | .continueEndpoint asserted wakeId => do
    let (rows, execution, replayed) ← rows.startEndpointContinuation keys asserted wakeId now
    return (rows, .continued execution replayed)
  | .heartbeat asserted => do
    let (rows, record) ← rows.heartbeat asserted now
    return (rows, .attempt record)
  | .replaceController asserted => do
    let (rows, record) ← rows.replaceController asserted now
    return (rows, .attempt record)
  | .complete asserted completion _ attention => do
    let (rows, record, events) ← rows.complete asserted completion attention now
    return (rows, .completed record events false)
  | .prepare asserted project intent => do
    let (rows, binding, replayed) ← rows.prepareCodingRun keys asserted project intent now
    return (rows, .prepared binding replayed)
  | .claim asserted bindingIntentFingerprint => do
    let (rows, binding, mayDispatch) ← rows.claimDispatch asserted bindingIntentFingerprint now
    return (rows, .claimed binding mayDispatch)
  | .notStarted attemptId runId => do
    let (rows, binding) ← rows.recordNotStarted attemptId runId now
    return (rows, .observed binding)
  | .observe attemptId observation => do
    let (rows, binding) ← rows.recordObservation attemptId observation now
    return (rows, .observed binding)
  | .unavailable attemptId => do
    let (rows, binding) ← rows.markReconcileUnavailable attemptId now
    return (rows, .observed binding)
  | .terminalize attemptId observation terminalResult terminalReason attention => do
    let (rows, binding, changed, events) ←
      rows.terminalizeCodingRun attemptId observation terminalResult terminalReason attention now
    return (rows, .terminalized binding changed events)

/-- The answer to a call whose request was seen before. -/
def replay (resource : String) (now : ℤ) (request : TaskRequest) (rows : AgentTaskRows) :
    Fallible Answer :=
  match request with
  | .complete asserted _ _ _ => do
    ensure (resource == asserted.attemptId) ⟨"agent_task_idempotency_invariant",
        "Completion replay points to a different AgentTaskAttempt"⟩
    let found ← rows.loadAttemptForTask asserted.attemptId
    let attempt ← required found (attemptNotFound "AgentTaskAttempt does not exist")
    return .completed (attempt.record now) 0 true
  | _ => do
    let found ← rows.loadAttemptForTask resource
    let attempt ← required found (attemptNotFound "AgentTaskAttempt does not exist")
    return .started (attempt.record now) attempt.attemptFence true

end AgentTaskRows

/-- The id of the resource that an answer is about. -/
def Answer.resource : Answer → String
  | created taskId _ => taskId
  | started record _ _ | completed record _ _ => record.attemptId
  | _ => ""

namespace Database

/-- A call on a task, for rows that were loaded. -/
def handle (principal : CommunicationPrincipal) (taskId : String) (now : ℤ) (request : TaskRequest)
    (rows : AgentTaskRows) (database : Database) : Fallible (Database × Answer) := do
  let (after, answer) ← rows.handle database.keys
    (fun agentId ↦ database.owns principal agentId) now request
  return (database.setTask taskId after, answer)

def callTask (principal : CommunicationPrincipal) (taskId : String) (now : ℤ) (asked : TaskRequest)
    (database : Database) : Fallible (Database × Answer) := do
  let request ← asked.validate principal taskId
  let rows ← database.loadOwnedTask principal taskId
  match request.idempotent taskId with
  | none => database.handle principal taskId now request rows
  | some (key, idempotent) => do
    match ← database.lookupIdempotentResource principal idempotent key with
    | some resource => do
      let answer ← rows.replay resource now request
      return (database, answer)
    | none => do
      let (after, answer) ← database.handle principal taskId now request rows
      return (after.recordIdempotentResource principal idempotent key answer.resource, answer)

/-- `materialize_agent_task_wake_expiry`. -/
def expireWake (taskId attemptId : String) (now : ℤ) (database : Database) : Database :=
  { database with
    tasks := Table.modify taskId
      (fun rows ↦ rows.materializeAgentTaskWakeExpiry attemptId now) database.tasks }

/-- What an operation makes of the tables, and its answer. -/
def perform (operation : Operation) (database : Database) : Fallible (Database × Answer) :=
  match operation with
  | .register agentId principal =>
    .ok ({ database with agents := (agentId, principal) :: database.agents }, .done)
  | .create principal task sources taskId now =>
    database.createAgentTask principal task sources taskId now
  | .task principal taskId now request => database.callTask principal taskId now request
  | .expireWake taskId attemptId now => .ok (database.expireWake taskId attemptId now, .done)

end Database

/-- The state after an operation, and its answer. -/
structure Outcome where
  database : Database
  answer : Fallible Answer

variable (database : Database)

def step (operation : Operation) : Outcome :=
  match database.perform operation with
  | .ok (after, answer) => ⟨after, .ok answer⟩
  | .error error => ⟨database, .error error⟩

def next (operation : Operation) : Database := (step database operation).database

/-- The state after a sequence of operations. -/
def run (operations : List Operation) : Database := operations.foldl next database

@[simp] theorem run_cons (operation : Operation) (rest : List Operation) :
    run database (operation :: rest) = run (next database operation) rest := rfl

theorem run_append (first second : List Operation) :
    run database (first ++ second) = run (run database first) second := by
  simp [run, List.foldl_append]

theorem step_of_ok {database after : Database} {operation : Operation} {answer : Answer}
    (h : database.perform operation = .ok (after, answer)) :
    step database operation = ⟨after, .ok answer⟩ := by
  unfold step
  rw [h]

theorem step_of_error {database : Database} {operation : Operation}
    {error : CommunicationStoreError} (h : database.perform operation = .error error) :
    step database operation = ⟨database, .error error⟩ := by
  unfold step
  rw [h]

end WebCodex.AgentTasks
