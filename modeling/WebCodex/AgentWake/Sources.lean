import WebCodex.AgentWake.Tables

/-!
A wake of a task attempt is of use while the attempt is the current one and its lease runs; a stale
one is retired before it is dispatched. While it is claimed, its carrier names the endpoint that
executes the attempt, and the attempt gets a new controller. A wake of an attention event is
dispatched only while the event agrees with its goal and its task.
-/

namespace WebCodex.AgentWake

open Foundation
open AgentTasks (CommunicationPrincipal AgentTaskRows StoredAttempt AttemptAssertion saturatingAdd)

/-- `AGENT_TASK_ENDPOINT_TAKEOVER_LEASE_MS`. -/
def takeoverLease : ℤ := 1800000

namespace Store

/-- The rows of a task and of its attempt, when the attempt is the latest one, the agent has it, and
both are active. -/
def activeAttempt (taskId attemptId agentId : String) (now : ℤ) (s : Store) :
    Option (AgentTaskRows × StoredAttempt) := do
  let rows ← s.tasks.tasks.lookup taskId
  let attempt ← rows.findAttempt attemptId
  guard (rows.latestAttemptId = some attemptId ∧ rows.storedState = .active ∧
    attempt.assigneeAgentId = agentId ∧ attempt.storedState = .active ∧
      now < attempt.leaseExpiresAt)
  return (rows, attempt)

/-- The same attempt, when the task is assigned to the agent too. -/
def assignedAttempt (taskId attemptId agentId : String) (now : ℤ) (s : Store) :
    Option (AgentTaskRows × StoredAttempt) :=
  (s.activeAttempt taskId attemptId agentId now).filter fun found ↦
    found.1.assigneeAgentId == some agentId

/-- The task attempt of a wake is the current one of its agent. -/
def sourceIsCurrent (now : ℤ) (s : Store) (wake : AgentWakeRecord) : Bool :=
  match wake.sourceTaskId, wake.sourceTaskAttemptId with
  | some taskId, some attemptId =>
    (s.assignedAttempt taskId attemptId wake.targetAgentId now).isSome
  | _, _ => false

def materializeAgentTaskWakeExpiry (wake : AgentWakeRecord) (now : ℤ) (s : Store) : Store :=
  match wake.sourceTaskId, wake.sourceTaskAttemptId with
  | some taskId, some attemptId => { s with tasks := s.tasks.expireWake taskId attemptId now }
  | _, _ => s

def clearAgentTaskWakeCarrier (wakeId : String) (now : ℤ) (s : Store) : Attempted Store :=
  checkTables (s.updateCarriers (fun carrier ↦ carrier.wakeId == wakeId) none now)

/-- The attempts of the wakes are revoked where they are claimed. -/
def revokeClaimed (condition : AgentWakeAttempt → Bool) (now : ℤ) (s : Store) : Attempted Store :=
  checkTables (s.updateAttempts (fun attempt ↦ attempt.state == .claimed && condition attempt)
    (AgentWakeAttempt.revoke now))

/-- The wakes that satisfy a condition lose their claims. -/
def unclaimWakes (condition : AgentWakeRecord → Bool) (state : AgentWakeState) (now : ℤ)
    (s : Store) :
    Attempted Store :=
  checkTables
    (s.updateWakes condition fun wake ↦ (wake.unclaim state).revise (max wake.updatedAt now))

def retireAgentTaskWakePreDispatch (wakeId : String) (now : ℤ) (s : Store) : Attempted Store := do
  let wake ← required (s.loadWake wakeId)
    (refusal "wake_not_found" "Agent Task Wake does not exist")
  if wake.triggerKind = .agentTaskAttempt then do
    let s := s.materializeAgentTaskWakeExpiry wake now
    let s ← s.revokeClaimed (fun attempt ↦ attempt.wakeId == wakeId) now
    let s ← s.clearAgentTaskWakeCarrier wakeId now
    s.unclaimWakes (fun wake ↦ wake.wakeId == wakeId && wake.state.queueable) .retired now
  else return s

def retireStaleAgentTaskWakesForAgent (agentId : String) (now : ℤ) (s : Store) : Attempted Store :=
  let stale := s.wakeIds fun wake ↦ wake.targetAgentId == agentId &&
    wake.triggerKind == .agentTaskAttempt && wake.state.queueable && !s.sourceIsCurrent now wake
  stale.foldlM (fun s wakeId ↦ s.retireAgentTaskWakePreDispatch wakeId now) s

def retirePreDispatchEndpointExecutionForAttempt (attemptId : String) (now : ℤ) (s : Store) :
    Attempted Store := do
  let executed := (s.carriers.filter fun carrier ↦ carrier.attemptId == attemptId).map
    EndpointCarrier.wakeId
  let claimed := s.wakeIds fun wake ↦ executed.contains wake.wakeId &&
    wake.triggerKind == .agentTaskAttempt && wake.state == .claimed
  let s ← s.revokeClaimed (fun attempt ↦ claimed.contains attempt.wakeId) now
  let waiting := s.wakeIds fun wake ↦ wake.triggerKind == .agentTaskAttempt && wake.state.queueable
  let s ← checkTables (s.updateCarriers
    (fun carrier ↦ carrier.attemptId == attemptId && waiting.contains carrier.wakeId) none now)
  s.unclaimWakes (fun wake ↦ wake.triggerKind == .agentTaskAttempt &&
    wake.sourceTaskAttemptId == some attemptId && wake.state.queueable) .retired now

/-- `replace_agent_task_attempt_controller_in_transaction`. -/
def replaceAgentTaskAttemptController (principal : CommunicationPrincipal) (taskId : String)
    (asserted : AttemptAssertion) (now : ℤ) (s : Store) : Attempted Store := do
  let rows ← checked (s.tasks.loadOwnedTask principal taskId)
  let (after, _) ← checked (rows.replaceController asserted now)
  return { s with tasks := s.tasks.setTask taskId after }

def taskWakeInvariant (message : String) : Failure := refusal "agent_task_wake_invariant" message

/-- The task and the attempt that a wake names. -/
def taskSource (wake : AgentWakeRecord) : Attempted (String × String) := do
  let taskId ← required wake.sourceTaskId
    (taskWakeInvariant "Agent Task Wake is missing source_task_id")
  let attemptId ← required wake.sourceTaskAttemptId
    (taskWakeInvariant "Agent Task Wake is missing source_task_attempt_id")
  return (taskId, attemptId)

/-- The fence and the controller generation of an attempt, which is expected to be there. -/
def taskAttempt (taskId attemptId : String) (s : Store) : Attempted StoredAttempt :=
  required ((s.tasks.tasks.lookup taskId).bind fun rows ↦ rows.findAttempt attemptId)
    (.refused AgentTasks.storeError)

def bindAgentTaskWakeCarrier (principal : CommunicationPrincipal) (wake : AgentWakeRecord)
    (asserted : EndpointAssertion) (now : ℤ) (s : Store) : Attempted Store := do
  let (taskId, attemptId) ← taskSource wake
  let attempt ← s.taskAttempt taskId attemptId
  let s ← s.replaceAgentTaskAttemptController principal taskId
    ⟨attemptId, wake.targetAgentId, attempt.attemptFence, attempt.controllerGeneration⟩ now
  let carries := fun carrier : EndpointCarrier ↦ carrier.taskId == taskId &&
    carrier.attemptId == attemptId && carrier.wakeId == wake.wakeId
  let bound ← checkTables (s.updateCarriers carries
    (some (asserted.endpointId, asserted.controllerGeneration)) now)
  ensure (s.carriers.countP carries == 1)
    (taskWakeInvariant "Agent Task Wake has no matching durable Endpoint execution binding")
  return bound

def agentTaskWakeIsDispatchable (principal : CommunicationPrincipal) (wake : AgentWakeRecord)
    (asserted : EndpointAssertion) (now : ℤ) (s : Store) : Bool :=
  match wake.sourceTaskId, wake.sourceTaskAttemptId with
  | some taskId, some attemptId =>
    ((s.assignedAttempt taskId attemptId wake.targetAgentId now).any fun found ↦
      found.1.owner == principal) &&
    s.carriers.any fun carrier ↦ carrier.taskId == taskId && carrier.attemptId == attemptId &&
      carrier.wakeId == wake.wakeId &&
      carrier.endpoint == some (asserted.endpointId, asserted.controllerGeneration)
  | _, _ => false

/-- The first consumption of a wake prolongs the lease of its attempt, if the attempt is still
current and carried by the endpoint. -/
def promoteTakeover (principal : CommunicationPrincipal) (wake : AgentWakeRecord)
    (asserted : EndpointAssertion) (now : ℤ) (s : Store) : Store :=
  match wake.sourceTaskId, wake.sourceTaskAttemptId with
  | some taskId, some attemptId =>
    if wake.triggerKind = .agentTaskAttempt ∧ s.agentTaskWakeIsDispatchable principal wake
      asserted now
    then { s with
      tasks :=
        { s.tasks with
          tasks := Table.modify taskId (fun rows ↦ (rows.setAttempt attemptId fun attempt ↦
              { attempt with
                leaseExpiresAt := max attempt.leaseExpiresAt
                  (saturatingAdd now takeoverLease) }).touch
              now)
            s.tasks.tasks } }
    else s
  | _, _ => s

/-- What `fence_agent_task_controllers_for_endpoint_loss` selects. -/
def lostControllers (asserted : EndpointAssertion) (now : ℤ) (s : Store) :
    List (CommunicationPrincipal × String × AttemptAssertion) :=
  s.carriers.filterMap fun carrier ↦ do
    guard (carrier.endpoint = some (asserted.endpointId, asserted.controllerGeneration))
    let wake ← s.loadWake carrier.wakeId
    guard (wake.targetAgentId = asserted.agentId ∧ wake.triggerKind = .agentTaskAttempt)
    let (rows, attempt) ← s.activeAttempt carrier.taskId carrier.attemptId asserted.agentId now
    return (rows.owner, carrier.taskId,
      ⟨carrier.attemptId, attempt.assigneeAgentId, attempt.attemptFence,
        attempt.controllerGeneration⟩)

def fenceAgentTaskControllersForEndpointLoss (asserted : EndpointAssertion) (now : ℤ) (s : Store) :
    Attempted Store :=
  (s.lostControllers asserted now).foldlM
    (fun s lost ↦ s.replaceAgentTaskAttemptController lost.1 lost.2.1 lost.2.2 now) s

/-- The goal, the task and the attempt of an event agree with it. -/
def eventAgrees (principal : CommunicationPrincipal) (agentId : String) (s : Store)
    (event : AttentionEvent) : Bool :=
  event.owner == principal && event.targetAgentId == agentId &&
    s.goals.any (fun goal ↦ goal.goalId == event.goalId && goal.owner == principal &&
      goal.taskId == event.taskId) &&
    (s.tasks.tasks.lookup event.taskId).any fun rows ↦ rows.owner == principal &&
      rows.assigneeAgentId == some agentId && rows.latestAttemptId == some event.taskAttemptId &&
      rows.terminalAttemptId == some event.taskAttemptId &&
      rows.storedState == event.terminalTaskState && event.terminalTaskState.terminal &&
      (rows.findAttempt event.taskAttemptId).any fun attempt ↦ attempt.assigneeAgentId == agentId &&
        attempt.storedState == event.terminalTaskState.attemptState

def requireAgentAttentionEventForWake (principal : CommunicationPrincipal)
    (sourceEventId : Option String) (agentId : String) (s : Store) : Attempted AttentionEvent := do
  let eventId ← required sourceEventId
    (refusal "agent_attention_wake_invariant" "Agent attention Wake is missing source_event_id")
  required (s.events.find? fun event ↦ event.eventId == eventId &&
    s.eventAgrees principal agentId event) (refusal "agent_attention_wake_invariant"
      "Agent attention Wake source is missing, unauthorized, or inconsistent with authoritative Goal/Task state")

end Store

end WebCodex.AgentWake
