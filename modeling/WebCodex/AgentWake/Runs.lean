import WebCodex.AgentWake.Dispatch

/-!
A message that is posted in a conversation leaves an inbox wake for each of its recipients, the
one that waits already or a new one. Every call of the store holds the lock of the connection and
runs in one transaction, so an execution is a sequence of operations (`Operation`), each a step
from one state of the tables to the next (`next`). A call that fails leaves the tables as they
were.
-/

namespace WebCodex.AgentWake

open Foundation
open AgentTasks (CommunicationPrincipal Fallible AgentTaskRows TaskRequest validateAgentId
  validateCommunicationPrincipal validateId)

/-- A recipient of a message, with the ids that its delivery draws. -/
structure Recipient where
  (agentId deliveryId wakeId : String)

/-- A message as it is posted in a conversation. -/
structure PostedMessage where
  (messageId conversationId : String)

structure DeliveryConsumeResult where
  consumedDeliveryIds : List String := []
  alreadyConsumedDeliveryIds : List String := []

namespace Store

/-- The inbox wake of the agent that waits to be dispatched. -/
def queueableInbox (agentId : String) (s : Store) : Option AgentWakeRecord :=
  s.oldestWake fun wake ↦ wake.targetAgentId == agentId && wake.triggerKind == .inboxChanged &&
    wake.state.queueable

def queuedDeliveryCount (agentId : String) (s : Store) : ℤ :=
  s.deliveries.countP fun delivery ↦ delivery.recipientAgentId == agentId && delivery.queued

def inboxWake (recipient : Recipient) (message : PostedMessage) (watermark count now : ℤ) :
    AgentWakeRecord where
  wakeId := recipient.wakeId
  targetAgentId := recipient.agentId
  triggerKind := .inboxChanged
  firstTriggeringDeliveryId := some recipient.deliveryId
  latestTriggeringDeliveryId := some recipient.deliveryId
  latestConversationId := some message.conversationId
  latestMessageId := some message.messageId
  inboxHighWatermark := some watermark
  queuedDeliveryCountSnapshot := some count
  createdAt := now
  updatedAt := now

/-- An inbox wake that covers a delivery more. -/
def coverDelivery (recipient : Recipient) (message : PostedMessage) (watermark count now : ℤ)
    (wake : AgentWakeRecord) : AgentWakeRecord :=
  { wake.revise (max wake.updatedAt now) with
    latestTriggeringDeliveryId := some recipient.deliveryId
    latestConversationId := some message.conversationId
    latestMessageId := some message.messageId
    inboxHighWatermark := wake.inboxHighWatermark.map fun old ↦ max old watermark
    queuedDeliveryCountSnapshot := some count }

def coalesceAgentWakeForDelivery (recipient : Recipient) (message : PostedMessage)
    (watermark now : ℤ) (s : Store) : Attempted Store :=
  let count := s.queuedDeliveryCount recipient.agentId
  match s.queueableInbox recipient.agentId with
  | some existing =>
    checkTables (s.updateWakes (fun wake ↦ wake.wakeId == existing.wakeId && wake.state.queueable)
      (coverDelivery recipient message watermark count now))
  | none =>
    checkTables { s with wakes := s.wakes ++ [inboxWake recipient message watermark count now] }

/-- One recipient in `post_conversation_message`: the delivery is stored and its wake coalesced. -/
def deliver (message : PostedMessage) (now : ℤ) (s : Store) (recipient : Recipient) :
    Attempted Store := do
  ensure (s.deliveries.all fun delivery ↦ delivery.deliveryId != recipient.deliveryId &&
      !(delivery.messageId == message.messageId && delivery.recipientAgentId == recipient.agentId))
    (.refused AgentTasks.storeError)
  let delivery : Delivery :=
    { deliveryId := recipient.deliveryId
      messageId := message.messageId
      conversationId := message.conversationId
      recipientAgentId := recipient.agentId }
  let s := { s with deliveries := s.deliveries ++ [delivery] }
  s.coalesceAgentWakeForDelivery recipient message s.deliveries.length now

/-- `post_conversation_message`, as far as inboxes go. What the conversation has to say of the
message and its recipients is passed in. -/
def postConversationMessage (admitted : Fallible Unit) (message : PostedMessage)
    (recipients : List Recipient) (now : ℤ) (s : Store) : Attempted Store := do
  checked admitted
  recipients.foldlM (deliver message now) s

def canonicalizeDeliveryIds (deliveryIds : List String) : Fallible (List String) := do
  ensure (!(deliveryIds.isEmpty || decide (100 < deliveryIds.length)))
    ⟨"invalid_delivery_ids", "delivery_ids must contain 1..=100 values"⟩
  let ids := deliveryIds.map fun value ↦ String.ofList (Text.trim value.toList)
  ids.forM fun value ↦ validateId value "wc_delivery_" "invalid_delivery_id"
  return ids.dedup.mergeSort fun first second ↦ decide (first ≤ second)

/-- One delivery in `consume_agent_deliveries`. -/
def consumeDelivery (agentId : String) (found : Store × DeliveryConsumeResult)
    (deliveryId : String) :
    Attempted (Store × DeliveryConsumeResult) := do
  let isIt := fun delivery : Delivery ↦ delivery.deliveryId == deliveryId &&
    delivery.recipientAgentId == agentId
  let delivery ← required (found.1.deliveries.find? isIt)
    (refusal "delivery_not_found" "Agent delivery does not exist")
  if delivery.queued then
    return ({ found.1 with
        deliveries := updateWhere isIt (fun delivery ↦ { delivery with queued := false })
          found.1.deliveries },
      { found.2 with consumedDeliveryIds := found.2.consumedDeliveryIds ++ [deliveryId] })
  else
    return (found.1,
      { found.2 with
        alreadyConsumedDeliveryIds := found.2.alreadyConsumedDeliveryIds ++ [deliveryId] })

def consumeAgentDeliveries (principal : CommunicationPrincipal) (asserted : EndpointAssertion)
    (deliveryIds : List String) (clock : Clock) (s : Store) :
    Attempted (Store × DeliveryConsumeResult) := do
  checked (validateCommunicationPrincipal principal)
  checked (validateAgentId asserted.agentId)
  checked (validateEndpointId asserted.endpointId)
  let ids ← checked (canonicalizeDeliveryIds deliveryIds)
  let _ ← s.requireCurrentEndpoint principal asserted clock.atEndpoint
  let (s, result) ← ids.foldlM (consumeDelivery asserted.agentId) (s, {})
  let s ← checkTables (s.updateEndpoints
    (fun endpoint ↦ endpoint.endpointId == asserted.endpointId && endpoint.lifecycle == .attached)
    fun endpoint ↦ { endpoint with lastSeenAt := max endpoint.lastSeenAt clock.now })
  return (s, result)

end Store

/-- The ids that the attention for one goal draws. -/
structure NewAttention where
  (eventId wakeId : String)

inductive Operation
  | task (operation : AgentTasks.Operation) (drawn : List NewAttention)
  | correlate (goals : List CorrelatedGoal)
  | attach (principal : CommunicationPrincipal) (input : NewAgentEndpoint) (endpointId : String)
    (now : ℤ)
  | recover (principal : CommunicationPrincipal) (asserted : EndpointAssertion)
      (clientWindowKey replacementId : String) (now : ℤ)
  | detach (principal : CommunicationPrincipal) (endpointId : String) (now : ℤ)
  | renew (principal : CommunicationPrincipal) (endpointId : String) (controllerGeneration : ℤ)
      (clock : Clock)
  | bind (principal : CommunicationPrincipal) (asserted : EndpointAssertion) (wakeCapable : Bool)
      (recoveryFingerprint clientWindowKey : Option String) (clock : Clock)
  | takeover (ownsDatabase : Bool) (now : ℤ)
  | claim (principal : CommunicationPrincipal) (asserted : EndpointAssertion) (adapterKind : String)
      (new : NewClaim) (clock : Clock)
  | release (principal : CommunicationPrincipal) (asserted : EndpointAssertion)
      (claim : ClaimAssertion) (clock : Clock)
  | prepare (call : Store.Preparation)
  | finish (principal : CommunicationPrincipal) (asserted : EndpointAssertion)
      (claim : ClaimAssertion) (delivered : Bool) (clock : Clock)
  | consume (principal : CommunicationPrincipal) (asserted : EndpointAssertion)
      (wakeId consumeToken : String) (clock : Clock)
  | activate (principal : CommunicationPrincipal) (asserted : EndpointAssertion)
      (wakeId activationKey : String) (new : NewClaim) (clock : Clock)
  | post (admitted : Fallible Unit) (message : PostedMessage) (recipients : List Recipient)
    (now : ℤ)
  | consumeDeliveries (principal : CommunicationPrincipal) (asserted : EndpointAssertion)
      (deliveryIds : List String) (clock : Clock)

inductive Answer
  | done
  | task (answer : AgentTasks.Answer)
  | endpoint (mutation : AgentEndpointMutation)
  | recovery (recovery : McpAppEndpointRecovery)
  | bound (endpoint : AgentEndpoint)
  | claimed (claim : Option AgentWakeClaim)
  | wake (wake : AgentWakeRecord)
  | prepared (answer : Fallible AgentWakePrepared)
  | consumed (result : AgentWakeConsumeResult)
  | activated (activation : AgentWakeExplicitActivation)
  | deliveries (result : DeliveryConsumeResult)

namespace Store

/-- `start_agent_task_endpoint_continuation`: the wake of a task attempt and its carrier. -/
def startTaskWake (agentId taskId attemptId wakeId : String) (now : ℤ) (s : Store) :
    Attempted Store := do
  let wake : AgentWakeRecord :=
    { wakeId := wakeId
      targetAgentId := agentId
      triggerKind := .agentTaskAttempt
      sourceTaskId := some taskId
      sourceTaskAttemptId := some attemptId
      createdAt := now
      updatedAt := now }
  let s ← checkTables { s with wakes := s.wakes ++ [wake] }
  let carrier : EndpointCarrier :=
    { taskId := taskId, attemptId := attemptId, wakeId := wakeId, updatedAt := now }
  checkTables { s with carriers := s.carriers ++ [carrier] }

/-- The attention of one goal in `create_agent_task_terminal_attention_in_transaction`. -/
def createAttention (event : AttentionEvent) (wakeId : String) (s : Store) : Attempted Store := do
  let s ← checkTables { s with events := s.events ++ [event] }
  let wake : AgentWakeRecord :=
    { wakeId := wakeId
      targetAgentId := event.targetAgentId
      triggerKind := .attentionEvent
      sourceEventId := some event.eventId
      createdAt := event.createdAt
      updatedAt := event.createdAt }
  checkTables { s with wakes := s.wakes ++ [wake] }

/-- The active goals of the principal that are correlated with the task. -/
def attentiveGoals (principal : CommunicationPrincipal) (taskId : String) (s : Store) :
    List CorrelatedGoal :=
  s.goals.filter fun goal ↦ goal.taskId == taskId && goal.owner == principal && goal.active

/-- `create_agent_task_terminal_attention_in_transaction`. -/
def createAgentTaskTerminalAttention (principal : CommunicationPrincipal)
    (taskId attemptId : String) (rows : AgentTaskRows) (now : ℤ) (drawn : List NewAttention)
    (s : Store) : Attempted Store := do
  let goals := s.attentiveGoals principal taskId
  ensure (decide (goals.length ≤ 64)) (refusal "agent_attention_goal_capacity_exceeded"
      "One AgentTask may produce attention for at most 64 active Goals")
  let agentId := ((rows.findAttempt attemptId).map AgentTasks.StoredAttempt.assigneeAgentId).getD ""
  (goals.zip drawn).foldlM (fun s (goal, ids) ↦ s.createAttention
      { eventId := ids.eventId
        owner := principal
        targetAgentId := agentId
        goalId := goal.goalId
        taskId := taskId
        taskAttemptId := attemptId
        terminalTaskState := rows.storedState
        createdAt := now } ids.wakeId)
    s

/-- The wake of the latest attempt is retired when the call finds the lease of the attempt run
out. -/
def retireExpired (rows : AgentTaskRows) (now : ℤ) (s : Store) : Attempted Store :=
  match rows.latestAttempt with
  | none => return s
  | some attempt =>
    if attempt.storedState = .active ∧ attempt.leaseExpiresAt ≤ now then
      s.retirePreDispatchEndpointExecutionForAttempt attempt.attemptId now
    else return s

/-- What a call on a task does to wakes, for the rows of the task before and after it. -/
def followTask (principal : CommunicationPrincipal) (taskId : String) (now : ℤ)
    (request : TaskRequest) (answer : AgentTasks.Answer) (before after : AgentTaskRows)
    (drawn : List NewAttention)
    (s : Store) : Attempted Store :=
  match request, answer with
  | .assign _, .assigned _ => s.retireExpired before now
  | .start _ _ _, .started _ _ false => s.retireExpired before now
  | .continueEndpoint asserted wakeId, .continued _ false =>
    s.startTaskWake asserted.assigneeAgentId taskId asserted.attemptId wakeId now
  | .complete asserted _ _ _, .completed _ _ false => do
    let s ← s.retirePreDispatchEndpointExecutionForAttempt asserted.attemptId now
    s.createAgentTaskTerminalAttention principal taskId asserted.attemptId after now drawn
  | .terminalize attemptId _ _ _ _, .terminalized _ true _ =>
    s.createAgentTaskTerminalAttention principal taskId attemptId after now drawn
  | _, _ => return s

def performTask (operation : AgentTasks.Operation) (drawn : List NewAttention) (s : Store) :
    Attempted (Store × AgentTasks.Answer) := do
  let (tasks, answer) ← checked (s.tasks.perform operation)
  let changed := { s with tasks := tasks }
  match operation with
  | .task principal taskId now request =>
    match s.tasks.tasks.lookup taskId, tasks.tasks.lookup taskId with
    | some before, some after => do
      let followed ← changed.followTask principal taskId now request answer before after drawn
      return (followed, answer)
    | _, _ => return (changed, answer)
  | _ => return (changed, answer)

/-- What an operation makes of the tables, and its answer. -/
def perform (operation : Operation) (s : Store) : Attempted (Store × Answer) :=
  match operation with
  | .task operation drawn => Prod.map id .task <$> s.performTask operation drawn
  | .correlate goals => return ({ s with goals := goals }, .done)
  | .attach principal input endpointId now =>
    Prod.map id .endpoint <$> s.attachAgentEndpoint principal input endpointId now
  | .recover principal asserted clientWindowKey replacementId now =>
    Prod.map id .recovery <$>
      s.recoverExpiredMcpAppEndpoint principal asserted clientWindowKey replacementId now
  | .detach principal endpointId now =>
    Prod.map id .endpoint <$> s.detachAgentEndpoint principal endpointId now
  | .renew principal endpointId controllerGeneration clock =>
    Prod.map id .endpoint <$> s.renewAgentEndpoint principal endpointId controllerGeneration clock
  | .bind principal asserted wakeCapable recoveryFingerprint clientWindowKey clock =>
    Prod.map id .bound <$> s.setAgentEndpointBindingProjection principal asserted wakeCapable
      recoveryFingerprint clientWindowKey clock
  | .takeover ownsDatabase now =>
    (fun s ↦ (s, .done)) <$> s.recoverAgentWakesForServerTakeover ownsDatabase now
  | .claim principal asserted adapterKind new clock =>
    Prod.map id .claimed <$> s.claimNextAgentWake principal asserted adapterKind new clock
  | .release principal asserted claim clock =>
    Prod.map id .wake <$> s.releaseAgentWakeClaim principal asserted claim clock
  | .prepare call => Prod.map id .prepared <$> s.prepareAgentWakeDispatch call
  | .finish principal asserted claim delivered clock =>
    Prod.map id .wake <$> s.finishAgentWakeDelivery principal asserted claim delivered clock
  | .consume principal asserted wakeId consumeToken clock =>
    Prod.map id .consumed <$> s.consumeAgentWake principal asserted wakeId consumeToken clock
  | .activate principal asserted wakeId activationKey new clock =>
    Prod.map id .activated <$>
      s.acceptExplicitAgentWakeActivation principal asserted wakeId activationKey new clock
  | .post admitted message recipients now =>
    (fun s ↦ (s, .done)) <$> s.postConversationMessage admitted message recipients now
  | .consumeDeliveries principal asserted deliveryIds clock =>
    Prod.map id .deliveries <$> s.consumeAgentDeliveries principal asserted deliveryIds clock

/-- The tables after an operation: a transaction that fails is rolled back. -/
def next (s : Store) (operation : Operation) : Store :=
  match s.perform operation with
  | .ok (after, _) => after
  | .error _ => s

/-- The tables after a sequence of operations. -/
def run (s : Store) (operations : List Operation) : Store := operations.foldl next s

/-- What holds at the start and is kept by every operation holds after every run. -/
theorem run_induction {invariant : Store → Prop} {s : Store}
    (hstep : ∀ s operation after answer, invariant s → s.perform operation = .ok (after, answer) →
      invariant after)
    (h : invariant s) (operations : List Operation) : invariant (s.run operations) := by
  induction operations generalizing s with
  | nil => exact h
  | cons operation _ ih =>
    refine ih ?_
    unfold next
    split
    · next after answer hperform => exact hstep s operation after answer h hperform
    · exact h

end Store

end WebCodex.AgentWake
