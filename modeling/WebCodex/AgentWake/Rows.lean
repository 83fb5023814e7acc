import WebCodex.AgentTasks.Store
import WebCodex.Foundation.UniqueIndex

/-!
A wake tells an agent that there is something to look at: messages in its inbox, an attempt at a
task, or the end of a task of a goal. It is claimed for an endpoint, prepared for dispatch,
delivered, and consumed by the turn of the model that takes it over; each claim leaves a row of its
own, the wake attempt.
-/

namespace WebCodex.AgentWake

open Foundation

inductive TriggerKind
  | inboxChanged | agentTaskAttempt | attentionEvent
  deriving DecidableEq

inductive AgentWakeState
  | pending | claimed | prepared | delivered | deliveryUnknown | consumed | retired
  deriving DecidableEq

namespace AgentWakeState

def queueable : AgentWakeState → Bool
  | pending | claimed => true
  | _ => false

/-- The wake crossed the dispatch fence and was not consumed. -/
def dispatched : AgentWakeState → Bool
  | prepared | delivered | deliveryUnknown => true
  | _ => false

end AgentWakeState

structure AgentWakeRecord where
  (wakeId targetAgentId : String)
  triggerKind : TriggerKind
  firstTriggeringDeliveryId : Option String := none
  latestTriggeringDeliveryId : Option String := none
  latestConversationId : Option String := none
  latestMessageId : Option String := none
  inboxHighWatermark : Option ℤ := none
  queuedDeliveryCountSnapshot : Option ℤ := none
  sourceTaskId : Option String := none
  sourceTaskAttemptId : Option String := none
  sourceEventId : Option String := none
  state : AgentWakeState := .pending
  revision : ℤ := 1
  (createdAt updatedAt : ℤ)
  claimedAttemptId : Option String := none
  claimedEndpointId : Option String := none
  claimedControllerGeneration : Option ℤ := none
  claimLeaseExpiresAt : Option ℤ := none
  consumedAt : Option ℤ := none
  consumedByEndpointId : Option String := none
  consumedControllerGeneration : Option ℤ := none

namespace AgentWakeRecord

/-- The check of the columns that depend on the trigger. -/
def triggerColumns (wake : AgentWakeRecord) : Bool :=
  let inbox := [wake.firstTriggeringDeliveryId.isSome, wake.latestTriggeringDeliveryId.isSome,
    wake.latestConversationId.isSome, wake.latestMessageId.isSome, wake.inboxHighWatermark.isSome,
    wake.queuedDeliveryCountSnapshot.isSome]
  let task := [wake.sourceTaskId.isSome, wake.sourceTaskAttemptId.isSome]
  let event := [wake.sourceEventId.isSome]
  match wake.triggerKind with
  | .inboxChanged => inbox.all id && !task.any id && !event.any id
  | .agentTaskAttempt => !inbox.any id && task.all id && !event.any id
  | .attentionEvent => !inbox.any id && !task.any id && event.all id

def claimColumns (wake : AgentWakeRecord) : Bool :=
  match wake.state with
  | .pending | .retired =>
    wake.claimedAttemptId.isNone && wake.claimedEndpointId.isNone &&
      wake.claimedControllerGeneration.isNone && wake.claimLeaseExpiresAt.isNone
  | _ => true

/-- The check of the columns of the consumption. -/
def consumptionColumns (wake : AgentWakeRecord) : Bool := wake.state != .consumed ||
    (wake.consumedAt.isSome && wake.consumedByEndpointId.isSome &&
      wake.consumedControllerGeneration.isSome)

structure Checks (wake : AgentWakeRecord) : Prop where
  trigger : wake.triggerColumns = true
  watermark : ∀ watermark ∈ wake.inboxHighWatermark, 1 ≤ watermark
  count : ∀ count ∈ wake.queuedDeliveryCountSnapshot, 1 ≤ count
  revision : 1 ≤ wake.revision
  claim : wake.claimColumns = true
  consumption : wake.consumptionColumns = true

instance (wake : AgentWakeRecord) : Decidable wake.Checks :=
  decidable_of_iff
    (wake.triggerColumns = true ∧ (∀ watermark ∈ wake.inboxHighWatermark, 1 ≤ watermark) ∧
      (∀ count ∈ wake.queuedDeliveryCountSnapshot, 1 ≤ count) ∧ 1 ≤ wake.revision ∧
      wake.claimColumns = true ∧ wake.consumptionColumns = true)
    ⟨fun ⟨h₁, h₂, h₃, h₄, h₅, h₆⟩ ↦ ⟨h₁, h₂, h₃, h₄, h₅, h₆⟩,
      fun ⟨h₁, h₂, h₃, h₄, h₅, h₆⟩ ↦ ⟨h₁, h₂, h₃, h₄, h₅, h₆⟩⟩

/-- The wake is for the agent and was dispatched. -/
def dispatchedFor (agentId : String) (wake : AgentWakeRecord) : Bool :=
  wake.targetAgentId == agentId && wake.state.dispatched

/-- The row without the columns of a claim, in a state that has none. -/
def unclaim (state : AgentWakeState) (wake : AgentWakeRecord) : AgentWakeRecord :=
  { wake with
    state := state
    claimedAttemptId := none
    claimedEndpointId := none
    claimedControllerGeneration := none
    claimLeaseExpiresAt := none }

/-- Every update of a row counts its revision up and says when it was made. -/
def revise (updatedAt : ℤ) (wake : AgentWakeRecord) : AgentWakeRecord :=
  { wake with revision := wake.revision + 1, updatedAt := updatedAt }

end AgentWakeRecord

def wakePrimaryKey : UniqueIndex AgentWakeRecord String where
  key := AgentWakeRecord.wakeId

/-- `idx_wc_agent_wakes_one_queueable_inbox`. -/
def oneQueueableInbox : UniqueIndex AgentWakeRecord String where
  key := AgentWakeRecord.targetAgentId
  covers := fun wake ↦ wake.triggerKind == .inboxChanged && wake.state.queueable

/-- `idx_wc_agent_wakes_task_attempt`. Null keys are distinct. -/
def oneForTaskAttempt : UniqueIndex AgentWakeRecord (Option String) where
  key := AgentWakeRecord.sourceTaskAttemptId
  covers := fun wake ↦ wake.triggerKind == .agentTaskAttempt && wake.sourceTaskAttemptId.isSome

/-- `idx_wc_agent_wakes_attention_event`. -/
def oneForAttentionEvent : UniqueIndex AgentWakeRecord (Option String) where
  key := AgentWakeRecord.sourceEventId
  covers := fun wake ↦ wake.triggerKind == .attentionEvent && wake.sourceEventId.isSome

/-- `idx_wc_agent_wakes_one_dispatched`. -/
def oneDispatched : UniqueIndex AgentWakeRecord String where
  key := AgentWakeRecord.targetAgentId
  covers := fun wake ↦ wake.state.dispatched

structure WakeConstraints (wakes : List AgentWakeRecord) : Prop where
  checks : ∀ wake ∈ wakes, wake.Checks
  primaryKey : wakePrimaryKey.Holds wakes
  queueableInbox : oneQueueableInbox.Holds wakes
  taskAttempt : oneForTaskAttempt.Holds wakes
  attentionEvent : oneForAttentionEvent.Holds wakes
  dispatched : oneDispatched.Holds wakes

instance (wakes : List AgentWakeRecord) : Decidable (WakeConstraints wakes) :=
  decidable_of_iff
    ((∀ wake ∈ wakes, wake.Checks) ∧ wakePrimaryKey.Holds wakes ∧ oneQueueableInbox.Holds wakes ∧
      oneForTaskAttempt.Holds wakes ∧ oneForAttentionEvent.Holds wakes ∧ oneDispatched.Holds wakes)
    ⟨fun ⟨h₁, h₂, h₃, h₄, h₅, h₆⟩ ↦ ⟨h₁, h₂, h₃, h₄, h₅, h₆⟩,
      fun ⟨h₁, h₂, h₃, h₄, h₅, h₆⟩ ↦ ⟨h₁, h₂, h₃, h₄, h₅, h₆⟩⟩

inductive AgentWakeAttemptState
  | claimed | prepared | delivered | deliveryUnknown | revoked | consumed
  deriving DecidableEq

/-- `AgentWakeAttemptRecord`, with the fence of the claim and the token of its consumption; the
store keeps a digest of each. -/
structure AgentWakeAttempt where
  (attemptId wakeId endpointId : String)
  controllerGeneration : ℤ
  adapterKind : String
  state : AgentWakeAttemptState := .claimed
  (claimFence consumeToken : String)
  (claimedAt claimLeaseExpiresAt : ℤ)
  preparedAt : Option ℤ := none
  deliveredAt : Option ℤ := none
  deliveryUnknownAt : Option ℤ := none
  revokedAt : Option ℤ := none
  consumedAt : Option ℤ := none

namespace AgentWakeAttempt

/-- `COALESCE(column, now)`. -/
def coalesce (column : Option ℤ) (now : ℤ) : Option ℤ := some (column.getD now)

def revoke (now : ℤ) (attempt : AgentWakeAttempt) : AgentWakeAttempt :=
  { attempt with state := .revoked, revokedAt := coalesce attempt.revokedAt now }

/-- What became of the delivery is not known. -/
def losesDelivery (now : ℤ) (attempt : AgentWakeAttempt) : AgentWakeAttempt :=
  { attempt with
    state := .deliveryUnknown
    deliveryUnknownAt := coalesce attempt.deliveryUnknownAt now }

end AgentWakeAttempt

def attemptPrimaryKey : UniqueIndex AgentWakeAttempt String where
  key := AgentWakeAttempt.attemptId

structure AttemptConstraints (attempts : List AgentWakeAttempt) : Prop where
  checks : ∀ attempt ∈ attempts, 1 ≤ attempt.controllerGeneration
  primaryKey : attemptPrimaryKey.Holds attempts

instance (attempts : List AgentWakeAttempt) : Decidable (AttemptConstraints attempts) :=
  decidable_of_iff
    ((∀ attempt ∈ attempts, 1 ≤ attempt.controllerGeneration) ∧ attemptPrimaryKey.Holds attempts)
    ⟨fun ⟨h₁, h₂⟩ ↦ ⟨h₁, h₂⟩, fun ⟨h₁, h₂⟩ ↦ ⟨h₁, h₂⟩⟩

/-- The carrier of the execution of a task attempt at an endpoint. The row has its other columns
with the tasks. -/
structure EndpointCarrier where
  (taskId attemptId wakeId : String)
  endpoint : Option (String × ℤ) := none
  updatedAt : ℤ

def carrierOfAttempt : UniqueIndex EndpointCarrier String where
  key := EndpointCarrier.attemptId

def carrierOfWake : UniqueIndex EndpointCarrier String where
  key := EndpointCarrier.wakeId

/-- The endpoint and its generation are null together (`EndpointCarrier.endpoint`). -/
structure CarrierConstraints (carriers : List EndpointCarrier) : Prop where
  checks : ∀ carrier ∈ carriers, ∀ endpoint ∈ carrier.endpoint, 1 ≤ endpoint.2
  attempt : carrierOfAttempt.Holds carriers
  wake : carrierOfWake.Holds carriers

instance (carriers : List EndpointCarrier) : Decidable (CarrierConstraints carriers) :=
  decidable_of_iff ((∀ carrier ∈ carriers, ∀ endpoint ∈ carrier.endpoint, 1 ≤ endpoint.2) ∧
      carrierOfAttempt.Holds carriers ∧ carrierOfWake.Holds carriers)
    ⟨fun ⟨h₁, h₂, h₃⟩ ↦ ⟨h₁, h₂, h₃⟩, fun ⟨h₁, h₂, h₃⟩ ↦ ⟨h₁, h₂, h₃⟩⟩

inductive AgentEndpointLifecycle
  | attached | detached | expired
  deriving DecidableEq

/-- `AgentEndpointRecord`, with the principal that attached the endpoint and the proofs that an
application recovers it with. -/
structure AgentEndpoint where
  (endpointId agentId : String)
  principal : AgentTasks.CommunicationPrincipal
  host : String
  clientAttachmentId : Option String := none
  wakeCapable : Bool
  recoveryFingerprint : Option String := none
  clientWindowKey : Option String := none
  controllerGeneration : ℤ
  lifecycle : AgentEndpointLifecycle := .attached
  (attachedAt lastSeenAt leaseExpiresAt : ℤ)
  expiredAt : Option ℤ := none
  detachedAt : Option ℤ := none

def endpointPrimaryKey : UniqueIndex AgentEndpoint String where
  key := AgentEndpoint.endpointId

/-- `idx_wc_agent_endpoints_one_attached`. -/
def oneAttached : UniqueIndex AgentEndpoint String where
  key := AgentEndpoint.agentId
  covers := fun endpoint ↦ endpoint.lifecycle == .attached

/-- The check of the columns that depend on the lifecycle. -/
def AgentEndpoint.lifecycleColumns (endpoint : AgentEndpoint) : Bool :=
  match endpoint.lifecycle with
  | .attached => endpoint.expiredAt.isNone && endpoint.detachedAt.isNone
  | .expired => endpoint.expiredAt.isSome
  | .detached => endpoint.detachedAt.isSome

structure EndpointConstraints (endpoints : List AgentEndpoint) : Prop where
  checks : ∀ endpoint ∈ endpoints, endpoint.lifecycleColumns = true ∧
    0 ≤ endpoint.controllerGeneration
  primaryKey : endpointPrimaryKey.Holds endpoints
  attached : oneAttached.Holds endpoints

instance (endpoints : List AgentEndpoint) : Decidable (EndpointConstraints endpoints) :=
  decidable_of_iff
    ((∀ endpoint ∈ endpoints, endpoint.lifecycleColumns = true ∧
      0 ≤ endpoint.controllerGeneration) ∧
      endpointPrimaryKey.Holds endpoints ∧ oneAttached.Holds endpoints)
    ⟨fun ⟨h₁, h₂, h₃⟩ ↦ ⟨h₁, h₂, h₃⟩, fun ⟨h₁, h₂, h₃⟩ ↦ ⟨h₁, h₂, h₃⟩⟩

/-- A message in the inbox of an agent. The order of the deliveries is that of the table, from 1
on. -/
structure Delivery where
  (deliveryId messageId conversationId recipientAgentId : String)
  queued : Bool := true

structure CorrelatedGoal where
  goalId : String
  owner : AgentTasks.CommunicationPrincipal
  active : Bool
  taskId : String

/-- `AgentAttentionEventRecord`. -/
structure AttentionEvent where
  eventId : String
  owner : AgentTasks.CommunicationPrincipal
  (targetAgentId goalId taskId taskAttemptId : String)
  terminalTaskState : AgentTasks.AgentTaskState
  createdAt : ℤ

def eventPrimaryKey : UniqueIndex AttentionEvent String where
  key := AttentionEvent.eventId

def oneForGoalAndAttempt : UniqueIndex AttentionEvent (String × String) where
  key := fun event ↦ (event.goalId, event.taskAttemptId)

structure EventConstraints (events : List AttentionEvent) : Prop where
  checks : ∀ event ∈ events, event.terminalTaskState.terminal = true
  primaryKey : eventPrimaryKey.Holds events
  goalAndAttempt : oneForGoalAndAttempt.Holds events

instance (events : List AttentionEvent) : Decidable (EventConstraints events) :=
  decidable_of_iff
    ((∀ event ∈ events, event.terminalTaskState.terminal = true) ∧ eventPrimaryKey.Holds events ∧
      oneForGoalAndAttempt.Holds events)
    ⟨fun ⟨h₁, h₂, h₃⟩ ↦ ⟨h₁, h₂, h₃⟩, fun ⟨h₁, h₂, h₃⟩ ↦ ⟨h₁, h₂, h₃⟩⟩

end WebCodex.AgentWake
