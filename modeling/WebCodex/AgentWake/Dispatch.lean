import WebCodex.AgentWake.Endpoints

/-!
An endpoint claims the oldest pending wake of its agent, unless one is dispatched already,
prepares it while its claim runs, and reports what became of the delivery; the turn of the model
that takes the wake over consumes it. An active turn may accept a pending inbox wake by itself,
and a server that takes the database over finds the claims of its predecessor void.
-/

namespace WebCodex.AgentWake

open Foundation
open AgentTasks (CommunicationPrincipal Fallible validateAgentId validateCommunicationPrincipal
  validateIdempotencyKey saturatingAdd)

/-- `DEFAULT_WAKE_CLAIM_LEASE_MS`. -/
def claimLease : ℤ := 30000

structure NewClaim where
  (attemptId claimFence consumeToken : String)

structure AgentWakeClaim where
  wake : AgentWakeRecord
  attempt : AgentWakeAttempt

/-- What the resumed turn is told to look at. -/
inductive ResumeHint
  | inbox (queuedDeliveryCount inboxHighWatermark : ℤ)
  | task (taskId attemptId attemptFence : String) (controllerGeneration : ℤ)
  | attention (event : AttentionEvent)

structure AgentWakeEnvelope where
  (wakeId agentId endpointId : String)
  (controllerGeneration queuedDeliveryCount inboxHighWatermark : ℤ)
  consumeToken : String
  resumeHint : ResumeHint

structure AgentWakePrepared where
  wake : AgentWakeRecord
  attempt : AgentWakeAttempt
  envelope : AgentWakeEnvelope

structure AgentWakeConsumeResult where
  (wakeId targetAgentId : String)
  alreadyConsumed : Bool
  consumedAt : ℤ

structure AgentWakeExplicitActivation where
  wake : AgentWakeRecord
  (attemptId consumeToken : String)
  replayed : Bool

namespace Store

/-! ### Claims -/

def releaseExpiredClaimsForAgent (agentId : String) (now : ℤ) (s : Store) : Attempted Store := do
  let expired := fun wake : AgentWakeRecord ↦ wake.targetAgentId == agentId &&
    wake.state == .claimed && wake.claimLeaseExpiresAt.any fun expires ↦ decide (expires ≤ now)
  let tasks := s.wakeIds fun wake ↦ expired wake && wake.triggerKind == .agentTaskAttempt
  let s ← checkTables (s.updateCarriers (fun carrier ↦ tasks.contains carrier.wakeId) none now)
  let own := s.wakeIds fun wake ↦ wake.targetAgentId == agentId
  let s ← s.revokeClaimed
    (fun attempt ↦ decide (attempt.claimLeaseExpiresAt ≤ now) && own.contains attempt.wakeId) now
  s.unclaimWakes expired .pending now

def nextPending (agentId : String) (s : Store) : Option AgentWakeRecord :=
  s.oldestWake fun wake ↦ wake.targetAgentId == agentId && wake.state == .pending

/-- The source of a wake that is claimed: its carrier is bound, or its event is looked at. -/
def bindSource (principal : CommunicationPrincipal) (wake : AgentWakeRecord)
    (asserted : EndpointAssertion) (now : ℤ) (s : Store) : Attempted Store :=
  match wake.triggerKind with
  | .agentTaskAttempt => s.bindAgentTaskWakeCarrier principal wake asserted now
  | .attentionEvent => do
    let _ ← s.requireAgentAttentionEventForWake principal wake.sourceEventId asserted.agentId
    return s
  | .inboxChanged => return s

def claimWake (wake : AgentWakeRecord) (asserted : EndpointAssertion) (adapterKind : String)
    (new : NewClaim) (now : ℤ) (s : Store) : Attempted (Store × AgentWakeClaim) := do
  let expires := saturatingAdd now claimLease
  let attempt : AgentWakeAttempt :=
    { attemptId := new.attemptId
      wakeId := wake.wakeId
      endpointId := asserted.endpointId
      controllerGeneration := asserted.controllerGeneration
      adapterKind := adapterKind
      claimFence := new.claimFence
      consumeToken := new.consumeToken
      claimedAt := now
      claimLeaseExpiresAt := expires }
  let s ← checkTables { s with attempts := s.attempts ++ [attempt] }
  let pending := fun other : AgentWakeRecord ↦ other.wakeId == wake.wakeId &&
    other.state == .pending
  let claim := fun wake : AgentWakeRecord ↦ { wake.revise now with
    state := .claimed
    claimedAttemptId := some new.attemptId
    claimedEndpointId := some asserted.endpointId
    claimedControllerGeneration := some asserted.controllerGeneration
    claimLeaseExpiresAt := some expires }
  let changed := s.wakes.countP pending
  let s ← checkTables (s.updateWakes pending claim)
  ensure (changed == 1) (refusal "wake_claim_conflict" "Agent Wake was claimed concurrently")
  return (s, ⟨claim wake, attempt⟩)

def claimNextAgentWake (principal : CommunicationPrincipal) (asserted : EndpointAssertion)
    (adapterKind : String) (new : NewClaim) (clock : Clock) (s : Store) :
    Attempted (Store × Option AgentWakeClaim) := do
  checked (validateCommunicationPrincipal principal)
  checked (validateAgentId asserted.agentId)
  checked (validateEndpointId asserted.endpointId)
  let adapterKind ← checked (validateAdapterKind adapterKind)
  let endpoint ← s.requireCurrentEndpoint principal asserted clock.atEndpoint
  requireWakeCapable endpoint
  let s ← s.releaseExpiredClaimsForAgent asserted.agentId clock.now
  let s ← s.retireStaleAgentTaskWakesForAgent asserted.agentId clock.now
  if s.hasDispatched asserted.agentId then return (s, none)
  else match s.nextPending asserted.agentId with
    | none => return (s, none)
    | some wake => do
      let s ← s.bindSource principal wake asserted clock.now
      let (s, claim) ← s.claimWake wake asserted adapterKind new clock.now
      return (s, some claim)

def releaseAgentWakeClaim (principal : CommunicationPrincipal) (asserted : EndpointAssertion)
    (claim : ClaimAssertion) (clock : Clock) (s : Store) : Attempted (Store × AgentWakeRecord) := do
  checked (validateWakeMutationIds asserted.agentId asserted.endpointId claim.wakeId
    claim.attemptId)
  checked (validateCommunicationPrincipal principal)
  let _ ← s.requireCurrentEndpoint principal asserted clock.atEndpoint
  let wake ← s.requireExactClaim asserted claim none
  ensure (wake.state == .claimed) (refusal "wake_dispatch_fence_crossed"
      "Agent Wake can only be released before the dispatch fence")
  let s ← checkTables (s.updateAttempts
    (fun attempt ↦ attempt.attemptId == claim.attemptId && attempt.state == .claimed)
    fun attempt ↦ { attempt with state := .revoked, revokedAt := some clock.now })
  let release := fun wake : AgentWakeRecord ↦ (wake.unclaim .pending).revise clock.now
  let s ← checkTables (s.updateWakes
    (fun other ↦ other.wakeId == claim.wakeId && other.state == .claimed) release)
  let s ← s.clearAgentTaskWakeCarrier claim.wakeId clock.now
  return (s, release wake)

/-! ### Preparation -/

def wakeEnvelope (principal : CommunicationPrincipal) (wake : AgentWakeRecord)
    (asserted : EndpointAssertion) (consumeToken : String) (s : Store) :
    Attempted AgentWakeEnvelope := do
  let envelope := fun (count watermark : ℤ) (hint : ResumeHint) ↦
    AgentWakeEnvelope.mk wake.wakeId wake.targetAgentId asserted.endpointId
      asserted.controllerGeneration count watermark consumeToken hint
  match wake.triggerKind with
  | .agentTaskAttempt => do
    let (taskId, attemptId) ← taskSource wake
    let attempt ← s.taskAttempt taskId attemptId
    return envelope 0 0 (.task taskId attemptId attempt.attemptFence attempt.controllerGeneration)
  | .attentionEvent => do
    let event ← s.requireAgentAttentionEventForWake principal wake.sourceEventId wake.targetAgentId
    return envelope 0 0 (.attention event)
  | .inboxChanged => do
    let count ← required wake.queuedDeliveryCountSnapshot
      (refusal "agent_wake_invariant" "Inbox Agent Wake is missing queued_delivery_count_snapshot")
    let watermark ← required wake.inboxHighWatermark
      (refusal "agent_wake_invariant" "Inbox Agent Wake is missing inbox_high_watermark")
    return envelope count watermark (.inbox count watermark)

/-- A call of `prepare_agent_wake_dispatch`. -/
structure Preparation where
  principal : CommunicationPrincipal
  asserted : EndpointAssertion
  claim : ClaimAssertion
  consumeToken : String
  clock : Clock

variable (call : Preparation)

/-- The checks of `prepare_agent_wake_dispatch` up to the task of the wake. -/
def preparationClaim (s : Store) : Attempted AgentWakeRecord := do
  checked (validateWakeMutationIds call.asserted.agentId call.asserted.endpointId call.claim.wakeId
    call.claim.attemptId)
  checked (validateCommunicationPrincipal call.principal)
  checked (validateConsumeToken call.consumeToken)
  let endpoint ← s.requireCurrentEndpoint call.principal call.asserted call.clock.atEndpoint
  requireWakeCapable endpoint
  let wake ← s.requireExactClaim call.asserted call.claim (some call.consumeToken)
  ensure (wake.state == .claimed)
    (refusal "wake_not_claimed" "Agent Wake is not in the claimed pre-dispatch state")
  ensure (!wake.claimLeaseExpiresAt.any fun expires ↦ decide (expires ≤ call.clock.now))
    (refusal "wake_claim_expired" "Agent Wake claim lease expired before the dispatch fence")
  return wake

variable (wake : AgentWakeRecord)

/-- The task attempt of the wake was lost to its claim. -/
def preparationStale (s : Store) : Bool := wake.triggerKind == .agentTaskAttempt &&
    !s.agentTaskWakeIsDispatchable call.principal wake call.asserted call.clock.now

/-- The event of the wake is looked at again. -/
def preparationEvent (s : Store) : Attempted Unit :=
  match wake.triggerKind with
  | .attentionEvent => do
    let _ ← s.requireAgentAttentionEventForWake call.principal wake.sourceEventId
      call.asserted.agentId
    return ()
  | _ => return ()

def preparable (wakeId : String) (wake : AgentWakeRecord) : Bool :=
  wake.wakeId == wakeId && wake.state == .claimed

def prepareWake (now : ℤ) (wake : AgentWakeRecord) : AgentWakeRecord :=
  { wake.revise now with state := .prepared, claimLeaseExpiresAt := none }

/-- The statements of `prepare_agent_wake_dispatch`. -/
def crossDispatchFence (s : Store) : Attempted (Store × AgentWakePrepared) := do
  let s ← checkTables (s.updateAttempts
    (fun attempt ↦ attempt.attemptId == call.claim.attemptId && attempt.state == .claimed)
    fun attempt ↦ { attempt with state := .prepared, preparedAt := some call.clock.now })
  let s ← checkTables (s.updateWakes (preparable call.claim.wakeId) (prepareWake call.clock.now))
  let prepared := prepareWake call.clock.now wake
  let attempt ← required (s.loadAttempt call.claim.attemptId) attemptNotFound
  let envelope ← s.wakeEnvelope call.principal prepared call.asserted call.consumeToken
  return (s, ⟨prepared, attempt, envelope⟩)

/-- `prepare_agent_wake_dispatch`. A wake whose task attempt is lost is retired, and the call that
finds it so is refused all the same. -/
def prepareAgentWakeDispatch (s : Store) : Attempted (Store × Fallible AgentWakePrepared) := do
  let wake ← s.preparationClaim call
  if s.preparationStale call wake then do
    let s ← s.retireAgentTaskWakePreDispatch wake.wakeId call.clock.now
    return (s, .error ⟨"agent_task_attempt_stale",
      "AgentTaskAttempt expired or became stale before Host continuation dispatch"⟩)
  else do
    s.preparationEvent call wake
    let (s, prepared) ← s.crossDispatchFence call wake
    return (s, .ok prepared)

/-- `finish_agent_wake_delivery`: the delivery is reported, or what became of it is not known. -/
def finishAgentWakeDelivery (principal : CommunicationPrincipal) (asserted : EndpointAssertion)
    (claim : ClaimAssertion) (delivered : Bool) (clock : Clock) (s : Store) :
    Attempted (Store × AgentWakeRecord) := do
  checked (validateWakeMutationIds asserted.agentId asserted.endpointId claim.wakeId
    claim.attemptId)
  checked (validateCommunicationPrincipal principal)
  let _ ← s.requireCurrentEndpoint principal asserted clock.atEndpoint
  let wake ← s.requireExactClaim asserted claim none
  if wake.state = .consumed ∨ (delivered = true ∧ wake.state = .delivered) ∨
      (delivered = false ∧ wake.state = .deliveryUnknown) then return (s, wake)
  else do
    ensure (wake.state == .prepared || wake.state == .deliveryUnknown) (refusal "wake_not_prepared"
        "Agent Wake delivery outcome requires the exact prepared attempt")
    let s ← checkTables (s.updateAttempts (fun attempt ↦ attempt.attemptId == claim.attemptId)
      fun attempt ↦
        if delivered then
          { attempt with
            state := .delivered
            deliveredAt := AgentWakeAttempt.coalesce attempt.deliveredAt clock.now }
        else attempt.losesDelivery clock.now)
    let finish := fun wake : AgentWakeRecord ↦ { wake.revise (max wake.updatedAt clock.now) with
      state := if delivered then .delivered else .deliveryUnknown
      claimLeaseExpiresAt := none }
    let s ← checkTables (s.updateWakes (fun other ↦ other.wakeId == claim.wakeId) finish)
    return (s, finish wake)

/-- The attempt whose token consumes a wake, after the checks of `consume_agent_wake`. -/
def consumptionAttempt (asserted : EndpointAssertion) (endpoint : AgentEndpoint)
    (wake : AgentWakeRecord) (consumeToken : String) (s : Store) : Attempted AgentWakeAttempt := do
  ensure (wake.targetAgentId == asserted.agentId)
    (refusal "wake_agent_mismatch" "Agent Wake belongs to a different Agent")
  ensure (wake.claimedEndpointId == some asserted.endpointId &&
      wake.claimedControllerGeneration == some asserted.controllerGeneration)
    (refusal "wake_endpoint_fence_mismatch"
      "Agent Wake is bound to a different Endpoint generation")
  let attemptId ← required wake.claimedAttemptId
    (refusal "wake_not_dispatched" "Agent Wake has no exact dispatched attempt to consume")
  let attempt ← required (s.loadAttempt attemptId) attemptNotFound
  -- A turn that crossed the dispatch fence may have lost the carrier that it was resumed through.
  ensure (endpoint.wakeCapable || attempt.adapterKind == "explicit_activation" ||
      attempt.adapterKind == "mcp_app")
    (refusal "endpoint_not_wake_capable" "Agent Endpoint is not wake-capable")
  ensure (attempt.consumeToken == consumeToken) (refusal "wake_consume_token_mismatch"
      "consume_token does not identify the exact Agent Wake continuation")
  return attempt

def consumeAgentWake (principal : CommunicationPrincipal) (asserted : EndpointAssertion)
    (wakeId consumeToken : String) (clock : Clock) (s : Store) :
    Attempted (Store × AgentWakeConsumeResult) := do
  checked (validateCommunicationPrincipal principal)
  checked (validateAgentId asserted.agentId)
  checked (validateEndpointId asserted.endpointId)
  checked (validateWakeId wakeId)
  checked (validateConsumeToken consumeToken)
  let endpoint ← s.requireCurrentEndpoint principal asserted clock.atEndpoint
  let wake ← required (s.loadWake wakeId) wakeNotFound
  let attempt ← s.consumptionAttempt asserted endpoint wake consumeToken
  if wake.state = .consumed then do
    ensure (wake.consumedByEndpointId == some asserted.endpointId &&
        wake.consumedControllerGeneration == some asserted.controllerGeneration)
      (refusal "wake_endpoint_fence_mismatch"
        "Consumed Agent Wake is bound to a different Endpoint generation")
    return (s, ⟨wakeId, wake.targetAgentId, true, wake.consumedAt.getD 0⟩)
  else do
    ensure wake.state.dispatched
      (refusal "wake_not_dispatched" "Agent Wake can only be consumed after the dispatch fence")
    let s := s.promoteTakeover principal wake asserted clock.now
    let s ← checkTables (s.updateAttempts (fun other ↦ other.attemptId == attempt.attemptId)
      fun attempt ↦ { attempt with
        state := .consumed
        consumedAt := AgentWakeAttempt.coalesce attempt.consumedAt clock.now })
    let s ← checkTables
      (s.updateWakes (fun other ↦ other.wakeId == wakeId && other.state.dispatched) fun wake ↦
          { wake.revise (max wake.updatedAt clock.now) with
        state := .consumed
        consumedAt := some clock.now
        consumedByEndpointId := some asserted.endpointId
        consumedControllerGeneration := some asserted.controllerGeneration
        claimLeaseExpiresAt := none })
    let s ← checkTables
      (s.updateEndpoints (fun endpoint ↦ endpoint.endpointId == asserted.endpointId) fun endpoint ↦
        { endpoint with lastSeenAt := max endpoint.lastSeenAt clock.now })
    return (s, ⟨wakeId, asserted.agentId, false, clock.now⟩)

/-- The attempt of an explicit activation, which is delivered from the start. -/
def activationAttempt (asserted : EndpointAssertion) (wakeId : String) (new : NewClaim) (now : ℤ) :
    AgentWakeAttempt where
  attemptId := new.attemptId
  wakeId := wakeId
  endpointId := asserted.endpointId
  controllerGeneration := asserted.controllerGeneration
  adapterKind := "explicit_activation"
  state := .delivered
  claimFence := new.claimFence
  consumeToken := new.consumeToken
  claimedAt := now
  claimLeaseExpiresAt := now
  preparedAt := some now
  deliveredAt := some now

/-- `accept_explicit_agent_wake_activation`. Its token is a digest of what the caller says, and is
drawn with the other ids here. -/
def acceptExplicitAgentWakeActivation (principal : CommunicationPrincipal)
    (asserted : EndpointAssertion) (wakeId activationKey : String) (new : NewClaim) (clock : Clock)
    (s : Store) :
    Attempted (Store × AgentWakeExplicitActivation) := do
  checked (validateCommunicationPrincipal principal)
  checked (validateAgentId asserted.agentId)
  checked (validateEndpointId asserted.endpointId)
  checked (validateWakeId wakeId)
  let key ← checked (validateIdempotencyKey activationKey)
  let request := IdempotentRequest.acceptExplicitActivation asserted.agentId asserted.endpointId
    asserted.controllerGeneration wakeId
  match ← s.lookupIdempotentResource principal request key with
  | some resource => do
    let attempt ← required (s.loadAttempt resource)
      (refusal "wake_attempt_not_found" "Explicit Agent Wake activation no longer exists")
    let wake ← required (s.loadWake wakeId) wakeNotFound
    return (s, ⟨wake, attempt.attemptId, new.consumeToken, true⟩)
  | none => do
    let _ ← s.requireCurrentEndpoint principal asserted clock.atEndpoint
    let wake ← required
      ((s.loadWake wakeId).filter fun wake ↦ wake.targetAgentId == asserted.agentId) wakeNotFound
    ensure (wake.triggerKind != .agentTaskAttempt)
        (refusal "agent_task_wake_requires_endpoint_dispatch"
          "AgentTask-origin Wake must be claimed through the continuation Endpoint carrier path")
    ensure (wake.triggerKind != .attentionEvent)
        (refusal "attention_wake_requires_endpoint_dispatch"
          "Attention-event Wake must be claimed through the continuation Endpoint carrier path")
    ensure (wake.state == .pending)
      (refusal "wake_not_pending" "Explicit activation can accept only a pending Agent Wake")
    ensure (!s.hasDispatched asserted.agentId) (refusal "wake_dispatch_blocked"
        "Resolve the Agent's already-dispatched Wake before accepting another")
    let s ← checkTables { s with
      attempts := s.attempts ++ [activationAttempt asserted wakeId new clock.now] }
    let pending := fun other : AgentWakeRecord ↦ other.wakeId == wakeId && other.state == .pending
    let activate := fun wake : AgentWakeRecord ↦ { wake.revise clock.now with
      state := .delivered
      claimedAttemptId := some new.attemptId
      claimedEndpointId := some asserted.endpointId
      claimedControllerGeneration := some asserted.controllerGeneration
      claimLeaseExpiresAt := none }
    let changed := s.wakes.countP pending
    let s ← checkTables (s.updateWakes pending activate)
    ensure (changed == 1) (refusal "wake_activation_conflict"
        "Agent Wake changed before explicit activation was accepted")
    return (s.recordIdempotentResource principal request key new.attemptId,
      ⟨activate wake, new.attemptId, new.consumeToken, false⟩)

def recoverAgentWakesForServerTakeover (ownsDatabase : Bool) (now : ℤ) (s : Store) :
    Attempted Store := do
  ensure ownsDatabase (refusal "server_instance_ownership_mismatch"
      "Server ownership proof does not match this database state")
  let s ← s.expireStaleEndpoints now
  let s ← checkTables (s.updateEndpoints
    (fun endpoint ↦ endpoint.lifecycle == .attached && endpoint.wakeCapable)
    fun endpoint ↦ { endpoint with wakeCapable := false })
  let claimed := s.wakeIds fun wake ↦ wake.triggerKind == .agentTaskAttempt &&
    wake.state == .claimed
  let s ← checkTables (s.updateCarriers (fun carrier ↦ claimed.contains carrier.wakeId) none now)
  let s ← s.revokeClaimed (fun _ ↦ true) now
  let s ← s.unclaimWakes (fun wake ↦ wake.state == .claimed) .pending now
  let s ← checkTables (s.updateAttempts (fun attempt ↦ attempt.state == .prepared)
    (AgentWakeAttempt.losesDelivery now))
  checkTables (s.updateWakes (fun wake ↦ wake.state == .prepared)
    fun wake ↦ { wake.revise (max wake.updatedAt now) with
      state := .deliveryUnknown
      claimLeaseExpiresAt := none })

end Store

end WebCodex.AgentWake
