import WebCodex.AgentWake.Sources

/-!
An agent acts through one endpoint at a time, the one with its current controller generation. When
an endpoint is lost, its claims go back to the queue, and what became of the wakes that it
dispatched is no longer known. An endpoint is lost when another one is attached, when it is
detached, when its lease runs out and this is noticed, and, for its wakes, when it can no longer be
woken.
-/

namespace WebCodex.AgentWake

open Foundation
open AgentTasks (CommunicationPrincipal Fallible validateAgentId validateCommunicationPrincipal
  validateIdempotencyKey saturatingAdd isHexId)

/-- `DEFAULT_ENDPOINT_LEASE_MS`. -/
def endpointLease : ℤ := 120000

structure AgentEndpointMutation where
  endpoint : AgentEndpoint
  created : Bool := false
  replayed : Bool := false
  stateChanged : Bool := false

inductive McpAppEndpointRecovery
  | live (endpoint : AgentEndpoint)
  | replaced (endpoint : AgentEndpoint) (replayed stateChanged successorNeedsRecovery : Bool)

structure NewAgentEndpoint where
  (agentId host : String)
  clientAttachmentId : Option String := none
  wakeCapable : Bool
  idempotencyKey : String

def endpointNotFound (message : String) : Failure := refusal "endpoint_not_found" message

def generationExhausted : Failure :=
  refusal "controller_generation_exhausted" "Agent controller generation is exhausted"

/-- `checked_add(1)` of a controller generation. -/
def nextGeneration (generation : ℤ) : Attempted ℤ := do
  ensure (decide (generation < 2 ^ 63 - 1)) generationExhausted
  return generation + 1

/-- A text that is not blank and has a bounded number of characters, trimmed. -/
def validateNonemptyChars (value : String) (maxChars : ℕ) (code message : String) :
    Fallible String := do
  let text := Text.trim value.toList
  ensure (!(text.isEmpty || decide (maxChars < text.length))) ⟨code, message⟩
  return String.ofList text

def validateOptionalChars (value : Option String) (maxChars : ℕ) (code message : String) :
    Fallible (Option String) :=
  match value with
  | none => .ok none
  | some value => do
    let text := Text.trim value.toList
    if text.isEmpty then return none
    else do
      ensure (!decide (maxChars < text.length)) ⟨code, message⟩
      return some (String.ofList text)

def validateMcpAppRecoveryFingerprint (fingerprint : String) : Fallible Unit :=
  ensure (isHexId "" fingerprint 64) ⟨"invalid_mcp_app_recovery_fingerprint",
      "MCP App recovery fingerprint must be 64 lowercase hexadecimal characters"⟩

def validateMcpAppClientWindowKey (windowKey : String) : Fallible Unit :=
  ensure (isHexId "" windowKey 64) ⟨"invalid_mcp_app_client_window_key",
      "MCP App ClientWindow key must be 64 lowercase hexadecimal characters"⟩

namespace Store

def reconcileWakesForEndpointLoss (asserted : EndpointAssertion) (now : ℤ)
    (fenceTaskController : Bool) (s : Store) : Attempted Store := do
  let s ← (if fenceTaskController then s.fenceAgentTaskControllersForEndpointLoss asserted now
    else pure s)
  let tasks := s.wakeIds fun wake ↦
    wake.targetAgentId == asserted.agentId && wake.triggerKind == .agentTaskAttempt
  let s ← checkTables (s.updateCarriers
    (fun carrier ↦ carrier.endpoint == some (asserted.endpointId, asserted.controllerGeneration) &&
      tasks.contains carrier.wakeId) none now)
  let own := s.wakeIds fun wake ↦ wake.targetAgentId == asserted.agentId
  let mine := fun attempt : AgentWakeAttempt ↦ attempt.endpointId == asserted.endpointId &&
    attempt.controllerGeneration == asserted.controllerGeneration && own.contains attempt.wakeId
  let claimed := fun wake : AgentWakeRecord ↦ wake.targetAgentId == asserted.agentId &&
    wake.claimedEndpointId == some asserted.endpointId &&
    wake.claimedControllerGeneration == some asserted.controllerGeneration
  let s ← s.revokeClaimed mine now
  let s ← s.unclaimWakes (fun wake ↦ wake.state == .claimed && claimed wake) .pending now
  let s ← checkTables (s.updateAttempts
    (fun attempt ↦ (attempt.state == .prepared || attempt.state == .delivered) && mine attempt)
    (AgentWakeAttempt.losesDelivery now))
  checkTables (s.updateWakes
    (fun wake ↦ (wake.state == .prepared || wake.state == .delivered) && claimed wake)
    fun wake ↦ { wake.revise (max wake.updatedAt now) with
      state := .deliveryUnknown
      claimLeaseExpiresAt := none })

/-- One endpoint in `expire_stale_endpoints`. -/
def expireStaleEndpoint (now : ℤ) (s : Store) (stale : AgentEndpoint) : Attempted Store := do
  let s ← checkTables (s.updateEndpoints
    (fun endpoint ↦ endpoint.endpointId == stale.endpointId && endpoint.lifecycle == .attached)
    fun endpoint ↦ { endpoint with
      lifecycle := .expired
      expiredAt := some (endpoint.expiredAt.getD now)
      wakeCapable := false
      recoveryFingerprint := none })
  s.reconcileWakesForEndpointLoss ⟨stale.agentId, stale.endpointId, stale.controllerGeneration⟩
    now true

def expireStaleEndpoints (now : ℤ) (s : Store) : Attempted Store :=
    (s.endpoints.filter fun endpoint ↦
    endpoint.lifecycle == .attached && decide (endpoint.leaseExpiresAt ≤ now)).foldlM
    (expireStaleEndpoint now) s

def requireAgentOwner (principal : CommunicationPrincipal) (agentId : String) (s : Store) :
    Attempted Unit := do
  checked (validateAgentId agentId)
  ensure (s.tasks.owns principal agentId)
    (refusal "agent_not_found" "Agent identity does not exist")

/-- The agent gets a new controller generation, if it still has the old one. -/
def setControllerGeneration (agentId : String) (generation : ℤ) (s : Store) : Store :=
  { s with controllerGenerations := s.controllerGenerations.insert agentId generation }

/-- The columns of an endpoint that is replaced by another one. -/
def replacedEndpoint (now : ℤ) (endpoint : AgentEndpoint) : AgentEndpoint :=
  { endpoint with
    lifecycle := .expired
    expiredAt := some (endpoint.expiredAt.getD now)
    lastSeenAt := max endpoint.lastSeenAt now
    leaseExpiresAt := now
    recoveryFingerprint := none
    clientWindowKey := none }

/-- `attach_agent_endpoint`, which draws the id of the endpoint. -/
def attachAgentEndpoint (principal : CommunicationPrincipal) (input : NewAgentEndpoint)
    (endpointId : String) (now : ℤ) (s : Store) : Attempted (Store × AgentEndpointMutation) := do
  checked (validateAgentId input.agentId)
  checked (validateCommunicationPrincipal principal)
  let host ← checked (validateNonemptyChars input.host 64 "invalid_endpoint_host"
    "Endpoint host must contain 1..=64 characters")
  let clientAttachmentId ← checked (validateOptionalChars input.clientAttachmentId 128
    "invalid_client_attachment_id" "client_attachment_id must contain at most 128 characters")
  let key ← checked (validateIdempotencyKey input.idempotencyKey)
  let request := IdempotentRequest.attachEndpoint input.agentId host clientAttachmentId
    input.wakeCapable
  match ← s.lookupIdempotentResource principal request key with
  | some resource => do
    let endpoint ← required (s.loadEndpoint resource)
      (endpointNotFound "Agent Endpoint no longer exists")
    return (s, { endpoint := endpoint, replayed := true })
  | none => do
    s.requireAgentOwner principal input.agentId
    let generation ← nextGeneration (s.currentControllerGeneration input.agentId)
    let previous := s.endpoints.filter fun endpoint ↦
      endpoint.agentId == input.agentId && endpoint.lifecycle == .attached
    let s ← previous.foldlM (fun s endpoint ↦ s.reconcileWakesForEndpointLoss
      ⟨input.agentId, endpoint.endpointId, endpoint.controllerGeneration⟩ now true) s
    let s ← checkTables (s.updateEndpoints
      (fun endpoint ↦ endpoint.agentId == input.agentId && endpoint.lifecycle == .attached)
      (replacedEndpoint now))
    -- An older proof of recovery does not outlive the replacement.
    let s ← checkTables (s.updateEndpoints (fun endpoint ↦ endpoint.agentId == input.agentId)
      fun endpoint ↦ { endpoint with recoveryFingerprint := none, clientWindowKey := none })
    let s := s.setControllerGeneration input.agentId generation
    let endpoint : AgentEndpoint :=
      { endpointId := endpointId
        agentId := input.agentId
        principal := principal
        host := host
        clientAttachmentId := clientAttachmentId
        wakeCapable := input.wakeCapable
        controllerGeneration := generation
        attachedAt := now
        lastSeenAt := now
        leaseExpiresAt := saturatingAdd now endpointLease }
    let s ← checkTables { s with endpoints := s.endpoints ++ [endpoint] }
    return (s.recordIdempotentResource principal request key endpointId,
      { endpoint := endpoint, created := true, stateChanged := true })

def bindingStale (message : String) : Failure := refusal "host_binding_stale" message

def replayRecovery (principal : CommunicationPrincipal) (asserted : EndpointAssertion)
    (clientWindowKey resource : String) (now : ℤ) (s : Store) :
    Attempted McpAppEndpointRecovery := do
  let replacement ← required (s.loadEndpointForPrincipal principal resource)
    (endpointNotFound "Recovered Agent Endpoint no longer exists")
  let generation ← nextGeneration asserted.controllerGeneration
  let current := s.currentControllerGeneration asserted.agentId
  ensure (!(replacement.agentId != asserted.agentId ||
      replacement.controllerGeneration != generation ||
        decide (current < replacement.controllerGeneration) || replacement.lifecycle == .detached))
    (refusal "endpoint_generation_stale"
      "Recovered Agent Endpoint is no longer the authoritative successor")
  ensure (!(replacement.clientWindowKey != some clientWindowKey &&
      decide (replacement.controllerGeneration < current)))
    (refusal "endpoint_generation_stale"
      "A newer unrelated Endpoint generation retired this recovery lineage")
  ensure (replacement.clientWindowKey == some clientWindowKey)
    (bindingStale "Recovered Agent Endpoint no longer retains this Host ClientWindow")
  return .replaced replacement true false (replacement.lifecycle == .expired ||
    (replacement.lifecycle == .attached && decide (replacement.leaseExpiresAt ≤ now)))

/-- The endpoint that `recover_expired_mcp_app_endpoint` finds, which may be replaced unless its
lease runs. -/
def staleEndpoint (principal : CommunicationPrincipal) (asserted : EndpointAssertion)
    (clientWindowKey : String) (s : Store) : Attempted AgentEndpoint := do
  s.requireAgentOwner principal asserted.agentId
  let stale ← required (s.loadEndpointForPrincipal principal asserted.endpointId)
    (endpointNotFound "Agent Endpoint does not exist")
  ensure (stale.agentId == asserted.agentId)
    (refusal "endpoint_agent_mismatch" "Agent Endpoint is attached to a different Agent")
  ensure (stale.controllerGeneration == asserted.controllerGeneration) generationStale
  ensure (stale.clientWindowKey == some clientWindowKey)
    (bindingStale "MCP App replacement requires the same canonical Host ClientWindow")
  ensure (s.currentControllerGeneration asserted.agentId == asserted.controllerGeneration)
    (refusal "endpoint_generation_stale" "Another Endpoint generation already owns this Agent")
  ensure (stale.lifecycle != .detached) (refusal "endpoint_detached"
      "Explicitly detached Agent Endpoints are not eligible for automatic replacement")
  return stale

/-- `recover_expired_mcp_app_endpoint`, which draws the id of the replacement. -/
def recoverExpiredMcpAppEndpoint (principal : CommunicationPrincipal) (asserted : EndpointAssertion)
    (clientWindowKey replacementId : String) (now : ℤ) (s : Store) :
    Attempted (Store × McpAppEndpointRecovery) := do
  checked (validateCommunicationPrincipal principal)
  checked (validateAgentId asserted.agentId)
  checked (validateEndpointId asserted.endpointId)
  ensure (decide (1 ≤ asserted.controllerGeneration))
    (refusal "invalid_controller_generation" "expected_controller_generation must be at least 1")
  checked (validateMcpAppClientWindowKey clientWindowKey)
  let request := IdempotentRequest.recoverMcpAppEndpoint asserted.agentId asserted.endpointId
    asserted.controllerGeneration clientWindowKey
  match ← s.lookupIdempotentResource principal request asserted.endpointId with
  | some resource => do
    let recovery ← s.replayRecovery principal asserted clientWindowKey resource now
    return (s, recovery)
  | none => do
    let stale ← s.staleEndpoint principal asserted clientWindowKey
    if stale.lifecycle = .attached ∧ now < stale.leaseExpiresAt then return (s, .live stale)
    else do
      let s ← s.reconcileWakesForEndpointLoss asserted now true
      let s ← checkTables (s.updateEndpoints
        (fun endpoint ↦ endpoint.endpointId == asserted.endpointId &&
          endpoint.agentId == asserted.agentId &&
          endpoint.controllerGeneration == asserted.controllerGeneration &&
          endpoint.lifecycle != .detached)
        fun endpoint ↦ { endpoint with
          lifecycle := .expired
          wakeCapable := false
          expiredAt := some (endpoint.expiredAt.getD now)
          lastSeenAt := max endpoint.lastSeenAt now
          leaseExpiresAt := min endpoint.leaseExpiresAt now
          recoveryFingerprint := none })
      let generation ← nextGeneration asserted.controllerGeneration
      let s := s.setControllerGeneration asserted.agentId generation
      let endpoint : AgentEndpoint :=
        { endpointId := replacementId
          agentId := asserted.agentId
          principal := principal
          host := stale.host
          clientAttachmentId := stale.clientAttachmentId
          wakeCapable := false
          clientWindowKey := some clientWindowKey
          controllerGeneration := generation
          attachedAt := now
          lastSeenAt := now
          leaseExpiresAt := saturatingAdd now endpointLease }
      let s ← checkTables { s with endpoints := s.endpoints ++ [endpoint] }
      return (s.recordIdempotentResource principal request asserted.endpointId replacementId,
        .replaced endpoint false true false)

def detachAgentEndpoint (principal : CommunicationPrincipal) (endpointId : String) (now : ℤ)
    (s : Store) : Attempted (Store × AgentEndpointMutation) := do
  checked (validateCommunicationPrincipal principal)
  checked (validateEndpointId endpointId)
  let current ← required (s.loadEndpointForPrincipal principal endpointId)
    (endpointNotFound "Agent Endpoint does not exist")
  if current.lifecycle = .detached then return (s, { endpoint := current })
  else do
    let now := max now current.lastSeenAt
    let s ← s.reconcileWakesForEndpointLoss
      ⟨current.agentId, endpointId, current.controllerGeneration⟩ now true
    let detach := fun endpoint : AgentEndpoint ↦ { endpoint with
      lifecycle := .detached
      detachedAt := some now
      wakeCapable := false
      lastSeenAt := now
      leaseExpiresAt := now
      recoveryFingerprint := none
      clientWindowKey := none }
    let s ← checkTables (s.updateEndpoints
      (fun endpoint ↦ endpoint.endpointId == endpointId && endpoint.lifecycle != .detached) detach)
    return (s, { endpoint := detach current, stateChanged := true })

def renewAgentEndpoint (principal : CommunicationPrincipal) (endpointId : String)
    (controllerGeneration : ℤ) (clock : Clock) (s : Store) :
    Attempted (Store × AgentEndpointMutation) := do
  checked (validateCommunicationPrincipal principal)
  checked (validateEndpointId endpointId)
  ensure (decide (1 ≤ controllerGeneration))
    (refusal "invalid_controller_generation" "expected_controller_generation must be at least 1")
  let current ← required (s.loadEndpointForPrincipal principal endpointId)
    (endpointNotFound "Agent Endpoint does not exist")
  let _ ← s.requireCurrentEndpoint principal ⟨current.agentId, endpointId, controllerGeneration⟩
    clock.atEndpoint
  let renew := fun endpoint : AgentEndpoint ↦ { endpoint with
    lastSeenAt := max endpoint.lastSeenAt clock.now
    leaseExpiresAt := max endpoint.leaseExpiresAt (saturatingAdd clock.now endpointLease) }
  let s ← checkTables (s.updateEndpoints
    (fun endpoint ↦ endpoint.endpointId == endpointId && endpoint.lifecycle == .attached) renew)
  return (s, { endpoint := renew current, stateChanged := true })

def setAgentEndpointBindingProjection (principal : CommunicationPrincipal)
    (asserted : EndpointAssertion) (wakeCapable : Bool)
    (recoveryFingerprint clientWindowKey : Option String) (clock : Clock)
    (s : Store) : Attempted (Store × AgentEndpoint) := do
  checked (validateCommunicationPrincipal principal)
  checked (recoveryFingerprint.elim (.ok ()) validateMcpAppRecoveryFingerprint)
  checked (clientWindowKey.elim (.ok ()) validateMcpAppClientWindowKey)
  let current ← s.requireCurrentEndpoint principal asserted clock.atEndpoint
  if current.wakeCapable = wakeCapable ∧ current.recoveryFingerprint = recoveryFingerprint ∧
      current.clientWindowKey = clientWindowKey then return (s, current)
  else do
    let s ← (if current.wakeCapable && !wakeCapable
      then s.reconcileWakesForEndpointLoss asserted clock.now false else pure s)
    let bind := fun endpoint : AgentEndpoint ↦ { endpoint with
      wakeCapable := wakeCapable
      recoveryFingerprint := recoveryFingerprint
      clientWindowKey := clientWindowKey
      lastSeenAt := max endpoint.lastSeenAt clock.now }
    let s ← checkTables (s.updateEndpoints
      (fun endpoint ↦ endpoint.endpointId == asserted.endpointId &&
        endpoint.agentId == asserted.agentId &&
        endpoint.controllerGeneration == asserted.controllerGeneration &&
        endpoint.lifecycle == .attached)
      bind)
    return (s, bind current)

end Store

end WebCodex.AgentWake
