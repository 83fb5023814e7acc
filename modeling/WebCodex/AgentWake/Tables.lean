import WebCodex.AgentWake.Rows
import WebCodex.Foundation.Fallible

/-!
The database with the tables that the operations on wakes and endpoints read and write. Every call
runs in one transaction: it makes its checks and then changes rows with one statement after another.
A statement whose rows would break a constraint of the schema fails (`checkTables`), the call fails
with it, and the transaction is rolled back. A check refuses the call with an error of its own.
-/

namespace WebCodex.AgentWake

open Foundation
open AgentTasks (CommunicationStoreError CommunicationPrincipal Fallible validateId validateAgentId
  validateCommunicationPrincipal saturatingAdd)

/-- How a call fails: it is refused by a check, or a statement breaks a constraint. -/
inductive Failure
  | refused (error : CommunicationStoreError)
  | constraint

abbrev Attempted := Except Failure

def refusal (code message : String) : Failure := .refused ⟨code, message⟩

/-- A check that knows nothing of constraints. -/
def checked {α : Type} (check : Fallible α) : Attempted α := check.mapError .refused

/-- What a call with an idempotency key asks for. -/
inductive IdempotentRequest
  | attachEndpoint (agentId host : String) (clientAttachmentId : Option String) (wakeCapable : Bool)
  | recoverMcpAppEndpoint (agentId endpointId : String) (controllerGeneration : ℤ)
      (clientWindowKey : String)
  | acceptExplicitActivation (agentId endpointId : String) (controllerGeneration : ℤ)
    (wakeId : String)
  deriving DecidableEq

inductive IdempotentOperation
  | attachEndpoint | recoverMcpAppEndpoint | acceptExplicitActivation
  deriving DecidableEq

def IdempotentRequest.operation : IdempotentRequest → IdempotentOperation
  | attachEndpoint _ _ _ _ => .attachEndpoint
  | recoverMcpAppEndpoint _ _ _ _ => .recoverMcpAppEndpoint
  | acceptExplicitActivation _ _ _ _ => .acceptExplicitActivation

structure IdempotencyKey where
  principalDigest : String
  operation : IdempotentOperation
  key : String
  deriving DecidableEq

structure Store where
  tasks : AgentTasks.Database := {}
  goals : List CorrelatedGoal := []
  controllerGenerations : Table String ℤ := ∅
  endpoints : List AgentEndpoint := []
  wakes : List AgentWakeRecord := []
  attempts : List AgentWakeAttempt := []
  carriers : List EndpointCarrier := []
  events : List AttentionEvent := []
  deliveries : List Delivery := []
  idempotency : Table IdempotencyKey (IdempotentRequest × String) := ∅

/-- A call reads the clock, and reads it again to see whether the lease of its endpoint runs. -/
structure Clock where
  (now atEndpoint : ℤ)

namespace Store

structure Constraints (s : Store) : Prop where
  wakes : WakeConstraints s.wakes
  attempts : AttemptConstraints s.attempts
  carriers : CarrierConstraints s.carriers
  endpoints : EndpointConstraints s.endpoints
  events : EventConstraints s.events

instance (s : Store) : Decidable s.Constraints :=
  decidable_of_iff
    (WakeConstraints s.wakes ∧ AttemptConstraints s.attempts ∧ CarrierConstraints s.carriers ∧
      EndpointConstraints s.endpoints ∧ EventConstraints s.events)
    ⟨fun ⟨h₁, h₂, h₃, h₄, h₅⟩ ↦ ⟨h₁, h₂, h₃, h₄, h₅⟩, fun ⟨h₁, h₂, h₃, h₄, h₅⟩ ↦
      ⟨h₁, h₂, h₃, h₄, h₅⟩⟩

def checkTables (after : Store) : Attempted Store :=
  if after.Constraints then .ok after else .error .constraint

variable (condition : AgentWakeRecord → Bool)

def updateWakes (f : AgentWakeRecord → AgentWakeRecord) (s : Store) : Store :=
  { s with wakes := updateWhere condition f s.wakes }

def updateAttempts (condition : AgentWakeAttempt → Bool) (f : AgentWakeAttempt → AgentWakeAttempt)
    (s : Store) : Store :=
  { s with attempts := updateWhere condition f s.attempts }

def updateEndpoints (condition : AgentEndpoint → Bool) (f : AgentEndpoint → AgentEndpoint)
    (s : Store) : Store :=
  { s with endpoints := updateWhere condition f s.endpoints }

/-- The carriers that satisfy a condition lose or get an endpoint. -/
def updateCarriers (condition : EndpointCarrier → Bool) (endpoint : Option (String × ℤ)) (now : ℤ)
    (s : Store) : Store :=
  { s with
    carriers := updateWhere condition
      (fun carrier ↦ { carrier with endpoint := endpoint, updatedAt := max carrier.updatedAt now })
      s.carriers }

/-- The ids of the wakes that satisfy a condition: a subquery of a statement on another table. -/
def wakeIds (s : Store) : List String := (s.wakes.filter condition).map AgentWakeRecord.wakeId

def loadWake (wakeId : String) (s : Store) : Option AgentWakeRecord :=
  s.wakes.find? fun wake ↦ wake.wakeId == wakeId

/-- The row comes first in the order of creation. -/
def createdBefore (wake other : AgentWakeRecord) : Bool :=
    decide (wake.createdAt < other.createdAt) ||
      (wake.createdAt == other.createdAt && !decide (other.wakeId < wake.wakeId))

def earlier (first : Option AgentWakeRecord) (wake : AgentWakeRecord) : Option AgentWakeRecord :=
  match first with
  | none => some wake
  | some first => if createdBefore first wake then some first else some wake

/-- The oldest wake that satisfies a condition. -/
def oldestWake (s : Store) : Option AgentWakeRecord := (s.wakes.filter condition).foldl earlier none

def loadAttempt (attemptId : String) (s : Store) : Option AgentWakeAttempt :=
  s.attempts.find? fun attempt ↦ attempt.attemptId == attemptId

def loadEndpoint (endpointId : String) (s : Store) : Option AgentEndpoint :=
  s.endpoints.find? fun endpoint ↦ endpoint.endpointId == endpointId

def loadEndpointForPrincipal (principal : CommunicationPrincipal) (endpointId : String)
    (s : Store) :
    Option AgentEndpoint :=
  s.endpoints.find? fun endpoint ↦ endpoint.endpointId == endpointId &&
    endpoint.principal == principal

def currentControllerGeneration (agentId : String) (s : Store) : ℤ :=
  (s.controllerGenerations.lookup agentId).getD 0

/-- A wake of the agent was dispatched and is not consumed. -/
def hasDispatched (agentId : String) (s : Store) : Bool :=
  s.wakes.any (AgentWakeRecord.dispatchedFor agentId)

def idempotencyKey (principal : CommunicationPrincipal) (request : IdempotentRequest)
    (key : String) :
    IdempotencyKey :=
  ⟨principal.digest, request.operation, key⟩

def lookupIdempotentResource (principal : CommunicationPrincipal) (request : IdempotentRequest)
    (key : String) (s : Store) : Attempted (Option String) :=
  match s.idempotency.lookup (idempotencyKey principal request key) with
  | none => .ok none
  | some (stored, resource) => do
    ensure (stored == request) (.refused AgentTasks.Database.idempotencyConflict)
    return some resource

def recordIdempotentResource (principal : CommunicationPrincipal) (request : IdempotentRequest)
    (key resource : String) (s : Store) : Store :=
  { s with
    idempotency := s.idempotency.insert (idempotencyKey principal request key) (request, resource) }

end Store

def validateEndpointId (endpointId : String) : Fallible Unit :=
  validateId endpointId "wc_endpoint_" "invalid_endpoint_id"

def validateWakeId (wakeId : String) : Fallible Unit :=
    validateId wakeId "wc_wake_" "invalid_wake_id"

def validateConsumeToken (consumeToken : String) : Fallible Unit :=
  validateId consumeToken "wc_wake_consume_" "invalid_wake_consume_token"

def validateWakeMutationIds (agentId endpointId wakeId attemptId : String) : Fallible Unit := do
  validateAgentId agentId
  validateEndpointId endpointId
  validateWakeId wakeId
  validateId attemptId "wc_wake_attempt_" "invalid_wake_attempt_id"

def validateAdapterKind (value : String) : Fallible String := do
  let kind := Text.trim value.toList
  ensure (!(kind.isEmpty || decide (64 < kind.length)) &&
      kind.all fun c ↦ c.isAlphanum || c == '_' || c == '-' || c == ':' || c == '.')
    ⟨"invalid_wake_adapter_kind", "Wake adapter kind is invalid"⟩
  return String.ofList kind

structure EndpointAssertion where
  (agentId endpointId : String)
  controllerGeneration : ℤ

structure ClaimAssertion where
  (wakeId attemptId claimFence : String)

namespace Store

def generationStale : Failure :=
  refusal "endpoint_generation_stale" "Agent Endpoint controller generation is stale"

def requireCurrentEndpoint (principal : CommunicationPrincipal) (asserted : EndpointAssertion)
    (now : ℤ) (s : Store) : Attempted AgentEndpoint := do
  checked (validateAgentId asserted.agentId)
  checked (validateEndpointId asserted.endpointId)
  ensure (decide (1 ≤ asserted.controllerGeneration))
    (refusal "invalid_controller_generation" "expected_controller_generation must be at least 1")
  let row ← required (s.loadEndpointForPrincipal principal asserted.endpointId)
    (refusal "endpoint_not_found" "Agent Endpoint does not exist")
  ensure (row.agentId == asserted.agentId)
    (refusal "endpoint_agent_mismatch" "Agent Endpoint is attached to a different Agent")
  ensure (row.lifecycle != .detached) (refusal "endpoint_detached" "Agent Endpoint is detached")
  ensure (row.lifecycle != .expired)
    (refusal "endpoint_expired" "Agent Endpoint is expired or stale")
  ensure (decide (now < row.leaseExpiresAt))
    (refusal "endpoint_expired" "Agent Endpoint lease has expired")
  ensure (row.controllerGeneration == s.currentControllerGeneration asserted.agentId &&
      asserted.controllerGeneration == row.controllerGeneration)
    generationStale
  return row

def requireWakeCapable (endpoint : AgentEndpoint) : Attempted Unit := ensure endpoint.wakeCapable
    (refusal "endpoint_not_wake_capable" "Agent Endpoint is not wake-capable")

def wakeNotFound : Failure := refusal "wake_not_found" "Agent Wake does not exist"

def attemptNotFound : Failure :=
    refusal "wake_attempt_not_found" "Agent Wake Attempt does not exist"

/-- `require_exact_claim`. The digests of the fence and of the token are compared through what they
are digests of. -/
def requireExactClaim (asserted : EndpointAssertion) (claim : ClaimAssertion)
    (consumeToken : Option String) (s : Store) : Attempted AgentWakeRecord := do
  checked (validateId claim.claimFence "wc_wake_claim_" "invalid_wake_claim_fence")
  let wake ← required (s.loadWake claim.wakeId) wakeNotFound
  ensure (wake.targetAgentId == asserted.agentId)
    (refusal "wake_agent_mismatch" "Agent Wake belongs to a different Agent")
  ensure (wake.claimedAttemptId == some claim.attemptId &&
      wake.claimedEndpointId == some asserted.endpointId &&
      wake.claimedControllerGeneration == some asserted.controllerGeneration)
    (refusal "wake_claim_stale"
      "Agent Wake claim is stale or belongs to another Endpoint generation")
  let attempt ← required
    (s.attempts.find? fun attempt ↦ attempt.attemptId == claim.attemptId &&
      attempt.wakeId == claim.wakeId && attempt.endpointId == asserted.endpointId &&
      attempt.controllerGeneration == asserted.controllerGeneration)
    attemptNotFound
  ensure (attempt.claimFence == claim.claimFence)
    (refusal "wake_claim_stale" "Agent Wake claim fence is stale")
  ensure (consumeToken.all fun token ↦ attempt.consumeToken == token)
    (refusal "wake_consume_token_mismatch"
      "consume_token does not identify the exact Agent Wake continuation")
  return wake

end Store

end WebCodex.AgentWake
