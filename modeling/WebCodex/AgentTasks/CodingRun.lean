import WebCodex.Foundation.Fallible
import WebCodex.Foundation.Layout

/-!
A runner reports the run of a coding agent in snapshots with an observation revision. A snapshot
is checked against the states that a run can be in (`validateCodingAgentRunSnapshot`), and one
that follows another against the order of these states (`validateCodingAgentRunTransition`).
Merging says whether a snapshot is older than the retained one, the same, or an advance.
-/

namespace WebCodex.AgentTasks

open Foundation

inductive CodingAgentRunState
  | starting | running | waitingPermission | completed | failed | cancelled | lost
  deriving DecidableEq

inductive CodingAgentExecutionState
  | notStarted | started | outcomeUnknown | completed
  deriving DecidableEq

structure CodingAgentTerminal where
  stopReason : Option String := none
  errorCode : Option String := none
  message : Option String := none
  completedAt : ℤ
  deriving DecidableEq

structure CodingAgentRunSnapshot where
  (runId intentFingerprint authorityFingerprint runtimeProjectId providerId : String)
  providerInstanceId : String
  state : CodingAgentRunState
  executionState : CodingAgentExecutionState
  observationRevision : ℕ
  (createdAt updatedAt : ℤ)
  terminal : Option CodingAgentTerminal
  deriving DecidableEq

inductive CodingAgentObservationMerge
  | stale | exactReplay | advance
  deriving DecidableEq

/-- The states of a run whose end is known: no later snapshot says anything else. -/
def CodingAgentRunState.definitive : CodingAgentRunState → Bool
  | completed | failed | cancelled => true
  | _ => false

/-- The bytes that an identifier may have; all of them are ASCII, so they are characters. -/
def identifierChar (lowercaseOnly : Bool) (c : Char) : Bool :=
  (if lowercaseOnly then c.isLower else c.isAlphanum) || c.isDigit || c == '_' || c == '-' ||
    c == '.'

def validateIdentifier (value field : String) (maxBytes : ℕ) (lowercaseOnly : Bool) :
    Except String Unit := do
  ensure (!(value.isEmpty || decide (maxBytes < value.utf8ByteSize)))
    (field ++ " must contain 1..=" ++ toString maxBytes ++ " bytes")
  ensure (value.toList.all (identifierChar lowercaseOnly))
    (field ++ " contains unsupported characters")

def validateProviderId (value : String) : Except String Unit :=
  validateIdentifier value "provider_id" 64 true

def validateProviderInstanceId (value : String) : Except String Unit :=
  validateIdentifier value "provider_instance_id" 64 false

def validateRunId (value : String) : Except String Unit := do
  ensure ("wc_agent_run_".toList.isPrefixOf value.toList)
    "run_id must use the wc_agent_run_ namespace"
  validateIdentifier value "run_id" 96 false

def validateIntentFingerprint (value : String) : Except String Unit :=
  validateIdentifier value "intent_fingerprint" 96 false

def validateAuthorityFingerprint (value : String) : Except String Unit := do
  ensure ("auth_".toList.isPrefixOf value.toList)
    "authority_fingerprint must use the auth_ namespace"
  validateIdentifier value "authority_fingerprint" 80 false

def validateLowCardinalityKind (value field : String) (maxBytes : ℕ) : Except String Unit :=
  ensure (!(value.isEmpty || decide (maxBytes < value.utf8ByteSize)) &&
      value.toList.all fun c ↦ c.isLower || c.isDigit || c == '_')
    (field ++ " is invalid")

def exceeds (maxBytes : ℕ) (value : Option String) : Bool :=
  value.any fun text ↦ decide (maxBytes < text.utf8ByteSize)

def validateTerminalMetadata (terminal : CodingAgentTerminal) : Except String Unit := do
  ensure (!(exceeds 1024 terminal.stopReason || exceeds 1024 terminal.errorCode ||
      exceeds (16 * 1024) terminal.message))
    "CodingAgentRun snapshot terminal metadata is too large"
  match terminal.errorCode with
  | some code => validateLowCardinalityKind code "CodingAgentRun terminal error code" 1024
  | none => .ok ()

def terminalForState (run : CodingAgentRunSnapshot) (executionState : CodingAgentExecutionState) :
    Except String CodingAgentTerminal := do
  ensure (run.executionState == executionState)
    "terminal CodingAgentRun execution_state is inconsistent"
  required run.terminal "terminal CodingAgentRun snapshot lacks terminal metadata"

def validateCancelled (run : CodingAgentRunSnapshot) : Except String Unit := do
  let terminal ← required run.terminal "cancelled CodingAgentRun snapshot lacks terminal metadata"
  match run.executionState with
  | .notStarted =>
    ensure (terminal.stopReason.isNone && terminal.errorCode.isNone &&
        terminal.message.any fun message ↦ !message.isEmpty)
      "pre-prompt cancelled CodingAgentRun snapshot claims ACP terminal truth"
  | .completed =>
    ensure (terminal.stopReason == some "cancelled" && terminal.errorCode.isNone)
      "post-prompt cancelled CodingAgentRun snapshot lacks cancelled truth"
  | _ => .error "cancelled CodingAgentRun snapshot has inconsistent execution state"

/-- The reasons for which an agent stops that count as a failure. -/
def isFailureReason (reason : String) : Bool :=
  reason == "max_tokens" || reason == "max_turn_requests" || reason == "refusal"

def validateFailed (run : CodingAgentRunSnapshot) : Except String Unit := do
  let terminal ← required run.terminal "failed CodingAgentRun snapshot lacks terminal metadata"
  match terminal.stopReason with
  | some reason =>
    if isFailureReason reason then
      ensure (run.executionState == .completed && terminal.errorCode == some reason)
        "failed CodingAgentRun ACP terminal truth is inconsistent"
    else .error "CodingAgentRun snapshot has unknown or contradictory stop_reason"
  | none =>
    ensure ((run.executionState == .notStarted || run.executionState == .completed) &&
        terminal.errorCode.isSome)
      "failed CodingAgentRun internal terminal truth is inconsistent"

/-- The states of a snapshot fit each other and its terminal part. -/
def validateRunState (run : CodingAgentRunSnapshot) : Except String Unit :=
  match run.state with
  | .starting =>
    ensure (run.executionState == .notStarted && run.terminal.isNone)
      "starting CodingAgentRun snapshot is semantically inconsistent"
  | .running =>
    ensure ((run.executionState == .outcomeUnknown || run.executionState == .started) &&
        run.terminal.isNone)
      "running CodingAgentRun snapshot is semantically inconsistent"
  | .waitingPermission =>
    ensure (run.executionState == .started && run.terminal.isNone)
      "waiting_permission CodingAgentRun snapshot is semantically inconsistent"
  | .completed => do
    let terminal ← terminalForState run .completed
    ensure (terminal.stopReason == some "end_turn" && terminal.errorCode.isNone)
      "completed CodingAgentRun snapshot lacks end_turn truth"
  | .cancelled => validateCancelled run
  | .failed => validateFailed run
  | .lost => do
    let terminal ← terminalForState run .outcomeUnknown
    ensure (terminal.stopReason.isNone && terminal.errorCode.isSome)
      "lost CodingAgentRun snapshot claims definite terminal truth"

def validateCodingAgentRunSnapshot (run : CodingAgentRunSnapshot) : Except String Unit := do
  validateRunId run.runId
  validateIntentFingerprint run.intentFingerprint
  validateAuthorityFingerprint run.authorityFingerprint
  validateProviderId run.providerId
  validateProviderInstanceId run.providerInstanceId
  ensure (!(Text.isBlank run.runtimeProjectId.toList ||
    decide (512 < run.runtimeProjectId.utf8ByteSize)))
      "CodingAgentRun snapshot project id is invalid"
  (match run.terminal with
    | some terminal => validateTerminalMetadata terminal
    | none => .ok ())
  validateRunState run

variable (stored incoming : CodingAgentRunSnapshot)

def validateCodingAgentRunIdentityTransition :
    Except String Unit :=
  ensure (stored.runId == incoming.runId && stored.intentFingerprint ==
      incoming.intentFingerprint && stored.authorityFingerprint == incoming.authorityFingerprint &&
      stored.runtimeProjectId == incoming.runtimeProjectId &&
      stored.providerId == incoming.providerId &&
      stored.providerInstanceId == incoming.providerInstanceId &&
      stored.createdAt == incoming.createdAt)
    "CodingAgentRun observation identity changed across revisions"

/-- The execution state of an incoming snapshot may follow that of the stored one. -/
def executionTransitionValid : Bool :=
  match stored.executionState with
  | .notStarted => true
  | .outcomeUnknown =>
    incoming.executionState == .outcomeUnknown || incoming.executionState == .started ||
      incoming.executionState == .completed ||
      (incoming.executionState == .notStarted &&
        (incoming.state == .failed || incoming.state == .cancelled))
  | .started =>
    incoming.executionState == .started || incoming.executionState == .completed ||
      (incoming.executionState == .outcomeUnknown && incoming.state == .lost)
  | .completed => false

def validateCodingAgentRunTransition :
    Except String Unit := do
  ensure (decide (stored.observationRevision < incoming.observationRevision))
    "CodingAgentRun transition does not advance observation revision"
  ensure (!stored.state.definitive)
    "definitive terminal CodingAgentRun observation cannot advance to new truth"
  ensure (!(stored.state == .lost && !(incoming.state == .lost || incoming.state.definitive)))
    "lost CodingAgentRun may only reconcile to newer lost or definitive terminal truth"
  ensure (!(!(stored.state == .starting) && incoming.state == .starting))
    "CodingAgentRun state cannot regress to starting"
  ensure (executionTransitionValid stored incoming)
    "CodingAgentRun execution state regressed across observations"

def mergeCodingAgentRunSnapshot :
    Except String CodingAgentObservationMerge := do
  validateCodingAgentRunSnapshot stored
  validateCodingAgentRunSnapshot incoming
  validateCodingAgentRunIdentityTransition stored incoming
  if incoming.observationRevision < stored.observationRevision then return .stale
  else if incoming.observationRevision = stored.observationRevision then
    if incoming = stored then return .exactReplay
    else
      .error "CodingAgentRun observation revision has conflicting authoritative snapshots"
  else do
    validateCodingAgentRunTransition stored incoming
    return .advance

end WebCodex.AgentTasks
