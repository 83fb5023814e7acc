import Mathlib.Data.Int.Notation
import Mathlib.Data.List.Nodup
import WebCodex.Foundation.LastIndex

/-!
A session ledger is a list of events. A tool call has a start and a finish, joined by a call id; a
request that is recorded twice has two finishes with one logical invocation id. A job that has
ended leaves an event of its own, and an instruction of the user opens an attempt. An event here
has the fields that the projection of validation evidence reads; those that only describe a
validation are one component, `rest`. JSON values are records of the members that are read from
them.
-/

namespace WebCodex.Validation

open Foundation

variable {D : Type}

inductive EventKind where
  | toolCallStarted
  | toolCallFinished
  | validationJobTerminal
  | taskInstruction
  | other (name : String)
deriving DecidableEq

/-- The role of an event of a logical invocation. -/
inductive InvocationRole where
  | recorder
  | business
  | other (name : String)
deriving DecidableEq

inductive EventStatus where
  | succeeded
  | failed
  | other (name : String)
deriving DecidableEq

/-- What is read of the arguments of a call. A `command_summary` that is there hides the `command`,
also when it is no text (`some none`). -/
structure InputSummary where
  (purpose executionState validationTool : Option String)
  commandSummary : Option (Option String)
  command : Option String
deriving DecidableEq

/-- What is read of `test_count_assertion`. -/
structure TestCountAssertion where
  (status reasonCode : Option String)
deriving DecidableEq

/-- What is read of `validation_output_summary`. -/
structure OutputSummary where
  (purpose executionState validationTool commandSummary : Option String)
  (requireTests noRun : Option Bool)
  testCountAssertion : Option TestCountAssertion
deriving DecidableEq

/-- What is read of `ToolEffectEventEvidence`. -/
structure EffectEvidence where
  stateChanged : Option Bool
  executionState : Option String
deriving DecidableEq

structure SessionEvent (D : Type) where
  eventId : String
  (callId logicalInvocationId : Option String)
  logicalInvocationRole : Option InvocationRole
  sessionId : String
  kind : EventKind
  toolName : String
  (project resolvedProject : Option String)
  startedAt : Option ℤ
  status : Option EventStatus
  exitCode : Option ℤ
  resultExpectation : Option String
  acceptedExitCodes : List ℤ
  failureExpectationResult : Option String
  changedPaths : List String
  jobId : Option String
  effectEvidence : Option EffectEvidence
  inputSummary : Option InputSummary
  validationOutputSummary : Option OutputSummary
  rest : D
deriving DecidableEq

/-- What is read of `SessionSummary`. -/
structure SessionSummary (D : Type) where
  events : List (SessionEvent D)
  eventsTruncated : Bool

def logicalInvocationIdPrefix : List Char := "wc_inv_".toList

def isAsciiHexdigit (c : Char) : Bool := c.isDigit || ('a' ≤ c && c ≤ 'f') || ('A' ≤ c && c ≤ 'F')

/-- `is_valid_logical_invocation_id`: the known start, then 32 hexadecimal digits. -/
def isValidLogicalInvocationId (value : String) : Bool :=
  let suffix := value.toList.drop logicalInvocationIdPrefix.length
  logicalInvocationIdPrefix.isPrefixOf value.toList && suffix.length == 32 &&
    suffix.all isAsciiHexdigit

def isValidLogicalInvocationRole : InvocationRole → Bool
  | .recorder => true
  | .business => true
  | .other _ => false

/-- The logical invocation of an event whose correlation is complete. -/
def SessionEvent.correlatedId (event : SessionEvent D) : Option String :=
  event.logicalInvocationId.filter fun logicalId ↦
    isValidLogicalInvocationId logicalId &&
      event.logicalInvocationRole.any isValidLogicalInvocationRole

def SessionEvent.isFinish (event : SessionEvent D) : Bool := decide (event.kind = .toolCallFinished)

variable (events : List (SessionEvent D))

def correlated (logicalId : String) : List (SessionEvent D) :=
  events.filter fun event ↦ event.isFinish && decide (event.correlatedId = some logicalId)

/-- Two finishes are the two records of one request. -/
def SameRequest (recorder business : SessionEvent D) : Prop :=
  recorder.sessionId = business.sessionId ∧ recorder.toolName = business.toolName ∧
    recorder.status = business.status ∧ recorder.callId.isSome ∧ business.callId.isSome ∧
    recorder.callId ≠ business.callId

instance (recorder business : SessionEvent D) : Decidable (SameRequest recorder business) :=
  inferInstanceAs (Decidable (_ ∧ _))

/-- The finish that stands for its group, when the group is one recorder finish and one business
finish of the same request. -/
def canonicalBusiness (group : List (SessionEvent D)) : Option (SessionEvent D) :=
  if group.length = 2 then
    match group.find? fun event ↦ decide (event.logicalInvocationRole = some .recorder),
        group.find? fun event ↦ decide (event.logicalInvocationRole = some .business) with
    | some recorder, some business => if SameRequest recorder business then some business else none
    | _, _ => none
  else none

/-- A finish is left out when another one stands for its group. A group with a canonical finish has
one event of each role, so the canonical one is known by its role. -/
def isCanonicalFinish (event : SessionEvent D) : Bool := event.isFinish &&
    match event.correlatedId with
    | none => true
    | some logicalId =>
      match canonicalBusiness (correlated events logicalId) with
      | some business => decide (event.logicalInvocationRole = business.logicalInvocationRole)
      | none => true

/-- `canonical_tool_call_finished_events`. The source collects the groups and sorts by position; the
result is the part of the ledger that was selected. -/
def canonicalToolCallFinishedEvents : List (SessionEvent D) := events.filter
    (isCanonicalFinish events)

def canonicalFinishedIds : List String :=
  (canonicalToolCallFinishedEvents events).map SessionEvent.eventId

/-- `CurrentAttemptEventView`, apart from the events that it copies. -/
structure CurrentAttemptEventView where
  attemptStart : ℕ
  boundaryEventIndex : Option ℕ
  complete : Bool
deriving DecidableEq

/-- `current_attempt_event_view`. An attempt begins after the last instruction, and without one at
the start of the session, unless the start has been evicted. -/
def currentAttemptEventView (summary : SessionSummary D) : CurrentAttemptEventView :=
  let boundary := lastIndex (fun event ↦ decide (event.kind = .taskInstruction)) summary.events
  { attemptStart := (boundary.map (· + 1)).getD 0
    boundaryEventIndex := boundary
    complete := boundary.isSome || !summary.eventsTruncated }

def materialWorkspaceContentChange (event : SessionEvent D) : Bool :=
  event.isFinish && decide ((event.effectEvidence.bind EffectEvidence.stateChanged) = some true) &&
    !event.changedPaths.isEmpty

/-- A material change that is not left out as the second record of a request. -/
def isCanonicalChange (event : SessionEvent D) : Bool :=
  (!event.isFinish || (canonicalFinishedIds events).contains event.eventId) &&
    materialWorkspaceContentChange event

/-- The place of the last canonical material change of the attempt. -/
def resetIndex (attemptStart : ℕ) : Option ℕ :=
  (lastIndex (isCanonicalChange events) (events.drop attemptStart)).map (attemptStart + ·)

section Facts

variable {events : List (SessionEvent D)} {event : SessionEvent D}

@[simp] theorem isFinish_eq_true : event.isFinish = true ↔ event.kind = .toolCallFinished := by
  simp [SessionEvent.isFinish]

theorem isFinish_of_isCanonicalFinish (h : isCanonicalFinish events event = true) :
    event.isFinish = true := by
  exact (Bool.and_eq_true_iff.mp h).1

/-- A finish without a complete correlation is canonical in every ledger. -/
theorem isCanonicalFinish_of_correlatedId_eq_none (hfinish : event.isFinish = true)
    (hnone : event.correlatedId = none) : isCanonicalFinish events event = true := by
  simp [isCanonicalFinish, hfinish, hnone]

/-- A group with a canonical finish has a finish of the recorder, and the canonical one is of the
business path. -/
theorem exists_recorder_of_canonicalBusiness {group : List (SessionEvent D)}
    {business : SessionEvent D} (h : canonicalBusiness group = some business) :
    ∃ recorder ∈ group, recorder.logicalInvocationRole = some .recorder ∧
      business.logicalInvocationRole = some .business := by
  unfold canonicalBusiness at h
  split at h
  · split at h
    · rename_i recorder found hrecorder hfound
      split at h
      · obtain rfl : found = business := Option.some.inj h
        exact ⟨recorder, List.mem_of_find?_eq_some hrecorder,
          by simpa using List.find?_some hrecorder, by simpa using List.find?_some hfound⟩
      · exact absurd h (by simp)
    · exact absurd h (by simp)
  · exact absurd h (by simp)

/-- With distinct event ids the ids decide which finishes are canonical. -/
theorem mem_canonicalFinishedIds (hids : (events.map SessionEvent.eventId).Nodup)
    (hmem : event ∈ events) :
    event.eventId ∈ canonicalFinishedIds events ↔ isCanonicalFinish events event = true := by
  unfold canonicalFinishedIds canonicalToolCallFinishedEvents
  simp only [List.mem_map, List.mem_filter]
  constructor
  · rintro ⟨other, ⟨hother, hcanonical⟩, hsame⟩
    have heq : other = event := List.inj_on_of_nodup_map hids hother hmem hsame
    rwa [heq] at hcanonical
  · intro hcanonical
    exact ⟨event, ⟨hmem, hcanonical⟩, rfl⟩

end Facts

end WebCodex.Validation
