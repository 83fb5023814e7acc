import WebCodex.Validation.Extraction

/-!
A summary of validations counts those that prove something, those that failed, and those that came
out as declared. A failure is resolved by a later proof for the same project, identity and domain.
The current evidence is the summary of the validations that began after the last canonical change
in the current attempt.
-/

namespace WebCodex.Validation

open Foundation

variable {D V : Type}

namespace ValidationEvent

def structuredTestRequiresExecutionProof (event : ValidationEvent V) : Bool :=
  (validationAdapterForTool event.toolName).any fun adapter ↦
    decide (adapter.validationKind = .test) && adapter.reportsTestRunMetadata

def genericCargoTestHasReliableZeroTestEvidence (event : ValidationEvent V) : Bool :=
  decide (event.toolName ≠ "cargo_test") && decide (event.adapterToolIdentity = some .cargoTest) &&
    decide (event.testsRunCount = some 0) && decide (event.zeroTestsRun = some true)

/-- `validation_event_is_proven_success`. -/
def isProvenSuccess (event : ValidationEvent V) : Bool :=
  if !event.validationPassed || event.isExpectedResult ||
      requestScopedEvidenceAssertionInsufficient event.testCountAssertion then false
  else if event.genericCargoTestHasReliableZeroTestEvidence then false
  else if !event.structuredTestRequiresExecutionProof then true
  else if decide (event.toolName = "cargo_test") && decide (event.noRun = some true) then true
  else
    match event.testsRunCount, event.zeroTestsRun with
    | some count, some zeroTestsRun =>
      if zeroTestsRun = decide (count = 0) then
        decide (0 < count) || (decide (event.toolName = "cargo_test") &&
          decide (event.requireTests = some false) && event.testCountAssertion.isNone)
      else false
    | _, _ => false

/-- `validation_event_is_inconclusive`. -/
def isInconclusive (event : ValidationEvent V) : Bool :=
  event.validationPassed && !event.isExpectedResult && !event.isProvenSuccess

/-- `validation_inconclusive_reason`. -/
def inconclusiveReason (event : ValidationEvent V) : String :=
  if requestScopedEvidenceAssertionInsufficient event.testCountAssertion then
    if (event.testCountAssertion.bind TestCountAssertion.reasonCode) =
        some "test_count_unproven" then
      "test_count_assertion_unproven"
    else "validation_evidence_assertion_insufficient"
  else if event.zeroTestsRun = some true then "zero_tests_not_validation_proof"
  else if event.structuredTestRequiresExecutionProof &&
      (event.testsRunCount.isNone || event.zeroTestsRun.isNone) then
    "test_count_metadata_unavailable"
  else "validation_evidence_inconclusive"

/-- The namespace that an assertion has: one for all tools of generic execution, one for each other
tool, and none for identities that are not assertions. -/
def assertionDomain (event : ValidationEvent V) : String :=
  if "assertion:".toList.isPrefixOf event.identity.toList then
    if isGenericExecutionTool event.toolName then "generic_execution"
    else "tool:" ++ event.toolName
  else ""

/-- `validation_reconciliation_key`. -/
def reconciliationKey (event : ValidationEvent V) : Option String × String × String :=
  (event.project, event.identity, event.assertionDomain)

end ValidationEvent

variable (events : List (ValidationEvent V))

/-- The map of the latest proof of each key, as one pass over the validations leaves it. -/
def latestSuccess (key : Option String × String × String) :
    Option ℕ :=
  lastIndex (fun event ↦ event.isProvenSuccess && decide (event.reconciliationKey = key)) events

/-- `resolved_validation_failure_indexes`, as a property of an index and its validation. -/
def isResolvedFailure (index : ℕ) (event : ValidationEvent V) :
    Bool :=
  event.isFailure && !event.isOutcomeUnknown &&
    (latestSuccess events event.reconciliationKey).any fun success ↦ decide (index < success)

/-- `ValidationHistoricalFailures` and the two `ValidationFailureSet`s. -/
structure FailureClassification (V : Type) where
  count : ℕ
  resolved : List (ValidationEvent V)
  unresolved : List (ValidationEvent V)

/-- The validations as `classify_validation_failures` leaves them: each failure says whether it is
resolved. -/
def classifiedEvents : List (ValidationEvent V) := events.zipIdx.map fun (event, index) ↦
    if event.isFailure then
      { event with unresolvedFailure := !isResolvedFailure events index event }
    else event

def classifyValidationFailures : FailureClassification V :=
  let failures := events.zipIdx.filter fun (event, _) ↦ event.isFailure
  let resolved := failures.filter fun (event, index) ↦ isResolvedFailure events index event
  let unresolved := failures.filter fun (event, index) ↦ !isResolvedFailure events index event
  { count := resolved.length + unresolved.length
    resolved := resolved.map fun (event, _) ↦ { event with unresolvedFailure := false }
    unresolved := unresolved.map fun (event, _) ↦ { event with unresolvedFailure := true } }

inductive SummaryStatus where
  | notRun
  | mixed
  | passed
  | failed
  | expected
  | inconclusive
  | unknown
deriving DecidableEq

def validationStatus (successes failures expectedResults inconclusiveResults : ℕ) : SummaryStatus :=
  if 0 < successes then if 0 < failures then .mixed else .passed
  else if 0 < failures then .failed
  else if 0 < expectedResults then .expected
  else if 0 < inconclusiveResults then .inconclusive
  else .unknown

def validationLatestStatus : Option (ValidationEvent V) → SummaryStatus
  | some event =>
    if event.isProvenSuccess then .passed
    else if event.isExpectedResult then .expected
    else if event.isInconclusive then .inconclusive
    else .failed
  | none => .notRun

/-- `ValidationSummary`, apart from what is the same in every summary and from the parser. The
counts are missing when nothing was run. -/
structure ValidationSummary (V : Type) where
  available : Bool
  status : SummaryStatus
  reason : Option String
  latest : Option (ValidationEvent V)
  latestStatus : SummaryStatus
  resolvedFailures : List (ValidationEvent V)
  unresolvedFailures : List (ValidationEvent V)
  evidenceGaps : List (ValidationEvent V)
  eventsTotal : ℕ
  (successes failures expectedResults : Option ℕ)
  latestSuccess : Option (ValidationEvent V)
  latestFailure : Option (ValidationEvent V)
  events : List (ValidationEvent V)

def validationSummaryFromEvents (readings : Readings D V) (events : List (SessionEvent D))
    (limit : ℕ) : ValidationSummary V :=
  let found := extractValidationEvents readings events
  if found.length = 0 then
    { available := false
      status := .notRun
      reason := some "no_validation_tool_invoked"
      latest := none
      latestStatus := .notRun
      resolvedFailures := []
      unresolvedFailures := []
      evidenceGaps := []
      eventsTotal := 0
      successes := none
      failures := none
      expectedResults := none
      latestSuccess := none
      latestFailure := none
      events := [] }
  else
    let failures := classifyValidationFailures found
    let validations := classifiedEvents found
    let successes := validations.countP ValidationEvent.isProvenSuccess
    let gaps := validations.filter ValidationEvent.isInconclusive
    let expectedResults := validations.countP ValidationEvent.isExpectedResult
    let status := validationStatus successes failures.count expectedResults gaps.length
    let latest := validations.getLast?
    { available := true
      status := status
      reason := if status = .inconclusive then latest.map ValidationEvent.inconclusiveReason
        else none
      latest := latest
      latestStatus := validationLatestStatus latest
      resolvedFailures := failures.resolved
      unresolvedFailures := failures.unresolved
      evidenceGaps := gaps
      eventsTotal := found.length
      successes := some successes
      failures := some failures.count
      expectedResults := some expectedResults
      latestSuccess := validations.reverse.find? ValidationEvent.isProvenSuccess
      latestFailure := validations.reverse.find? ValidationEvent.isFailure
      events := validations.drop (found.length - limit) }

/-- `exact_tool_start_event_index`: the last start before a finish with its call id, session and
tool. -/
def exactToolStartEventIndex (ledger : List (SessionEvent D)) (finishIndex : ℕ)
    (finished : SessionEvent D) : Option ℕ := do
  let callId ← finished.callId
  lastIndex (fun event ↦ decide (event.kind = .toolCallStarted) &&
    decide (event.callId = some callId) && decide (event.sessionId = finished.sessionId) &&
    decide (event.toolName = finished.toolName)) (ledger.take finishIndex)

/-- `authoritative_validation_start_event_index`. The end of a job goes back to the last finish
before it that handed this job over. -/
def authoritativeValidationStartEventIndex (ledger : List (SessionEvent D))
    (record : ExtractedValidationEvent V) : Option ℕ := do
  let sourceIndex ← ledger.findIdx? fun event ↦ decide (event.eventId = record.sourceEventId)
  let source ← ledger[sourceIndex]?
  match source.kind with
  | .toolCallFinished => exactToolStartEventIndex ledger sourceIndex source
  | .validationJobTerminal =>
    let jobId ← source.jobId
    let acceptanceIndex ← lastIndex (fun event ↦ event.isFinish &&
      decide (event.jobId = some jobId) && eventIsJobAcceptanceOnly event) (ledger.take sourceIndex)
    let acceptance ← ledger[acceptanceIndex]?
    exactToolStartEventIndex ledger acceptanceIndex acceptance
  | _ => none

inductive EvidenceStatus where
  | failed
  | passed
  | expected
  | inconclusive
  | stale
  | notRun
  | unknown
deriving DecidableEq

/-- `CurrentValidationEvidenceProjection`. -/
structure CurrentValidationEvidence (V : Type) where
  status : EvidenceStatus
  reason : Option String
  latestStatus : SummaryStatus
  (eventsTotal successes failures resolvedFailureCount expectedResults unresolvedFailureCount : ℕ)
  (evidenceGapEventCount staleFailureCount : ℕ)
  evidenceAfterLatestContentChange : Bool
  boundaryReason : String
  currentValidation : ValidationSummary V
  nonActionableToolFailureEventIds : List String

/-- A validation began in the attempt, and after the boundary when there is one. -/
def startedAfterBoundary (ledger : List (SessionEvent D)) (attemptStart : ℕ) (boundary : Option ℕ)
    (record : ExtractedValidationEvent V) : Bool :=
  (authoritativeValidationStartEventIndex ledger record).any fun index ↦
    decide (attemptStart ≤ index) && boundary.all fun fence ↦ decide (fence < index)

/-- A validation of the attempt began no later than the last change. -/
def startedBeforeReset (ledger : List (SessionEvent D)) (attemptStart : ℕ) (reset : Option ℕ)
    (record : ExtractedValidationEvent V) : Bool :=
  reset.any fun fence ↦ (authoritativeValidationStartEventIndex ledger record).any fun index ↦
    decide (attemptStart ≤ index) && decide (index ≤ fence)

variable (summary : SessionSummary D)

/-- The last canonical change of the attempt. -/
def SessionSummary.reset : Option ℕ :=
  resetIndex summary.events (currentAttemptEventView summary).attemptStart

/-- `effective_boundary_index`. -/
def SessionSummary.boundary : Option ℕ :=
  summary.reset.or (currentAttemptEventView summary).boundaryEventIndex

/-- A validation is current: it began in the attempt, and after the boundary. -/
def SessionSummary.isCurrent (record : ExtractedValidationEvent V) :
    Bool :=
  startedAfterBoundary summary.events (currentAttemptEventView summary).attemptStart
    summary.boundary record

/-- A validation is stale: it is not current, and it began in the attempt before the last change. -/
def SessionSummary.isStale (record : ExtractedValidationEvent V) :
    Bool :=
  !summary.isCurrent record && startedBeforeReset summary.events
    (currentAttemptEventView summary).attemptStart summary.reset record

def currentSourceEventIds (readings : Readings D V) (summary : SessionSummary D)
    (events : List (SessionEvent D)) : List String :=
  ((extractValidationEventRecords readings events).filter summary.isCurrent).map
    ExtractedValidationEvent.sourceEventId

/-- An event is kept for the second pass: a start, or the source of a current validation. -/
def SessionEvent.isKept (isCurrentSource : String → Bool) (event : SessionEvent D) : Bool :=
  decide (event.kind = .toolCallStarted) || isCurrentSource event.eventId

def currentEvents (readings : Readings D V) (summary : SessionSummary D)
    (events : List (SessionEvent D)) : List (SessionEvent D) :=
  events.filter (SessionEvent.isKept (currentSourceEventIds readings summary events).contains)

/-- Failed calls that are no obstacle: what they lack is evidence, or they are stale or resolved. -/
def nonActionableToolFailureEventIds (readings : Readings D V) (summary : SessionSummary D)
    (events : List (SessionEvent D)) : List String :=
  let records := extractValidationEventRecords readings events
  let validations := records.map ExtractedValidationEvent.event
  let currentFailureIds := (records.filter fun record ↦
    summary.isCurrent record && record.event.isFailure).map ExtractedValidationEvent.sourceEventId
  (records.zipIdx.filter fun (record, index) ↦ !record.event.isOutcomeUnknown &&
    (record.event.isInconclusive || record.event.isFailure &&
      (!currentFailureIds.contains record.sourceEventId ||
        isResolvedFailure validations index record.event))).map fun (record, _) ↦
          record.sourceEventId

/-- The status of the evidence and its reason. -/
def evidenceStatus (current : ValidationSummary V) (reset : Bool) (staleValidations : ℕ) :
    EvidenceStatus × Option String :=
  if 0 < current.eventsTotal ∧ 0 < current.unresolvedFailures.length then
    (.failed, some "current_validation_failures")
  else if 0 < current.eventsTotal ∧ 0 < current.successes.getD 0 then (.passed, none)
  else if 0 < current.eventsTotal ∧ 0 < current.expectedResults.getD 0 then
    (.expected, some "declared_result_expectation_satisfied_without_validation_pass")
  else if 0 < current.eventsTotal ∧ current.status = .inconclusive then
    (.inconclusive, current.reason.or (some "validation_evidence_inconclusive"))
  else if reset = true ∧ 0 < staleValidations then (.stale, some "validation_stale_after_changes")
  else if current.eventsTotal = 0 then (.notRun, some "no_validation_in_current_attempt")
  else (.unknown, some "current_validation_evidence_unknown")

def currentValidationEvidenceForEvents (readings : Readings D V) (summary : SessionSummary D)
    (events : List (SessionEvent D)) (limit : ℕ) : CurrentValidationEvidence V :=
  if (currentAttemptEventView summary).complete = false then
    { status := .unknown
      reason := some "attempt_boundary_unavailable"
      latestStatus := .unknown
      eventsTotal := 0
      successes := 0
      failures := 0
      resolvedFailureCount := 0
      expectedResults := 0
      unresolvedFailureCount := 0
      evidenceGapEventCount := 0
      staleFailureCount := 0
      evidenceAfterLatestContentChange := false
      boundaryReason := "attempt_boundary_unavailable"
      currentValidation := validationSummaryFromEvents readings [] limit
      nonActionableToolFailureEventIds := [] }
  else
    let stale := (extractValidationEventRecords readings events).filter summary.isStale
    let current := validationSummaryFromEvents readings
      (currentEvents readings summary events) limit
    let status := evidenceStatus current summary.reset.isSome stale.length
    { status := status.1
      reason := status.2
      latestStatus := current.latestStatus
      eventsTotal := current.eventsTotal
      successes := current.successes.getD 0
      failures := current.failures.getD 0
      resolvedFailureCount := current.resolvedFailures.length
      expectedResults := current.expectedResults.getD 0
      unresolvedFailureCount := current.unresolvedFailures.length
      evidenceGapEventCount := current.evidenceGaps.length
      staleFailureCount := stale.countP fun record ↦ record.event.isFailure
      evidenceAfterLatestContentChange := summary.reset.isSome && decide (0 < current.eventsTotal)
      boundaryReason := if summary.reset.isSome then "workspace_content_changed"
        else "attempt_start"
      currentValidation := current
      nonActionableToolFailureEventIds := nonActionableToolFailureEventIds readings summary events }

def currentValidationEvidenceForSession (readings : Readings D V) (summary : SessionSummary D)
    (limit : ℕ) : CurrentValidationEvidence V :=
  currentValidationEvidenceForEvents readings summary summary.events limit

end WebCodex.Validation
