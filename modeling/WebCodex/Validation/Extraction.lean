import WebCodex.Foundation.Layout
import WebCodex.Validation.Events

/-!
A pass over the ledger pairs each finish of a tool call with its start and reads a validation from
the two. Finishes that only hand a job over, and the second record of a request, are passed by;
the first event that a job leaves when it ends is read instead. The identity of a validation, the
counts in the output and the descriptive fields are parameters.
-/

namespace WebCodex.Validation

open Foundation.Text

variable {D V : Type}

inductive ValidationAdapter where
  | cargoFmt
  | cargoCheck
  | cargoTest
  | goTest
deriving DecidableEq

def validationAdapterForTool (toolIdentity : String) : Option ValidationAdapter :=
  if toolIdentity = "cargo_fmt" then some .cargoFmt
  else if toolIdentity = "cargo_check" then some .cargoCheck
  else if toolIdentity = "cargo_test" then some .cargoTest
  else if toolIdentity = "go_test" then some .goTest
  else none

inductive ValidationKind where
  | format
  | check
  | test
deriving DecidableEq

def ValidationAdapter.validationKind : ValidationAdapter → ValidationKind
  | .cargoFmt => .format
  | .cargoCheck => .check
  | .cargoTest => .test
  | .goTest => .test

def ValidationAdapter.reportsTestRunMetadata : ValidationAdapter → Bool
  | .cargoFmt => false
  | .cargoCheck => false
  | .cargoTest => true
  | .goTest => true

def isGenericExecutionTool (toolName : String) : Bool :=
  ["run_process", "run_script", "run_shell", "run_job"].contains toolName

def executionPurpose (event : SessionEvent D) : Option String :=
  match validationAdapterForTool event.toolName with
  | some adapter =>
    match adapter.validationKind with
    | .test => some "test"
    | .check => some "validation"
    | .format => some "format"
  | none =>
    if isGenericExecutionTool event.toolName then
      ((event.inputSummary.bind InputSummary.purpose).or
        (event.validationOutputSummary.bind OutputSummary.purpose)).filter fun purpose ↦
          ["validation", "test", "build", "format", "release"].contains purpose
    else none

/-- The first two words of a command, as they are separated by white space. -/
def firstTwoWords (command : String) : Option (Str × Str) :=
  let first := trimStart command.toList
  let word := first.takeWhile fun c ↦ !isWhitespace c
  let second := trimStart (first.dropWhile fun c ↦ !isWhitespace c)
  let next := second.takeWhile fun c ↦ !isWhitespace c
  if word.isEmpty || next.isEmpty then none else some (word, next)

/-- The adapter that a cargo command asks for. -/
def adapterForCommand (command : String) : Option ValidationAdapter :=
  match firstTwoWords command with
  | some (word, next) =>
    if word ≠ "cargo".toList then none
    else if next = "fmt".toList then some .cargoFmt
    else if next = "check".toList then some .cargoCheck
    else if next = "test".toList then some .cargoTest
    else none
  | none => none

variable (finished : SessionEvent D)

/-- `validation_adapter_for_execution`: by the name of the tool, by the tool that the arguments or
the output name, or by the command. -/
def validationAdapterForExecution (started : Option (SessionEvent D)) :
    Option ValidationAdapter :=
  let startedInput := started.bind SessionEvent.inputSummary
  let output := finished.validationOutputSummary
  let named := ((startedInput.bind InputSummary.validationTool).or
      (finished.inputSummary.bind InputSummary.validationTool)).or
    (output.bind OutputSummary.validationTool)
  let command := (startedInput.bind fun input ↦ input.commandSummary.getD input.command).or
    (output.bind OutputSummary.commandSummary)
  ((validationAdapterForTool finished.toolName).or (named.bind validationAdapterForTool)).or
    (command.bind adapterForCommand)

/-- `ValidationEvent`. The fields that only describe a validation are `details`. -/
structure ValidationEvent (V : Type) where
  toolName : String
  adapterToolIdentity : Option ValidationAdapter
  (identity purpose : String)
  (success validationPassed : Bool)
  expectationSatisfied : Option Bool
  unresolvedFailure : Bool
  exitCode : Option ℤ
  executionState : String
  project : Option String
  testsRunCount : Option ℕ
  (zeroTestsRun requireTests noRun : Option Bool)
  testCountAssertion : Option TestCountAssertion
  details : V
deriving DecidableEq

/-- What is read from a finish and its start beyond this model: `execution_identity`,
`validation_test_run_metadata` (the count and the flag for no tests), and the descriptive fields. -/
structure Readings (D V : Type) where
  executionIdentity : Option (SessionEvent D) → SessionEvent D → String → String
  testRunMetadata : SessionEvent D → Option ValidationAdapter → Option ℕ × Option Bool
  details : SessionEvent D → Option (SessionEvent D) → V

/-- `request_scoped_evidence_assertion_value_insufficient`. -/
def requestScopedEvidenceAssertionInsufficient (assertion : Option TestCountAssertion) : Bool :=
  assertion.any fun found ↦
    (found.status.any fun status ↦ ["failed", "unproven"].contains status) &&
      found.reasonCode.any fun reason ↦ ["minimum_not_met", "test_count_unproven"].contains reason

def validationExecutionSucceeded (toolResultSuccess : Bool) (executionState : String)
    (assertion : Option TestCountAssertion) : Bool :=
  if ["not_started", "started", "outcome_unknown", "cancelled", "timed_out"].contains executionState
  then false
  else if toolResultSuccess then true
  else decide (finished.exitCode = some 0) && requestScopedEvidenceAssertionInsufficient assertion

def validationExecutionStarted : Bool :=
  finished.exitCode.isSome || finished.validationOutputSummary.isSome

/-- The result that a finish declares in advance, and whether it came. -/
def expectationSatisfied (toolResultSuccess : Bool) : Option Bool :=
  if finished.resultExpectation.isSome || !finished.acceptedExitCodes.isEmpty then
    some ((finished.failureExpectationResult.any fun result ↦
        ["matched_expected_failure", "matched_expected_result"].contains result) ||
      toolResultSuccess && decide (finished.failureExpectationResult = some "none"))
  else none

namespace ValidationEvent

def isOutcomeUnknown (event : ValidationEvent V) : Bool :=
  decide (event.executionState = "outcome_unknown")

/-- `validation_event_is_expected_result`. -/
def isExpectedResult (event : ValidationEvent V) : Bool :=
  !event.isOutcomeUnknown && !event.success && decide (event.expectationSatisfied = some true)

/-- `validation_event_is_failure`. -/
def isFailure (event : ValidationEvent V) : Bool := !event.validationPassed &&
    !event.isExpectedResult

end ValidationEvent

def validationEventFromFinished (readings : Readings D V) (finished : SessionEvent D)
    (started : Option (SessionEvent D)) : Option (ValidationEvent V) := do
  let adapter := validationAdapterForExecution finished started
  let purpose ← (started.bind executionPurpose).or (executionPurpose finished)
  let toolResultSuccess ← match finished.status with
    | some .succeeded => some true
    | some .failed => some false
    | _ => none
  if !validationExecutionStarted finished &&
      (!toolResultSuccess || decide (finished.toolName = "run_job")) then none
  else
    let output := finished.validationOutputSummary
    let executionState := ((output.bind OutputSummary.executionState).or
      ((started.bind SessionEvent.inputSummary).bind InputSummary.executionState)).getD "completed"
    let testRun := readings.testRunMetadata finished adapter
    let assertion := output.bind OutputSummary.testCountAssertion
    let event : ValidationEvent V :=
      { toolName := finished.toolName
        adapterToolIdentity := adapter
        identity := readings.executionIdentity started finished purpose
        purpose := purpose
        success := toolResultSuccess
        validationPassed :=
          validationExecutionSucceeded finished toolResultSuccess executionState assertion
        expectationSatisfied := expectationSatisfied finished toolResultSuccess
        unresolvedFailure := false
        exitCode := finished.exitCode
        executionState := executionState
        project := ((finished.resolvedProject.or finished.project).or
          (started.bind SessionEvent.resolvedProject)).or (started.bind SessionEvent.project)
        testsRunCount := testRun.1
        zeroTestsRun := testRun.2
        requireTests := output.bind OutputSummary.requireTests
        noRun := output.bind OutputSummary.noRun
        testCountAssertion := assertion
        details := readings.details finished started }
    some { event with unresolvedFailure := event.isFailure }

/-- `event_is_job_acceptance_only`: the call handed a job over, and the job has not ended. -/
def eventIsJobAcceptanceOnly (event : SessionEvent D) : Bool :=
  if event.exitCode.isSome then false
  else if event.jobId.all String.isEmpty then false
  else
    ((event.validationOutputSummary.bind OutputSummary.executionState).or
      (event.effectEvidence.bind EffectEvidence.executionState)).any fun state ↦
        ["started", "queued", "running"].contains state

/-- A start belongs to a finish: by the call id, and in old ledgers without one by the session, the
tool and the time. -/
def startMatches (event : SessionEvent D) : Bool :=
  match finished.callId with
  | some callId => decide (event.callId = some callId)
  | none =>
    decide (event.callId = none) && decide (event.sessionId = finished.sessionId) &&
      decide (event.toolName = finished.toolName) && decide (event.startedAt = finished.startedAt)

/-- `matching_start`: the first start that belongs to a finish, and the starts that remain. -/
def matchingStart (started : List (SessionEvent D)) (finished : SessionEvent D) :
    Option (SessionEvent D) × List (SessionEvent D) :=
  (started.find? (startMatches finished), started.eraseP (startMatches finished))

structure ExtractedValidationEvent (V : Type) where
  sourceEventId : String
  event : ValidationEvent V
deriving DecidableEq

/-- A validation together with the event that it comes from. -/
def extracted (source : SessionEvent D) (event : Option (ValidationEvent V)) :
    List (ExtractedValidationEvent V) :=
  match event with
  | some found => [⟨source.eventId, found⟩]
  | none => []

/-- The state of the pass: the starts that wait for their finish and the jobs whose end has been
seen. -/
structure Pass (D : Type) where
  started : List (SessionEvent D)
  terminalJobs : List String

/-- The body of the loop of `extract_validation_event_records`: what an event adds, and the state
that it leaves. -/
def extractStep (readings : Readings D V) (canonicalIds : List String) (pass : Pass D)
    (event : SessionEvent D) : List (ExtractedValidationEvent V) × Pass D :=
  match event.kind with
  | .toolCallStarted =>
    if (executionPurpose event).isSome then
      ([], { pass with started := pass.started ++ [event] })
    else ([], pass)
  | .toolCallFinished =>
    if !canonicalIds.contains event.eventId || eventIsJobAcceptanceOnly event then ([], pass)
    else
      let (start, remaining) := matchingStart pass.started event
      (extracted event (validationEventFromFinished readings event start),
        { pass with started := remaining })
  | .validationJobTerminal =>
    match event.jobId with
    | none => ([], pass)
    | some jobId =>
      if pass.terminalJobs.contains jobId then ([], pass)
      else
        (extracted event (validationEventFromFinished readings event (some event)),
          { pass with terminalJobs := jobId :: pass.terminalJobs })
  | .taskInstruction => ([], pass)
  | .other _ => ([], pass)

/-- The loop of `extract_validation_event_records`. -/
def extractFrom (readings : Readings D V) (canonicalIds : List String) :
    Pass D → List (SessionEvent D) → List (ExtractedValidationEvent V)
  | _, [] => []
  | pass, event :: rest =>
    let step := extractStep readings canonicalIds pass event
    step.1 ++ extractFrom readings canonicalIds step.2 rest

def extractValidationEventRecords (readings : Readings D V) (events : List (SessionEvent D)) :
    List (ExtractedValidationEvent V) :=
  extractFrom readings (canonicalFinishedIds events) ⟨[], []⟩ events

def extractValidationEvents (readings : Readings D V) (events : List (SessionEvent D)) :
    List (ValidationEvent V) :=
  (extractValidationEventRecords readings events).map ExtractedValidationEvent.event

end WebCodex.Validation
