import WebCodex.JobLog.Retention

/-!
The values that runners and the registry exchange about jobs: the lifecycle, the metadata, the
snapshot of a job in a registration inventory and the update of one job. Texts that stand for one
of finitely many values are enumerations, parsed where a message enters the registry. Checks made
by other crates on command texts, arguments and sizes are used for their answers only (`Checks`).
-/

namespace WebCodex.Registry

open JobLog Foundation.Text

inductive RunnerJobLifecycle
  | queued | runnerQueued | startedLegacy | running | stopRequested | completed | failed | stopped
  | timeout | timedOut | lost | cancelled
  deriving DecidableEq

namespace RunnerJobLifecycle

def fromWire : String → Option RunnerJobLifecycle
  | "queued" => some queued
  | "agent_queued" => some runnerQueued
  | "started" => some startedLegacy
  | "running" => some running
  | "stop_requested" => some stopRequested
  | "completed" => some completed
  | "failed" => some failed
  | "stopped" => some stopped
  | "timeout" => some timeout
  | "timed_out" => some timedOut
  | "lost" => some lost
  | "cancelled" => some cancelled
  | _ => none

def asWire : RunnerJobLifecycle → String
  | queued => "queued"
  | runnerQueued => "agent_queued"
  | startedLegacy => "started"
  | running => "running"
  | stopRequested => "stop_requested"
  | completed => "completed"
  | failed => "failed"
  | stopped => "stopped"
  | timeout => "timeout"
  | timedOut => "timed_out"
  | lost => "lost"
  | cancelled => "cancelled"

def isTerminal : RunnerJobLifecycle → Bool
  | completed | failed | stopped | timeout | timedOut | lost | cancelled => true
  | _ => false

/-- The states in which the runner owns the job. -/
def isRunnerActive : RunnerJobLifecycle → Bool
  | runnerQueued | running | stopRequested => true
  | _ => false

def isActive (lifecycle : RunnerJobLifecycle) : Bool :=
  lifecycle == queued || lifecycle == startedLegacy || lifecycle.isRunnerActive

def isTimedOut : RunnerJobLifecycle → Bool
  | timeout | timedOut => true
  | _ => false

/-- A job that the runner owns has not ended. -/
theorem not_isTerminal_of_isRunnerActive {lifecycle : RunnerJobLifecycle}
    (hactive : lifecycle.isRunnerActive = true) : lifecycle.isTerminal = false := by
  cases lifecycle <;> simp_all [isRunnerActive, isTerminal]

end RunnerJobLifecycle

inductive ShellCommandExecutionState
  | notStarted | outcomeUnknown | timedOut | completed
  deriving DecidableEq

inductive ShellJobActivityState
  | working | waiting
  deriving DecidableEq

inductive ShellJobActivityPhase
  | processRunning | validationFormat | validationCheck | validationTest | cargoWaitingForBuildLock
  | cargoCompiling | cargoChecking
  deriving DecidableEq

inductive ShellJobActivitySource
  | runnerExecution | validationPlan | cargoOutput
  deriving DecidableEq

structure ShellJobActivity where
  state : ShellJobActivityState
  phase : ShellJobActivityPhase
  source : ShellJobActivitySource
  deriving DecidableEq

/-- The combinations of fields that have a meaning. -/
def ShellJobActivity.isCanonical (activity : ShellJobActivity) : Bool :=
  match activity.state, activity.phase, activity.source with
  | .working, .processRunning, .runnerExecution => true
  | .working, .validationFormat, .validationPlan => true
  | .working, .validationCheck, .validationPlan => true
  | .working, .validationTest, .validationPlan => true
  | .waiting, .cargoWaitingForBuildLock, .cargoOutput => true
  | .working, .cargoCompiling, .cargoOutput => true
  | .working, .cargoChecking, .cargoOutput => true
  | _, _, _ => false

structure ShellJobValidationProgress where
  completed : ℕ
  currentStep : Option String := none
  failedStep : Option String := none
  deriving DecidableEq

/-- The number of completed steps that an optional progress reports. -/
def completedSteps (progress : Option ShellJobValidationProgress) : ℕ :=
  (progress.map (·.completed)).getD 0

structure ShellJobValidationStep where
  (name program : String)
  args : List String := []
  env : List (String × String) := []
  deriving DecidableEq

structure ShellJobValidationMetadata where
  (tool kind : String)
  steps : List ShellJobValidationStep
  (effectiveTimeoutSecs syncWaitSecs : ℕ)
  adapter : String
  validationTargetId : Option String := none
  minimumTests : Option ℕ := none
  requireTests : Option Bool := none
  noRun : Option Bool := none
  deriving DecidableEq

inductive ShellScriptLanguage
  | sh | bash | powershell | javascript | typescript
  deriving DecidableEq

structure ShellJobStructuredExecutionMetadata where
  executionSource : String
  language : Option ShellScriptLanguage := none
  scriptBytes : Option ℕ := none
  argCount : ℕ := 0
  stdinPresent : Bool := false
  validationIdentity : Option String := none
  assertionName : Option String := none
  validationTool : Option String := none
  deriving DecidableEq

structure ShellJobContext where
  runtimeProjectId : Option String := none
  workflowSessionId : Option String := none
  sshResource : Option String := none
  projectCwd : Option String := none
  cwd : Option String := none
  purpose : Option String := none
  shell : Option String := none
  commandPreview : String
  validationSteps : List String := []
  validation : Option ShellJobValidationMetadata := none
  structuredExecution : Option ShellJobStructuredExecutionMetadata := none

/-- `ShellJobSnapshot`, with its status parsed. -/
structure ShellJobSnapshot where
  (jobId requestId : String)
  status : RunnerJobLifecycle
  updateSeq : ℕ
  createdAt : ℤ
  startedAt : Option ℤ := none
  endedAt : Option ℤ := none
  exitCode : Option ℤ := none
  durationMs : Option ℕ := none
  error : Option String := none
  commandExecutionState : Option ShellCommandExecutionState := none
  context : ShellJobContext
  stdout : ShellJobStreamSnapshot := {}
  stderr : ShellJobStreamSnapshot := {}
  validationProgress : Option ShellJobValidationProgress := none
  activity : Option ShellJobActivity := none

structure ShellJobInventory where
  activeComplete : Bool
  jobs : List ShellJobSnapshot

structure ShellJobLogSnapshot where
  (stdout stderr : ShellJobStreamSnapshot)

/-- `RunnerJobUpdateRequest`, with its status as it was sent. -/
structure RunnerJobUpdateRequest where
  (clientId runnerInstanceId jobId : String)
  requestId : Option String := none
  updateSeq : Option ℕ := none
  status : String
  stdoutChunk : Option Str := none
  stderrChunk : Option Str := none
  stdoutTail : Option Str := none
  stderrTail : Option Str := none
  logSnapshot : Option ShellJobLogSnapshot := none
  exitCode : Option ℤ := none
  durationMs : Option ℕ := none
  error : Option String := none
  commandExecutionState : Option ShellCommandExecutionState := none
  validationProgress : Option ShellJobValidationProgress := none
  activity : Option ShellJobActivity := none
  finished : Bool := false

/-- The answers of the core crate that the registry uses. -/
structure Checks where
  /-- The canonical preview of a command text. -/
  commandPreview : String → String
  stepIsCanonical : ShellJobValidationStep → Bool
  stepIsGoTestJson : ShellJobValidationStep → Bool
  validationIsValid : ShellJobValidationMetadata → Bool
  structuredIsValid : ShellJobStructuredExecutionMetadata → Bool
  sessionIdIsValid : String → Bool
  isInfrastructureFailure : String → Bool
  inventoryBytes : ShellJobInventory → ℕ
  /-- The hexadecimal SHA-256 digest of a text. -/
  digest : String → String

end WebCodex.Registry
