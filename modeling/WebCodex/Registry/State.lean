import Mathlib.Data.Finset.Basic
import WebCodex.ProjectInventory.Paging
import WebCodex.Registry.Protocol

/-!
The registry keeps, behind one lock, the runners that hold a lease, the pending requests, a queue
of request ids for each runner, and the jobs. Every operation runs under the lock, so each is a
function of this state (`RunnerRegistryInner`). A record shares cells with its observers, which
tell it from a later record with the same job id: their address is the `handle`, drawn from
`nextHandle`. Of a waiter the state says only that it is there; what it is sent is part of the
result of an operation.
-/

namespace WebCodex.Registry

open Foundation JobLog

def runnerOnlineWindowSecs : ℤ := 60
def maxQueuedRequestsPerRunner : ℕ := 256
def maxRetiredInstancesPerRunner : ℕ := 16
def jobTerminalRetentionSecs : ℤ := 15 * 60
def jobInventoryMaxActiveJobs : ℕ := 64
def jobInventoryMaxTerminalJobs : ℕ := 64
def jobInventoryMaxJobs : ℕ := jobInventoryMaxActiveJobs + jobInventoryMaxTerminalJobs
def recoverySweepPassCap : ℕ := 64

/-- The features of a runner that the modelled operations ask for. -/
inductive RunnerFeature
  | fileWrite | asyncJobs | asyncShellJobs | sshShell | structuredValidationArgv
  | structuredCargoTestCountAssertion | structuredCargoTestExecutionPolicy | structuredGoTestJson
  | structuredGoTestTool | structuredGoTestPackages | structuredScriptJavascript
  | structuredScriptTypescript | structuredExecutionJobs | detachedProcessJobs
  | configuredSkillRootsRead | skillStoreRead | skillStoreManage | jobStateReconciliation
  | codingAgentRuns | nativeToolPlugins | managedSshResources | runnerConfigControl
  deriving DecidableEq

inductive RunnerTransport
  | polling | webSocket | quic
  deriving DecidableEq

inductive RunnerAccessGroup
  | sharedKey (hash : String)
  | projectGrant (grant : String)
  | openAnonymous
  deriving DecidableEq

structure RunnerAccess where
  (globalVisibility ownerBypass : Bool)
  username : Option String
  group : Option RunnerAccessGroup

/-- A provider behind a runner: its logical id and the id of its running instance. -/
structure ProviderBinding where
  (providerId providerInstanceId : String)
  deriving DecidableEq

structure CodingAgentProvider where
  binding : ProviderBinding
  name : String
  deriving DecidableEq

structure ProjectedStructuredTerminalSuppression where
  (clientId runnerInstanceId jobId requestId : String)
  expiresAt : ℤ

/-- The fields of `RunnerRecord` that the modelled operations read or write. -/
structure RunnerRecord where
  (clientId runnerInstanceId : String)
  owner : Option String
  runnerFeatures : List RunnerFeature
  projects : List ProjectInventory.RunnerProjectSummary
  lastSeen : ℤ
  transport : RunnerTransport
  hasPolicy : Bool
  mcpGatewayProviders : List ProviderBinding
  authGroup : Option RunnerAccessGroup
  (registeredAt connectedAt : ℤ)
  connectionId : Option String
  disconnectedAt : Option ℤ
  codingAgentProviders : List CodingAgentProvider
  suppressions : List ProjectedStructuredTerminalSuppression

def RunnerRecord.supports (runner : RunnerRecord) (feature : RunnerFeature) : Bool :=
  runner.runnerFeatures.contains feature

namespace RunnerRecord

/-- `prune_projected_structured_terminal_suppressions`. -/
def pruneSuppressions (runner : RunnerRecord) (now : ℤ) : RunnerRecord :=
  { runner with suppressions := runner.suppressions.filter fun entry ↦ entry.expiresAt > now }

/-- `remember_projected_structured_terminal`: the oldest entries fall out of a bounded list. -/
def rememberProjectedTerminal (runner : RunnerRecord) (jobId requestId : String) (now : ℤ) :
    RunnerRecord :=
  let others := (runner.pruneSuppressions now).suppressions.filter fun entry ↦
    entry.jobId != jobId || entry.requestId != requestId
  let entries := others ++
    [⟨runner.clientId, runner.runnerInstanceId, jobId, requestId, now + jobTerminalRetentionSecs⟩]
  { runner with suppressions := entries.drop (entries.length - jobInventoryMaxTerminalJobs) }

/-- `suppresses_projected_structured_terminal`. -/
def suppressesProjectedTerminal (runner : RunnerRecord)
    (clientId instanceId jobId requestId : String) (now : ℤ) : Bool :=
  runner.suppressions.any fun entry ↦
    decide (entry.expiresAt > now) && entry.clientId == clientId &&
      entry.runnerInstanceId == instanceId && entry.jobId == jobId && entry.requestId == requestId

end RunnerRecord

/-- `RunnerJobOperation`: the five kinds of starts are one here. -/
inductive RunnerJobOperation
  | start (jobId : String)
  | stop (jobId : String)
  deriving DecidableEq

/-- `RunnerOperation`: the kinds that the registry treats alike are one (`plain`). -/
inductive RunnerOperation
  | plain (kind : String)
  | job (operation : RunnerJobOperation)
  | persistentShell (shellId workflowSessionId runtimeProjectId : String)
  | mcpGateway (provider : ProviderBinding)
  | pluginGateway (provider : Option ProviderBinding)
  | codingAgent
  | configuredSkillRoots
  | skillStore
  | sshResource
  | runnerConfig
  deriving DecidableEq

/-- `RunnerRequest`, with its operation decoded. -/
structure RunnerRequest where
  (requestId clientId : String)
  operation : RunnerOperation
  cwd : Option String := none
  preview : String := ""
  largeNativeImage : Bool := false

structure SkillStoreDispatchFence where
  runnerInstanceId : String
  (management configuredRoots : Bool)

structure PendingShellRequest where
  request : RunnerRequest
  waiter : Bool
  jobId : Option String
  expectedRunnerOwner : Option String := none
  expectedProjectId : Option String := none
  expectedProjectCwd : Option String := none
  expectedMcpGatewayRunnerInstanceId : Option String := none
  expectedMcpGatewayProviderId : Option String := none
  expectedMcpGatewayProviderInstanceId : Option String := none
  expectedSshResourceRunnerInstanceId : Option String := none
  expectedRunnerConfigRunnerInstanceId : Option String := none
  skillStoreFence : Option SkillStoreDispatchFence := none
  dispatched : Bool := false

structure CodingAgentDispatchFence where
  runnerInstanceId : String
  provider : ProviderBinding
  deriving DecidableEq

structure PluginGatewayDispatchFence where
  runnerInstanceId : String
  provider : Option ProviderBinding
  deriving DecidableEq

inductive ShellJobVisibility
  | isPublic | hiddenUntilHandoff | cleanupPending
  deriving DecidableEq

inductive JobRecoveryPhase
  | recovering | reconciled | lostAfterReconcile
  deriving DecidableEq

inductive JobRecoveryReason
  | runnerTransportDisconnected | runnerTransportStale | runnerRequestNotDispatched
  | runnerDisconnectedWithoutReconciliation | sharedKeyRunnerExpired | runnerInventoryMissing
  | runnerInstanceReplaced | runnerRecoveryDeadlineExceeded | serverRestartReconciliation
  | sameInstanceReconciliation | sameInstanceUpdateReconciliation | detachedInstanceTransfer
  deriving DecidableEq

def JobRecoveryReason.impliesLostAfterReconcile : JobRecoveryReason → Bool
  | runnerInventoryMissing | runnerInstanceReplaced | runnerRecoveryDeadlineExceeded => true
  | _ => false

structure JobRecoveryState where
  phase : Option JobRecoveryPhase := none
  recoveredAfterServerRestart : Bool := false
  reconciledAt : Option ℤ := none
  reason : Option JobRecoveryReason := none
  recoveringSince : Option ℤ := none
  deriving DecidableEq

def JobRecoveryState.recovering (recovery : JobRecoveryState) : Bool :=
  recovery.phase == some .recovering

/-- `JobObservationState`: the shared cells of a record, by their address. -/
structure JobObservationState where
  handle : ℕ
  revision : ℕ := 0
  terminalObservedAt : Option ℤ := none
  receiptExpiresAt : Option ℤ := none

structure ShellProcessArgv where
  executable : String
  args : List String
  deriving DecidableEq

structure DetachedIdempotencyIntent where
  (projectId sessionId projectCwd cwd purpose shell : Option String)
  process : ShellProcessArgv
  stdin : Option String
  timeoutSecs : ℕ
  deriving DecidableEq

structure ShellJobRecord where
  jobId : String
  requestId : Option String
  clientId : String
  authGroup : Option RunnerAccessGroup := none
  ownerAtAdmission : Option String := none
  (runnerInstanceId kind : String)
  projectId : Option String := none
  sessionId : Option String := none
  sshResource : Option String := none
  cwd : Option String := none
  projectCwd : Option String := none
  purpose : Option String := none
  shell : Option String := none
  commandPreview : String
  detachedIdempotencyIntent : Option DetachedIdempotencyIntent := none
  lifecycle : RunnerJobLifecycle
  createdAt : ℤ
  startedAt : Option ℤ := none
  endedAt : Option ℤ := none
  exitCode : Option ℤ := none
  durationMs : Option ℕ := none
  stdout : ShellJobLogState := {}
  stderr : ShellJobLogState := {}
  error : Option String := none
  commandExecutionState : Option ShellCommandExecutionState := none
  structuredExecution : Option ShellJobStructuredExecutionMetadata := none
  validationSteps : List String := []
  validation : Option ShellJobValidationMetadata := none
  validationProgress : Option ShellJobValidationProgress := none
  activity : Option ShellJobActivity := none
  visibility : ShellJobVisibility
  lastUpdateSeq : ℕ := 0
  recovery : JobRecoveryState := {}
  observation : JobObservationState

/-- Recovery says something only about a job that the runner owns. -/
def ShellJobRecord.recoveryActive (job : ShellJobRecord) : Bool :=
  job.lifecycle.isRunnerActive && job.recovery.recovering

/-- The transport that installed a push notifier. -/
structure NotifierEntry where
  runnerInstanceId : String
  connectionId : Option String

structure RunnerRegistryInner where
  runners : Table String RunnerRecord := ∅
  pendingById : Table String PendingShellRequest := ∅
  persistentWaiters : Finset String := ∅
  mcpGatewayWaiters : Finset String := ∅
  pluginGatewayWaiters : Finset String := ∅
  pluginGatewayFences : Table String PluginGatewayDispatchFence := ∅
  codingAgentWaiters : Finset String := ∅
  codingAgentFences : Table String CodingAgentDispatchFence := ∅
  queuesByRunner : Table String (List String) := ∅
  jobsById : Table String ShellJobRecord := ∅
  requestToJob : Table String String := ∅
  retiredInstances : Table String (List String) := ∅
  unregisteringProjects : Table String ℕ := ∅
  notifiers : Table String NotifierEntry := ∅
  nextHandle : ℕ := 0

/-- What the process that hosts the registry fixes at its start, and the answers of the core
crate. -/
structure Environment where
  checks : Checks
  jobRecoveryGraceSecs : ℤ := 120
  sharedKeyPerGroup : ℕ := 16
  sharedKeyGlobal : ℕ := 1024
  sharedKeyOfflineTtlSecs : ℤ := 24 * 60 * 60

/-- How a call of the registry ends. A panic unwinds with the state as it stood; the lock is not
poisoned and the registry goes on from there. -/
inductive CallResult (α : Type)
  | ok (value : α)
  | error (message : String)
  | panicked
  deriving DecidableEq

end WebCodex.Registry
