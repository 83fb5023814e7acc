import WebCodex.Registry.Inventory

/-!
The registry brings its jobs in line with the inventory of a runner (`reconcileInventory`): jobs
that the inventory lacks or whose recovery took too long are lost, known jobs take over a newer
snapshot, unknown ones are rebuilt. When another instance takes over a runner, the jobs of the old
one are lost (`terminateInstanceJobs`), detached ones apart that the inventory carries.
-/

namespace WebCodex.Registry

open Foundation JobLog

variable (clientId : String)

def removeJobRequestMapping (requestId : Option String) (inner : RunnerRegistryInner) :
    RunnerRegistryInner :=
  match requestId with
  | none => inner
  | some requestId =>
    let dropped := dropPending requestId inner
    removeFromQueue clientId requestId
      { dropped with
        persistentWaiters := dropped.persistentWaiters.erase requestId
        requestToJob := dropped.requestToJob.erase requestId }

def removeJobControlRequests (jobIds : List String) (inner : RunnerRegistryInner) :
    RunnerRegistryInner :=
  let requestIds := (inner.pendingById.entries.filter fun entry ↦
    entry.2.request.clientId == clientId &&
      entry.2.jobId.any fun jobId ↦ jobIds.contains jobId).map fun entry ↦ entry.1
  requestIds.foldl (fun current requestId ↦
    removeJobRequestMapping clientId (some requestId) current) inner

/-- `remove_cleanup_terminal_jobs_locked`. -/
def removeCleanupTerminalJobs (inner : RunnerRegistryInner) : RunnerRegistryInner :=
  { inner with
    jobsById := Table.keep
      (fun _ job ↦ !(job.visibility == .cleanupPending && job.lifecycle.isTerminal))
      inner.jobsById }

/-- `prune_projected_structured_terminal_suppressions_locked`. -/
def pruneAllSuppressions (now : ℤ) (inner : RunnerRegistryInner) : RunnerRegistryInner :=
  { inner with
    runners := Table.mapValues (fun _ runner ↦ runner.pruneSuppressions now) inner.runners }

/-- The jobs whose recovery has taken too long: as many as one pass may handle. -/
def expiring (env : Environment) (clientFilter : Option String) (now : ℤ) (passCap : ℕ)
    (inner : RunnerRegistryInner) : List (String × ShellJobRecord) :=
  ((inner.jobsById.entries.filter fun entry ↦
      entry.2.recoveryActive && (clientFilter.all fun clientId ↦ entry.2.clientId == clientId) &&
        recoveryExpired env now entry.2).take passCap).map fun entry ↦ (entry.1, entry.2)

/-- The record of a job whose recovery has taken too long. -/
def expiredJob (now : ℤ) (job : ShellJobRecord) : ShellJobRecord :=
  if job.recoveryActive then
    markJobLost now .runnerRecoveryDeadlineExceeded
      "runner did not reconcile the job before the recovery deadline" job
  else job

def forgetRequestsOf (jobs : List (String × ShellJobRecord)) (inner : RunnerRegistryInner) :
    RunnerRegistryInner :=
  let unmapped := jobs.foldl (fun current entry ↦
    removeJobRequestMapping entry.2.clientId entry.2.requestId current) inner
  (jobs.map fun entry ↦ entry.2.clientId).dedup.foldl (fun current clientId ↦
    removeJobControlRequests clientId (jobs.map fun entry ↦ entry.1) current) unmapped

/-- `expire_recovering_jobs_locked`. -/
def expireRecoveringJobs (env : Environment) (clientFilter : Option String) (now : ℤ) (passCap : ℕ)
    (inner : RunnerRegistryInner) : RunnerRegistryInner :=
  let expired := expiring env clientFilter now passCap inner
  if expired.isEmpty then inner
  else
    removeCleanupTerminalJobs (forgetRequestsOf expired
      (expired.foldl (fun current entry ↦ current.modifyJob entry.1 (expiredJob now)) inner))

inductive TerminalSweepAction
  | observe (jobId : String)
  | remove (jobId clientId : String) (requestId : Option String)

/-- What the sweep of terminal jobs does about a job. -/
def terminalSweepAction (now : ℤ) (jobId : String) (job : ShellJobRecord) :
    Option TerminalSweepAction :=
  if job.visibility != .isPublic || !job.lifecycle.isTerminal then none
  else
    match job.observation.terminalObservedAt with
    | none => some (.observe jobId)
    | some observedAt =>
      if now - observedAt ≥ jobTerminalRetentionSecs then
        some (.remove jobId job.clientId job.requestId)
      else none

/-- The effect of one action on the jobs and on what belongs to them. -/
def applySweepAction (now : ℤ) (inner : RunnerRegistryInner) :
    TerminalSweepAction → RunnerRegistryInner
  | .observe jobId => inner.modifyJob jobId (observeJobTerminal now)
  | .remove _ clientId requestId => removeJobRequestMapping clientId requestId inner

/-- The job that an action removes, with its runner. -/
def TerminalSweepAction.removed : TerminalSweepAction → Option (String × String)
  | .observe _ => none
  | .remove jobId clientId _ => some (jobId, clientId)

/-- Removes the records of jobs with all that refers to them. -/
def removeExpiredJobs (expired : List (String × String)) (inner : RunnerRegistryInner) :
    RunnerRegistryInner :=
  let expiredIds := expired.map (·.1)
  let uncontrolled := (expired.map (·.2)).dedup.foldl
    (fun current clientId ↦ removeJobControlRequests clientId expiredIds current) inner
  { uncontrolled with
    requestToJob := Table.keep (fun _ jobId ↦ !expiredIds.contains jobId) uncontrolled.requestToJob
    jobsById := Table.keep (fun jobId _ ↦ !expiredIds.contains jobId) uncontrolled.jobsById }

/-- `prune_expired_terminal_jobs_locked`. -/
def pruneExpiredTerminalJobs (now : ℤ) (inner : RunnerRegistryInner) : RunnerRegistryInner :=
  let actions := (inner.jobsById.entries.filterMap fun entry ↦
    terminalSweepAction now entry.1 entry.2).take recoverySweepPassCap
  let expired := actions.filterMap TerminalSweepAction.removed
  let swept := actions.foldl (applySweepAction now) inner
  if expired.isEmpty then swept else removeExpiredJobs expired swept

variable (instanceId : String)

def recordFromSnapshot (authGroup : Option RunnerAccessGroup) (handle : ℕ)
    (snapshot : ShellJobSnapshot) (now : ℤ) : ShellJobRecord :=
  let context := snapshot.context
  observeJobTerminal now
    { jobId := snapshot.jobId
      requestId := some snapshot.requestId
      clientId := clientId
      authGroup := authGroup
      runnerInstanceId := instanceId
      kind := (context.structuredExecution.map (·.executionSource)).getD "shell"
      projectId := context.runtimeProjectId
      sessionId := context.workflowSessionId
      sshResource := context.sshResource
      cwd := context.cwd
      projectCwd := context.projectCwd
      purpose := context.purpose
      shell := context.shell
      commandPreview := context.commandPreview
      lifecycle := snapshot.status
      createdAt := snapshot.createdAt
      startedAt := snapshot.startedAt
      endedAt := snapshot.endedAt
      exitCode := snapshot.exitCode
      durationMs := snapshot.durationMs
      error := snapshot.error
      commandExecutionState := snapshot.commandExecutionState
      structuredExecution := context.structuredExecution
      validationSteps := context.validationSteps
      validation := context.validation
      validationProgress := snapshot.validationProgress
      activity := snapshot.activity
      visibility := .isPublic
      lastUpdateSeq := snapshot.updateSeq
      recovery :=
        { phase := some .reconciled
          recoveredAfterServerRestart := true
          reconciledAt := some now
          reason := some .serverRestartReconciliation }
      observation := { handle := handle } }

def applySnapshot (snapshot : ShellJobSnapshot) (now : ℤ) (reason : JobRecoveryReason)
    (job : ShellJobRecord) : ShellJobRecord :=
  let observed := observeJobTerminal now { job with lifecycle := snapshot.status }
  notifyJobUpdate
    { observed with
      startedAt := snapshot.startedAt
      endedAt := snapshot.endedAt
      exitCode := snapshot.exitCode
      durationMs := snapshot.durationMs
      error := snapshot.error
      commandExecutionState := snapshot.commandExecutionState
      structuredExecution := snapshot.context.structuredExecution
      validationProgress := snapshot.validationProgress
      activity := snapshot.activity
      validation := snapshot.context.validation
      stdout := replaceLogFromSnapshot snapshot.stdout
      stderr := replaceLogFromSnapshot snapshot.stderr
      lastUpdateSeq := snapshot.updateSeq
      recovery :=
        { job.recovery with
          phase := some .reconciled
          reconciledAt := some now
          reason := some reason
          recoveringSince := none } }

/-- What a snapshot that is applied to a known job leaves of it. -/
def reconciledJob (snapshot : ShellJobSnapshot) (now : ℤ) (job : ShellJobRecord) : ShellJobRecord :=
  if isDetachedTransfer instanceId job snapshot then
    applySnapshot snapshot now .detachedInstanceTransfer { job with runnerInstanceId := instanceId }
  else applySnapshot snapshot now .sameInstanceReconciliation job

/-- Whether the reconciliation leaves a known job as it is. -/
def leavesJob (job : ShellJobRecord) (snapshot : ShellJobSnapshot) : Bool :=
  job.lifecycle.isTerminal || decide (snapshot.updateSeq < job.lastUpdateSeq) ||
    (snapshot.updateSeq == job.lastUpdateSeq && !job.recoveryActive &&
      !isDetachedTransfer instanceId job snapshot)

/-- The record that an unknown job is rebuilt with. -/
def rebuiltJob (inner : RunnerRegistryInner) (clientId instanceId : String)
    (authGroup : Option RunnerAccessGroup) (snapshot : ShellJobSnapshot) (now : ℤ) :
    ShellJobRecord :=
  notifyJobUpdate
    { recordFromSnapshot clientId instanceId authGroup inner.nextHandle snapshot now with
      ownerAtAdmission := (inner.runners.lookup clientId).bind (·.owner)
      stdout := replaceLogFromSnapshot snapshot.stdout
      stderr := replaceLogFromSnapshot snapshot.stderr }

/-- Whether the runner remembers that the job of a snapshot ended inside a call. -/
def suppressesSnapshot (inner : RunnerRegistryInner) (clientId instanceId : String) (now : ℤ)
    (snapshot : ShellJobSnapshot) : Bool :=
  snapshot.status.isTerminal && (inner.runners.lookup clientId).any fun runner ↦
    runner.suppressesProjectedTerminal clientId instanceId snapshot.jobId snapshot.requestId now

/-- The requests of a job that its runner reports as ended are forgotten. -/
def settleSnapshot (snapshot : ShellJobSnapshot) (inner : RunnerRegistryInner) :
    RunnerRegistryInner :=
  if snapshot.status.isTerminal then
    removeJobRequestMapping clientId (some snapshot.requestId) inner
  else inner

def reconcileSnapshot (authGroup : Option RunnerAccessGroup) (now : ℤ)
    (inner : RunnerRegistryInner) (snapshot : ShellJobSnapshot) : RunnerRegistryInner :=
  match inner.jobsById.lookup snapshot.jobId with
  | some existing =>
    if leavesJob instanceId existing snapshot then inner
    else
      settleSnapshot clientId snapshot
        (inner.modifyJob snapshot.jobId (reconciledJob instanceId snapshot now))
  | none =>
    if suppressesSnapshot inner clientId instanceId now snapshot then inner
    else
      settleSnapshot clientId snapshot (inner.addJob snapshot.jobId
          (rebuiltJob inner clientId instanceId authGroup snapshot now))

/-- Declares jobs of a runner lost and forgets their requests. -/
def loseJobs (now : ℤ) (reason : JobRecoveryReason) (message : String)
    (jobs : List (String × ShellJobRecord)) (inner : RunnerRegistryInner) : RunnerRegistryInner :=
  let lost := jobs.foldl (fun current entry ↦
    removeJobRequestMapping clientId entry.2.requestId
      (current.modifyJob entry.1 (markJobLost now reason message))) inner
  removeJobControlRequests clientId (jobs.map fun entry ↦ entry.1) lost

/-- The entries of the job table that satisfy a predicate. -/
def jobsWhere (p : String → ShellJobRecord → Bool) (inner : RunnerRegistryInner) :
    List (String × ShellJobRecord) :=
  (inner.jobsById.entries.filter fun entry ↦ p entry.1 entry.2).map fun entry ↦ (entry.1, entry.2)

/-- A job that its runner owns and that its inventory lacks. -/
def isMissing (inventory : ShellJobInventory) (jobId : String) (job : ShellJobRecord) : Bool :=
  job.clientId == clientId && job.runnerInstanceId == instanceId && job.lifecycle.isRunnerActive &&
    !(inventory.jobs.map (·.jobId)).contains jobId

/-- `reconcile_inventory_locked`. -/
def reconcileInventory (env : Environment) (inner : RunnerRegistryInner)
    (clientId instanceId : String) (authGroup : Option RunnerAccessGroup)
    (inventory : ShellJobInventory) (now : ℤ) : RunnerRegistryInner :=
  let swept := expireRecoveringJobs env (some clientId) now recoverySweepPassCap
    (pruneAllSuppressions now inner)
  let complete := loseJobs clientId now .runnerInventoryMissing
    "runner complete active inventory did not contain this job"
    (jobsWhere (isMissing clientId instanceId inventory) swept) swept
  removeCleanupTerminalJobs
    (inventory.jobs.foldl (reconcileSnapshot clientId instanceId authGroup now) complete)

/-- A job of a replaced instance that its successor does not carry on. -/
def isAbandoned (replacement : Option ShellJobInventory) (job : ShellJobRecord) : Bool :=
  job.clientId == clientId && job.runnerInstanceId == instanceId &&
    (job.lifecycle == .queued || job.lifecycle.isRunnerActive) &&
    !replacement.any fun inventory ↦ inventory.jobs.any fun snapshot ↦
      snapshot.jobId == job.jobId && detachedInstanceTransferAllowed job snapshot

/-- `terminate_instance_jobs_locked`. -/
def terminateInstanceJobs (replacement : Option ShellJobInventory) (now : ℤ)
    (inner : RunnerRegistryInner) : RunnerRegistryInner :=
  removeCleanupTerminalJobs (loseJobs clientId now .runnerInstanceReplaced
      "runner instance was replaced before the job completed or reconciled"
      (jobsWhere (fun _ ↦ isAbandoned clientId instanceId replacement) inner) inner)

end WebCodex.Registry
