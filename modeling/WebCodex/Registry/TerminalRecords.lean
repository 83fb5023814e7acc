import Mathlib.Algebra.Group.Int.Defs
import WebCodex.Foundation.Fallible
import WebCodex.Registry.HiddenJobs

/-!
A job that has ended shows when it ended and when that was observed, no activity, and, when its
command is structured, what became of it. Three changes do not write all of this: a result
(`complete_checked`) writes neither the activity nor the execution state, an update that is
finished without an end state keeps the execution state, and the stop of a queued job keeps the
activity. Receipts of an earlier process are not asked for an execution state.
-/

namespace WebCodex.Registry

open Foundation Foundation.Text JobLog

/-! ### Receipts that are restored -/

def jobReceiptStreamMaxBytes : ℕ := 256 * 1024 + 128

namespace TerminalJobReceipt

/-- A text that is there, bounded and without a NUL. -/
def text (value : String) (max : ℕ) : Bool :=
  !value.isEmpty && decide (value.utf8ByteSize ≤ max) && !value.toList.contains (Char.ofNat 0)

def maxTime : ℤ := 2 ^ 63 - 1

section

variable (checks : Checks) (receipt : TerminalJobReceipt) (now : ℤ)

def identityIsValid : Bool := text receipt.clientId 128 && text receipt.runnerInstanceId 128 &&
    text receipt.snapshot.jobId 128 && text receipt.snapshot.requestId 128 &&
    text receipt.kind 128 && ["shell", "run_process", "run_script"].contains receipt.kind &&
    decide (receipt.terminalObservedAt > 0) && decide (receipt.terminalObservedAt ≤ now) &&
    receipt.expiresAt == min (receipt.terminalObservedAt + jobTerminalRetentionSecs) maxTime &&
    decide (receipt.expiresAt > now)

def partitionIsValid : Bool :=
  match receipt.authGroup with
  | some (.sharedKey group) =>
    group.utf8ByteSize == 64 && group.toList.all fun c ↦
      c.isDigit || ('a' ≤ c && c ≤ 'f') || ('A' ≤ c && c ≤ 'F')
  | some (.projectGrant group) => text group 256
  | some .openAnonymous => true
  | none => receipt.ownerAtAdmission.all fun owner ↦ text owner 256 && !isBlank owner.toList

def terminalSnapshotIsValid : Bool :=
  let snapshot := receipt.snapshot
  snapshot.status.isTerminal && snapshot.endedAt.isSome && decide (snapshot.createdAt > 0) &&
    (snapshot.status != .completed || snapshot.exitCode == some 0) && snapshot.activity.isNone &&
    snapshot.context.validation.isNone &&
    snapshot.context.structuredExecution.all fun metadata ↦
      checks.structuredIsValid metadata && metadata.executionSource != "run_detached_process"

def projectIsValid : Bool :=
  let context := receipt.snapshot.context
  (context.runtimeProjectId.all fun project ↦
    match s!"agent:{receipt.clientId}:".toList.isPrefixOf? project.toList with
    | none | some [] => false
    | some _ => true) &&
    context.workflowSessionId.all fun session ↦
      context.runtimeProjectId.isSome && checks.sessionIdIsValid session

def contextIsValid : Bool :=
  let snapshot := receipt.snapshot
  let context := snapshot.context
  checks.commandPreview context.commandPreview == context.commandPreview &&
    decide (context.commandPreview.length ≤ commandPreviewMaxChars + 1) &&
    ([context.runtimeProjectId, context.workflowSessionId, context.sshResource, context.projectCwd,
      context.cwd, context.purpose, context.shell].all fun value ↦
        value.all fun value ↦ text value 4096) &&
    (snapshot.error.all fun error ↦ decide (error.utf8ByteSize ≤ 16 * 1024)) &&
    decide (context.validationSteps.length ≤ 3) &&
    (context.validationSteps.all fun step ↦ ["format", "check", "test"].contains step) &&
    snapshot.validationProgress.all fun progress ↦
      decide (progress.completed ≤ context.validationSteps.length) &&
        (progress.currentStep.all fun step ↦ context.validationSteps.contains step) &&
        progress.failedStep.all fun step ↦ context.validationSteps.contains step

def streamIsValid (stream : ShellJobStreamSnapshot) : Bool :=
  decide (String.utf8Len stream.tail ≤ jobReceiptStreamMaxBytes) && stream.firstRetainedLine != 0 &&
    stream.firstRetainedLine + retainedLineCount stream.tail == stream.nextLine &&
    (decide (stream.firstRetainedLine ≤ 1) || stream.truncated)

def validate : Except String Unit :=
  if !receipt.identityIsValid now then .error "invalid receipt identity or deadline"
  else if !receipt.partitionIsValid then .error "invalid receipt authorization partition"
  else if receipt.ownerAtAdmission.any fun owner ↦ !text owner 256 then
    .error "invalid receipt owner"
  else if !receipt.terminalSnapshotIsValid checks then .error "invalid receipt terminal snapshot"
  else if !receipt.projectIsValid checks then .error "invalid receipt project/session context"
  else if !receipt.contextIsValid checks then .error "invalid receipt context"
  else if !streamIsValid receipt.snapshot.stdout || !streamIsValid receipt.snapshot.stderr then
    .error "invalid receipt log bounds"
  else .ok ()

end

end TerminalJobReceipt

variable (env : Environment)

/-- `with_job_receipt_store`: receipts that are not valid are skipped. -/
def startedFrom (receipts : List TerminalJobReceipt) (now : ℤ) :
    RunnerRegistryInner :=
  hydrated (receipts.filter fun receipt ↦ (receipt.validate env.checks now).isOk) now

variable {checks : Checks}

theorem TerminalJobReceipt.terminalSnapshotIsValid_of_validate {receipt : TerminalJobReceipt}
    {now : ℤ} (h : receipt.validate checks now = .ok ()) :
    receipt.terminalSnapshotIsValid checks = true := by
  rw [validate] at h
  split_ifs at h with _ _ _ hsnapshot
  simpa using hsnapshot

/-! ### Well-formed records -/

structure ShellJobRecord.Sealed (job : ShellJobRecord) : Prop where
  ended : job.endedAt.isSome = true
  observed : job.observation.terminalObservedAt.isSome = true
  inactive : job.activity = none
  executed : job.structuredExecution.isSome = true → job.commandExecutionState.isSome = true

def ShellJobRecord.WellFormed (job : ShellJobRecord) : Prop :=
  job.lifecycle.isTerminal = true → job.Sealed

variable (inner : RunnerRegistryInner)

/-- Every job of the registry that has ended shows it. -/
def WellFormedRecords : Prop := ∀ jobId job, inner.jobsById.lookup jobId = some job → job.WellFormed

theorem wellFormed_of_open {job : ShellJobRecord} (h : job.lifecycle.isTerminal = false) :
    job.WellFormed :=
  fun hended ↦ absurd (h.symm.trans hended) Bool.false_ne_true

/-- The parts of a record that its form is about. -/
def ShellJobRecord.form (job : ShellJobRecord) : RunnerJobLifecycle × Bool × Bool ×
    Option ShellJobActivity × Bool × Bool :=
  (job.lifecycle, job.endedAt.isSome, job.observation.terminalObservedAt.isSome, job.activity,
    job.structuredExecution.isSome, job.commandExecutionState.isSome)

theorem ShellJobRecord.WellFormed.congr {old new : ShellJobRecord} (h : old.WellFormed)
    (hsame : new.form = old.form) : new.WellFormed := by
  simp only [form, Prod.mk.injEq] at hsame
  obtain ⟨hlifecycle, hend, hobserved, hactivity, hstructured, hstate⟩ := hsame
  intro hended
  have hsealed := h (hlifecycle ▸ hended)
  exact ⟨hend.trans hsealed.ended, hobserved.trans hsealed.observed,
    hactivity.trans hsealed.inactive, fun hnew ↦
      hstate.trans (hsealed.executed (hstructured.symm.trans hnew))⟩

variable {lifecycle : RunnerJobLifecycle}

section Records

variable (now : ℤ) (job : ShellJobRecord)

/-- An observation changes nothing else. -/
theorem observeJobTerminal_eq : observeJobTerminal now job =
      { job with observation := (observeJobTerminal now job).observation } := by
  rw [observeJobTerminal]
  split_ifs
  · rfl
  · rfl

theorem observed_observeJobTerminal (hended : job.lifecycle.isTerminal = true) :
    (observeJobTerminal now job).observation.terminalObservedAt.isSome = true := by
  rw [observeJobTerminal]
  split_ifs with hnew
  · rfl
  · simpa [hended, Option.isSome_iff_ne_none] using hnew

@[simp] theorem activity_observeJobTerminal :
    (observeJobTerminal now job).activity = job.activity := by
  rw [observeJobTerminal_eq]

@[simp] theorem structuredExecution_observeJobTerminal :
    (observeJobTerminal now job).structuredExecution = job.structuredExecution := by
  rw [observeJobTerminal_eq]

@[simp] theorem commandExecutionState_observeJobTerminal :
    (observeJobTerminal now job).commandExecutionState = job.commandExecutionState := by
  rw [observeJobTerminal_eq]

theorem wellFormed_observeJobTerminal (h : job.WellFormed) :
    (observeJobTerminal now job).WellFormed := by
  intro hended
  rw [lifecycle_observeJobTerminal] at hended
  have hobserved := observed_observeJobTerminal now job hended
  rw [observeJobTerminal_eq]
  exact ⟨(h hended).ended, hobserved, (h hended).inactive, (h hended).executed⟩

theorem wellFormed_beginJobRecovery (reason : JobRecoveryReason) (h : job.WellFormed) :
    (beginJobRecovery now reason job).WellFormed := by
  by_cases hout : (job.lifecycle.isTerminal || job.lifecycle == .queued) = true
  · rw [beginJobRecovery, if_pos hout]
    exact h
  · refine wellFormed_of_open ((congrArg _ (lifecycle_beginJobRecovery now reason job)).trans ?_)
    simp only [Bool.or_eq_true, not_or, Bool.not_eq_true] at hout
    exact hout.1

theorem executed_abandoned (h : job.structuredExecution.isSome = true) :
    (abandonedExecutionState job).isSome = true := by
  rw [abandonedExecutionState, if_pos h]
  rfl

theorem wellFormed_markJobLost (reason : JobRecoveryReason) (message : String)
    (h : job.WellFormed) : (markJobLost now reason message job).WellFormed := by
  by_cases hended : job.lifecycle.isTerminal = true
  · rw [markJobLost, if_pos hended]
    exact h
  · intro _
    rw [markJobLost, if_neg hended]
    refine ⟨?_, observed_observeJobTerminal now _ rfl, activity_observeJobTerminal now _, ?_⟩
    · cases job.endedAt <;> rfl
    · intro hstructured
      refine executed_abandoned job ?_
      simpa [notifyJobUpdate] using hstructured

theorem wellFormed_dispatchedJob (h : job.WellFormed) : (dispatchedJob now job).WellFormed := by
  by_cases hqueued : (job.lifecycle == .queued) = true
  · rw [dispatchedJob, if_pos hqueued]
    exact wellFormed_of_open rfl
  · rw [dispatchedJob, if_neg hqueued]
    exact h

/-- A job about which a result does not write enough. -/
def missesResult : Bool :=
  job.activity.isSome || (job.structuredExecution.isSome && job.commandExecutionState.isNone)

theorem wellFormed_completedJob (payload : RunnerResultPayload) (h : missesResult job = false) :
    (completedJob payload now job).WellFormed := by
  obtain ⟨hinactive, hexecuted⟩ := Bool.or_eq_false_iff.mp h
  have hended : (if payload.success then RunnerJobLifecycle.completed else .failed).isTerminal =
      true := by
    split_ifs <;> rfl
  intro _
  refine ⟨rfl, observed_observeJobTerminal now _ hended, ?_, fun hstructured ↦ ?_⟩
  · simpa [completedJob, notifyJobUpdate] using hinactive
  · simp only [completedJob, notifyJobUpdate, structuredExecution_observeJobTerminal,
      commandExecutionState_observeJobTerminal] at hstructured ⊢
    simpa [hstructured, Option.isSome_iff_ne_none] using hexecuted

theorem wellFormed_stoppedQueuedJob (h : job.activity = none) :
    (stoppedQueuedJob now job).WellFormed := by
  intro _
  refine ⟨rfl, observed_observeJobTerminal now _ rfl, ?_, fun hstructured ↦ ?_⟩
  · simpa [stoppedQueuedJob, notifyJobUpdate] using h
  · simp only [stoppedQueuedJob, notifyJobUpdate, structuredExecution_observeJobTerminal]
      at hstructured ⊢
    rw [if_pos hstructured]
    rfl

/-! ### Updates -/

variable (update : RunnerJobUpdateRequest)

theorem wellFormed_acceptedJob {changed : ShellJobRecord} (h : changed.WellFormed) :
    (acceptedJob update job changed).WellFormed := by
  simp only [acceptedJob]
  split_ifs
  · exact h.congr rfl
  · exact h.congr rfl

theorem wellFormed_violatedJob (code : String) : (violatedJob update code now job).WellFormed := by
  intro _
  refine ⟨rfl, observed_observeJobTerminal now _ rfl, rfl, fun hstructured ↦ ?_⟩
  refine executed_abandoned job ?_
  simpa [violatedJob] using hstructured

/-- An update that keeps the protocol says of a structured command that ends what became of it. -/
theorem executionState_of_protocolFault (h : protocolFault checks job update lifecycle = none)
    (hended : lifecycle.isTerminal = true) (hstructured : job.structuredExecution.isSome = true) :
    update.commandExecutionState.isSome = true := by
  have hvalid : validateCommandExecutionState job update lifecycle = .ok () := by
    simp only [protocolFault, bind, Except.bind] at h
    cases hstate : validateCommandExecutionState job update lifecycle with
    | ok => rfl
    | error => cases hprogress : validateValidationProgress checks job update lifecycle <;>
        simp [hprogress, hstate] at h
  by_contra hnone
  have hstate : update.commandExecutionState = none := by simpa using hnone
  simp [validateCommandExecutionState, hended, hstructured, hstate] at hvalid

/-- An update that is finished without an end state and does not say what became of a structured
command. -/
def missesFinish (lifecycle : RunnerJobLifecycle) : Bool :=
  update.finished && !lifecycle.isTerminal && job.structuredExecution.isSome &&
    job.commandExecutionState.isNone

theorem wellFormed_reportedJob (wasRecovering : Bool)
    (hexecuted : lifecycle.isTerminal = true → job.structuredExecution.isSome = true →
      update.commandExecutionState.isSome = true)
    (hopen : lifecycle.isTerminal = false → job.lifecycle.isTerminal = false) :
    (reportedJob update lifecycle wasRecovering now job).WellFormed := by
  by_cases hended : lifecycle.isTerminal = true
  · intro _
    rw [reportedJob, if_pos hended]
    refine ⟨rfl, observed_observeJobTerminal now _ hended, rfl, fun hstructured ↦ ?_⟩
    refine hexecuted hended ?_
    simpa using hstructured
  · rw [reportedJob, if_neg hended]
    exact wellFormed_of_open (hopen (Bool.eq_false_iff.mpr hended))

theorem wellFormed_finishedJob (h : job.WellFormed)
    (hexecuted : update.finished = true → job.lifecycle.isTerminal = false →
      job.structuredExecution.isSome = true → job.commandExecutionState.isSome = true) :
    (finishedJob update now job).WellFormed := by
  by_cases hfinished : (update.finished && !job.lifecycle.isTerminal) = true
  · intro _
    rw [finishedJob, if_pos hfinished]
    simp only [Bool.and_eq_true, Bool.not_eq_true'] at hfinished
    have hended : (if (job.error.isNone && job.exitCode == some 0) = true then
        RunnerJobLifecycle.completed else .failed).isTerminal = true := by
      split_ifs <;> rfl
    refine ⟨rfl, observed_observeJobTerminal now _ hended, rfl, fun hstructured ↦ ?_⟩
    simp only [structuredExecution_observeJobTerminal, commandExecutionState_observeJobTerminal]
      at hstructured ⊢
    exact hexecuted hfinished.1 hfinished.2 hstructured
  · rw [finishedJob, if_neg hfinished]
    exact h

theorem wellFormed_recoveredJob (wasRecovering : Bool) (h : job.WellFormed) :
    (recoveredJob wasRecovering now job).WellFormed := by
  rw [recoveredJob]
  split_ifs
  · exact h.congr rfl
  · exact h

theorem isTerminal_progressedJob (lifecycle : RunnerJobLifecycle) :
    (progressedJob update lifecycle now job).lifecycle.isTerminal = lifecycle.isTerminal := by
  by_cases hqueued : lifecycle = .queued
  · subst hqueued
    simp only [progressedJob]
    split_ifs <;> rfl
  · simp [progressedJob, hqueued]

/-- An update that passed the checks and does not miss the finish leaves a well-formed record. -/
theorem wellFormed_appliedJob (hkept : protocolFault checks job update lifecycle = none)
    (hfinish : missesFinish job update lifecycle = false) (stdout stderr : ShellJobLogState) :
    (appliedJob update lifecycle stdout stderr now job).WellFormed := by
  have hopen := isTerminal_progressedJob now { job with stdout := stdout, stderr := stderr } update
    lifecycle
  refine wellFormed_recoveredJob now _ _ (wellFormed_finishedJob now _ update
    (wellFormed_reportedJob now _ update _ ?_ ?_) ?_)
  · exact executionState_of_protocolFault job update hkept
  · exact fun hopenNow ↦ hopen.trans hopenNow
  · -- without an end state the report leaves the command as it was
    intro hfinished hrunning hstructured
    by_cases hended : lifecycle.isTerminal = true
    · rw [reportedJob, if_pos hended, show (observeJobTerminal now _).lifecycle = lifecycle from
        lifecycle_observeJobTerminal now _, hended] at hrunning
      exact absurd hrunning (by decide)
    · rw [reportedJob, if_neg hended] at hstructured ⊢
      have hstructured : job.structuredExecution.isSome = true := hstructured
      show job.commandExecutionState.isSome = true
      simpa [missesFinish, hfinished, hended, hstructured, Option.isSome_iff_ne_none] using hfinish

end Records

/-! ### Snapshots -/

variable {snapshot : ShellJobSnapshot}

theorem terminal_of_validateOutcome (h : validateOutcome snapshot = .ok ())
    (hended : snapshot.status.isTerminal = true) :
    snapshot.endedAt.isSome = true ∧ (snapshot.context.structuredExecution.isSome = true →
      snapshot.commandExecutionState.isSome = true) := by
  rw [validateOutcome] at h
  simp only [guard_eq_ok] at h
  obtain ⟨_, _, _, hend, _, _, _, _, hstate, _⟩ := h
  refine ⟨?_, fun hstructured ↦ ?_⟩
  · simpa [hended, Option.isSome_iff_ne_none] using hend
  · simpa [hended, hstructured, Option.isSome_iff_ne_none] using hstate

theorem inactive_of_validateActivity (h : validateActivity checks snapshot = .ok ())
    (hended : snapshot.status.isTerminal = true) :
    snapshot.activity = none := by
  by_contra hactive
  obtain ⟨activity, hactivity⟩ := Option.ne_none_iff_exists'.mp hactive
  have hstatus : (snapshot.status == .running || snapshot.status == .stopRequested) = false := by
    cases hcase : snapshot.status <;> simp_all [RunnerJobLifecycle.isTerminal]
  simp [validateActivity, hactivity, hstatus] at h

/-- A snapshot of an accepted inventory that has ended says so in full. -/
theorem terminal_of_validateSnapshot {clientId : String} {active : Bool}
    (h : validateSnapshot checks clientId snapshot = .ok active)
    (hended : snapshot.status.isTerminal = true) :
    snapshot.endedAt.isSome = true ∧ snapshot.activity = none ∧
      (snapshot.context.structuredExecution.isSome = true →
        snapshot.commandExecutionState.isSome = true) := by
  rw [validateSnapshot] at h
  simp only [bind_eq_ok, guard_eq_ok] at h
  obtain ⟨_, _, _, _, _, _, _, houtcome, _, _, _, _, _, _, _, _, _, hactivity, _⟩ := h
  have hends := terminal_of_validateOutcome houtcome hended
  exact ⟨hends.1, inactive_of_validateActivity hactivity hended, hends.2⟩

section Snapshots

variable {snapshot : ShellJobSnapshot} (now : ℤ)
  (hterminal : snapshot.status.isTerminal = true → snapshot.endedAt.isSome = true ∧
    snapshot.activity = none ∧ (snapshot.context.structuredExecution.isSome = true →
      snapshot.commandExecutionState.isSome = true))

include hterminal

theorem wellFormed_applySnapshot (reason : JobRecoveryReason) (job : ShellJobRecord) :
    (applySnapshot snapshot now reason job).WellFormed := by
  intro hended
  have hended : snapshot.status.isTerminal = true := by
    rwa [show (applySnapshot snapshot now reason job).lifecycle = snapshot.status from
      lifecycle_observeJobTerminal now _] at hended
  obtain ⟨hend, hinactive, hexecuted⟩ := hterminal hended
  exact ⟨hend, observed_observeJobTerminal now _ hended, hinactive, hexecuted⟩

theorem wellFormed_reconciledJob (instanceId : String) (job : ShellJobRecord) :
    (reconciledJob instanceId snapshot now job).WellFormed := by
  rw [reconciledJob]
  split_ifs
  · exact wellFormed_applySnapshot now hterminal _ _
  · exact wellFormed_applySnapshot now hterminal _ _

theorem wellFormed_recordFromSnapshot (clientId instanceId : String)
    (authGroup : Option RunnerAccessGroup) (handle : ℕ) :
    (recordFromSnapshot clientId instanceId authGroup handle snapshot now).WellFormed := by
  intro hended
  have hended : snapshot.status.isTerminal = true := by
    rwa [show (recordFromSnapshot clientId instanceId authGroup handle snapshot now).lifecycle =
      snapshot.status from lifecycle_observeJobTerminal now _] at hended
  obtain ⟨hend, hinactive, hexecuted⟩ := hterminal hended
  have hobserved : (recordFromSnapshot clientId instanceId authGroup handle snapshot
      now).observation.terminalObservedAt.isSome = true :=
    observed_observeJobTerminal now _ hended
  rw [recordFromSnapshot, observeJobTerminal_eq] at hobserved ⊢
  exact ⟨hend, hobserved, hinactive, hexecuted⟩

theorem wellFormed_rebuiltJob (inner : RunnerRegistryInner) (clientId instanceId : String)
    (authGroup : Option RunnerAccessGroup) :
    (rebuiltJob inner clientId instanceId authGroup snapshot now).WellFormed :=
  (wellFormed_recordFromSnapshot now hterminal clientId instanceId authGroup inner.nextHandle).congr
    rfl

end Snapshots

/-! ### Steps -/

/-- A later version of a record is well formed when the earlier one is. -/
def KeepsForm (_ : String) (old new : ShellJobRecord) : Prop :=
  new.handle = old.handle ∧ (old.WellFormed → new.WellFormed)

theorem formRules : JobRules (fun _ job ↦ job.WellFormed) KeepsForm where
  refl _ _ := ⟨rfl, id⟩
  trans hfirst hlast := ⟨hlast.1.trans hfirst.1, hlast.2 ∘ hfirst.2⟩
  stamp_eq h := h.1
  fresh_of_carries h := h.2
  observed _ job now := ⟨congrArg JobIdentity.handle (identity_observeJobTerminal now job),
    wellFormed_observeJobTerminal now job⟩
  recovering _ job now reason :=
    ⟨congrArg JobIdentity.handle (identity_beginJobRecovery now job reason),
      wellFormed_beginJobRecovery now job reason⟩
  lost _ job now reason message :=
    ⟨congrArg JobIdentity.handle (identity_markJobLost now job reason message),
      wellFormed_markJobLost now job reason message⟩
  dispatched _ job now := ⟨congrArg JobIdentity.handle (identity_dispatchedJob now job),
    wellFormed_dispatchedJob now job⟩
  interrupted _ _ _ _ := ⟨rfl, fun h ↦ h.congr rfl⟩
  stopRequested _ _ _ := ⟨rfl, fun _ ↦ wellFormed_of_open rfl⟩
  cleanupRequested _ _ _ := ⟨rfl, fun _ ↦ wellFormed_of_open rfl⟩
  cleanup _ _ := ⟨rfl, fun h ↦ h.congr rfl⟩

/-- An operation that ends a job without writing all that its record should show: a result for a job
that shows an activity or has a structured command, an update that is finished without an end state
for a job with a structured command, or a stop of a queued job that shows an activity. -/
def endsUnsealed : Operation → Bool
  | .complete payload _ _ =>
    ((resolvedJobId inner payload).bind fun jobId ↦ inner.jobsById.lookup jobId).any missesResult
  | .update body _ _ =>
    (inner.jobsById.lookup body.jobId).any fun job ↦
      (acceptedLifecycle inner body job).any fun lifecycle ↦
        (protocolFault env.checks job body lifecycle).isNone &&
          (updatedStreams job body matches .returned _ _) && missesFinish job body lifecycle
  | .stop access jobId _ now =>
    (stopsQueued inner access jobId now).any fun job ↦ job.activity.isSome
  | _ => false

/-- The snapshots of an accepted registration are valid. -/
theorem validateSnapshot_of_mem {clientId : String} {ids requestIds : List String}
    {sawTerminal : Bool}
    {snapshots : List ShellJobSnapshot}
    (h : validateSnapshots checks clientId ids requestIds sawTerminal snapshots = .ok ())
    (hmem : snapshot ∈ snapshots) :
    ∃ active, validateSnapshot checks clientId snapshot = .ok active := by
  induction snapshots generalizing ids requestIds sawTerminal with
  | nil => simp at hmem
  | cons _ _ ih =>
    obtain ⟨-, hvalid, _, hrest⟩ := validateSnapshots_cons h
    rcases List.mem_cons.mp hmem with rfl | hlater
    · exact hvalid
    · exact ih hrest hlater

/-- A step that ends no job without its seal keeps the records of ended jobs well formed. -/
theorem admits_form (operation : Operation) (h : endsUnsealed env inner operation = false) :
    Admits (fun _ job ↦ job.WellFormed) KeepsForm env inner operation := by
  cases operation with
  | register _ now =>
    intro _ hvalid hinventory snapshot hmem
    obtain ⟨_, hsnapshot⟩ := validateSnapshot_of_mem (validateSnapshots_of_validateJobInventory
      (validateJobInventory_of_validate hvalid hinventory)) hmem
    have hterminal := terminal_of_validateSnapshot hsnapshot
    exact ⟨fun state ↦ wellFormed_rebuiltJob now hterminal state _ _ _, fun job _ ↦
      ⟨congrArg JobIdentity.handle (identity_reconciledJob now job _ snapshot),
        fun _ ↦ wellFormed_reconciledJob now hterminal _ job⟩⟩
  | complete payload _ now =>
    intro jobId job hid hjob
    have hmisses : missesResult job = false := by simpa [endsUnsealed, hid, hjob] using h
    exact ⟨congrArg JobIdentity.handle (identity_completedJob now job payload),
      fun _ ↦ wellFormed_completedJob now job payload hmisses⟩
  | update body _ now =>
    intro job lifecycle hjob haccepted
    constructor
    · intro code _
      exact ⟨congrArg JobIdentity.handle ((identity_acceptedJob job body _).trans
          (identity_violatedJob now job body code)),
        fun _ ↦ wellFormed_acceptedJob job body (wellFormed_violatedJob now job body code)⟩
    · intro hkept stdout stderr hstreams
      have hfinish : missesFinish job body lifecycle = false := by
        simpa [endsUnsealed, hjob, haccepted, hkept, hstreams] using h
      exact ⟨congrArg JobIdentity.handle ((identity_acceptedJob job body _).trans
          (identity_appliedJob now job body lifecycle stdout stderr)),
        fun _ ↦ wellFormed_acceptedJob job body
          (wellFormed_appliedJob now job body hkept hfinish stdout stderr)⟩
  | start => exact fun _ jobId _ ↦ wellFormed_of_open rfl
  | stop _ _ _ now =>
    intro job hstops
    have hinactive : job.activity = none := by simpa [endsUnsealed, hstops] using h
    exact ⟨congrArg JobIdentity.handle (identity_stoppedQueuedJob now job),
      fun _ ↦ wellFormed_stoppedQueuedJob now job hinactive⟩
  | promote =>
    exact fun job ↦ ⟨rfl, fun h ↦ h.congr rfl⟩
  | _ => exact trivial

theorem WellFormedRecords.changes {before after : RunnerRegistryInner}
    (h : WellFormedRecords before)
    (hchanges : Changes (fun _ job ↦ job.WellFormed) KeepsForm before after) :
    WellFormedRecords after := by
  intro jobId job hjob
  rcases hchanges.origin jobId job hjob with ⟨_, _, hfresh⟩ | ⟨old, hold, hkeeps⟩
  · exact hfresh
  · exact hkeeps.2 (h jobId old hold)

/-- A step keeps the records well formed, unless it ends a job without writing enough. -/
theorem wellFormedRecords_step {inner : RunnerRegistryInner} (h : WellFormedRecords inner)
    (operation : Operation) (hseals : endsUnsealed env inner operation = false) :
    WellFormedRecords (step env inner operation).state :=
  h.changes (step_changes formRules env inner operation (admits_form env inner operation hseals))

/-! ### Runs -/

/-- A receipt of a structured job without its execution state. -/
def TerminalJobReceipt.lacksExecutionState (receipt : TerminalJobReceipt) : Bool :=
  receipt.snapshot.context.structuredExecution.isSome &&
    receipt.snapshot.commandExecutionState.isNone

/-- No operation of a run ends a job without writing enough. -/
def SealsAlong (env : Environment) : RunnerRegistryInner → List Operation → Prop
  | _, [] => True
  | inner, operation :: rest =>
    endsUnsealed env inner operation = false ∧ SealsAlong env (step env inner operation).state rest

theorem wellFormedRecords_run {inner : RunnerRegistryInner} (h : WellFormedRecords inner)
    {operations : List Operation} (hseals : SealsAlong env inner operations) :
    WellFormedRecords (run env inner operations) := by
  induction operations generalizing inner with
  | nil => exact h
  | cons operation _ ih =>
    exact ih (wellFormedRecords_step env h operation hseals.1) hseals.2

theorem wellFormed_restoredJob {receipt : TerminalJobReceipt} {now : ℤ}
    (hvalid : receipt.validate checks now = .ok ()) (hstate : receipt.lacksExecutionState = false)
    (handle : ℕ) : (restoredJob handle now receipt).WellFormed := by
  have hsnapshot := TerminalJobReceipt.terminalSnapshotIsValid_of_validate hvalid
  simp only [TerminalJobReceipt.terminalSnapshotIsValid, Bool.and_eq_true] at hsnapshot
  obtain ⟨⟨⟨⟨⟨⟨_, hend⟩, _⟩, _⟩, hinactive⟩, _⟩, _⟩ := hsnapshot
  intro hended
  have hrecord := wellFormed_recordFromSnapshot now (fun _ ↦ ⟨hend, by simpa using hinactive, fun
    hstructured ↦ by simpa [TerminalJobReceipt.lacksExecutionState, hstructured,
      Option.isSome_iff_ne_none] using hstate⟩) receipt.clientId receipt.runnerInstanceId
    receipt.authGroup handle hended
  exact ⟨hrecord.ended, rfl, hrecord.inactive, hrecord.executed⟩

/-- A server starts with well-formed records when every receipt that it accepts has an execution
state. -/
theorem wellFormedRecords_startedFrom {receipts : List TerminalJobReceipt} {begun : ℤ}
    (h : ∀ receipt ∈ receipts, receipt.validate env.checks begun = .ok () →
      receipt.lacksExecutionState = false) :
    WellFormedRecords (startedFrom env receipts begun) := by
  have hempty : WellFormedRecords {} := fun _ _ hjob ↦ by simp at hjob
  refine hempty.changes (Store.Evolves.foldl formRules.toVersions RunnerRegistryInner.jobs _ _
    (fun state receipt hmem ↦ ?_) {})
  obtain ⟨hmem, hvalid⟩ := List.mem_filter.mp hmem
  have hvalid : receipt.validate env.checks begun = .ok () := by
    cases hresult : receipt.validate env.checks begun with
    | ok => rfl
    | error => simp [hresult, Except.isOk, Except.toBool] at hvalid
  rw [restoreReceipt]
  split_ifs
  · exact .refl formRules.toVersions _
  · refine changes_addJob formRules state _ _ ?_ (wellFormed_restoredJob hvalid
      (h receipt hmem hvalid) _)
    exact congrArg JobIdentity.handle (identity_observeJobTerminal begun _)

/-- In every run that starts from receipts with execution states and ends no job without writing
enough, the records of the jobs that have ended are well formed. -/
theorem terminal_records_well_formed (env : Environment) (receipts : List TerminalJobReceipt)
    (begun : ℤ) (operations : List Operation)
    (hreceipts : ∀ receipt ∈ receipts, receipt.validate env.checks begun = .ok () →
      receipt.lacksExecutionState = false)
    (hseals : SealsAlong env (startedFrom env receipts begun) operations) :
    WellFormedRecords (run env (startedFrom env receipts begun) operations) :=
  wellFormedRecords_run env (wellFormedRecords_startedFrom env hreceipts) hseals

def structuredCommandTaken : List Operation := [.register
      { clientId := "runner"
        runnerInstanceId := "instance"
        features := [.asyncJobs, .structuredExecutionJobs] } 1,
    .start
      { requestId := "request"
        drawnJobId := "job"
        clientId := "runner"
        createdAt := 1
        commandPreview := "true"
        structuredExecution := some (.process ⟨"true", []⟩) } 1,
    .poll "runner" "instance" none 2]

/-- The job ends with an update that says what became of the command. -/
theorem terminal_records_well_formed_by_update :
    WellFormedRecords (run { checks := plainChecks } (startedFrom { checks := plainChecks } [] 0)
      (structuredCommandTaken ++ [.update
        { clientId := "runner"
          runnerInstanceId := "instance"
          jobId := "job"
          status := "completed"
          finished := true
          exitCode := some 0
          commandExecutionState := some .completed } none 3])) :=
  terminal_records_well_formed _ [] 0 _ (fun _ hmem ↦ absurd hmem List.not_mem_nil)
    ⟨rfl, rfl, rfl, by decide +kernel, trivial⟩

/-- A result ends the job without its execution state. -/
theorem result_ends_structured_job_unsealed :
    ¬ ∀ (env : Environment) (receipts : List TerminalJobReceipt) (begun : ℤ)
      (operations : List Operation),
      WellFormedRecords (run env (startedFrom env receipts begun) operations) := by
  intro hall
  have hrecords := hall { checks := plainChecks } [] 0 (structuredCommandTaken ++ [.complete
    { clientId := "runner", runnerInstanceId := "instance", requestId := "request",
      exitCode := some 0, commandExecutionState := some .completed } none 3]) "job"
  have hafter : ((run { checks := plainChecks } (startedFrom { checks := plainChecks } [] 0)
      (structuredCommandTaken ++ [.complete
        { clientId := "runner", runnerInstanceId := "instance", requestId := "request",
          exitCode := some 0, commandExecutionState := some .completed } none 3])).jobsById.lookup
      "job").map ShellJobRecord.form = some (.completed, true, true, none, true, false) := by
    decide +kernel
  obtain ⟨job, hjob, hform⟩ := Option.map_eq_some_iff.mp hafter
  simp only [ShellJobRecord.form, Prod.mk.injEq] at hform
  obtain ⟨hlifecycle, -, -, -, hstructured, hstate⟩ := hform
  have hsealed := hrecords job hjob (by rw [hlifecycle]; rfl)
  exact absurd (hstate.symm.trans (hsealed.executed hstructured)) (by decide)

end WebCodex.Registry
