import WebCodex.Registry.HiddenJobs
import WebCodex.Registry.Settlement

/-!
A record can say that its command was not started: by its execution state, by the reason of its
loss, or by the error of a job that was stopped while queued. No change lets it say so anew unless
the runner said so, or the job was still queued and its request is no longer pending (`Tracks`).
The code does not keep this for a structured job that its runner has taken and not yet reported as
started (`isTakenUnstarted`): it decides by the time of the start alone.
-/

namespace WebCodex.Registry

open JobLog

/-- The error of a job that was stopped while it was queued. -/
def stoppedBeforePickup : String := "job stopped before Runner picked it up"

/-- A record that says that the command of its job was not started. -/
def ShellJobRecord.saysNotStarted (job : ShellJobRecord) : Bool :=
  job.commandExecutionState == some .notStarted ||
    job.recovery.reason == some .runnerRequestNotDispatched ||
    job.error == some stoppedBeforePickup

/-- A structured job that a runner has taken and has not reported as started. -/
def ShellJobRecord.isTakenUnstarted (job : ShellJobRecord) : Bool :=
  !job.lifecycle.isTerminal && job.lifecycle != .queued && job.structuredExecution.isSome &&
    job.startedAt.isNone

/-- The words of a runner about a job say that its command was not started. -/
def quotesNotStarted (state : Option ShellCommandExecutionState) (error : Option String) : Bool :=
  state == some .notStarted || error == some stoppedBeforePickup

/-- An operation that carries such words about a job. -/
def Operation.quotes (jobId : String) : Operation → Bool
  | .update body _ _ =>
    body.jobId == jobId && quotesNotStarted body.commandExecutionState body.error
  | .complete payload _ _ => quotesNotStarted none payload.error
  | .register body _ =>
    body.jobInventory.any fun inventory ↦ inventory.jobs.any fun snapshot ↦
      snapshot.jobId == jobId && quotesNotStarted snapshot.commandExecutionState snapshot.error
  | _ => false

/-- A later version of a record. What it says anew is the word of the runner (`quoted`), or is about
a queued job whose request is out of the way (`settled`). -/
structure Reports (quoted settled : Prop) (old new : ShellJobRecord) : Prop where
  handle_eq : new.handle = old.handle
  requestId_eq : new.requestId = old.requestId
  clientId_eq : new.clientId = old.clientId
  queued : new.lifecycle = .queued → old.lifecycle = .queued
  honest : new.saysNotStarted = true →
    old.saysNotStarted = true ∨ quoted ∨ (old.lifecycle = .queued ∧ settled)

namespace Reports

variable {quoted settled : Prop} {old new : ShellJobRecord}

theorem refl (job : ShellJobRecord) : Reports quoted settled job job := ⟨rfl, rfl, rfl, id, Or.inl⟩

theorem of_identity (hidentity : new.identity = old.identity)
    (hqueued : new.lifecycle = .queued → old.lifecycle = .queued)
    (hhonest : new.saysNotStarted = true →
      old.saysNotStarted = true ∨ quoted ∨ (old.lifecycle = .queued ∧ settled)) :
    Reports quoted settled old new :=
  ⟨congrArg JobIdentity.handle hidentity, congrArg JobIdentity.requestId hidentity,
    congrArg JobIdentity.clientId hidentity, hqueued, hhonest⟩

end Reports

section Changes

variable {quoted settled : Prop} (now : ℤ) (job : ShellJobRecord)

theorem saysNotStarted_observeJobTerminal :
    (observeJobTerminal now job).saysNotStarted = job.saysNotStarted := by
  rw [observeJobTerminal]
  split_ifs
  · rfl
  · rfl

theorem reports_observeJobTerminal : Reports quoted settled job (observeJobTerminal now job) :=
  .of_identity (identity_observeJobTerminal now job)
    (fun h ↦ lifecycle_observeJobTerminal now job ▸ h) fun h ↦
      Or.inl (saysNotStarted_observeJobTerminal now job ▸ h)

/-- A recovery for one of the two reasons that a recovery begins with. -/
theorem reports_beginJobRecovery {reason : JobRecoveryReason}
    (hreason : reason ≠ .runnerRequestNotDispatched) :
    Reports quoted settled job (beginJobRecovery now reason job) := by
  refine .of_identity (identity_beginJobRecovery now job reason) ?_ ?_
  · intro h
    by_cases hout : (job.lifecycle.isTerminal || job.lifecycle == .queued) = true
    · rwa [beginJobRecovery, if_pos hout] at h
    · rwa [beginJobRecovery, if_neg hout] at h
  · intro h
    by_cases hout : (job.lifecycle.isTerminal || job.lifecycle == .queued) = true
    · rw [beginJobRecovery, if_pos hout] at h
      exact Or.inl h
    · rw [beginJobRecovery, if_neg hout] at h
      have hclaim : (job.commandExecutionState == some .notStarted ||
          some reason == some JobRecoveryReason.runnerRequestNotDispatched ||
          job.error == some stoppedBeforePickup) = true := h
      left
      rw [ShellJobRecord.saysNotStarted]
      simp only [Bool.or_eq_true, beq_iff_eq, Option.some.injEq, hreason, or_false] at hclaim ⊢
      rcases hclaim with hclaim | hclaim
      · exact Or.inl (Or.inl hclaim)
      · exact Or.inr hclaim

theorem ne_queued_of_isTerminal {lifecycle : RunnerJobLifecycle}
    (h : lifecycle.isTerminal = true) : lifecycle ≠ .queued := by
  rintro rfl
  simp [RunnerJobLifecycle.isTerminal] at h

/-- The execution state of a job that the registry gives up. -/
theorem abandonedExecutionState_cases (hopen : job.lifecycle.isTerminal = false)
    (h : abandonedExecutionState job = some .notStarted) :
    job.commandExecutionState = some .notStarted ∨ job.lifecycle = .queued ∨
      job.isTakenUnstarted = true := by
  rw [abandonedExecutionState] at h
  by_cases hstructured : job.structuredExecution.isSome = true
  · rw [if_pos hstructured] at h
    by_cases hstarted : job.startedAt.isSome = true
    · simp [hstarted] at h
    · by_cases hqueued : job.lifecycle = .queued
      · exact Or.inr (Or.inl hqueued)
      · right; right
        simp [ShellJobRecord.isTakenUnstarted, hopen, hqueued, hstructured] at hstarted ⊢
        exact hstarted
  · rw [if_neg hstructured] at h
    exact Or.inl h

/-- A job that is given up says nothing new, unless it was queued or taken and not started. -/
theorem saysNotStarted_markJobLost {reason : JobRecoveryReason} {message : String}
    (hreason : reason = .runnerRequestNotDispatched → job.lifecycle = .queued)
    (hmessage : message ≠ stoppedBeforePickup)
    (h : (markJobLost now reason message job).saysNotStarted = true) :
    job.saysNotStarted = true ∨ job.lifecycle = .queued ∨ job.isTakenUnstarted = true := by
  by_cases hended : job.lifecycle.isTerminal = true
  · rw [markJobLost, if_pos hended] at h
    exact Or.inl h
  · rw [markJobLost, if_neg hended] at h
    have hclaim : (abandonedExecutionState job == some .notStarted ||
        some reason == some JobRecoveryReason.runnerRequestNotDispatched ||
        some message == some stoppedBeforePickup) = true := h
    simp only [Bool.or_eq_true, beq_iff_eq, Option.some.injEq, hmessage, or_false] at hclaim
    rcases hclaim with hclaim | hclaim
    · rcases abandonedExecutionState_cases job (by simpa using hended) hclaim with hclaim | hclaim
      · left
        simp [ShellJobRecord.saysNotStarted, hclaim]
      · exact Or.inr hclaim
    · exact Or.inr (Or.inl (hreason hclaim))

theorem reports_markJobLost {reason : JobRecoveryReason} {message : String}
    (hreason : reason = .runnerRequestNotDispatched → job.lifecycle = .queued)
    (hmessage : message ≠ stoppedBeforePickup) (htaken : job.isTakenUnstarted = false)
    (hsettled : job.lifecycle = .queued → settled) :
    Reports quoted settled job (markJobLost now reason message job) := by
  refine .of_identity (identity_markJobLost now job reason message) ?_ ?_
  · intro h
    exact absurd h (ne_queued_of_isTerminal (lifecycle_markJobLost now reason message job))
  · intro h
    rcases saysNotStarted_markJobLost now job hreason hmessage h with hclaim | hqueued | htaken'
    · exact Or.inl hclaim
    · exact Or.inr (Or.inr ⟨hqueued, hsettled hqueued⟩)
    · rw [htaken] at htaken'
      exact absurd htaken' Bool.false_ne_true

theorem lifecycle_dispatchedJob_ne_queued : (dispatchedJob now job).lifecycle ≠ .queued := by
  by_cases hqueued : (job.lifecycle == .queued) = true
  · rw [dispatchedJob, if_pos hqueued]
    exact fun h ↦ RunnerJobLifecycle.noConfusion h
  · rw [dispatchedJob, if_neg hqueued]
    simpa using hqueued

theorem saysNotStarted_dispatchedJob :
    (dispatchedJob now job).saysNotStarted = job.saysNotStarted := by
  by_cases hqueued : (job.lifecycle == .queued) = true
  · rw [dispatchedJob, if_pos hqueued]
    rfl
  · rw [dispatchedJob, if_neg hqueued]

/-- A result ends a job, and denies its start only when it quotes the denial. -/
theorem reports_completedJob (payload : RunnerResultPayload)
    (hquoted : quotesNotStarted none payload.error = true → quoted) :
    Reports quoted settled job (completedJob payload now job) := by
  refine .of_identity (identity_completedJob now job payload) ?_ ?_
  · intro h
    have hlifecycle : (completedJob payload now job).lifecycle =
        if payload.success then .completed else .failed :=
      lifecycle_observeJobTerminal now _
    rw [hlifecycle] at h
    split_ifs at h
  · intro h
    have hstate : (completedJob payload now job).commandExecutionState =
        job.commandExecutionState := by
      simp only [completedJob, observeJobTerminal]
      split_ifs <;> rfl
    have hreason : (completedJob payload now job).recovery = job.recovery := by
      simp only [completedJob, observeJobTerminal]
      split_ifs <;> rfl
    have herror : (completedJob payload now job).error = payload.error := rfl
    simp only [ShellJobRecord.saysNotStarted, hstate, hreason, herror, Bool.or_eq_true] at h ⊢
    rcases h with h | h
    · exact Or.inl (Or.inl h)
    · refine Or.inr (Or.inl (hquoted ?_))
      simp [quotesNotStarted, h]

theorem reports_stoppedQueuedJob (hqueued : job.lifecycle = .queued) (hsettled : settled) :
    Reports quoted settled job (stoppedQueuedJob now job) :=
  .of_identity (identity_stoppedQueuedJob now job) (fun _ ↦ hqueued)
    fun _ ↦ Or.inr (Or.inr ⟨hqueued, hsettled⟩)

/-- A snapshot that is not queued takes the place of a job without giving its request up. -/
theorem reports_reconciledJob (instanceId : String) (snapshot : ShellJobSnapshot)
    (hstatus : snapshot.status ≠ .queued)
    (hquoted : quotesNotStarted snapshot.commandExecutionState snapshot.error = true → quoted) :
    Reports quoted settled job (reconciledJob instanceId snapshot now job) := by
  have happlied : ∀ (record : ShellJobRecord) (reason : JobRecoveryReason),
      reason ≠ .runnerRequestNotDispatched →
      (applySnapshot snapshot now reason record).saysNotStarted = true →
      quotesNotStarted snapshot.commandExecutionState snapshot.error = true := by
    intro record reason hreason h
    have hclaim : (snapshot.commandExecutionState == some .notStarted ||
        some reason == some JobRecoveryReason.runnerRequestNotDispatched ||
        snapshot.error == some stoppedBeforePickup) = true := h
    simpa [quotesNotStarted, hreason] using hclaim
  refine .of_identity (identity_reconciledJob now job instanceId snapshot) ?_ ?_
  · intro h
    rw [lifecycle_reconciledJob] at h
    exact absurd h hstatus
  · intro h
    refine Or.inr (Or.inl (hquoted ?_))
    rw [reconciledJob] at h
    split_ifs at h
    · exact happlied _ _ (by decide) h
    · exact happlied _ _ (by decide) h

variable (update : RunnerJobUpdateRequest)

theorem lifecycle_acceptedJob (changed : ShellJobRecord) :
    (acceptedJob update job changed).lifecycle = changed.lifecycle := by
  simp only [acceptedJob]
  split_ifs
  · rfl
  · rfl

theorem saysNotStarted_acceptedJob (changed : ShellJobRecord) :
    (acceptedJob update job changed).saysNotStarted = changed.saysNotStarted := by
  simp only [acceptedJob]
  split_ifs
  · rfl
  · rfl

theorem protocolViolation_ne (code : String) :
    s!"executor protocol violation: {code}" ≠ stoppedBeforePickup := by
  intro h
  have hhead := congrArg (fun text : String ↦ text.toList.head?) h
  simp [stoppedBeforePickup, String.toList_append, toString] at hhead

/-- A job that breaks the protocol reports no taken request as not started. -/
theorem reports_violatedJob (code : String) (hopen : job.lifecycle.isTerminal = false)
    (htaken : job.isTakenUnstarted = false) (hsettled : job.lifecycle = .queued → settled) :
    Reports quoted settled job (acceptedJob update job (violatedJob update code now job)) := by
  refine .of_identity ?_ ?_ ?_
  · rw [identity_acceptedJob, identity_violatedJob]
  · intro h
    rw [lifecycle_acceptedJob] at h
    have hfailed : (violatedJob update code now job).lifecycle = .failed :=
      lifecycle_observeJobTerminal now _
    rw [hfailed] at h
    exact RunnerJobLifecycle.noConfusion h
  · intro h
    rw [saysNotStarted_acceptedJob] at h
    have hreason : (violatedJob update code now job).recovery = job.recovery := by
      simp only [violatedJob, observeJobTerminal]
      split_ifs <;> rfl
    have hstate : (violatedJob update code now job).commandExecutionState =
        abandonedExecutionState job := rfl
    have herror : (violatedJob update code now job).error =
        some s!"executor protocol violation: {code}" := rfl
    simp only [ShellJobRecord.saysNotStarted, hreason, hstate, herror, Bool.or_eq_true, beq_iff_eq,
      Option.some.injEq, protocolViolation_ne, or_false] at h ⊢
    rcases h with h | h
    · rcases abandonedExecutionState_cases job hopen h with hstate | hqueued | htaken'
      · exact Or.inl (Or.inl (Or.inl hstate))
      · exact Or.inr (Or.inr ⟨hqueued, hsettled hqueued⟩)
      · rw [htaken] at htaken'
        exact absurd htaken' Bool.false_ne_true
    · exact Or.inl (Or.inl (Or.inr h))

variable (lifecycle : RunnerJobLifecycle)

/-- An update queues a job only when it says so about a job that has no start. -/
theorem queued_of_progressedJob (h : (progressedJob update lifecycle now job).lifecycle = .queued) :
    lifecycle = .queued ∧ job.startedAt.isSome = false := by
  simp only [progressedJob] at h
  by_cases hqueued : lifecycle = .queued
  · subst hqueued
    refine ⟨rfl, ?_⟩
    cases hstarted : job.startedAt with
    | none => rfl
    | some => simp [hstarted] at h
  · simp [hqueued] at h

/-- An update leaves a job queued only when it says so itself and the job has not started. -/
theorem queued_of_appliedJob (stdout stderr : ShellJobLogState)
    (h : (appliedJob update lifecycle stdout stderr now job).lifecycle = .queued) :
    lifecycle = .queued ∧ job.startedAt.isSome = false := by
  simp only [appliedJob] at h
  have hfinished : ∀ record : ShellJobRecord, (finishedJob update now record).lifecycle = .queued →
      record.lifecycle = .queued := by
    intro record hrecord
    by_cases hends : (update.finished && !record.lifecycle.isTerminal) = true
    · rw [finishedJob, if_pos hends] at hrecord
      have hended := (lifecycle_observeJobTerminal now { record with
        lifecycle := if record.error.isNone && record.exitCode == some 0 then .completed
          else .failed }).symm.trans hrecord
      split_ifs at hended
    · rwa [finishedJob, if_neg hends] at hrecord
  have hreported : ∀ (record : ShellJobRecord) (recovering : Bool),
      (reportedJob update lifecycle recovering now record).lifecycle = .queued →
      record.lifecycle = .queued := by
    intro record recovering hrecord
    by_cases hends : lifecycle.isTerminal = true
    · rw [reportedJob, if_pos hends] at hrecord
      have hended := (lifecycle_observeJobTerminal now
        { record with lifecycle := lifecycle }).symm.trans hrecord
      exact absurd hended (ne_queued_of_isTerminal hends)
    · rwa [reportedJob, if_neg hends] at hrecord
  have hrecovered : ∀ (record : ShellJobRecord) (recovering : Bool),
      (recoveredJob recovering now record).lifecycle = record.lifecycle := by
    intro record recovering
    rw [recoveredJob]
    split_ifs
    · rfl
    · rfl
  rw [hrecovered] at h
  have hprogressed := hreported _ _ (hfinished _ h)
  exact queued_of_progressedJob now { job with stdout := stdout, stderr := stderr } update lifecycle
    hprogressed

/-- An update says what the runner says. -/
theorem saysNotStarted_appliedJob (stdout stderr : ShellJobLogState)
    (h : (appliedJob update lifecycle stdout stderr now job).saysNotStarted = true) :
    job.saysNotStarted = true ∨ quotesNotStarted update.commandExecutionState update.error =
      true := by
  have hfinished : ∀ record : ShellJobRecord,
      (finishedJob update now record).saysNotStarted = record.saysNotStarted := by
    intro record
    by_cases hends : (update.finished && !record.lifecycle.isTerminal) = true
    · rw [finishedJob, if_pos hends]
      exact saysNotStarted_observeJobTerminal now { record with lifecycle := _ }
    · rw [finishedJob, if_neg hends]
  have hrecovered : ∀ (record : ShellJobRecord) (recovering : Bool),
      (recoveredJob recovering now record).saysNotStarted = true →
      record.saysNotStarted = true := by
    intro record recovering hrecord
    cases recovering with
    | false => exact hrecord
    | true =>
      have hclaim : (record.commandExecutionState == some .notStarted ||
          some JobRecoveryReason.sameInstanceUpdateReconciliation ==
            some JobRecoveryReason.runnerRequestNotDispatched ||
          record.error == some stoppedBeforePickup) = true := hrecord
      simp only [ShellJobRecord.saysNotStarted, Bool.or_eq_true] at hclaim ⊢
      rcases hclaim with (hclaim | hclaim) | hclaim
      · exact Or.inl (Or.inl hclaim)
      · simp at hclaim
      · exact Or.inr hclaim
  have hreported : ∀ (record : ShellJobRecord) (recovering : Bool),
      (reportedJob update lifecycle recovering now record).saysNotStarted = true →
      record.saysNotStarted = true ∨
        quotesNotStarted update.commandExecutionState update.error = true := by
    intro record recovering hrecord
    by_cases hends : lifecycle.isTerminal = true
    · rw [reportedJob, if_pos hends] at hrecord
      have hclaim : (update.commandExecutionState == some .notStarted ||
          record.recovery.reason == some .runnerRequestNotDispatched ||
          update.error == some stoppedBeforePickup) = true := hrecord
      simp only [ShellJobRecord.saysNotStarted, quotesNotStarted, Bool.or_eq_true] at hclaim ⊢
      tauto
    · rw [reportedJob, if_neg hends] at hrecord
      have hclaim : (record.commandExecutionState == some .notStarted ||
          record.recovery.reason == some .runnerRequestNotDispatched ||
          update.error.or record.error == some stoppedBeforePickup) = true := hrecord
      simp only [ShellJobRecord.saysNotStarted, quotesNotStarted, Bool.or_eq_true,
        beq_iff_eq, Option.or_eq_some_iff] at hclaim ⊢
      tauto
  have hclaim := hrecovered _ _ h
  rw [hfinished] at hclaim
  have hprogressed := hreported _ _ hclaim
  exact hprogressed

theorem reports_appliedJob (stdout stderr : ShellJobLogState)
    (hrequeues : lifecycle = .queued → job.startedAt.isSome = false → job.lifecycle = .queued)
    (hquoted : quotesNotStarted update.commandExecutionState update.error = true → quoted) :
    Reports quoted settled job
      (acceptedJob update job (appliedJob update lifecycle stdout stderr now job)) := by
  refine .of_identity ?_ ?_ ?_
  · rw [identity_acceptedJob, identity_appliedJob]
  · intro h
    rw [lifecycle_acceptedJob] at h
    obtain ⟨hlifecycle, hstarted⟩ := queued_of_appliedJob now job update lifecycle stdout stderr h
    exact hrequeues hlifecycle hstarted
  · intro h
    rw [saysNotStarted_acceptedJob] at h
    rcases saysNotStarted_appliedJob now job update lifecycle stdout stderr h with hclaim | hclaim
    · exact Or.inl hclaim
    · exact Or.inr (Or.inl (hquoted hclaim))

end Changes

end WebCodex.Registry
