import WebCodex.Registry.TerminalRecords
import WebCodex.Registry.UpdateReplay

/-!
An update that says it is finished ends its job. When it reports an end state and keeps the
protocol, its state, exit code, duration and error are those of the job from then on; when it breaks
the protocol, the job has failed, whatever the update reports, and the violation is its error.
-/

namespace WebCodex.Registry

/-- What a job that has ended reports of its end. -/
structure JobConclusion where
  lifecycle : RunnerJobLifecycle
  exitCode : Option ℤ
  durationMs : Option ℕ
  error : Option String

def ShellJobRecord.conclusion (job : ShellJobRecord) : JobConclusion :=
  ⟨job.lifecycle, job.exitCode, job.durationMs, job.error⟩

/-- What an update that reports an end state says of the end. -/
def RunnerJobUpdateRequest.conclusion (update : RunnerJobUpdateRequest)
    (lifecycle : RunnerJobLifecycle) : JobConclusion :=
  ⟨lifecycle, update.exitCode, update.durationMs, update.error⟩

/-- The end of a job whose update breaks the protocol. -/
def RunnerJobUpdateRequest.violation (update : RunnerJobUpdateRequest) (code : String) :
    JobConclusion :=
  ⟨.failed, update.exitCode, update.durationMs, some s!"executor protocol violation: {code}"⟩

/-- A finished update has ended its job, and with an end state, or a violation, the job concludes as
the update says. -/
structure RecordsFinish (checks : Checks) (job : ShellJobRecord) (update : RunnerJobUpdateRequest)
    (lifecycle : RunnerJobLifecycle) (after : ShellJobRecord) : Prop where
  ended : after.lifecycle.isTerminal = true
  violated : ∀ code, protocolFault checks job update lifecycle = some code →
    after.conclusion = update.violation code
  reported : protocolFault checks job update lifecycle = none → lifecycle.isTerminal = true →
    after.conclusion = update.conclusion lifecycle

/-- The record of a job is the given one, or is gone because it only waited for its end. -/
def StandsAs (after : ShellJobRecord) (jobId : String) (inner : RunnerRegistryInner) : Prop :=
  inner.jobsById.lookup jobId =
    if after.visibility = .cleanupPending then none else some after

section Records

variable (now : ℤ) (job : ShellJobRecord) (update : RunnerJobUpdateRequest)

theorem conclusion_acceptedJob (changed : ShellJobRecord) :
    (acceptedJob update job changed).conclusion = changed.conclusion := by
  simp only [acceptedJob]
  split_ifs
  · rfl
  · rfl

theorem conclusion_recoveredJob (wasRecovering : Bool) :
    (recoveredJob wasRecovering now job).conclusion = job.conclusion := by
  rw [recoveredJob]
  split_ifs
  · rfl
  · rfl

theorem conclusion_violatedJob (code : String) :
    (violatedJob update code now job).conclusion = update.violation code :=
  congrArg (fun lifecycle ↦ { update.violation code with lifecycle := lifecycle })
    (lifecycle_observeJobTerminal now { job with lifecycle := .failed })

theorem conclusion_reportedJob {lifecycle : RunnerJobLifecycle} (wasRecovering : Bool)
    (hended : lifecycle.isTerminal = true) :
    (reportedJob update lifecycle wasRecovering now job).conclusion =
      update.conclusion lifecycle := by
  rw [reportedJob, if_pos hended]
  exact congrArg update.conclusion
    (lifecycle_observeJobTerminal now { job with lifecycle := lifecycle })

/-- A job that has ended is not finished once more. -/
theorem finishedJob_of_ended (hended : job.lifecycle.isTerminal = true) :
    finishedJob update now job = job := by
  rw [finishedJob, if_neg (by simp [hended])]

theorem ended_finishedJob (hfinished : update.finished = true) :
    (finishedJob update now job).lifecycle.isTerminal = true := by
  by_cases hended : job.lifecycle.isTerminal = true
  · rw [finishedJob_of_ended now job update hended]
    exact hended
  · rw [finishedJob, if_pos (by simp [hfinished, hended])]
    simp only [lifecycle_observeJobTerminal]
    split_ifs
    · rfl
    · rfl

variable {lifecycle : RunnerJobLifecycle} (stdout stderr : JobLog.ShellJobLogState)

/-- A finished update leaves an ended job, whatever status it names. -/
theorem ended_appliedJob (hfinished : update.finished = true) :
    (appliedJob update lifecycle stdout stderr now job).lifecycle.isTerminal = true := by
  have hconclusion := conclusion_recoveredJob now (finishedJob update now
    (reportedJob update lifecycle job.recoveryActive now
      (progressedJob update lifecycle now { job with stdout := stdout, stderr := stderr })))
    job.recoveryActive
  refine (congrArg (·.lifecycle.isTerminal) hconclusion).trans ?_
  exact ended_finishedJob now _ update hfinished

/-- An update that ends a job leaves the conclusion that the update reports. -/
theorem conclusion_appliedJob (hended : lifecycle.isTerminal = true) :
    (appliedJob update lifecycle stdout stderr now job).conclusion =
      update.conclusion lifecycle := by
  have hreported := conclusion_reportedJob now
    (progressedJob update lifecycle now { job with stdout := stdout, stderr := stderr }) update
    job.recoveryActive hended
  have hlifecycle := congrArg JobConclusion.lifecycle hreported
  rw [appliedJob, conclusion_recoveredJob, finishedJob_of_ended _ _ _ ?_]
  · exact hreported
  · exact (congrArg _ hlifecycle).trans hended

end Records

/-- Only a hidden record that waited for its end is removed. -/
theorem standsAs_settleUpdatedJob {before after : ShellJobRecord}
    (hended : after.lifecycle.isTerminal = true) (jobId : String) (inner : RunnerRegistryInner) :
    StandsAs after jobId (settleUpdatedJob before after jobId (inner.setJob jobId after)) := by
  rw [StandsAs, settleUpdatedJob, if_pos hended]
  by_cases hhidden : after.visibility = .cleanupPending
  · simp [hhidden]
  · have hshown : (after.visibility == ShellJobVisibility.cleanupPending) = false := by
      simpa using hhidden
    have hlookup : (inner.setJob jobId after).jobsById.lookup jobId = some after :=
      AList.lookup_insert _
    simp only [hshown, Bool.false_eq_true, if_false, if_neg hhidden]
    cases before.requestId with
    | none | some => exact hlookup

/-- What an accepted finished update leaves: the record it ends, put in place of the old one. -/
theorem finished_outcome (env : Environment) (inner : RunnerRegistryInner)
    (delivery : UpdateDelivery) {job after : ShellJobRecord} {lifecycle : RunnerJobLifecycle}
    (hjob : inner.jobsById.lookup delivery.update.jobId = some job)
    (haccepted : acceptedLifecycle inner delivery.update job = some lifecycle)
    (hfinished : delivery.update.finished = true)
    (hresult : (updateJobChecked env inner delivery.update delivery.connectionId
      delivery.now).result =
      .ok after) :
    RecordsFinish env.checks job delivery.update lifecycle after ∧
      deliverUpdate env inner delivery = settleUpdatedJob job after delivery.update.jobId
        ((touchIfCurrent delivery.update.clientId delivery.connectionId delivery.now inner).setJob
          delivery.update.jobId after) := by
  rcases updateJobChecked_cases env inner delivery with
    ⟨hpassed, -⟩ | ⟨found, reported, hfound, hreported, happlied⟩
  · simp [acceptsUpdate, hjob, haccepted] at hpassed
  · obtain rfl : job = found := by rw [hjob] at hfound; exact Option.some.inj hfound
    obtain rfl : lifecycle = reported := by
      rw [haccepted] at hreported; exact Option.some.inj hreported
    rw [deliverUpdate, happlied]
    rw [happlied] at hresult
    simp only [applyUpdate] at hresult ⊢
    cases hfault : protocolFault env.checks job delivery.update lifecycle with
    | some code =>
      simp only [hfault, CallResult.ok.injEq] at hresult
      have hconclusion : after.conclusion = delivery.update.violation code := by
        rw [← hresult, conclusion_acceptedJob, conclusion_violatedJob]
      refine ⟨⟨congrArg (·.lifecycle.isTerminal) hconclusion, fun other hother ↦ ?_,
        fun hnone ↦ ?_⟩, by simp only [hresult]⟩
      · rw [hconclusion, Option.some.inj (hfault.symm.trans hother)]
      · rw [hfault] at hnone
        cases hnone
    | none =>
      simp only [hfault] at hresult
      cases hstreams : updatedStreams job delivery.update with
      | panicked => simp [hstreams] at hresult
      | returned stdout stderr =>
        simp only [hstreams, CallResult.ok.injEq] at hresult
        have hconclusion : after.conclusion =
            (appliedJob delivery.update lifecycle stdout stderr delivery.now job).conclusion := by
          rw [← hresult, conclusion_acceptedJob]
        refine ⟨⟨(congrArg (·.lifecycle.isTerminal) hconclusion).trans
          (ended_appliedJob _ _ _ _ _ hfinished), fun other hother ↦ ?_, fun _ hterminal ↦ ?_⟩,
            by simp only [hresult]⟩
        · rw [hfault] at hother
          cases hother
        · rw [hconclusion, conclusion_appliedJob _ _ _ _ _ hterminal]

/-- A finished update that is neither refused nor passed over ends its job, and with an end state,
or a violation of the protocol, the job concludes as the update says. -/
theorem finished_updates_are_recorded (env : Environment) (inner : RunnerRegistryInner)
    (delivery : UpdateDelivery) {job after : ShellJobRecord} {lifecycle : RunnerJobLifecycle}
    (hjob : inner.jobsById.lookup delivery.update.jobId = some job)
    (haccepted : acceptedLifecycle inner delivery.update job = some lifecycle)
    (hfinished : delivery.update.finished = true)
    (hresult : (updateJobChecked env inner delivery.update delivery.connectionId
      delivery.now).result =
      .ok after) :
    RecordsFinish env.checks job delivery.update lifecycle after ∧
      StandsAs after delivery.update.jobId (deliverUpdate env inner delivery) := by
  obtain ⟨hrecords, hstate⟩ := finished_outcome env inner delivery hjob haccepted hfinished hresult
  refine ⟨hrecords, ?_⟩
  rw [hstate]
  exact standsAs_settleUpdatedJob hrecords.ended _ _

/-- The structured job of a runner ends with an update that says what became of its command, or
leaves that out. -/
def completingUpdate (commandExecutionState : Option ShellCommandExecutionState) :
    UpdateDelivery where
  update :=
    { clientId := "runner"
      runnerInstanceId := "instance"
      jobId := "job"
      status := "completed"
      finished := true
      exitCode := some 0
      durationMs := some 5
      commandExecutionState := commandExecutionState }
  connectionId := none
  now := 3

theorem exists_ok_of_answers {α : Type} (result : CallResult α)
    (h : (match result with | .ok _ => true | _ => false) = true) :
    ∃ value, result = .ok value := by
  cases result with
  | ok value => exact ⟨value, rfl⟩
  | error | panicked => cases h

/-- The completing update meets the job that was taken, and is answered. -/
theorem completingUpdate_accepted (commandExecutionState : Option ShellCommandExecutionState)
    (hstate : commandExecutionState = none ∨ commandExecutionState = some .completed) :
    ∃ job after, (run { checks := plainChecks } {} structuredCommandTaken).jobsById.lookup "job" =
      some job ∧
      acceptedLifecycle (run { checks := plainChecks } {} structuredCommandTaken)
        (completingUpdate commandExecutionState).update job = some .completed ∧
      (protocolFault plainChecks job (completingUpdate commandExecutionState).update
        .completed).isSome =
        commandExecutionState.isNone ∧
      (updateJobChecked { checks := plainChecks } (run { checks := plainChecks } {}
        structuredCommandTaken) (completingUpdate commandExecutionState).update none 3).result =
            .ok after := by
  obtain ⟨job, hjob⟩ : ∃ job,
      (run { checks := plainChecks } {} structuredCommandTaken).jobsById.lookup "job" =
          some job := by
    rw [← Option.isSome_iff_exists]
    decide +kernel
  have hfacts :
      ((run { checks := plainChecks } {} structuredCommandTaken).jobsById.lookup "job").map
          (fun job ↦ (acceptedLifecycle (run { checks := plainChecks } {} structuredCommandTaken)
            (completingUpdate commandExecutionState).update job,
        (protocolFault plainChecks job (completingUpdate commandExecutionState).update
          .completed).isSome)) = some (some .completed, commandExecutionState.isNone) := by
    rcases hstate with rfl | rfl
    · decide +kernel
    · decide +kernel
  rw [hjob, Option.map_some, Option.some.injEq, Prod.mk.injEq] at hfacts
  obtain ⟨after, hafter⟩ := exists_ok_of_answers ((updateJobChecked { checks := plainChecks }
    (run { checks := plainChecks } {} structuredCommandTaken)
    (completingUpdate commandExecutionState).update none 3).result) (by
      rcases hstate with rfl | rfl
      · decide +kernel
      · decide +kernel)
  exact ⟨job, after, hjob, hfacts.1, hfacts.2, hafter⟩

/-- The update that keeps the protocol. -/
theorem finished_updates_are_recorded_completed :
    ∃ job after,
      RecordsFinish plainChecks job (completingUpdate (some .completed)).update .completed after ∧
      StandsAs after "job" (deliverUpdate { checks := plainChecks }
        (run { checks := plainChecks } {} structuredCommandTaken)
            (completingUpdate (some .completed))) := by
  obtain ⟨job, after, hjob, haccepted, -, hresult⟩ := completingUpdate_accepted _ (Or.inr rfl)
  exact ⟨job, after, finished_updates_are_recorded { checks := plainChecks } _
    (completingUpdate (some .completed)) hjob haccepted rfl hresult⟩

/-- A job is not completed although its update reports so, without an error and with the exit code
zero: the update breaks the protocol. -/
theorem violating_update_fails_job :
    ¬ ∀ (env : Environment) (inner : RunnerRegistryInner) (delivery : UpdateDelivery)
      (job after : ShellJobRecord) (lifecycle : RunnerJobLifecycle),
      inner.jobsById.lookup delivery.update.jobId = some job →
      acceptedLifecycle inner delivery.update job = some lifecycle →
      delivery.update.finished = true →
      (updateJobChecked env inner delivery.update delivery.connectionId delivery.now).result =
        .ok after →
      after.lifecycle.isTerminal = true ∧ after.exitCode = delivery.update.exitCode ∧
        after.durationMs = delivery.update.durationMs ∧
        (after.lifecycle = .completed ↔
          if lifecycle.isTerminal then lifecycle = .completed
          else delivery.update.exitCode = some 0 ∧ delivery.update.error = none) := by
  intro hall
  obtain ⟨job, after, hjob, haccepted, hfault, hresult⟩ := completingUpdate_accepted none
    (Or.inl rfl)
  have hcompleted :=
    (hall { checks := plainChecks } _ (completingUpdate none) job after .completed hjob haccepted
      rfl hresult).2.2.2.mpr rfl
  obtain ⟨code, hcode⟩ := Option.isSome_iff_exists.mp hfault
  have hrecords :=
    (finished_outcome { checks := plainChecks } _ (completingUpdate none) hjob haccepted rfl
      hresult).1
  have hfailed : after.lifecycle = .failed :=
    congrArg JobConclusion.lifecycle (hrecords.violated code hcode)
  rw [hcompleted] at hfailed
  cases hfailed

end WebCodex.Registry
