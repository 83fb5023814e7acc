import Mathlib.Logic.Relation
import WebCodex.Foundation.Evolution
import WebCodex.Registry.Step

/-!
The changes of job records are listed once (`JobStep`), each with the guard under which the source
makes it. A result that reaches a job that has ended (`late`) and the promotion of a hidden job
(`promoted`) carry conditions of their own. A job table advances by such changes, by removals and
by new records (`Advances`).
-/

namespace WebCodex.Registry

open Foundation JobLog Relation

/-- The job table as a store: records are told apart by the address of their shared cells. -/
def RunnerRegistryInner.jobs (inner : RunnerRegistryInner) : Store String ShellJobRecord :=
  ⟨inner.jobsById, inner.nextHandle⟩

def ShellJobRecord.handle (job : ShellJobRecord) : ℕ := job.observation.handle

theorem jobsById_of_jobs_eq {before after : RunnerRegistryInner} (h : after.jobs = before.jobs) :
    after.jobsById = before.jobsById :=
  congrArg Store.table h

section Frames

variable (inner : RunnerRegistryInner) (clientId requestId : String)

@[simp] theorem jobs_dropPending : (dropPending requestId inner).jobs = inner.jobs := rfl

@[simp] theorem jobs_touchRunner (now : ℤ) : (touchRunner clientId now inner).jobs = inner.jobs :=
  rfl

@[simp] theorem jobs_pruneAllSuppressions (now : ℤ) :
    (pruneAllSuppressions now inner).jobs = inner.jobs := rfl

@[simp] theorem jobs_forgetJobRequest :
    (forgetJobRequest clientId requestId inner).jobs = inner.jobs := rfl

@[simp] theorem jobs_setQueue (rest : List String) :
    (setQueue clientId rest inner).jobs = inner.jobs := rfl

@[simp] theorem jobs_markDispatched (pending : PendingShellRequest) :
    (markDispatched requestId pending inner).jobs = inner.jobs := rfl

@[simp] theorem jobs_retireInstance (instanceId : String) :
    (retireInstance clientId instanceId inner).jobs = inner.jobs := rfl

@[simp] theorem jobs_installRunner (body : RunnerRegisterRequest) (now : ℤ) :
    (installRunner body now inner).jobs = inner.jobs := rfl

@[simp] theorem jobs_markDisconnected (instanceId : String) (connectionId : Option String)
    (now : ℤ) : (markDisconnected clientId instanceId connectionId now inner).jobs = inner.jobs :=
  rfl

@[simp] theorem jobs_forgetRunners (expired requestIds jobIds : List String) :
    (forgetRunners expired requestIds jobIds inner).jobs = inner.jobs := rfl

@[simp] theorem jobs_cancelRequest : (cancelRequest requestId inner).1.jobs = inner.jobs := rfl

@[simp] theorem jobs_touchIfCurrent (connectionId : Option String) (now : ℤ) :
    (touchIfCurrent clientId connectionId now inner).jobs = inner.jobs := by
  rw [touchIfCurrent]
  split_ifs
  · rfl
  · rfl

@[simp] theorem jobsById_touchIfCurrent (connectionId : Option String) (now : ℤ) :
    (touchIfCurrent clientId connectionId now inner).jobsById = inner.jobsById :=
  jobsById_of_jobs_eq (jobs_touchIfCurrent inner clientId connectionId now)

@[simp] theorem pendingById_touchIfCurrent (connectionId : Option String) (now : ℤ) :
    (touchIfCurrent clientId connectionId now inner).pendingById = inner.pendingById := by
  rw [touchIfCurrent]
  split_ifs
  · rfl
  · rfl

@[simp] theorem jobs_removeJobRequestMapping (requestId : Option String) :
    (removeJobRequestMapping clientId requestId inner).jobs = inner.jobs := by
  cases requestId <;> rfl

@[simp] theorem jobs_removeJobControlRequests (jobIds : List String) :
    (removeJobControlRequests clientId jobIds inner).jobs = inner.jobs := by
  refine foldl_view_eq RunnerRegistryInner.jobs _ (fun state item ↦ ?_) _ inner
  exact jobs_removeJobRequestMapping state clientId (some item)

@[simp] theorem jobs_forgetRequestsOf (jobs : List (String × ShellJobRecord)) :
    (forgetRequestsOf jobs inner).jobs = inner.jobs := by
  refine (foldl_view_eq RunnerRegistryInner.jobs _ (fun state item ↦ ?_) _ _).trans
    (foldl_view_eq RunnerRegistryInner.jobs _ (fun state item ↦ ?_) _ inner)
  · exact jobs_removeJobControlRequests state item _
  · exact jobs_removeJobRequestMapping state _ _

@[simp] theorem jobs_resolveDisconnectedSyncRequests (error : String) :
    (resolveDisconnectedSyncRequests clientId error inner).1.jobs = inner.jobs := by
  refine foldl_view_eq
    (fun pair : RunnerRegistryInner × List Response ↦ pair.1.jobs) _ (fun _ _ ↦ ?_) _ (inner, [])
  rw [resolveDisconnected]
  split
  · rfl
  · rfl

@[simp] theorem jobs_resolveDisconnectedRunners (error : String) (clientIds : List String) :
    (resolveDisconnectedRunners error clientIds inner).1.jobs = inner.jobs := by
  refine foldl_view_eq
    (fun pair : RunnerRegistryInner × List Response ↦ pair.1.jobs) _ (fun state item ↦ ?_) _
      (inner, [])
  exact jobs_resolveDisconnectedSyncRequests state.1 item error

@[simp] theorem jobs_cancelAbandonedSyncRequests (closed : List String) :
    (cancelAbandonedSyncRequests closed inner).jobs = inner.jobs := by
  refine foldl_view_eq RunnerRegistryInner.jobs _ (fun state item ↦ ?_) _ inner
  exact jobs_cancelRequest state item.1

@[simp] theorem jobs_forgetStartRequest (job : ShellJobRecord) :
    (forgetStartRequest job inner).jobs = inner.jobs := by
  rw [forgetStartRequest]
  split
  · rfl
  · rfl

@[simp] theorem jobs_dropStale (stale : StaleRequest) :
    (dropStale requestId inner stale).jobs = inner.jobs := by
  cases stale <;> rfl

@[simp] theorem jobs_installWaiter (waiter : SyncWaiter) :
    (installWaiter requestId waiter inner).jobs = inner.jobs := by
  cases waiter <;> rfl

theorem jobs_enqueuePendingRequest {pending : PendingShellRequest} {now : ℤ}
    {enqueued : RunnerRegistryInner}
    (h : enqueuePendingRequest inner pending now = .ok enqueued) : enqueued.jobs = inner.jobs := by
  simp only [enqueuePendingRequest] at h
  split at h
  · simp at h
  · rw [Except.ok.injEq] at h
    rw [← h]
    rfl

/-- A request that a caller waits for touches no job. -/
theorem jobs_enqueueSync (check : RunnerRecord → Except String Unit)
    (pending : PendingShellRequest) (waiter : SyncWaiter) (now : ℤ) :
    ((enqueueSync inner check pending waiter now).toOption.getD inner).jobs = inner.jobs := by
  cases hresult : enqueueSync inner check pending waiter now with
  | error => rfl
  | ok after =>
    simp only [enqueueSync] at hresult
    split at hresult
    · simp at hresult
    · rename_i runner _
      cases hcheck : check runner with
      | error => simp [hcheck, bind, Except.bind] at hresult
      | ok =>
        simp only [hcheck, bind, Except.bind] at hresult
        split at hresult
        · simp at hresult
        · rename_i enqueued henqueued
          rw [← hresult]
          exact (jobs_installWaiter enqueued _ waiter).trans
            (jobs_enqueuePendingRequest inner henqueued)

/-- The result of a persistent shell touches no job. -/
theorem jobs_completePersistentShellChecked (body : PersistentShellResult)
    (connectionId : Option String) (now : ℤ) :
    (completePersistentShellChecked inner body connectionId now).state.jobs = inner.jobs := by
  have htouched := jobs_touchIfCurrent inner body.clientId connectionId now
  simp only [completePersistentShellChecked]
  split
  · rfl
  · split
    · rfl
    · split
      · exact htouched
      · split
        · exact htouched
        · split
          · split
            · exact htouched
            · exact htouched
          · exact htouched

end Frames

/-- The changes that the operations make to the record of a job. -/
inductive JobStep (late : Prop) (promoted : String → Prop) (jobId : String) :
    ShellJobRecord → ShellJobRecord → Prop
  | observed (job : ShellJobRecord) (now : ℤ) :
    JobStep late promoted jobId job (observeJobTerminal now job)
  | recovering (job : ShellJobRecord) (now : ℤ) (reason : JobRecoveryReason) :
    JobStep late promoted jobId job (beginJobRecovery now reason job)
  | lost (job : ShellJobRecord) (now : ℤ) (reason : JobRecoveryReason) (message : String) :
    JobStep late promoted jobId job (markJobLost now reason message job)
  | dispatched (job : ShellJobRecord) (now : ℤ) :
    JobStep late promoted jobId job (dispatchedJob now job)
  | completed (job : ShellJobRecord) (payload : RunnerResultPayload) (now : ℤ)
      (h : job.lifecycle.isTerminal = false ∨ late) :
    JobStep late promoted jobId job (completedJob payload now job)
  | violated (job : ShellJobRecord) (update : RunnerJobUpdateRequest) (code : String) (now : ℤ)
      (h : job.lifecycle.isTerminal = false) :
    JobStep late promoted jobId job (acceptedJob update job (violatedJob update code now job))
  | applied (job : ShellJobRecord) (update : RunnerJobUpdateRequest)
      (lifecycle : RunnerJobLifecycle) (stdout stderr : ShellJobLogState) (now : ℤ)
      (h : job.lifecycle.isTerminal = false) :
    JobStep late promoted jobId job
      (acceptedJob update job (appliedJob update lifecycle stdout stderr now job))
  | interrupted (job : ShellJobRecord) (stdout stderr : ShellJobLogState) :
    JobStep late promoted jobId job { job with stdout := stdout, stderr := stderr }
  | stopped (job : ShellJobRecord) (now : ℤ) (h : job.lifecycle = .queued) :
    JobStep late promoted jobId job (stoppedQueuedJob now job)
  | stopRequested (job : ShellJobRecord) (h : job.lifecycle.isTerminal = false) :
    JobStep late promoted jobId job (notifyJobUpdate
        { job with lifecycle := .stopRequested, error := some "stop requested" })
  | cleanupRequested (job : ShellJobRecord) (h : job.lifecycle.isTerminal = false) :
    JobStep late promoted jobId job
      { job with
        lifecycle := .stopRequested
        error := some "internal structured execution cleanup requested" }
  | cleanup (job : ShellJobRecord) :
    JobStep late promoted jobId job { job with visibility := .cleanupPending }
  | promoted (job : ShellJobRecord) (h : promoted jobId) :
    JobStep late promoted jobId job { job with visibility := .isPublic }
  | reconciled (job : ShellJobRecord) (instanceId : String) (snapshot : ShellJobSnapshot) (now : ℤ)
      (h : job.lifecycle.isTerminal = false) :
    JobStep late promoted jobId job (reconciledJob instanceId snapshot now job)

abbrev Follows (late : Prop) (promoted : String → Prop) (jobId : String) :
    ShellJobRecord → ShellJobRecord → Prop :=
  ReflTransGen (JobStep late promoted jobId)

/-- The job table evolves by changes of records, removals and new records. -/
abbrev Advances (late : Prop) (promoted : String → Prop) (fresh : String → ShellJobRecord → Prop)
    (before after : RunnerRegistryInner) : Prop :=
  Store.Evolves ShellJobRecord.handle fresh (Follows late promoted) before.jobs after.jobs

/-- The job table evolves by versions of records in any sense. -/
abbrev Changes (fresh : String → ShellJobRecord → Prop)
    (carries : String → ShellJobRecord → ShellJobRecord → Prop)
    (before after : RunnerRegistryInner) : Prop :=
  Store.Evolves ShellJobRecord.handle fresh carries before.jobs after.jobs

/-- A sense of versions that allows the changes that operations make to any job that they meet. -/
structure JobRules (fresh : String → ShellJobRecord → Prop)
    (carries : String → ShellJobRecord → ShellJobRecord → Prop) : Prop extends
    Store.Versions ShellJobRecord.handle fresh carries where
  observed : ∀ jobId job now, carries jobId job (observeJobTerminal now job)
  recovering : ∀ jobId job now reason, carries jobId job (beginJobRecovery now reason job)
  lost : ∀ jobId job now reason message, carries jobId job (markJobLost now reason message job)
  dispatched : ∀ jobId job now, carries jobId job (dispatchedJob now job)
  interrupted : ∀ jobId (job : ShellJobRecord) stdout stderr,
    carries jobId job { job with stdout := stdout, stderr := stderr }
  stopRequested : ∀ jobId (job : ShellJobRecord), job.lifecycle.isTerminal = false →
    carries jobId job (notifyJobUpdate
      { job with lifecycle := .stopRequested, error := some "stop requested" })
  cleanupRequested : ∀ jobId (job : ShellJobRecord), job.lifecycle.isTerminal = false →
    carries jobId job
      { job with
        lifecycle := .stopRequested
        error := some "internal structured execution cleanup requested" }
  cleanup : ∀ jobId (job : ShellJobRecord), carries jobId job
    { job with visibility := .cleanupPending }

/-- The parts of a record that no report about the job changes. -/
structure JobIdentity where
  handle : ℕ
  jobId : String
  requestId : Option String
  (clientId kind : String)
  detachedIdempotencyIntent : Option DetachedIdempotencyIntent
  visibility : ShellJobVisibility

def ShellJobRecord.identity (job : ShellJobRecord) : JobIdentity :=
  ⟨job.handle, job.jobId, job.requestId, job.clientId, job.kind, job.detachedIdempotencyIntent,
    job.visibility⟩

section Identity

variable (now : ℤ) (job : ShellJobRecord)

@[simp] theorem identity_observeJobTerminal :
    (observeJobTerminal now job).identity = job.identity := by
  rw [observeJobTerminal]
  split_ifs
  · rfl
  · rfl

@[simp] theorem identity_beginJobRecovery (reason : JobRecoveryReason) :
    (beginJobRecovery now reason job).identity = job.identity := by
  by_cases hout : (job.lifecycle.isTerminal || job.lifecycle == .queued) = true
  · rw [beginJobRecovery, if_pos hout]
  · rw [beginJobRecovery, if_neg hout]
    rfl

@[simp] theorem identity_markJobLost (reason : JobRecoveryReason) (message : String) :
    (markJobLost now reason message job).identity = job.identity := by
  by_cases hended : job.lifecycle.isTerminal = true
  · rw [markJobLost, if_pos hended]
  · rw [markJobLost, if_neg hended]
    exact identity_observeJobTerminal now { job with lifecycle := .lost, activity := none }

@[simp] theorem identity_dispatchedJob : (dispatchedJob now job).identity = job.identity := by
  by_cases hqueued : (job.lifecycle == .queued) = true
  · rw [dispatchedJob, if_pos hqueued]
    rfl
  · rw [dispatchedJob, if_neg hqueued]

@[simp] theorem identity_completedJob (payload : RunnerResultPayload) :
    (completedJob payload now job).identity = job.identity :=
  identity_observeJobTerminal now
    { job with lifecycle := if payload.success then .completed else .failed }

@[simp] theorem identity_stoppedQueuedJob : (stoppedQueuedJob now job).identity = job.identity :=
  identity_observeJobTerminal now { job with lifecycle := .stopped }

@[simp] theorem identity_applySnapshot (snapshot : ShellJobSnapshot) (reason : JobRecoveryReason) :
    (applySnapshot snapshot now reason job).identity = job.identity :=
  identity_observeJobTerminal now { job with lifecycle := snapshot.status }

@[simp] theorem identity_reconciledJob (instanceId : String) (snapshot : ShellJobSnapshot) :
    (reconciledJob instanceId snapshot now job).identity = job.identity := by
  rw [reconciledJob]
  split_ifs
  · exact identity_applySnapshot now { job with runnerInstanceId := instanceId } snapshot _
  · exact identity_applySnapshot now job snapshot _

variable (update : RunnerJobUpdateRequest)

@[simp] theorem identity_acceptedJob (changed : ShellJobRecord) :
    (acceptedJob update job changed).identity = changed.identity := by
  simp only [acceptedJob]
  split_ifs
  · rfl
  · rfl

@[simp] theorem identity_violatedJob (code : String) :
    (violatedJob update code now job).identity = job.identity :=
  identity_observeJobTerminal now { job with lifecycle := .failed }

theorem identity_reportedJob (lifecycle : RunnerJobLifecycle) (wasRecovering : Bool) :
    (reportedJob update lifecycle wasRecovering now job).identity = job.identity := by
  by_cases hended : lifecycle.isTerminal = true
  · rw [reportedJob, if_pos hended]
    exact identity_observeJobTerminal now { job with lifecycle := lifecycle }
  · rw [reportedJob, if_neg hended]
    rfl

theorem identity_finishedJob : (finishedJob update now job).identity = job.identity := by
  by_cases hfinished : (update.finished && !job.lifecycle.isTerminal) = true
  · rw [finishedJob, if_pos hfinished]
    exact identity_observeJobTerminal now { job with lifecycle := _ }
  · rw [finishedJob, if_neg hfinished]

theorem identity_recoveredJob (wasRecovering : Bool) :
    (recoveredJob wasRecovering now job).identity = job.identity := by
  rw [recoveredJob]
  split_ifs
  · rfl
  · rfl

@[simp] theorem identity_appliedJob (lifecycle : RunnerJobLifecycle)
    (stdout stderr : ShellJobLogState) :
    (appliedJob update lifecycle stdout stderr now job).identity = job.identity := by
  rw [appliedJob, identity_recoveredJob, identity_finishedJob, identity_reportedJob]
  rfl

end Identity

theorem lifecycle_observeJobTerminal (now : ℤ) (job : ShellJobRecord) :
    (observeJobTerminal now job).lifecycle = job.lifecycle := by
  rw [observeJobTerminal]
  split_ifs
  · rfl
  · rfl

/-- A job that is marked lost has ended, now or before. -/
theorem lifecycle_markJobLost (now : ℤ) (reason : JobRecoveryReason) (message : String)
    (job : ShellJobRecord) : (markJobLost now reason message job).lifecycle.isTerminal = true := by
  by_cases hended : job.lifecycle.isTerminal = true
  · rw [markJobLost, if_pos hended]
    exact hended
  · rw [markJobLost, if_neg hended]
    show (observeJobTerminal now
      { job with lifecycle := .lost, activity := none }).lifecycle.isTerminal =
      true
    rw [lifecycle_observeJobTerminal]
    rfl

theorem lifecycle_beginJobRecovery (now : ℤ) (reason : JobRecoveryReason) (job : ShellJobRecord) :
    (beginJobRecovery now reason job).lifecycle = job.lifecycle := by
  by_cases hout : (job.lifecycle.isTerminal || job.lifecycle == .queued) = true
  · rw [beginJobRecovery, if_pos hout]
  · rw [beginJobRecovery, if_neg hout]
    rfl

variable {late : Prop} {promoted : String → Prop} {jobId : String}

/-- A change keeps the identity of a job, its visibility apart. -/
theorem JobStep.identity_eq {old new : ShellJobRecord} (h : JobStep late promoted jobId old new) :
    new.identity = { old.identity with visibility := new.visibility } := by
  have hkept : ∀ {record : ShellJobRecord}, record.identity = old.identity →
      record.identity = { old.identity with visibility := record.visibility } := by
    intro record hrecord
    have hvisibility : record.visibility = old.visibility := congrArg JobIdentity.visibility hrecord
    rw [hrecord, hvisibility]
    rfl
  cases h with
  | cleanup | promoted | interrupted | stopRequested | cleanupRequested => rfl
  | _ => exact hkept (by simp)

theorem JobStep.handle_eq {old new : ShellJobRecord} (h : JobStep late promoted jobId old new) :
    new.handle = old.handle :=
  congrArg JobIdentity.handle h.identity_eq

/-- The listed changes compose to versions of a record. -/
theorem versions {fresh : String → ShellJobRecord → Prop}
    (hfresh : ∀ {jobId old new}, JobStep late promoted jobId old new → fresh jobId old →
      fresh jobId new) :
    JobRules fresh (Follows late promoted) where
  refl _ _ := .refl
  trans := ReflTransGen.trans
  stamp_eq h := by
    induction h with
    | refl => rfl
    | tail _ hstep ih => exact hstep.handle_eq.trans ih
  fresh_of_carries h hold := by
    induction h with
    | refl => exact hold
    | tail _ hstep ih => exact hfresh hstep ih
  observed _ job now := .single (.observed job now)
  recovering _ job now reason := .single (.recovering job now reason)
  lost _ job now reason message := .single (.lost job now reason message)
  dispatched _ job now := .single (.dispatched job now)
  interrupted _ job stdout stderr := .single (.interrupted job stdout stderr)
  stopRequested _ job hopen := .single (.stopRequested job hopen)
  cleanupRequested _ job hopen := .single (.cleanupRequested job hopen)
  cleanup _ job := .single (.cleanup job)

end WebCodex.Registry
