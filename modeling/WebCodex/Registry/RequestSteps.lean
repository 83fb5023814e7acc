import WebCodex.Registry.JobTracking

/-!
Every step of the registry settles waiters and gives up requests; a poll may then hand out the
front of a queue, and some operations enqueue a new request (`Flows`). Jobs are tracked by every
step that gives up no structured job that is taken and not started (`givesUp`) and takes none back
to the queued state (`requeues`).
-/

namespace WebCodex.Registry

open Foundation

variable {old new : ShellJobRecord} {jobId : String} {after before : RunnerRegistryInner}

section Functions

variable {quoted : String → Prop} (env : Environment) (inner : RunnerRegistryInner) (now : ℤ)

/-! ### Updates -/

/-- A job that an update fails because it breaks the protocol. -/
def updateGivesUp (body : RunnerJobUpdateRequest) (jobId : String) (job : ShellJobRecord) : Bool :=
  jobId == body.jobId && (acceptedLifecycle inner body job).any fun lifecycle ↦
    (protocolFault env.checks job body lifecycle).isSome

/-- A job without a start that an update takes back to the queued state. -/
def updateRequeues (body : RunnerJobUpdateRequest) (jobId : String) (job : ShellJobRecord) : Bool :=
  jobId == body.jobId && job.lifecycle != .queued && job.startedAt.isNone &&
    (acceptedLifecycle inner body job).any fun lifecycle ↦
      lifecycle == .queued && (protocolFault env.checks job body lifecycle).isNone

theorem requestGone_settleUpdatedJob (jobId : String) (hended : new.lifecycle.isTerminal = true) :
    RequestGone (settleUpdatedJob old new jobId inner) old := by
  intro requestId hrequest
  have hgone := (lookup_dropPending inner requestId requestId).trans (if_pos rfl)
  simp only [settleUpdatedJob, hended, if_true, hrequest]
  split
  · exact hgone
  · exact hgone

theorem lookup_settleUpdatedJob {found : ShellJobRecord} {other : String}
    (h : (settleUpdatedJob old new jobId inner).jobsById.lookup other = some found) :
    inner.jobsById.lookup other = some found := by
  have herase : (inner.jobsById.erase jobId).lookup other = some found →
      inner.jobsById.lookup other = some found := by
    intro hfound
    rw [Table.lookup_erase_eq] at hfound
    split_ifs at hfound
    exact hfound
  cases hrequest : old.requestId with
  | none | some =>
    simp only [settleUpdatedJob, hrequest] at h
    split_ifs at h
    · exact herase h
    · exact h
    · exact h

theorem tracks_setJob (hold : inner.jobsById.lookup jobId = some old) (hloses : Loses inner after)
    (hafter : ∀ other job, after.jobsById.lookup other = some job →
      (inner.setJob jobId new).jobsById.lookup other = some job)
    (hreports : Reports (quoted jobId) (RequestGone after old) old new) :
    Tracks quoted inner after := by
  refine .of_lookup hloses fun other job hjob ↦ ?_
  have hset := hafter other job hjob
  rw [RunnerRegistryInner.setJob, Table.lookup_insert_eq] at hset
  by_cases hsame : other = jobId
  · rw [if_pos hsame, Option.some.injEq] at hset
    subst hset hsame
    exact ⟨old, hold, hreports⟩
  · rw [if_neg hsame] at hset
    exact ⟨job, hset, .refl job⟩

/-- The same, of an update that passed the checks. -/
theorem tracks_applyUpdate {body : RunnerJobUpdateRequest} {job : ShellJobRecord}
    {lifecycle : RunnerJobLifecycle} (hjob : inner.jobsById.lookup body.jobId = some job)
    (hopen : job.lifecycle.isTerminal = false)
    (hspared : (protocolFault env.checks job body lifecycle).isSome = true →
      job.isTakenUnstarted = false)
    (hrequeues : (protocolFault env.checks job body lifecycle).isNone = true →
      lifecycle = .queued → job.startedAt.isSome = false → job.lifecycle = .queued)
    (hquoted : quotesNotStarted body.commandExecutionState body.error = true → quoted body.jobId) :
    Tracks quoted inner (applyUpdate env.checks inner job body lifecycle now).state := by
  have hloses := loses_applyUpdate inner env.checks job body lifecycle now
  simp only [applyUpdate] at hloses ⊢
  cases hfault : protocolFault env.checks job body lifecycle with
  | some code =>
    simp only [hfault] at hloses
    refine tracks_setJob inner hjob hloses (fun _ _ h ↦ lookup_settleUpdatedJob _ h) ?_
    refine reports_violatedJob now job body code hopen (hspared (by simp [hfault])) fun _ ↦ ?_
    refine requestGone_settleUpdatedJob _ body.jobId ?_
    rw [lifecycle_acceptedJob]
    have hfailed : (violatedJob body code now job).lifecycle = .failed :=
      lifecycle_observeJobTerminal now _
    rw [hfailed]
    rfl
  | none =>
    simp only [hfault] at hloses
    cases hstreams : updatedStreams job body with
    | panicked =>
      simp only [hstreams] at hloses
      exact tracks_setJob inner hjob hloses (fun _ _ h ↦ h) ⟨rfl, rfl, rfl, id, Or.inl⟩
    | returned stdout stderr =>
      simp only [hstreams] at hloses
      refine tracks_setJob inner hjob hloses (fun _ _ h ↦ lookup_settleUpdatedJob _ h) ?_
      exact reports_appliedJob now job body lifecycle stdout stderr (hrequeues (by simp [hfault]))
        hquoted

theorem tracks_touchIfCurrent (clientId : String) (connectionId : Option String) :
    Tracks quoted inner (touchIfCurrent clientId connectionId now inner) :=
  .of_jobs_eq (loses_touchIfCurrent inner clientId connectionId now)
    (jobsById_touchIfCurrent inner clientId connectionId now)

/-- An update tracks all jobs when it neither gives up nor requeues one whose request was taken. -/
theorem tracks_updateJobChecked (body : RunnerJobUpdateRequest) (connectionId : Option String)
    (hspared : Spares inner (updateGivesUp env inner body))
    (hrequeues : ∀ jobId job, inner.jobsById.lookup jobId = some job →
      updateRequeues env inner body jobId job = false)
    (hquoted : ∀ jobId, Operation.quotes jobId (.update body connectionId now) = true →
      quoted jobId) :
    Tracks quoted inner (updateJobChecked env inner body connectionId now).state := by
  have htouched : Tracks quoted inner (touchIfCurrent body.clientId connectionId now inner) :=
    tracks_touchIfCurrent inner now body.clientId connectionId
  simp only [updateJobChecked]
  cases hvalid : validateUpdate body with
  | error => exact .refl inner
  | ok =>
    cases hinstance : instanceFault inner body.clientId body.runnerInstanceId with
    | some => exact .refl inner
    | none =>
      cases hlifecycle : incomingLifecycle (isSequenced inner body.clientId) body with
      | error => exact .refl inner
      | ok lifecycle =>
        rw [jobsById_touchIfCurrent]
        cases hjob : inner.jobsById.lookup body.jobId with
        | none => exact htouched
        | some job =>
          dsimp only
          cases hfault : jobUpdateFault job (isSequenced inner body.clientId) body with
          | some => exact htouched
          | none =>
            by_cases hignored : isIgnored job (isSequenced inner body.clientId) body = true
            · rw [if_pos hignored]
              exact htouched
            · rw [if_neg hignored]
              by_cases hregresses : regressesCursor job body = true
              · rw [if_pos hregresses]
                exact htouched
              · rw [if_neg hregresses]
                have haccepted : acceptedLifecycle inner body job = some lifecycle := by
                  simp [acceptedLifecycle, hvalid, hinstance, hlifecycle, hfault, hignored,
                    hregresses]
                have hopen : job.lifecycle.isTerminal = false := by
                  simp only [isIgnored, Bool.or_eq_true, not_or] at hignored
                  simpa using hignored.2
                have hlookup : (touchIfCurrent body.clientId connectionId now
                    inner).jobsById.lookup body.jobId = some job := by
                  rw [jobsById_touchIfCurrent]
                  exact hjob
                refine htouched.trans (tracks_applyUpdate env _ now hlookup hopen ?_ ?_ ?_)
                · intro hviolated
                  refine hspared body.jobId job hjob ?_
                  simp [updateGivesUp, haccepted, hviolated]
                · rintro hkept rfl hstarted
                  by_contra hqueued
                  have hstays := hrequeues body.jobId job hjob
                  rw [updateRequeues, haccepted, Option.any_some, hkept] at hstays
                  simp [hqueued, Option.isSome_eq_false_iff.mp hstarted] at hstays
                · intro hquotes
                  exact hquoted body.jobId (by simp [Operation.quotes, hquotes])

theorem tracks_resolveRequest (pending : PendingShellRequest) (payload : RunnerResultPayload)
    (hquoted : quotesNotStarted none payload.error = true → ∀ jobId, quoted jobId)
    (hpending : inner.pendingById.lookup payload.requestId = some pending) :
    Tracks quoted inner (resolveRequest inner pending payload now).1 := by
  have hloses := (settles_resolveRequest hpending now).loses
  simp only [resolveRequest] at hloses ⊢
  split at hloses
  · exact .of_jobs_eq hloses rfl
  · exact .of_jobs_eq hloses rfl
  · exact .of_jobs_eq hloses rfl
  · split
    · exact .of_jobs_eq (loses_dropPending inner payload.requestId) rfl
    · rename_i jobId _
      refine Tracks.trans ?_ (tracks_modifyJob _ jobId _ fun job _ ↦ ?_)
      · exact .of_jobs_eq ((loses_dropPending inner payload.requestId).trans (.of_requests_eq rfl))
          rfl
      · exact reports_completedJob now job payload fun h ↦ hquoted h jobId

theorem tracks_completeChecked (payload : RunnerResultPayload) (connectionId : Option String)
    (hquoted : quotesNotStarted none payload.error = true → ∀ jobId, quoted jobId) :
    Tracks quoted inner (completeChecked inner payload connectionId now).state := by
  have htouched : Tracks quoted inner (touchIfCurrent payload.clientId connectionId now inner) :=
    tracks_touchIfCurrent inner now payload.clientId connectionId
  simp only [completeChecked]
  split
  · exact .refl inner
  · split
    · exact .refl inner
    · cases hpending : (touchIfCurrent payload.clientId connectionId now inner).pendingById.lookup
          payload.requestId with
      | none => exact htouched
      | some pending =>
        dsimp only
        split
        · exact htouched
        · exact htouched.trans (tracks_resolveRequest _ now pending payload hquoted hpending)

theorem tracks_promoteHiddenJob (jobId : String)
    (hspared : Spares inner fun other job ↦ other == jobId && isStale env inner now job) :
    Tracks quoted inner (promoteHiddenJob env inner jobId now).state := by
  have hfresh : Tracks quoted inner (refreshJobStatus env now jobId inner) :=
    tracks_refreshJobStatus env inner now jobId hspared
  simp only [promoteHiddenJob]
  split
  · exact hfresh
  · split_ifs
    · exact hfresh
    · exact hfresh
    · exact hfresh.trans (tracks_modifyJob _ jobId _ fun job _ ↦ ⟨rfl, rfl, rfl, id, Or.inl⟩)

theorem lookup_removeJob {other : String} {job : ShellJobRecord}
    (h : (removeJob jobId inner).jobsById.lookup other = some job) :
    inner.jobsById.lookup other = some job := by
  rw [removeJob, Table.lookup_erase_eq] at h
  split_ifs at h
  exact h

theorem tracks_removeProjected (jobId : String) :
    Tracks quoted inner (removeProjectedHiddenTerminalJobRecord inner jobId now).1 := by
  refine .of_subset (loses_removeProjected inner jobId now) fun _ _ hjob ↦ ?_
  rw [removeProjectedHiddenTerminalJobRecord] at hjob
  split at hjob
  · exact hjob
  · split at hjob
    · exact hjob
    · split_ifs at hjob
      · exact hjob
      · exact lookup_removeJob inner hjob

/-! ### Requests that are enqueued -/

/-- The registry with a request at the back of the queue of its runner. -/
def pushRequest (pending : PendingShellRequest) : RunnerRegistryInner :=
  { inner with
    queuesByRunner := inner.queuesByRunner.insert pending.request.clientId
      (queueOf inner pending.request.clientId ++ [pending.request.requestId])
    pendingById := inner.pendingById.insert pending.request.requestId
      { pending with dispatched := false } }

theorem enqueuePendingRequest_eq {pending : PendingShellRequest}
    (h : enqueuePendingRequest inner pending now = .ok after) :
    after = pushRequest inner pending := by
  simp only [enqueuePendingRequest] at h
  split at h
  · simp at h
  · rw [Except.ok.injEq] at h
    exact h.symm

/-- A change that gives up requests and then enqueues at most one, under the id that was drawn for
it. -/
def Pushes (quoted : String → Prop) (before : RunnerRegistryInner) (drawn : String)
    (after : RunnerRegistryInner) : Prop :=
  ∃ middle, Loses before middle ∧ Tracks quoted before middle ∧
    (after = middle ∨ ∃ pending waiter, pending.request.requestId = drawn ∧
      after = installWaiter drawn waiter (pushRequest middle pending))

theorem Pushes.none {drawn : String} (hloses : Loses before after)
    (htracks : Tracks quoted before after) :
    Pushes quoted before drawn after :=
  ⟨after, hloses, htracks, Or.inl rfl⟩

theorem Pushes.modifyJob {middle enqueued : RunnerRegistryInner} {pending : PendingShellRequest}
    (hloses : Loses before middle) (htracks : Tracks quoted before middle)
    (henqueued : enqueuePendingRequest middle pending now = .ok enqueued) (jobId : String)
    {change : ShellJobRecord → ShellJobRecord}
    (hchange : ∀ job, Reports (quoted jobId) (RequestGone middle job) job (change job)) :
    Pushes quoted before pending.request.requestId (enqueued.modifyJob jobId change) := by
  refine ⟨middle.modifyJob jobId change, hloses.trans (loses_modifyJob middle jobId change),
    htracks.trans (tracks_modifyJob middle jobId change fun job _ ↦ hchange job),
    Or.inr ⟨pending, .shell, rfl, ?_⟩⟩
  rw [enqueuePendingRequest_eq middle now henqueued]
  rfl

theorem reports_stopRequested {quoted settled : Prop} (job : ShellJobRecord) (message : String)
    (hmessage : message ≠ stoppedBeforePickup) :
    Reports quoted settled job
      { job with lifecycle := .stopRequested, error := some message } := by
  refine ⟨rfl, rfl, rfl, fun h ↦ RunnerJobLifecycle.noConfusion h, fun h ↦ Or.inl ?_⟩
  have hclaim : (job.commandExecutionState == some .notStarted ||
      job.recovery.reason == some .runnerRequestNotDispatched ||
      some message == some stoppedBeforePickup) = true := h
  simp only [Bool.or_eq_true, beq_iff_eq, Option.some.injEq, hmessage, or_false] at hclaim
  simp [ShellJobRecord.saysNotStarted, hclaim]

theorem Reports.notify {quoted settled : Prop} (h : Reports quoted settled old new) :
    Reports quoted settled old (notifyJobUpdate new) :=
  ⟨h.handle_eq, h.requestId_eq, h.clientId_eq, h.queued, h.honest⟩

theorem requestGone_forgetStartRequest (job : ShellJobRecord) :
    RequestGone (forgetStartRequest job inner) job := by
  intro requestId hrequest
  simp only [forgetStartRequest, hrequest]
  exact (lookup_dropPending inner requestId requestId).trans (if_pos rfl)

theorem tracks_forgetStartRequest (job : ShellJobRecord) :
    Tracks quoted inner (forgetStartRequest job inner) :=
  .of_jobs_eq (loses_forgetStartRequest inner job)
    (jobsById_of_jobs_eq (jobs_forgetStartRequest inner job))

section Stops

variable (access : Option RunnerAccess) (jobId stopRequestId : String)

/-- A stop gives up a queued job, or asks the runner of the job to stop it. -/
theorem stopJob_pushes (hspared : (validateId jobId "job_id").isOk = true →
      Spares inner fun other job ↦ other == jobId && isStale env inner now job) :
    Pushes quoted inner stopRequestId (stopJob env inner access jobId stopRequestId now).state ∧
      (stopJob env inner access jobId stopRequestId now).responses = [] := by
  have hfreshLoses := loses_refreshJobStatus inner env now jobId
  simp only [stopJob]
  cases hvalid : validateId jobId "job_id" with
  | error => exact ⟨.none (.refl inner) (.refl inner), rfl⟩
  | ok =>
    have hfresh : Tracks quoted inner (refreshJobStatus env now jobId inner) :=
      tracks_refreshJobStatus env inner now jobId (hspared (by rw [hvalid]; rfl))
    have hnone : Pushes quoted inner stopRequestId (refreshJobStatus env now jobId inner) :=
      .none hfreshLoses hfresh
    cases hjob : (refreshJobStatus env now jobId inner).jobsById.lookup jobId with
    | none => exact ⟨hnone, rfl⟩
    | some job =>
      dsimp only
      split_ifs
      · exact ⟨hnone, rfl⟩
      · exact ⟨hnone, rfl⟩
      · split
        · rename_i hqueued
          refine ⟨.none ?_ ?_, rfl⟩
          · exact hfreshLoses.trans
              ((loses_forgetStartRequest _ job).trans (loses_modifyJob _ jobId _))
          · refine (hfresh.trans (tracks_forgetStartRequest _ job)).trans
              (tracks_modifyJob _ jobId _ fun record hrecord ↦ ?_)
            rw [jobsById_of_jobs_eq (jobs_forgetStartRequest _ job), hjob,
              Option.some.injEq] at hrecord
            subst hrecord
            exact reports_stoppedQueuedJob now job hqueued (requestGone_forgetStartRequest _ job)
        all_goals first
          | exact ⟨hnone, rfl⟩
          | cases henqueued : enqueuePendingRequest (refreshJobStatus env now jobId inner)
              (stopRequest job jobId stopRequestId) now with
            | error => exact ⟨hnone, rfl⟩
            | ok enqueued =>
              exact ⟨.modifyJob now hfreshLoses hfresh henqueued jobId fun record ↦
                (reports_stopRequested record "stop requested" (by decide)).notify, rfl⟩

/-- A cancellation removes a job that no runner has taken, or asks its runner to stop it. -/
theorem cancelHiddenJob_pushes (hspared : (validateId jobId "job_id").isOk = true →
      Spares inner fun other job ↦ other == jobId && isStale env inner now job) :
    Pushes quoted inner stopRequestId
      (cancelHiddenJob env inner access jobId stopRequestId now).state ∧
      (cancelHiddenJob env inner access jobId stopRequestId now).responses = [] := by
  have hfreshLoses := loses_refreshJobStatus inner env now jobId
  have hremoved : ∀ state, Tracks quoted state (removeJob jobId state) := fun state ↦
    .of_subset (.of_requests_eq rfl) fun _ _ h ↦ lookup_removeJob state h
  have hremovedLoses : ∀ state, Loses state (removeJob jobId state) :=
    fun state ↦ .of_requests_eq rfl
  simp only [cancelHiddenJob]
  cases hvalid : validateId jobId "job_id" with
  | error => exact ⟨.none (.refl inner) (.refl inner), rfl⟩
  | ok =>
    have hfresh : Tracks quoted inner (refreshJobStatus env now jobId inner) :=
      tracks_refreshJobStatus env inner now jobId (hspared (by rw [hvalid]; rfl))
    cases hjob : (refreshJobStatus env now jobId inner).jobsById.lookup jobId with
    | none => exact ⟨.none hfreshLoses hfresh, rfl⟩
    | some job =>
      dsimp only
      split_ifs
      · exact ⟨.none hfreshLoses hfresh, rfl⟩
      · exact ⟨.none (hfreshLoses.trans ((loses_forgetStartRequest _ job).trans (hremovedLoses _)))
          (hfresh.trans ((tracks_forgetStartRequest _ job).trans (hremoved _))), rfl⟩
      · exact ⟨.none (hfreshLoses.trans (hremovedLoses _)) (hfresh.trans (hremoved _)), rfl⟩
      · have hmarkedLoses :=
          hfreshLoses.trans
            (loses_modifyJob (refreshJobStatus env now jobId inner) jobId fun record ↦
              { record with visibility := .cleanupPending })
        have hmarked := hfresh.trans (tracks_modifyJob (refreshJobStatus env now jobId inner) jobId
          (fun record ↦ { record with visibility := .cleanupPending })
          fun _ _ ↦ ⟨rfl, rfl, rfl, id, Or.inl⟩)
        rw [requestCleanupStop]
        split_ifs
        · split
          · exact ⟨.none hmarkedLoses hmarked, rfl⟩
          · rename_i enqueued henqueued
            exact ⟨.modifyJob now hmarkedLoses hmarked henqueued jobId fun record ↦
              reports_stopRequested record "internal structured execution cleanup requested"
                (by decide), rfl⟩
        · exact ⟨.none hmarkedLoses hmarked, rfl⟩

end Stops

/-- A request that a caller waits for is pushed at the end of the queue of its runner. -/
theorem enqueueSync_pushes (check : RunnerRecord → Except String Unit)
    (pending : PendingShellRequest) (waiter : SyncWaiter) :
    Pushes quoted inner pending.request.requestId
      ((enqueueSync inner check pending waiter now).toOption.getD inner) := by
  cases hresult : enqueueSync inner check pending waiter now with
  | error => exact .none (.refl inner) (.refl inner)
  | ok after =>
    refine ⟨inner, .refl inner, .refl inner, Or.inr
      ⟨{ pending with waiter := waiter == .shell, jobId := none }, waiter, rfl, ?_⟩⟩
    simp only [enqueueSync] at hresult
    split at hresult
    · simp at hresult
    · rename_i runner _
      cases hcheck : check runner with
      | error => simp [hcheck, bind, Except.bind] at hresult
      | ok =>
        simp only [hcheck, bind, Except.bind] at hresult
        split at hresult
        · simp at hresult
        · rename_i enqueued henqueued
          rw [← hresult, enqueuePendingRequest_eq inner now henqueued]
          rfl

def startRequest (start : ShellJobStart) (jobId : String) : PendingShellRequest where
  request :=
    { requestId := start.requestId
      clientId := start.clientId
      operation := .job (.start jobId)
      cwd := start.cwd
      preview := start.commandPreview }
  waiter := false
  jobId := some jobId

/-- A start leaves the registry alone, or enqueues its request and inserts its record. -/
theorem startJob_enqueues (start : ShellJobStart) : (startJob env inner start now).responses = [] ∧
      ((startJob env inner start now).state = inner ∨
        ∃ runner jobId, (startJob env inner start now).state =
            { pushRequest inner (startRequest start jobId) with
              requestToJob := inner.requestToJob.insert start.requestId jobId }.addJob jobId
              (startedRecord inner runner start jobId)) := by
  simp only [startJob]
  split
  · exact ⟨rfl, Or.inl rfl⟩
  · exact ⟨rfl, Or.inl rfl⟩
  · rename_i jobId _ _
    split
    · exact ⟨rfl, Or.inl rfl⟩
    · rename_i runner _
      split
      · exact ⟨rfl, Or.inl rfl⟩
      · split
        · exact ⟨rfl, Or.inl rfl⟩
        · split
          · exact ⟨rfl, Or.inl rfl⟩
          · simp only [admitStart]
            split
            · exact ⟨rfl, Or.inl rfl⟩
            · rename_i enqueued henqueued
              refine ⟨rfl, Or.inr ⟨runner, jobId, ?_⟩⟩
              rw [enqueuePendingRequest_eq inner now henqueued]
              rfl

end Functions

/-! ### Steps -/

/-- The id that an operation draws for the request that it enqueues. -/
def Operation.drawnRequest : Operation → Option String
  | .start body _ => some body.requestId
  | .stop _ _ stopRequestId _ => some stopRequestId
  | .cancelHidden _ _ stopRequestId _ => some stopRequestId
  | .enqueue _ pending _ _ => some pending.request.requestId
  | _ => none

/-- Whether an operation gives up a job that is not queued. -/
def givesUp (env : Environment) (inner : RunnerRegistryInner) (operation : Operation)
    (jobId : String) (job : ShellJobRecord) : Bool :=
  match operation with
  | .register body now => registrationGivesUp env inner now body jobId job
  | .disconnect clientId instanceId connectionId transport _ =>
    disconnectionGivesUp inner clientId instanceId connectionId transport job
  | .readJob id now | .promote id now => jobId == id && isStale env inner now job
  | .stop _ id _ now | .cancelHidden _ id _ now =>
    (validateId id "job_id").isOk && (jobId == id && isStale env inner now job)
  | .readJobs now | .beginUnregister _ _ now => isStale env inner now job
  | .pruneRunners now => (expiredRunners env now inner).contains job.clientId
  | .sweep now => sweepGivesUp env inner now job
  | .update body _ _ => updateGivesUp env inner body jobId job
  | _ => false

/-- Whether an operation takes a job without a start back to the queued state. -/
def requeues (env : Environment) (inner : RunnerRegistryInner) (operation : Operation)
    (jobId : String) (job : ShellJobRecord) : Bool :=
  match operation with
  | .update body _ _ => updateRequeues env inner body jobId job
  | _ => false

/-- An operation that is about to deny a job that its runner has taken: it gives up a structured job
that has not been reported as started, or takes a job without a start back to the queued state. -/
def deniesTakenJob (env : Environment) (inner : RunnerRegistryInner) (operation : Operation) :
    Bool :=
  inner.jobsById.entries.any fun entry ↦
    (entry.2.isTakenUnstarted && givesUp env inner operation entry.1 entry.2) ||
      requeues env inner operation entry.1 entry.2

variable {operation : Operation}

theorem deniesTakenJob_eq_false {env : Environment} {inner : RunnerRegistryInner}
    (h : deniesTakenJob env inner operation = false) :
    Spares inner (givesUp env inner operation) ∧ ∀ jobId job,
      inner.jobsById.lookup jobId = some job →
        requeues env inner operation jobId job = false := by
  simp only [deniesTakenJob, List.any_eq_false, Bool.or_eq_true, not_or, Bool.and_eq_true,
    not_and] at h
  constructor
  · intro jobId job hjob hgives
    have hentry := (h ⟨jobId, job⟩ (Table.mem_entries.mpr hjob)).1
    cases htaken : job.isTakenUnstarted with
    | false => rfl
    | true => exact absurd hgives (hentry htaken)
  · intro jobId job hjob
    simpa using (h ⟨jobId, job⟩ (Table.mem_entries.mpr hjob)).2

def HoldsLease (inner : RunnerRegistryInner) (clientId instanceId : String)
    (connectionId : Option String) : Prop :=
  ∃ runner, inner.runners.lookup clientId = some runner ∧ runner.runnerInstanceId = instanceId ∧
    ∀ id, connectionId = some id → runner.connectionId = some id

inductive Flows (operation : Operation) (before : RunnerRegistryInner) (outcome : Outcome) : Prop
  | settled (hsettles : Settles before outcome.state outcome.responses)
      (htracks : Tracks (fun jobId ↦ operation.quotes jobId = true) before outcome.state)
      (hhanded : outcome.handed = none)
  | handed (clientId instanceId : String) (connectionId : Option String) (now : ℤ)
      (middle : RunnerRegistryInner) (requestId : String) (rest : List String)
      (pending : PendingShellRequest)
      (hoperation : operation = .poll clientId instanceId connectionId now)
      (hlease : HoldsLease before clientId instanceId connectionId)
      (hsettles : Settles before middle outcome.responses)
      (hjobs : middle.jobsById = before.jobsById)
      (hqueue : queueOf middle clientId = requestId :: rest)
      (hpending : middle.pendingById.lookup requestId = some pending)
      (hhanded : outcome.handed = some pending.request)
      (hstate : outcome.state = dispatchRequest (setQueue clientId rest middle) requestId
        pending now)
  | pushed (middle : RunnerRegistryInner) (pending : PendingShellRequest) (waiter : SyncWaiter)
      (hdrawn : operation.drawnRequest = some pending.request.requestId)
      (hloses : Loses before middle)
      (htracks : Tracks (fun jobId ↦ operation.quotes jobId = true) before middle)
      (hresponses : outcome.responses = []) (hhanded : outcome.handed = none)
      (hstate : outcome.state =
        installWaiter pending.request.requestId waiter (pushRequest middle pending))
  | started (start : ShellJobStart) (runner : RunnerRecord) (jobId : String) (now : ℤ)
      (hoperation : operation = .start start now) (hresponses : outcome.responses = [])
      (hhanded : outcome.handed = none)
      (hstate : outcome.state =
        { pushRequest before (startRequest start jobId) with
          requestToJob := before.requestToJob.insert start.requestId jobId }.addJob jobId
          (startedRecord before runner start jobId))

theorem Flows.of_pushes {outcome : Outcome} {drawn : String}
    (hdrawn : operation.drawnRequest = some drawn)
    (h : Pushes (fun jobId ↦ operation.quotes jobId = true) before drawn outcome.state)
    (hresponses : outcome.responses = []) (hhanded : outcome.handed = none) :
    Flows operation before outcome := by
  obtain ⟨middle, hloses, htracks, hstate | ⟨pending, waiter, rfl, hstate⟩⟩ := h
  · refine .settled ?_ (hstate ▸ htracks) hhanded
    rw [hresponses, hstate]
    exact .silent hloses
  · exact .pushed middle pending waiter hdrawn hloses htracks hresponses hhanded hstate

theorem Flows.silent {outcome : Outcome} (hloses : Loses before outcome.state)
    (htracks : Tracks (fun jobId ↦ operation.quotes jobId = true) before outcome.state)
    (hresponses : outcome.responses = []) (hhanded : outcome.handed = none) :
    Flows operation before outcome := by
  refine .settled ?_ htracks hhanded
  rw [hresponses]
  exact .silent hloses

section Steps

variable (env : Environment) (inner : RunnerRegistryInner)

theorem instanceFault_eq_none {clientId instanceId : String}
    (h : instanceFault inner clientId instanceId = none) :
    ∃ runner, inner.runners.lookup clientId = some runner ∧
      runner.runnerInstanceId = instanceId := by
  rw [instanceFault] at h
  split at h
  · exact absurd h (Option.some_ne_none _)
  · rename_i runner hrunner
    split_ifs at h with hinstance
    exact ⟨runner, hrunner, by simpa using hinstance⟩

theorem connectionFault_eq_none {clientId : String} {connectionId : Option String}
    {runner : RunnerRecord} (hrunner : inner.runners.lookup clientId = some runner)
    (h : connectionFault inner clientId connectionId = none) :
    ∀ id, connectionId = some id → runner.connectionId = some id := by
  rintro id rfl
  simpa [connectionFault, hrunner] using h

/-- A poll hands out requests that are pending and queued, each at most once, and remembers them as
taken. -/
theorem poll_flows (clientId instanceId : String) (connectionId : Option String) (now : ℤ) :
    Flows (.poll clientId instanceId connectionId now) inner
      (step env inner (.poll clientId instanceId connectionId now)) := by
  have hrefused : ∀ message, pollChecked inner clientId instanceId connectionId now =
      .refuse inner message → Flows (.poll clientId instanceId connectionId now) inner
        (step env inner (.poll clientId instanceId connectionId now)) := by
    intro message h
    refine .silent ?_ ?_ ?_ ?_
    all_goals simp only [step, h]
    · exact .refl inner
    · exact .refl inner
    · rfl
    · rfl
  cases hclient : validateId clientId "client_id" with
  | error message =>
    refine hrefused message ?_
    simp [pollChecked, hclient]
  | ok =>
    cases hid : ProjectInventory.validateRunnerInstanceId instanceId with
    | error message =>
      refine hrefused message ?_
      simp [pollChecked, hclient, hid]
    | ok =>
      cases hinstance : instanceFault inner clientId instanceId with
      | some message =>
        refine hrefused message ?_
        simp [pollChecked, hclient, hid, hinstance]
      | none =>
        cases hconnection : connectionFault inner clientId connectionId with
        | some message =>
          refine hrefused message ?_
          simp [pollChecked, hclient, hid, hinstance, hconnection]
        | none =>
          obtain ⟨runner, hrunner, hholds⟩ := instanceFault_eq_none inner hinstance
          have hlease : HoldsLease inner clientId instanceId connectionId :=
            ⟨runner, hrunner, hholds, connectionFault_eq_none inner hrunner hconnection⟩
          have htouched : Loses inner (touchRunner clientId now inner) := .of_requests_eq rfl
          obtain ⟨middle, hsettles, hjobs, hend⟩ := pollQueue_cases clientId now
            (queueOf inner clientId) (touchRunner clientId now inner) rfl
          have hstep : step env inner (.poll clientId instanceId connectionId now) =
              { state := (pollQueue clientId now (queueOf inner clientId)
                  (touchRunner clientId now inner)).1
                responses := (pollQueue clientId now (queueOf inner clientId)
                  (touchRunner clientId now inner)).2.1
                handed := (pollQueue clientId now (queueOf inner clientId)
                  (touchRunner clientId now inner)).2.2 } := by
            simp [step, pollChecked, hclient, hid, hinstance, hconnection, CallResult.handed]
          rw [hstep]
          have hsettled := Settles.after_loses htouched hsettles
          have hjobsById : middle.jobsById = inner.jobsById := jobsById_of_jobs_eq hjobs
          rcases hend with ⟨hnone, hstate⟩ | ⟨requestId, rest, pending, hqueue, hpending,
            hsome, hstate⟩
          · refine .settled (hstate ▸ hsettled) ?_ hnone
            rw [hstate]
            exact .of_jobs_eq hsettled.loses hjobsById
          · exact .handed clientId instanceId connectionId now middle requestId rest pending rfl
              hlease hsettled hjobsById hqueue hpending hsome hstate

/-- Every step that denies no taken job is of one of the four kinds. -/
theorem step_flows (operation : Operation) (hbelong : QueuedJobsBelong inner)
    (hdenies : deniesTakenJob env inner operation = false) :
    Flows operation inner (step env inner operation) := by
  obtain ⟨hspared, hrequeues⟩ := deniesTakenJob_eq_false hdenies
  cases operation with
  | register body now =>
    exact .settled (settles_registerSession env inner now body)
      (tracks_registerSession env inner now body hbelong hspared fun _ h ↦ h) rfl
  | disconnect clientId instanceId connectionId transport now =>
    exact .settled (settles_reconcileDisconnectChecked inner now clientId instanceId connectionId
      transport) (tracks_reconcileDisconnectChecked inner now clientId instanceId connectionId
        transport hspared) rfl
  | keepAlive clientId instanceId connectionId now =>
    have hkept :
      (touchRunnerForConnection inner clientId instanceId connectionId now).state.requests =
        inner.requests ∧ (touchRunnerForConnection inner clientId instanceId connectionId
          now).state.jobsById = inner.jobsById ∧
        (touchRunnerForConnection inner clientId instanceId connectionId now).responses = [] := by
      rw [touchRunnerForConnection]
      split
      · exact ⟨rfl, rfl, rfl⟩
      · exact ⟨rfl, rfl, rfl⟩
    exact .silent (.of_requests_eq hkept.1) (.of_jobs_eq (.of_requests_eq hkept.1) hkept.2.1)
      hkept.2.2 rfl
  | runtimeMetadata clientId instanceId connectionId toolProviders providers now =>
    have hkept :
          (updateRuntimeMetadata inner clientId instanceId connectionId toolProviders providers
            now).state.requests = inner.requests ∧
        (updateRuntimeMetadata inner clientId instanceId connectionId toolProviders providers
          now).state.jobsById = inner.jobsById ∧
        (updateRuntimeMetadata inner clientId instanceId connectionId toolProviders providers
          now).responses = [] := by
      rw [updateRuntimeMetadata]
      split_ifs
      · exact ⟨rfl, rfl, rfl⟩
      · split
        · exact ⟨rfl, rfl, rfl⟩
        · exact ⟨rfl, rfl, rfl⟩
    exact .silent (.of_requests_eq hkept.1) (.of_jobs_eq (.of_requests_eq hkept.1) hkept.2.1)
      hkept.2.2 rfl
  | publishProjects clientId instanceId projects =>
    have hkept : (publishProjects inner clientId instanceId projects).state.requests =
        inner.requests ∧ (publishProjects inner clientId instanceId projects).state.jobsById =
          inner.jobsById ∧ (publishProjects inner clientId instanceId projects).responses = [] := by
      rw [publishProjects]
      split
      · exact ⟨rfl, rfl, rfl⟩
      · exact ⟨rfl, rfl, rfl⟩
    exact .silent (.of_requests_eq hkept.1) (.of_jobs_eq (.of_requests_eq hkept.1) hkept.2.1)
      hkept.2.2 rfl
  | beginUnregister access projectId now =>
    refine .silent (loses_beginProjectUnregister inner env access projectId now) ?_ rfl rfl
    refine (tracks_refreshAllJobs env inner now hspared).trans ?_
    show Tracks _ _ (beginProjectUnregister env inner access projectId now).state
    simp only [beginProjectUnregister]
    split_ifs
    · exact .of_jobs_eq (.of_requests_eq rfl) rfl
    · exact .refl _
  | endUnregister projectId =>
    have hkept : (endProjectUnregister projectId inner).requests = inner.requests ∧
        (endProjectUnregister projectId inner).jobsById = inner.jobsById := by
      rw [endProjectUnregister]
      split
      · exact ⟨rfl, rfl⟩
      · exact ⟨rfl, rfl⟩
    exact .silent (.of_requests_eq hkept.1) (.of_jobs_eq (.of_requests_eq hkept.1) hkept.2) rfl rfl
  | poll clientId instanceId connectionId now =>
    exact poll_flows env inner clientId instanceId connectionId now
  | complete payload connectionId now =>
    exact .settled (settles_completeChecked inner payload connectionId now)
      (tracks_completeChecked inner now payload connectionId fun h _ ↦ h) rfl
  | completeShell body connectionId now =>
    have hsettles := settles_completePersistentShellChecked inner body connectionId now
    exact .settled hsettles (.of_jobs_eq hsettles.loses (jobsById_of_jobs_eq
      (jobs_completePersistentShellChecked inner body connectionId now))) rfl
  | update body connectionId now =>
    refine .silent (loses_updateJobChecked inner env body connectionId now)
      (tracks_updateJobChecked env inner now body connectionId hspared hrequeues fun _ h ↦ h) ?_ rfl
    show (updateJobChecked env inner body connectionId now).responses = []
    simp only [updateJobChecked, applyUpdate, Reply.refuse]
    (repeat' split) <;> rfl
  | start body now =>
    obtain ⟨hresponses, hstate | ⟨runner, jobId, hstate⟩⟩ := startJob_enqueues env inner now body
    · have hkept : (step env inner (.start body now)).state = inner := hstate
      refine .silent ?_ ?_ hresponses rfl
      · rw [hkept]
        exact .refl inner
      · rw [hkept]
        exact .refl inner
    · exact .started body runner jobId now rfl hresponses rfl hstate
  | stop access jobId stopRequestId now =>
    obtain ⟨hpushes, hresponses⟩ := stopJob_pushes env inner now access jobId stopRequestId
      (fun hvalid ↦ hspared.imp fun _ _ h ↦ by simp [givesUp, hvalid, h])
    exact .of_pushes rfl hpushes hresponses rfl
  | promote jobId now =>
    refine .silent (loses_promoteHiddenJob inner env jobId now)
      (tracks_promoteHiddenJob env inner now jobId hspared) ?_ rfl
    show (promoteHiddenJob env inner jobId now).responses = []
    simp only [promoteHiddenJob, Reply.refuse]
    (repeat' split) <;> rfl
  | cancelHidden access jobId stopRequestId now =>
    obtain ⟨hpushes, hresponses⟩ := cancelHiddenJob_pushes env inner now access jobId stopRequestId
      (fun hvalid ↦ hspared.imp fun _ _ h ↦ by simp [givesUp, hvalid, h])
    exact .of_pushes rfl hpushes hresponses rfl
  | discardProjected jobId now =>
    exact .silent (loses_removeProjected inner jobId now) (tracks_removeProjected inner now jobId)
      rfl rfl
  | enqueue check pending waiter now =>
    exact .of_pushes rfl (enqueueSync_pushes inner now check pending waiter) rfl rfl
  | cancel requestId =>
    exact .silent (loses_cancelRequest inner requestId)
      (.of_jobs_eq (loses_cancelRequest inner requestId) rfl) rfl rfl
  | cancelAbandoned closed =>
    exact .silent (loses_cancelAbandonedSyncRequests inner closed)
      (.of_jobs_eq (loses_cancelAbandonedSyncRequests inner closed)
        (jobsById_of_jobs_eq (jobs_cancelAbandonedSyncRequests inner closed))) rfl rfl
  | readJob jobId now =>
    exact .silent (loses_refreshJobStatus inner env now jobId)
      (tracks_refreshJobStatus env inner now jobId hspared) rfl rfl
  | readJobs now =>
    exact .silent (loses_refreshAllJobs inner env now)
      (tracks_refreshAllJobs env inner now hspared) rfl rfl
  | pruneRunners now =>
    exact .settled (settles_pruneExpiredSharedKeyRunners env inner now)
      (tracks_prune env inner now hbelong hspared) rfl
  | sweep now =>
    exact .settled (settles_recoveryTimeoutSweep env inner now)
      (tracks_recoveryTimeoutSweep env inner now hbelong hspared) rfl

end Steps

end WebCodex.Registry
