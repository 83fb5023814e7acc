import WebCodex.Registry.JobChanges

/-!
Each operation of the registry evolves the job table by the listed changes of records, by removals
and by new records. A result may end a job that has ended already only where `late` allows it, and
the records that a start or a registration makes have to satisfy `fresh`.
-/

namespace WebCodex.Registry

open Foundation

variable {late : Prop} {promoted : String → Prop} {jobId : String}

/-! ### Records -/

section Records

variable {fresh : String → ShellJobRecord → Prop}
  {carries : String → ShellJobRecord → ShellJobRecord → Prop} (rules : JobRules fresh carries)
  (jobId : String) (now : ℤ) (job : ShellJobRecord)

include rules

theorem carries_refreshed (env : Environment) (inner : RunnerRegistryInner) :
    carries jobId job (refreshed env inner now job) := by
  rw [refreshed]
  split_ifs
  · exact rules.refl jobId job
  · exact rules.lost jobId job now _ _
  · exact rules.refl jobId job
  · exact rules.refl jobId job
  · exact rules.recovering jobId job now _
  · exact rules.lost jobId job now _ _

theorem carries_expiredJob : carries jobId job (expiredJob now job) := by
  rw [expiredJob]
  split_ifs
  · exact rules.lost jobId job now _ _
  · exact rules.refl jobId job

theorem carries_disconnectedJob (recoverable : Bool) :
    carries jobId job (disconnectedJob recoverable now job) := by
  rw [disconnectedJob]
  split_ifs
  · exact rules.recovering jobId job now _
  · exact rules.lost jobId job now _ _
  · exact rules.lost jobId job now _ _

end Records

variable {inner : RunnerRegistryInner} {job : ShellJobRecord}

/-- A refresh leaves a job queued only when it leaves it alone. -/
theorem eq_of_refreshed_queued {env : Environment} {now : ℤ}
    (h : (refreshed env inner now job).lifecycle = .queued) :
    refreshed env inner now job = job := by
  by_cases hout : (job.lifecycle.isTerminal || !job.lifecycle.isRunnerActive) = true
  · rw [refreshed, if_pos hout]
  · -- a job that its runner owns stays with the runner or is lost
    have hopen : job.lifecycle.isTerminal = false ∧ job.lifecycle.isRunnerActive = true := by
      simpa using hout
    have hactive : job.lifecycle ≠ .queued := by
      intro hqueued
      simp [hqueued, RunnerJobLifecycle.isRunnerActive] at hopen
    have hlost : ∀ reason message, (markJobLost now reason message job).lifecycle ≠ .queued := by
      intro reason message hqueued
      have hended := lifecycle_markJobLost now reason message job
      rw [hqueued] at hended
      exact absurd hended (by decide)
    rw [refreshed, if_neg hout] at h
    split_ifs at h
    · exact absurd h (hlost _ _)
    · exact absurd h hactive
    · exact absurd h hactive
    · exact absurd ((lifecycle_beginJobRecovery now _ job).symm.trans h) hactive
    · exact absurd h (hlost _ _)

/-- A record that an operation stores under the next address. -/
theorem handle_rebuiltJob (inner : RunnerRegistryInner) (clientId instanceId : String)
    (authGroup : Option RunnerAccessGroup) (snapshot : ShellJobSnapshot) (now : ℤ) :
    (rebuiltJob inner clientId instanceId authGroup snapshot now).handle = inner.nextHandle :=
  congrArg JobIdentity.handle (identity_observeJobTerminal now _)

/-- The operations whose results go to a gateway and never to a job. -/
def isGatewayOperation : RunnerOperation → Bool
  | .mcpGateway _ | .pluginGateway _ | .codingAgent => true
  | _ => false

/-- The job behind the request of a result that the registry accepts. -/
def resolvedJobId (inner : RunnerRegistryInner) (payload : RunnerResultPayload) : Option String :=
  match checkNames [(payload.clientId, "client_id"), (payload.requestId, "request_id")]
      payload.runnerInstanceId, instanceFault inner payload.clientId payload.runnerInstanceId with
  | .ok _, none =>
    (inner.pendingById.lookup payload.requestId).bind fun pending ↦
      if (payloadFault pending payload).isSome || isGatewayOperation pending.request.operation then
        none
      else pending.jobId
  | _, _ => none

theorem admitStart_cases (inner : RunnerRegistryInner) (runner : RunnerRecord)
    (start : ShellJobStart) (jobId : String) (now : ℤ) :
    (admitStart inner runner start jobId now).state.jobs = inner.jobs ∨
      (admitStart inner runner start jobId now).state.jobs =
        ⟨inner.jobsById.insert jobId (startedRecord inner runner start jobId),
          inner.nextHandle + 1⟩ := by
  simp only [admitStart]
  split
  · exact Or.inl rfl
  · rename_i enqueued henqueued
    have hjobs := jobs_enqueuePendingRequest inner henqueued
    right
    rw [RunnerRegistryInner.jobs, RunnerRegistryInner.addJob, Store.mk.injEq]
    constructor
    · show enqueued.jobsById.insert jobId _ = _
      rw [jobsById_of_jobs_eq hjobs]
    · exact congrArg (fun store ↦ store.next + 1) hjobs

/-- A start leaves the jobs alone or makes one new record. -/
theorem startJob_cases (env : Environment) (inner : RunnerRegistryInner) (start : ShellJobStart)
    (now : ℤ) :
    (startJob env inner start now).state.jobs = inner.jobs ∨
      ∃ runner jobId, startJobId env.checks start = .ok jobId ∧
        (startJob env inner start now).state.jobs =
          ⟨inner.jobsById.insert jobId (startedRecord inner runner start jobId),
            inner.nextHandle + 1⟩ := by
  simp only [startJob]
  split
  · exact Or.inl rfl
  · exact Or.inl rfl
  · rename_i hid
    split
    · exact Or.inl rfl
    · split
      · exact Or.inl rfl
      · split
        · exact Or.inl rfl
        · split
          · exact Or.inl rfl
          · exact (admitStart_cases inner _ start _ now).imp_right fun hjobs ↦ ⟨_, _, hid, hjobs⟩

def startedJobId (env : Environment) (inner : RunnerRegistryInner) (start : ShellJobStart)
    (now : ℤ) : Option String :=
  if (startJob env inner start now).state.nextHandle = inner.nextHandle then none
  else (startJobId env.checks start).toOption

/-! ### The changes that an operation asks for -/

/-- The state that an update reports about a job, when it is neither refused nor ignored. -/
def acceptedLifecycle (inner : RunnerRegistryInner) (body : RunnerJobUpdateRequest)
    (job : ShellJobRecord) : Option RunnerJobLifecycle :=
  let sequenced := isSequenced inner body.clientId
  match validateUpdate body, instanceFault inner body.clientId body.runnerInstanceId,
      incomingLifecycle sequenced body with
  | .ok _, none, .ok lifecycle =>
    if (jobUpdateFault job sequenced body).isNone && !isIgnored job sequenced body &&
        !regressesCursor job body then
      some lifecycle
    else none
  | _, _, _ => none

/-- An update is accepted only for a job that has not ended. -/
theorem open_of_acceptedLifecycle {body : RunnerJobUpdateRequest} {lifecycle : RunnerJobLifecycle}
    (h : acceptedLifecycle inner body job = some lifecycle) : job.lifecycle.isTerminal = false := by
  simp only [acceptedLifecycle] at h
  split at h
  · split_ifs at h with haccepted
    have hnew : isIgnored job (isSequenced inner body.clientId) body = false := by
      simp only [Bool.and_eq_true, Bool.not_eq_true'] at haccepted
      exact haccepted.1.2
    exact (Bool.or_eq_false_iff.mp hnew).2
  · simp at h

/-- The versions of a job that an accepted update can lead to. -/
structure CarriesUpdate (carries : String → ShellJobRecord → ShellJobRecord → Prop)
    (checks : Checks) (now : ℤ) (update : RunnerJobUpdateRequest) (job : ShellJobRecord)
    (lifecycle : RunnerJobLifecycle) : Prop where
  violated : ∀ code, protocolFault checks job update lifecycle = some code →
    carries update.jobId job (acceptedJob update job (violatedJob update code now job))
  applied : protocolFault checks job update lifecycle = none → ∀ stdout stderr,
    updatedStreams job update = .returned stdout stderr → carries update.jobId job
      (acceptedJob update job (appliedJob update lifecycle stdout stderr now job))

def stopsQueued (inner : RunnerRegistryInner) (access : Option RunnerAccess) (jobId : String)
    (now : ℤ) : Option ShellJobRecord :=
  if (validateId jobId "job_id").isOk then
    (inner.jobsById.lookup jobId).filter fun job ↦
      job.lifecycle == .queued && job.visibility == .isPublic && jobVisibleToAccess access now job
  else none

theorem queued_of_stopsQueued {access : Option RunnerAccess} {jobId : String} {now : ℤ}
    (h : stopsQueued inner access jobId now = some job) :
    inner.jobsById.lookup jobId = some job ∧ job.lifecycle = .queued := by
  rw [stopsQueued] at h
  split_ifs at h
  rw [Option.filter_eq_some_iff] at h
  simp only [Bool.and_eq_true, beq_iff_eq] at h
  exact ⟨h.1, h.2.1.1⟩

/-- The record and the versions that a snapshot of an inventory can lead to. -/
structure CarriesSnapshot (fresh : String → ShellJobRecord → Prop)
    (carries : String → ShellJobRecord → ShellJobRecord → Prop) (clientId instanceId : String)
    (authGroup : Option RunnerAccessGroup) (now : ℤ) (snapshot : ShellJobSnapshot) : Prop where
  rebuilt : ∀ state, fresh snapshot.jobId
    (rebuiltJob state clientId instanceId authGroup snapshot now)
  reconciled : ∀ job : ShellJobRecord, job.lifecycle.isTerminal = false →
    carries snapshot.jobId job (reconciledJob instanceId snapshot now job)

section Operations

variable {fresh : String → ShellJobRecord → Prop}
  {carries : String → ShellJobRecord → ShellJobRecord → Prop} (rules : JobRules fresh carries)
  (env : Environment) (now : ℤ)

include rules

theorem changes_of_jobs_eq {before after : RunnerRegistryInner} (h : after.jobs = before.jobs) :
    Changes fresh carries before after :=
  Store.Evolves.of_eq rules.toVersions h

theorem changes_modifyJob (inner : RunnerRegistryInner) (jobId : String)
    (change : ShellJobRecord → ShellJobRecord)
    (hchange : ∀ job, inner.jobsById.lookup jobId = some job → carries jobId job (change job)) :
    Changes fresh carries inner (inner.modifyJob jobId change) :=
  Store.Evolves.modify rules.toVersions inner.jobs jobId change hchange

theorem changes_setJob (inner : RunnerRegistryInner) (jobId : String) {old : ShellJobRecord}
    (hold : inner.jobsById.lookup jobId = some old) (hjob : carries jobId old job) :
    Changes fresh carries inner (inner.setJob jobId job) :=
  Store.Evolves.replace rules.toVersions inner.jobs jobId hold hjob

theorem changes_addJob (inner : RunnerRegistryInner) (jobId : String) (job : ShellJobRecord)
    (hhandle : job.handle = inner.nextHandle) (hfresh : fresh jobId job) :
    Changes fresh carries inner (inner.addJob jobId job) :=
  Store.Evolves.insert rules.toVersions inner.jobs jobId job hhandle hfresh

theorem changes_foldl {S A : Type} (view : S → RunnerRegistryInner) (f : S → A → S) (items : List A)
    (hf : ∀ state item, Changes fresh carries (view state) (view (f state item)))
    (state : S) : Changes fresh carries (view state) (view (items.foldl f state)) :=
  Store.Evolves.foldl rules.toVersions (fun state ↦ (view state).jobs) f items
    (fun state item _ ↦ hf state item) state

variable (inner : RunnerRegistryInner)

theorem changes_removeCleanupTerminalJobs :
    Changes fresh carries inner (removeCleanupTerminalJobs inner) :=
  Store.Evolves.keep rules.toVersions inner.jobs
    fun _ job ↦ !(job.visibility == .cleanupPending && job.lifecycle.isTerminal)

theorem changes_removeJob (jobId : String) : Changes fresh carries inner (removeJob jobId inner) :=
  Store.Evolves.erase rules.toVersions inner.jobs jobId

/-! ### Reads and sweeps -/

theorem changes_refreshJobStatus (jobId : String) :
    Changes fresh carries inner (refreshJobStatus env now jobId inner) :=
  changes_modifyJob rules inner jobId _ fun job _ ↦
    carries_refreshed rules jobId now job env inner

theorem changes_refreshAllJobs : Changes fresh carries inner (refreshAllJobs env now inner) :=
  changes_foldl rules id _ _ (fun state item ↦ changes_refreshJobStatus rules env now state item)
    inner

variable (clientId : String)

theorem changes_loseJobs (reason : JobRecoveryReason) (message : String)
    (jobs : List (String × ShellJobRecord)) (inner : RunnerRegistryInner) :
    Changes fresh carries inner (loseJobs clientId now reason message jobs inner) := by
  refine .trans rules.toVersions ?_ (changes_of_jobs_eq rules (jobs_removeJobControlRequests _ _ _))
  refine changes_foldl rules id _ jobs (fun state entry ↦ ?_) inner
  refine .trans rules.toVersions ?_ (changes_of_jobs_eq rules (jobs_removeJobRequestMapping _ _ _))
  exact changes_modifyJob rules state entry.1 _ fun job _ ↦
    rules.lost entry.1 job now reason message

theorem changes_expireRecoveringJobs (clientFilter : Option String) (passCap : ℕ)
    (inner : RunnerRegistryInner) :
    Changes fresh carries inner (expireRecoveringJobs env clientFilter now passCap inner) := by
  simp only [expireRecoveringJobs]
  split
  · exact .refl rules.toVersions _
  · refine .trans rules.toVersions ?_ (changes_removeCleanupTerminalJobs rules _)
    refine .trans rules.toVersions ?_ (changes_of_jobs_eq rules (jobs_forgetRequestsOf _ _))
    refine changes_foldl rules id _ _ (fun state item ↦ ?_) inner
    exact changes_modifyJob rules state item.1 _ fun job _ ↦
      carries_expiredJob rules item.1 now job

theorem changes_removeExpiredJobs (expired : List (String × String)) (inner : RunnerRegistryInner) :
    Changes fresh carries inner (removeExpiredJobs expired inner) := by
  have huncontrolled := changes_foldl rules id
    (fun current clientId ↦ removeJobControlRequests clientId (expired.map (·.1)) current)
    (expired.map (·.2)).dedup
    (fun _ _ ↦ changes_of_jobs_eq rules (jobs_removeJobControlRequests _ _ _)) inner
  refine .trans rules.toVersions huncontrolled ?_
  exact Store.Evolves.keep rules.toVersions _ fun jobId _ ↦ !(expired.map (·.1)).contains jobId

theorem changes_pruneExpiredTerminalJobs :
    Changes fresh carries inner (pruneExpiredTerminalJobs now inner) := by
  have hswept : ∀ actions : List TerminalSweepAction,
      Changes fresh carries inner (actions.foldl (applySweepAction now) inner) := by
    intro actions
    refine changes_foldl rules id _ _ (fun state action ↦ ?_) inner
    cases action with
    | observe jobId =>
      exact changes_modifyJob rules state jobId _ fun job _ ↦ rules.observed jobId job now
    | remove =>
      exact changes_of_jobs_eq rules (jobs_removeJobRequestMapping _ _ _)
  simp only [pruneExpiredTerminalJobs]
  split
  · exact hswept _
  · exact .trans rules.toVersions (hswept _) (changes_removeExpiredJobs rules _ _)

theorem changes_loseRunnerJobs (jobIds : List String) (inner : RunnerRegistryInner) :
    Changes fresh carries inner (loseRunnerJobs now jobIds inner) := by
  refine changes_foldl rules id _ _ (fun state item ↦ ?_) _
  exact changes_modifyJob rules state item _ fun job _ ↦ rules.lost item job now _ _

theorem changes_pruneExpiredSharedKeyRunners :
    Changes fresh carries inner (pruneExpiredSharedKeyRunners env now inner).1 := by
  simp only [pruneExpiredSharedKeyRunners]
  split
  · exact .refl rules.toVersions _
  · refine .trans rules.toVersions ?_ (changes_of_jobs_eq rules (jobs_forgetRunners _ _ _ _))
    refine .trans rules.toVersions ?_ (changes_loseRunnerJobs rules now _ _)
    exact changes_of_jobs_eq rules (jobs_resolveDisconnectedRunners _ _ _)

theorem changes_recoveryTimeoutSweep :
    Changes fresh carries inner (recoveryTimeoutSweep env now inner).1 := by
  refine .trans rules.toVersions ?_ (changes_pruneExpiredTerminalJobs rules now _)
  refine .trans rules.toVersions ?_ (changes_expireRecoveringJobs rules env now none _ _)
  refine .trans rules.toVersions ?_ (changes_of_jobs_eq rules (jobs_pruneAllSuppressions _ now))
  exact changes_pruneExpiredSharedKeyRunners rules env now inner

/-! ### Polls, results and updates -/

theorem changes_dispatchRequest (requestId : String) (pending : PendingShellRequest) :
    Changes fresh carries inner (dispatchRequest inner requestId pending now) := by
  have hmarked : Changes fresh carries inner (markDispatched requestId pending inner) :=
    changes_of_jobs_eq rules (jobs_markDispatched inner requestId pending)
  simp only [dispatchRequest]
  split
  · exact changes_of_jobs_eq rules (jobs_dropPending inner requestId)
  · split
    · exact hmarked
    · refine .trans rules.toVersions hmarked ?_
      exact changes_modifyJob rules _ _ _ fun job _ ↦ rules.dispatched _ job now

theorem changes_pollQueue (queue : List String) (inner : RunnerRegistryInner) :
    Changes fresh carries inner (pollQueue clientId now queue inner).1 := by
  induction queue generalizing inner with
  | nil => exact .refl rules.toVersions _
  | cons requestId rest ih =>
    have hpopped : Changes fresh carries inner (setQueue clientId rest inner) :=
      changes_of_jobs_eq rules (jobs_setQueue inner clientId rest)
    simp only [pollQueue]
    split
    · exact .trans rules.toVersions hpopped (ih _)
    · split
      · refine .trans rules.toVersions (.trans rules.toVersions hpopped ?_) (ih _)
        exact changes_of_jobs_eq rules (jobs_dropStale _ requestId _)
      · exact .trans rules.toVersions hpopped (changes_dispatchRequest rules now _ requestId _)

theorem changes_pollChecked (clientId instanceId : String) (connectionId : Option String) :
    Changes fresh carries inner (pollChecked inner clientId instanceId connectionId now).state := by
  simp only [pollChecked]
  split
  · exact .refl rules.toVersions _
  · exact .refl rules.toVersions _
  · split
    · exact .refl rules.toVersions _
    · split
      · exact .refl rules.toVersions _
      · refine .trans rules.toVersions
          (changes_of_jobs_eq rules (jobs_touchRunner inner clientId now)) ?_
        exact changes_pollQueue rules now clientId _ _

theorem changes_resolveRequest (pending : PendingShellRequest) (payload : RunnerResultPayload)
    (hjob : isGatewayOperation pending.request.operation = false → ∀ jobId job,
      pending.jobId = some jobId → inner.jobsById.lookup jobId = some job →
      carries jobId job (completedJob payload now job)) :
    Changes fresh carries inner (resolveRequest inner pending payload now).1 := by
  have htaken : Changes fresh carries inner (dropPending payload.requestId inner) :=
    changes_of_jobs_eq rules (jobs_dropPending inner payload.requestId)
  cases hoperation : pending.request.operation with
  | mcpGateway | pluginGateway | codingAgent =>
    simp only [resolveRequest, hoperation]
    exact htaken
  | _ =>
    simp only [resolveRequest, hoperation]
    cases hpending : pending.jobId with
    | none => exact htaken
    | some jobId =>
      refine .trans rules.toVersions htaken (changes_modifyJob rules _ jobId _ fun job hfound ↦ ?_)
      refine hjob ?_ jobId job hpending hfound
      rw [hoperation]
      rfl

/-- A result changes the job of its request and no other one. -/
theorem changes_completeChecked (payload : RunnerResultPayload) (connectionId : Option String)
    (hjob : ∀ jobId job, resolvedJobId inner payload = some jobId →
      inner.jobsById.lookup jobId = some job → carries jobId job (completedJob payload now job)) :
    Changes fresh carries inner (completeChecked inner payload connectionId now).state := by
  have htouched : Changes fresh carries inner
      (touchIfCurrent payload.clientId connectionId now inner) :=
    changes_of_jobs_eq rules (jobs_touchIfCurrent inner payload.clientId connectionId now)
  simp only [completeChecked]
  split
  · exact .refl rules.toVersions _
  · rename_i hnames
    split
    · exact .refl rules.toVersions _
    · rename_i hinstance
      split
      · exact htouched
      · rename_i pending hpending
        split
        · exact htouched
        · rename_i hpayload
          refine .trans rules.toVersions htouched (changes_resolveRequest rules now _ _ payload ?_)
          intro hgateway jobId job hpendingJob hfound
          rw [pendingById_touchIfCurrent] at hpending
          rw [jobsById_touchIfCurrent] at hfound
          refine hjob jobId job ?_ hfound
          simp [resolvedJobId, hnames, hinstance, hpending, hpayload, hgateway, hpendingJob]

theorem changes_settleUpdatedJob (before after : ShellJobRecord) (jobId : String)
    (inner : RunnerRegistryInner) :
    Changes fresh carries inner (settleUpdatedJob before after jobId inner) := by
  have hunrequested : ∀ requestId, Changes fresh carries inner
      { dropPending requestId inner with requestToJob := inner.requestToJob.erase requestId } :=
    fun requestId ↦ changes_of_jobs_eq rules (jobs_dropPending inner requestId)
  simp only [settleUpdatedJob]
  split
  · split
    · split
      · exact Store.Evolves.erase rules.toVersions inner.jobs jobId
      · exact .trans rules.toVersions (hunrequested _)
          (Store.Evolves.erase rules.toVersions _ jobId)
    · split
      · exact .refl rules.toVersions _
      · exact hunrequested _
  · exact .refl rules.toVersions _

theorem changes_applyUpdate (job : ShellJobRecord)
    (update : RunnerJobUpdateRequest) (lifecycle : RunnerJobLifecycle)
    (hfound : inner.jobsById.lookup update.jobId = some job)
    (hcarries : CarriesUpdate carries env.checks now update job lifecycle) :
    Changes fresh carries inner (applyUpdate env.checks inner job update lifecycle now).state := by
  simp only [applyUpdate]
  split
  · rename_i code hfault
    refine .trans rules.toVersions ?_ (changes_settleUpdatedJob rules _ _ _ _)
    exact changes_setJob rules inner _ hfound (hcarries.violated code hfault)
  · rename_i hkept
    split
    · exact changes_setJob rules inner _ hfound (rules.interrupted _ job _ _)
    · rename_i hstreams
      refine .trans rules.toVersions ?_ (changes_settleUpdatedJob rules _ _ _ _)
      exact changes_setJob rules inner _ hfound (hcarries.applied hkept _ _ hstreams)

/-- An update changes the job that it names, in the way that `carries` has to allow, and no other
one. -/
theorem changes_updateJobChecked (update : RunnerJobUpdateRequest) (connectionId : Option String)
    (hcarries : ∀ job lifecycle, inner.jobsById.lookup update.jobId = some job →
      acceptedLifecycle inner update job = some lifecycle →
      CarriesUpdate carries env.checks now update job lifecycle) :
    Changes fresh carries inner (updateJobChecked env inner update connectionId now).state := by
  have htouched : Changes fresh carries inner
      (touchIfCurrent update.clientId connectionId now inner) :=
    changes_of_jobs_eq rules (jobs_touchIfCurrent inner update.clientId connectionId now)
  simp only [updateJobChecked]
  split
  · exact .refl rules.toVersions _
  · rename_i hvalid
    split
    · exact .refl rules.toVersions _
    · rename_i hinstance
      split
      · exact .refl rules.toVersions _
      · rename_i lifecycle hlifecycle
        split
        · exact htouched
        · rename_i job hfound
          split
          · exact htouched
          · rename_i hfault
            split
            · exact htouched
            · rename_i hignored
              split
              · exact htouched
              · rename_i hregresses
                refine .trans rules.toVersions htouched
                  (changes_applyUpdate rules env now _ job update _ hfound ?_)
                rw [jobsById_touchIfCurrent] at hfound
                refine hcarries job lifecycle hfound ?_
                simp [acceptedLifecycle, hvalid, hinstance, hlifecycle, hfault, hignored,
                  hregresses]

/-! ### Starts, stops and hidden jobs -/

theorem changes_startJob (start : ShellJobStart)
    (hstart : ∀ runner jobId, startedJobId env inner start now = some jobId →
      fresh jobId (startedRecord inner runner start jobId)) :
    Changes fresh carries inner (startJob env inner start now).state := by
  rcases startJob_cases env inner start now with hsame | ⟨runner, jobId, hid, hjobs⟩
  · exact changes_of_jobs_eq rules hsame
  · have hadmitted : startedJobId env inner start now = some jobId := by
      have hnext : (startJob env inner start now).state.nextHandle = inner.nextHandle + 1 :=
        congrArg Store.next hjobs
      simp [startedJobId, hnext, hid, Except.toOption]
    rw [Changes, hjobs]
    exact Store.Evolves.insert rules.toVersions inner.jobs jobId _ rfl
      (hstart runner jobId hadmitted)

/-- A stop request is enqueued and a change is made to its job, which has not ended. -/
theorem changes_enqueueStop {enqueued : RunnerRegistryInner} {pending : PendingShellRequest}
    {jobId : String} {change : ShellJobRecord → ShellJobRecord}
    (henqueued : enqueuePendingRequest inner pending now = .ok enqueued)
    (hfound : inner.jobsById.lookup jobId = some job) (hchange : carries jobId job (change job)) :
    Changes fresh carries inner (enqueued.modifyJob jobId change) := by
  have hjobs := jobs_enqueuePendingRequest inner henqueued
  refine .trans rules.toVersions (changes_of_jobs_eq rules hjobs) ?_
  refine changes_modifyJob rules _ jobId _ fun _ hrecord ↦ ?_
  rw [jobsById_of_jobs_eq hjobs, hfound, Option.some.injEq] at hrecord
  exact hrecord ▸ hchange

/-- Stopping a job changes that job only, and only while it is queued; else a request is
enqueued. -/
theorem changes_stopJob (access : Option RunnerAccess) (jobId stopRequestId : String)
    (hstopped : ∀ job, stopsQueued inner access jobId now = some job →
      carries jobId job (stoppedQueuedJob now job)) :
    Changes fresh carries inner (stopJob env inner access jobId stopRequestId now).state := by
  have hfresh := changes_refreshJobStatus rules env now inner jobId
  simp only [stopJob]
  split
  · exact .refl rules.toVersions _
  · rename_i hvalid
    split
    · exact hfresh
    · rename_i job hfound
      split
      · exact hfresh
      · rename_i hvisible
        split
        · exact hfresh
        · split
          · rename_i hqueued
            have hforgotten := jobs_forgetStartRequest (refreshJobStatus env now jobId inner) job
            refine .trans rules.toVersions hfresh
              (.trans rules.toVersions (changes_of_jobs_eq rules hforgotten) ?_)
            refine changes_modifyJob rules _ jobId _ fun _ hrecord ↦ ?_
            rw [jobsById_of_jobs_eq hforgotten, hfound, Option.some.injEq] at hrecord
            rw [refreshJobStatus, RunnerRegistryInner.modifyJob, Table.lookup_modify_self,
              Option.map_eq_some_iff] at hfound
            obtain ⟨old, hold, rfl⟩ := hfound
            -- the refresh left the queued job alone
            have hsame := eq_of_refreshed_queued hqueued
            rw [hsame] at hrecord hqueued hvisible
            refine hrecord ▸ hstopped old ?_
            have hshown : old.visibility = .isPublic ∧
                jobVisibleToAccess access now old = true := by
              simpa using hvisible
            simp [stopsQueued, hvalid, Except.isOk, Except.toBool, hold, hqueued, hshown]
          · rename_i hlifecycle
            split
            · exact hfresh
            · rename_i enqueued henqueued
              refine .trans rules.toVersions hfresh
                (changes_enqueueStop rules now _ henqueued hfound ?_)
              exact rules.stopRequested jobId job (by rw [hlifecycle]; rfl)
          · rename_i hlifecycle
            split
            · exact hfresh
            · rename_i enqueued henqueued
              refine .trans rules.toVersions hfresh
                (changes_enqueueStop rules now _ henqueued hfound ?_)
              exact rules.stopRequested jobId job (by rw [hlifecycle]; rfl)
          · exact hfresh

theorem changes_promoteHiddenJob (jobId : String)
    (hpromoted : ∀ job : ShellJobRecord, carries jobId job { job with visibility := .isPublic }) :
    Changes fresh carries inner (promoteHiddenJob env inner jobId now).state := by
  have hfresh := changes_refreshJobStatus rules env now inner jobId
  simp only [promoteHiddenJob]
  split
  · exact hfresh
  · split
    · exact hfresh
    · split
      · exact hfresh
      · refine .trans rules.toVersions hfresh (changes_modifyJob rules _ jobId _ fun job _ ↦ ?_)
        exact hpromoted job

theorem changes_requestCleanupStop (marked : RunnerRegistryInner) (job : ShellJobRecord)
    (jobId stopRequestId : String)
    (hmarked : marked.jobsById.lookup jobId = some { job with visibility := .cleanupPending }) :
    Changes fresh carries marked (requestCleanupStop marked job jobId stopRequestId now).state := by
  simp only [requestCleanupStop]
  split
  · rename_i hactive
    split
    · exact .refl rules.toVersions _
    · rename_i enqueued henqueued
      refine changes_enqueueStop rules now _ henqueued hmarked (rules.cleanupRequested _ _ ?_)
      simp only [Bool.and_eq_true] at hactive
      exact RunnerJobLifecycle.not_isTerminal_of_isRunnerActive hactive.1.2
  · exact .refl rules.toVersions _

theorem changes_cancelHiddenJob (access : Option RunnerAccess) (jobId stopRequestId : String) :
    Changes fresh carries inner
      (cancelHiddenJob env inner access jobId stopRequestId now).state := by
  have hfresh := changes_refreshJobStatus rules env now inner jobId
  simp only [cancelHiddenJob]
  split
  · exact .refl rules.toVersions _
  · split
    · exact hfresh
    · rename_i job hfound
      split
      · exact hfresh
      · split
        · refine .trans rules.toVersions hfresh
            (.trans rules.toVersions ?_ (changes_removeJob rules _ jobId))
          exact changes_of_jobs_eq rules (jobs_forgetStartRequest _ job)
        · split
          · exact .trans rules.toVersions hfresh (changes_removeJob rules _ jobId)
          · refine .trans rules.toVersions hfresh (.trans rules.toVersions ?_
              (changes_requestCleanupStop rules now _ job jobId stopRequestId ?_))
            · exact changes_modifyJob rules _ jobId _ fun record _ ↦ rules.cleanup jobId record
            · rw [RunnerRegistryInner.modifyJob, Table.lookup_modify_self, hfound]
              rfl

theorem changes_removeProjected (jobId : String) :
    Changes fresh carries inner (removeProjectedHiddenTerminalJobRecord inner jobId now).1 := by
  simp only [removeProjectedHiddenTerminalJobRecord]
  split
  · exact .refl rules.toVersions _
  · split
    · exact .refl rules.toVersions _
    · split
      · exact .refl rules.toVersions _
      · exact Store.Evolves.erase rules.toVersions inner.jobs jobId

/-! ### Registrations and disconnections -/

theorem changes_settleSnapshot (snapshot : ShellJobSnapshot) (inner : RunnerRegistryInner) :
    Changes fresh carries inner (settleSnapshot clientId snapshot inner) := by
  rw [settleSnapshot]
  split_ifs
  · exact changes_of_jobs_eq rules (jobs_removeJobRequestMapping _ _ _)
  · exact .refl rules.toVersions _

/-- A snapshot rebuilds a job that is not known, or reconciles the one that is. -/
theorem changes_reconcileSnapshot (instanceId : String) (authGroup : Option RunnerAccessGroup)
    (inner : RunnerRegistryInner) (snapshot : ShellJobSnapshot)
    (hrebuilt : fresh snapshot.jobId (rebuiltJob inner clientId instanceId authGroup snapshot now))
    (hreconciled : ∀ job : ShellJobRecord, job.lifecycle.isTerminal = false →
      carries snapshot.jobId job (reconciledJob instanceId snapshot now job)) :
    Changes fresh carries inner
      (reconcileSnapshot clientId instanceId authGroup now inner snapshot) := by
  simp only [reconcileSnapshot]
  split
  · rename_i existing hfound
    split
    · exact .refl rules.toVersions _
    · rename_i hleft
      refine .trans rules.toVersions (changes_modifyJob rules _ _ _ fun job hjob ↦ ?_)
        (changes_settleSnapshot rules _ _ _)
      rw [hfound, Option.some.injEq] at hjob
      subst hjob
      refine hreconciled existing ?_
      simp only [leavesJob, Bool.or_eq_true, not_or] at hleft
      exact Bool.eq_false_iff.mpr hleft.1.1
  · split
    · exact .refl rules.toVersions _
    · refine .trans rules.toVersions ?_ (changes_settleSnapshot rules _ _ _)
      exact changes_addJob rules inner _ _ (handle_rebuiltJob inner _ _ _ _ now) hrebuilt

theorem changes_reconcileInventory (clientId instanceId : String)
    (authGroup : Option RunnerAccessGroup) (inventory : ShellJobInventory)
    (hsnapshots : ∀ snapshot ∈ inventory.jobs,
      CarriesSnapshot fresh carries clientId instanceId authGroup now snapshot) :
    Changes fresh carries inner
      (reconcileInventory env inner clientId instanceId authGroup inventory now) := by
  refine .trans rules.toVersions ?_ (changes_removeCleanupTerminalJobs rules _)
  refine .trans rules.toVersions ?_ (Store.Evolves.foldl rules.toVersions
    RunnerRegistryInner.jobs _ _ (fun state snapshot hmem ↦ ?_) _)
  swap
  · exact changes_reconcileSnapshot rules now clientId instanceId authGroup state snapshot
      ((hsnapshots snapshot hmem).rebuilt state) (hsnapshots snapshot hmem).reconciled
  refine .trans rules.toVersions ?_ (changes_loseJobs rules now _ _ _ _ _)
  refine .trans rules.toVersions ?_ (changes_expireRecoveringJobs rules env now _ _ _)
  exact changes_of_jobs_eq rules (jobs_pruneAllSuppressions inner now)

theorem changes_terminateInstanceJobs (instanceId : String)
    (replacement : Option ShellJobInventory) (inner : RunnerRegistryInner) :
    Changes fresh carries inner
      (terminateInstanceJobs clientId instanceId replacement now inner) := by
  refine .trans rules.toVersions ?_ (changes_removeCleanupTerminalJobs rules _)
  exact changes_loseJobs rules now _ _ _ _ _

theorem changes_replaceInstance (body : RunnerRegisterRequest) (inner : RunnerRegistryInner) :
    Changes fresh carries inner (replaceInstance body now inner).1 := by
  simp only [replaceInstance]
  split
  · exact .refl rules.toVersions _
  · split
    · exact .refl rules.toVersions _
    · refine .trans rules.toVersions ?_ (changes_of_jobs_eq rules (jobs_retireInstance _ _ _))
      refine .trans rules.toVersions ?_
        (changes_of_jobs_eq rules (jobs_resolveDisconnectedSyncRequests _ _ _))
      exact changes_terminateInstanceJobs rules now _ _ _ inner

theorem changes_registerSession (body : RunnerRegisterRequest)
    (hsnapshots : ∀ inventory, body.validate env.checks = .ok () →
      body.jobInventory = some inventory → ∀ snapshot ∈ inventory.jobs,
      CarriesSnapshot fresh carries body.clientId body.runnerInstanceId body.group now snapshot) :
    Changes fresh carries inner (registerSession env inner body now).state := by
  have hpruned := changes_pruneExpiredSharedKeyRunners rules env now inner
  simp only [registerSession]
  split
  · exact .refl rules.toVersions _
  · rename_i hvalid
    split
    · exact hpruned
    · refine .trans rules.toVersions hpruned
        (.trans rules.toVersions (changes_replaceInstance rules now body _) ?_)
      refine .trans rules.toVersions (changes_of_jobs_eq rules (jobs_installRunner _ body now)) ?_
      rw [reconcileRegistration]
      split
      · exact .refl rules.toVersions _
      · rename_i inventory hinventory
        exact changes_reconcileInventory rules env now _ _ _ _ inventory
          (hsnapshots inventory hvalid hinventory)

theorem changes_disconnectJob (recoverable : Bool) (inner : RunnerRegistryInner)
    (entry : String × ShellJobRecord) :
    Changes fresh carries inner (disconnectJob clientId recoverable now inner entry) := by
  have hchanged := changes_modifyJob rules inner entry.1 (disconnectedJob recoverable now)
    fun job _ ↦ carries_disconnectedJob rules entry.1 now job recoverable
  simp only [disconnectJob]
  split
  · exact hchanged
  · exact .trans rules.toVersions hchanged (changes_of_jobs_eq rules (jobs_forgetJobRequest _ _ _))

theorem changes_reconcileDisconnectChecked (clientId instanceId : String)
    (connectionId : Option String) (transport : Option RunnerTransport) :
      Changes fresh carries inner
        (reconcileDisconnectChecked inner clientId instanceId connectionId transport
            now).state := by
  simp only [reconcileDisconnectChecked]
  split
  · exact .refl rules.toVersions _
  · split
    · exact .refl rules.toVersions _
    · refine .trans rules.toVersions ?_
        (changes_of_jobs_eq rules (jobs_resolveDisconnectedSyncRequests _ _ _))
      refine .trans rules.toVersions ?_ (changes_foldl rules id _ _ (fun state item ↦
        changes_of_jobs_eq rules (jobs_forgetJobRequest state clientId item)) _)
      refine .trans rules.toVersions
        (changes_of_jobs_eq rules (jobs_markDisconnected inner clientId instanceId
          connectionId now))
        (changes_foldl rules id _ _ (fun state entry ↦ ?_) _)
      exact changes_disconnectJob rules now clientId _ state entry

end Operations

/-! ### Steps -/

/-- The result, if any, that an operation delivers to a job that has ended. -/
def endsEndedJob (inner : RunnerRegistryInner) : Operation → Bool
  | .complete payload _ _ =>
    ((resolvedJobId inner payload).bind fun jobId ↦ inner.jobsById.lookup jobId).any fun job ↦
      job.lifecycle.isTerminal
  | _ => false

/-- The jobs that an operation makes visible. -/
def promotes : Operation → String → Prop
  | .promote jobId _, other => other = jobId
  | _, _ => False

/-- The new records that an operation may make are fresh. -/
def MakesFresh (fresh : String → ShellJobRecord → Prop) (env : Environment)
    (inner : RunnerRegistryInner) : Operation → Prop
  | .start body now => ∀ runner jobId, startedJobId env inner body now = some jobId →
      fresh jobId (startedRecord inner runner body jobId)
  | .register body now => ∀ state snapshot, fresh snapshot.jobId
      (rebuiltJob state body.clientId body.runnerInstanceId body.group snapshot now)
  | _ => True

/-- The records and versions that an operation makes beyond the ones that any may make. -/
def Admits (fresh : String → ShellJobRecord → Prop)
    (carries : String → ShellJobRecord → ShellJobRecord → Prop) (env : Environment)
    (inner : RunnerRegistryInner) : Operation → Prop
  | .register body now => ∀ inventory, body.validate env.checks = .ok () →
      body.jobInventory = some inventory → ∀ snapshot ∈ inventory.jobs,
      CarriesSnapshot fresh carries body.clientId body.runnerInstanceId body.group now snapshot
  | .complete payload _ now => ∀ jobId job, resolvedJobId inner payload = some jobId →
      inner.jobsById.lookup jobId = some job → carries jobId job (completedJob payload now job)
  | .update body _ now => ∀ job lifecycle, inner.jobsById.lookup body.jobId = some job →
      acceptedLifecycle inner body job = some lifecycle →
      CarriesUpdate carries env.checks now body job lifecycle
  | .start body now => ∀ runner jobId, startedJobId env inner body now = some jobId →
      fresh jobId (startedRecord inner runner body jobId)
  | .stop access jobId _ now => ∀ job, stopsQueued inner access jobId now = some job →
      carries jobId job (stoppedQueuedJob now job)
  | .promote jobId _ =>
    ∀ job : ShellJobRecord, carries jobId job { job with visibility := .isPublic }
  | _ => True

/-- Every step changes the job table by the versions that its operation asks for. -/
theorem step_changes {fresh : String → ShellJobRecord → Prop}
    {carries : String → ShellJobRecord → ShellJobRecord → Prop} (rules : JobRules fresh carries)
    (env : Environment) (inner : RunnerRegistryInner) (operation : Operation)
    (h : Admits fresh carries env inner operation) :
    Changes fresh carries inner (step env inner operation).state := by
  cases operation with
  | register body now => exact changes_registerSession rules env now inner body h
  | disconnect _ _ _ _ now =>
    exact changes_reconcileDisconnectChecked rules now inner _ _ _ _
  | keepAlive clientId _ _ now =>
    simp only [step, touchRunnerForConnection]
    split
    · exact .refl rules.toVersions _
    · exact changes_of_jobs_eq rules (jobs_touchRunner inner clientId now)
  | runtimeMetadata =>
    simp only [step, updateRuntimeMetadata]
    split
    · exact .refl rules.toVersions _
    · split
      · exact .refl rules.toVersions _
      · exact .refl rules.toVersions _
  | publishProjects =>
    simp only [step, publishProjects]
    split
    · exact .refl rules.toVersions _
    · exact .refl rules.toVersions _
  | beginUnregister _ _ now =>
    have hread := changes_refreshAllJobs rules env now inner
    simp only [step, beginProjectUnregister, Reply.outcome]
    split
    · exact hread
    · exact hread
  | endUnregister =>
    simp only [step, endProjectUnregister]
    split
    · exact .refl rules.toVersions _
    · exact .refl rules.toVersions _
  | poll clientId instanceId connectionId now =>
    exact changes_pollChecked rules now inner clientId instanceId connectionId
  | complete payload connectionId now =>
    exact changes_completeChecked rules now inner payload connectionId h
  | completeShell body connectionId now =>
    exact changes_of_jobs_eq rules (jobs_completePersistentShellChecked inner body connectionId now)
  | update body connectionId now =>
    exact changes_updateJobChecked rules env now inner body connectionId h
  | start body now => exact changes_startJob rules env now inner body h
  | stop access jobId stopRequestId now =>
    exact changes_stopJob rules env now inner access jobId stopRequestId h
  | promote jobId now =>
    exact changes_promoteHiddenJob rules env now inner jobId h
  | cancelHidden access jobId stopRequestId now =>
    exact changes_cancelHiddenJob rules env now inner access jobId stopRequestId
  | discardProjected jobId now => exact changes_removeProjected rules now inner jobId
  | enqueue check pending waiter now =>
    exact changes_of_jobs_eq rules (jobs_enqueueSync inner check pending waiter now)
  | cancel requestId => exact changes_of_jobs_eq rules (jobs_cancelRequest inner requestId)
  | cancelAbandoned closed =>
    exact changes_of_jobs_eq rules (jobs_cancelAbandonedSyncRequests inner closed)
  | readJob jobId now => exact changes_refreshJobStatus rules env now inner jobId
  | readJobs now => exact changes_refreshAllJobs rules env now inner
  | pruneRunners now => exact changes_pruneExpiredSharedKeyRunners rules env now inner
  | sweep now => exact changes_recoveryTimeoutSweep rules env now inner

/-- Every step advances the job table. -/
theorem step_advances {fresh : String → ShellJobRecord → Prop}
    (rules : JobRules fresh (Follows late promoted)) (env : Environment)
    (inner : RunnerRegistryInner) (operation : Operation)
    (hlate : endsEndedJob inner operation = false ∨ late)
    (hpromoted : ∀ jobId, promotes operation jobId → promoted jobId)
    (hfresh : MakesFresh fresh env inner operation) :
    Advances late promoted fresh inner (step env inner operation).state := by
  refine step_changes rules env inner operation ?_
  cases operation with
  | register _ now =>
    exact fun _ _ _ snapshot _ ↦ ⟨fun state ↦ hfresh state snapshot,
      fun job hopen ↦ .single (.reconciled job _ snapshot now hopen)⟩
  | complete payload _ now =>
    intro jobId job hid hfound
    refine .single (.completed job payload now (hlate.imp_left fun hlate ↦ ?_))
    simpa [endsEndedJob, hid, hfound] using hlate
  | update body _ now =>
    intro job lifecycle _ haccepted
    have hopen := open_of_acceptedLifecycle haccepted
    exact ⟨fun code _ ↦ .single (.violated job body code now hopen),
      fun _ stdout stderr _ ↦ .single (.applied job body lifecycle stdout stderr now hopen)⟩
  | start => exact hfresh
  | stop _ _ _ now =>
    exact fun job hstops ↦ .single (.stopped job now (queued_of_stopsQueued hstops).2)
  | promote jobId => exact fun job ↦ .single (.promoted job (hpromoted jobId rfl))
  | _ => exact trivial

end WebCodex.Registry
