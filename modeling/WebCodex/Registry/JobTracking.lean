import WebCodex.Registry.JobReports

/-!
The operations of the registry track its jobs (`Tracks`), function by function. A function that
gives jobs up does so for the jobs that satisfy some predicate; it tracks the jobs when none of
these is taken and not started.
-/

namespace WebCodex.Registry

open Foundation

/-- The request of a job is no longer pending. -/
def RequestGone (inner : RunnerRegistryInner) (job : ShellJobRecord) : Prop :=
  ∀ requestId, job.requestId = some requestId → inner.pendingById.lookup requestId = none

/-- Every job is a new one that is not queued and says what its runner says, or a later version of
the job that stood under its id. -/
structure Tracks (quoted : String → Prop) (before after : RunnerRegistryInner) : Prop where
  pending_none : ∀ requestId, before.pendingById.lookup requestId = none →
    after.pendingById.lookup requestId = none
  origin : ∀ jobId new, after.jobsById.lookup jobId = some new →
    (new.lifecycle ≠ .queued ∧ (new.saysNotStarted = true → quoted jobId)) ∨
      ∃ old, before.jobsById.lookup jobId = some old ∧
        Reports (quoted jobId) (RequestGone after old) old new

namespace Tracks

variable {quoted : String → Prop} {before middle after : RunnerRegistryInner}

theorem trans (hfirst : Tracks quoted before middle) (hlast : Tracks quoted middle after) :
    Tracks quoted before after where
  pending_none requestId h := hlast.pending_none requestId (hfirst.pending_none requestId h)
  origin jobId new hnew := by
    rcases hlast.origin jobId new hnew with hfresh | ⟨between, hbetween, hlate⟩
    · exact Or.inl hfresh
    rcases hfirst.origin jobId between hbetween with ⟨hopen, hclaim⟩ | ⟨old, hold, hearly⟩
    · -- a new job of the first part stays one
      refine Or.inl ⟨fun h ↦ hopen (hlate.queued h), fun h ↦ ?_⟩
      rcases hlate.honest h with h | h | ⟨hqueued, -⟩
      · exact hclaim h
      · exact h
      · exact absurd hqueued hopen
    · refine Or.inr ⟨old, hold, hlate.handle_eq.trans hearly.handle_eq,
        hlate.requestId_eq.trans hearly.requestId_eq, hlate.clientId_eq.trans hearly.clientId_eq,
        fun h ↦ hearly.queued (hlate.queued h), fun h ↦ ?_⟩
      rcases hlate.honest h with h | h | ⟨hqueued, hgone⟩
      · rcases hearly.honest h with h | h | ⟨hqueued, hgone⟩
        · exact Or.inl h
        · exact Or.inr (Or.inl h)
        · exact Or.inr (Or.inr ⟨hqueued, fun requestId hid ↦
            hlast.pending_none requestId (hgone requestId hid)⟩)
      · exact Or.inr (Or.inl h)
      · exact Or.inr (Or.inr ⟨hearly.queued hqueued, fun requestId hid ↦
          hgone requestId (hearly.requestId_eq.trans hid)⟩)

/-- A change that turns records into later versions of themselves, or removes them. -/
theorem of_lookup (hloses : Loses before after)
    (h : ∀ jobId new, after.jobsById.lookup jobId = some new →
      ∃ old, before.jobsById.lookup jobId = some old ∧
        Reports (quoted jobId) (RequestGone after old) old new) : Tracks quoted before after where
  pending_none _ := hloses.pending_none
  origin jobId new hnew := Or.inr (h jobId new hnew)

/-- A change that at most removes records. -/
theorem of_subset (hloses : Loses before after)
    (h : ∀ jobId job, after.jobsById.lookup jobId = some job →
      before.jobsById.lookup jobId = some job) : Tracks quoted before after :=
  of_lookup hloses fun jobId job hjob ↦ ⟨job, h jobId job hjob, .refl job⟩

theorem of_jobs_eq (hloses : Loses before after) (h : after.jobsById = before.jobsById) :
    Tracks quoted before after :=
  of_subset hloses fun _ _ hjob ↦ h ▸ hjob

theorem refl (inner : RunnerRegistryInner) : Tracks quoted inner inner := of_jobs_eq
    (.refl inner) rfl

theorem foldl {A : Type} {f : RunnerRegistryInner → A → RunnerRegistryInner} (items : List A)
    (hf : ∀ inner, ∀ item ∈ items, Tracks quoted inner (f inner item))
    (inner : RunnerRegistryInner) : Tracks quoted inner (items.foldl f inner) := by
  induction items generalizing inner with
  | nil => exact refl inner
  | cons item _ ih =>
    have hfirst := hf inner item List.mem_cons_self
    exact hfirst.trans (ih (fun state other hother ↦
      hf state other (List.mem_cons_of_mem item hother)) (f inner item))

end Tracks

variable {job new : ShellJobRecord} {before after : RunnerRegistryInner}
  {p : String → ShellJobRecord → Bool} {reason : JobRecoveryReason}
    {message clientId jobId : String}
  {snapshot : ShellJobSnapshot}

section Functions

variable {quoted : String → Prop} (env : Environment) (inner : RunnerRegistryInner) (now : ℤ)

theorem tracks_modifyJob (jobId : String) (change : ShellJobRecord → ShellJobRecord)
    (hchange : ∀ job, inner.jobsById.lookup jobId = some job →
      Reports (quoted jobId) (RequestGone inner job) job (change job)) :
    Tracks quoted inner (inner.modifyJob jobId change) := by
  refine .of_lookup (loses_modifyJob inner jobId change) fun other new hnew ↦ ?_
  rw [RunnerRegistryInner.modifyJob, Table.lookup_modify] at hnew
  by_cases hsame : other = jobId
  · subst hsame
    rw [if_pos rfl, Option.map_eq_some_iff] at hnew
    obtain ⟨old, hold, rfl⟩ := hnew
    exact ⟨old, hold, hchange old hold⟩
  · rw [if_neg hsame] at hnew
    exact ⟨new, hnew, .refl new⟩

theorem tracks_removeCleanupTerminalJobs :
    Tracks quoted inner (removeCleanupTerminalJobs inner) := by
  refine .of_subset (loses_removeCleanupTerminalJobs inner) fun _ _ hjob ↦ ?_
  rw [lookup_removeCleanupTerminalJobs, Option.filter_eq_some_iff] at hjob
  exact hjob.1

/-! ### Refreshes -/

/-- A job that a refresh gives up: its recovery took too long, or its runner is silent and cannot
reconcile. -/
def isStale (job : ShellJobRecord) : Bool := job.lifecycle.isRunnerActive &&
    if job.recoveryActive then recoveryExpired env now job
    else
      !runnerIsConnected inner job.clientId now && !(inner.runners.lookup job.clientId).any
          fun runner ↦
          runner.supports .jobStateReconciliation

theorem ne_queued_of_isRunnerActive {lifecycle : RunnerJobLifecycle}
    (h : lifecycle.isRunnerActive = true) : lifecycle ≠ .queued := by
  rintro rfl
  simp [RunnerJobLifecycle.isRunnerActive] at h

/-- A sweep reports nothing about a job, unless it gives a stale one up. -/
theorem reports_refreshed {settled quoted : Prop}
    (hspared : isStale env inner now job = true → job.isTakenUnstarted = false) :
    Reports quoted settled job (refreshed env inner now job) := by
  by_cases hout : (job.lifecycle.isTerminal || !job.lifecycle.isRunnerActive) = true
  · rw [refreshed, if_pos hout]
    exact .refl job
  have hactive : job.lifecycle.isRunnerActive = true := by
    simp only [Bool.or_eq_true, Bool.not_eq_true', not_or, Bool.not_eq_false] at hout
    exact hout.2
  have hlost : ∀ {reason message}, reason ≠ JobRecoveryReason.runnerRequestNotDispatched →
      message ≠ stoppedBeforePickup → isStale env inner now job = true →
      Reports quoted settled job (markJobLost now reason message job) := by
    intro reason message hreason hmessage hstale
    exact reports_markJobLost now job (fun h ↦ absurd h hreason) hmessage (hspared hstale)
      fun h ↦ absurd h (ne_queued_of_isRunnerActive hactive)
  rw [refreshed, if_neg hout]
  by_cases hrecovery : job.recoveryActive = true
  · rw [if_pos hrecovery]
    by_cases hexpired : recoveryExpired env now job = true
    · rw [if_pos hexpired]
      exact hlost (by decide) (by decide) (by simp [isStale, hactive, hrecovery, hexpired])
    · rw [if_neg hexpired]
      exact .refl job
  · rw [if_neg hrecovery]
    by_cases hconnected : runnerIsConnected inner job.clientId now = true
    · rw [if_pos hconnected]
      exact .refl job
    · rw [if_neg hconnected]
      by_cases hsupports : ((inner.runners.lookup job.clientId).any fun runner ↦
          runner.supports .jobStateReconciliation) = true
      · rw [if_pos hsupports]
        exact reports_beginJobRecovery now job (by decide)
      · rw [if_neg hsupports]
        refine hlost (by decide) (by decide) ?_
        simp only [isStale, hactive, Bool.true_and, if_neg hrecovery]
        simp [hconnected, hsupports]

/-- No job that satisfies a predicate is taken and not started. -/
def Spares (p : String → ShellJobRecord → Bool) : Prop :=
  ∀ jobId job, inner.jobsById.lookup jobId = some job → p jobId job = true →
    job.isTakenUnstarted = false

theorem tracks_refreshJobStatus (jobId : String)
    (hspared : Spares inner fun other job ↦ other == jobId && isStale env inner now job) :
    Tracks quoted inner (refreshJobStatus env now jobId inner) := by
  refine tracks_modifyJob inner jobId _ fun job hjob ↦
    reports_refreshed env inner now fun hstale ↦ ?_
  exact hspared jobId job hjob (by simp [hstale])

theorem refreshed_congr {other : RunnerRegistryInner} (h : other.runners = inner.runners) :
    refreshed env other now = refreshed env inner now := by
  funext job
  unfold refreshed runnerIsConnected
  rw [h]

theorem lookup_refreshAllJobs (jobId : String) :
    (refreshAllJobs env now inner).jobsById.lookup jobId =
      (inner.jobsById.lookup jobId).map (refreshed env inner now) := by
  -- the refresh reads the runners only, and these stay as they are
  have hfold : ∀ (ids : List String) (state : RunnerRegistryInner), state.runners = inner.runners →
      ids.foldl (fun current id ↦ refreshJobStatus env now id current) state =
        ids.foldl (fun current id ↦ current.modifyJob id (refreshed env inner now)) state := by
    intro ids
    induction ids with
    | nil => exact fun _ _ ↦ rfl
    | cons _ _ ih =>
      intro state hstate
      rw [List.foldl_cons, List.foldl_cons, refreshJobStatus, refreshed_congr env inner now hstate]
      exact ih _ hstate
  rw [refreshAllJobs, hfold _ inner rfl, Table.lookup_foldl_modify RunnerRegistryInner.jobsById _ id
    (refreshed env inner now) (fun state _ ↦ rfl) _
    (by simpa using inner.jobsById.keys_nodup), List.map_id]
  split_ifs with hmem
  · rfl
  · have hnone : inner.jobsById.lookup jobId = none :=
      AList.lookup_eq_none.mpr fun h ↦ hmem (AList.mem_keys.mp h)
    rw [hnone]
    rfl

theorem tracks_refreshAllJobs (hspared : Spares inner fun _ job ↦ isStale env inner now job) :
    Tracks quoted inner (refreshAllJobs env now inner) := by
  refine .of_lookup (loses_refreshAllJobs inner env now) fun jobId _ hnew ↦ ?_
  rw [lookup_refreshAllJobs, Option.map_eq_some_iff] at hnew
  obtain ⟨old, hold, rfl⟩ := hnew
  exact ⟨old, hold, reports_refreshed env inner now (hspared jobId old hold)⟩

/-! ### Jobs that are given up -/

/-- What is taken and not started after a change was so before. -/
def KeepsTaken (before after : RunnerRegistryInner) : Prop :=
  ∀ jobId job, after.jobsById.lookup jobId = some job → job.isTakenUnstarted = true →
    before.jobsById.lookup jobId = some job

theorem KeepsTaken.trans {middle : RunnerRegistryInner} (hfirst : KeepsTaken before middle)
    (hlast : KeepsTaken middle after) :
    KeepsTaken before after :=
  fun jobId job hjob htaken ↦ hfirst jobId job (hlast jobId job hjob htaken) htaken

theorem KeepsTaken.of_jobs_eq (h : after.jobsById = before.jobsById) : KeepsTaken before after :=
  fun _ _ hjob _ ↦ h ▸ hjob

theorem Spares.of_keepsTaken (h : Spares before p) (hkeeps : KeepsTaken before after) :
    Spares after p := by
  intro jobId job hjob hp
  cases htaken : job.isTakenUnstarted with
  | false => rfl
  | true => exact htaken.symm.trans (h jobId job (hkeeps jobId job hjob htaken) hp)

theorem isTakenUnstarted_of_isTerminal (h : job.lifecycle.isTerminal = true) :
    job.isTakenUnstarted = false := by
  simp [ShellJobRecord.isTakenUnstarted, h]

theorem isTakenUnstarted_of_queued (h : job.lifecycle = .queued) :
    job.isTakenUnstarted = false := by
  simp [ShellJobRecord.isTakenUnstarted, h]

/-- Giving jobs up leaves no other job taken. -/
theorem keepsTaken_of_markJobLost
    (h : ∀ jobId job, after.jobsById.lookup jobId = some job →
      ∃ old, before.jobsById.lookup jobId = some old ∧
        job = if p jobId old then markJobLost now reason message old else old) :
    KeepsTaken before after := by
  intro jobId job hjob htaken
  obtain ⟨old, _, rfl⟩ := h jobId job hjob
  by_cases hp : p jobId old = true
  · rw [if_pos hp, isTakenUnstarted_of_isTerminal
      (lifecycle_markJobLost now reason message old)] at htaken
    exact absurd htaken Bool.false_ne_true
  · rwa [if_neg hp]

/-- A fold of losses ends with every request gone that one of its steps drops. -/
theorem lookup_foldl_of_drops {A : Type} {f : RunnerRegistryInner → A → RunnerRegistryInner}
    (hloses : ∀ state item, Loses state (f state item)) {items : List A} {item : A}
    (hmem : item ∈ items) {requestId : String}
    (hdrops : ∀ state, (f state item).pendingById.lookup requestId = none)
    (state : RunnerRegistryInner) : (items.foldl f state).pendingById.lookup requestId = none := by
  induction items generalizing state with
  | nil => exact absurd hmem List.not_mem_nil
  | cons _ rest ih =>
    rcases List.mem_cons.mp hmem with rfl | hrest
    · exact (Loses.foldl hloses rest _).pending_none (hdrops state)
    · exact ih hrest _

theorem lookup_removeJobRequestMapping (clientId requestId : String) :
    (removeJobRequestMapping clientId (some requestId) inner).pendingById.lookup requestId = none :=
  (lookup_dropPending inner requestId requestId).trans (if_pos rfl)

/-- The requests of jobs that are given up are gone. -/
theorem requestGone_loseJobs (clientId : String) (reason : JobRecoveryReason) (message : String)
    {jobs : List (String × ShellJobRecord)} {entry : String × ShellJobRecord}
    (hmem : entry ∈ jobs) :
    RequestGone (loseJobs clientId now reason message jobs inner) entry.2 := by
  intro requestId hrequest
  refine (loses_removeJobControlRequests _ clientId _).pending_none
    (lookup_foldl_of_drops ?_ hmem ?_ inner)
  · exact fun state item ↦ (loses_modifyJob state item.1 _).trans
      (loses_removeJobRequestMapping _ clientId item.2.requestId)
  · intro state
    rw [hrequest]
    exact lookup_removeJobRequestMapping _ clientId requestId

theorem lookup_loseJobs_cases
    (h : (loseJobs clientId now reason message (jobsWhere p inner) inner).jobsById.lookup jobId =
      some new) :
    ∃ old, inner.jobsById.lookup jobId = some old ∧
      new = if p jobId old then markJobLost now reason message old else old := by
  rw [lookup_loseJobs, Option.map_eq_some_iff] at h
  obtain ⟨old, hold, hnew⟩ := h
  exact ⟨old, hold, hnew.symm⟩

theorem tracks_loseJobs (clientId : String) (hspared : Spares inner p)
    (hreason : reason ≠ .runnerRequestNotDispatched) (hmessage : message ≠ stoppedBeforePickup) :
    Tracks quoted inner (loseJobs clientId now reason message (jobsWhere p inner) inner) := by
  refine .of_lookup (loses_loseJobs inner clientId now reason message _) fun jobId _ hnew ↦ ?_
  obtain ⟨old, hold, rfl⟩ := lookup_loseJobs_cases inner now hnew
  refine ⟨old, hold, ?_⟩
  by_cases hp : p jobId old = true
  · rw [if_pos hp]
    refine reports_markJobLost now old (fun h ↦ absurd h hreason) hmessage
      (hspared jobId old hold hp) fun _ ↦ ?_
    exact requestGone_loseJobs inner now clientId reason message
      (mem_jobsWhere.mpr ⟨hold, hp⟩ : (jobId, old) ∈ jobsWhere p inner)
  · rw [if_neg hp]
    exact .refl old

theorem keepsTaken_removeCleanupTerminalJobs :
    KeepsTaken inner (removeCleanupTerminalJobs inner) := by
  intro _ _ hjob _
  rw [lookup_removeCleanupTerminalJobs, Option.filter_eq_some_iff] at hjob
  exact hjob.1

def isExpiring (clientFilter : Option String) (job : ShellJobRecord) : Bool :=
  job.recoveryActive && (clientFilter.all fun clientId ↦ job.clientId == clientId) &&
    recoveryExpired env now job

theorem lookup_expireRecoveringJobs_cases {clientFilter : Option String} {passCap : ℕ}
    (h : (expireRecoveringJobs env clientFilter now passCap inner).jobsById.lookup jobId =
      some new) :
    ∃ old, inner.jobsById.lookup jobId = some old ∧
      (new = old ∨ (isExpiring env now clientFilter old = true ∧
        new = markJobLost now .runnerRecoveryDeadlineExceeded
          "runner did not reconcile the job before the recovery deadline" old)) := by
  rw [lookup_expireRecoveringJobs] at h
  dsimp only at h
  split_ifs at h with hempty hmem
  · exact ⟨new, h, Or.inl rfl⟩
  · rw [Option.filter_eq_some_iff, Option.map_eq_some_iff] at h
    obtain ⟨⟨old, hold, rfl⟩, -⟩ := h
    obtain ⟨-, hactive, hfilter, hexpired⟩ :=
      mem_expiring env now ((mem_expiring_ids env now hold).mp hmem)
    refine ⟨old, hold, Or.inr ⟨?_, ?_⟩⟩
    · simp [isExpiring, hactive, hfilter, hexpired]
    · rw [expiredJob, if_pos hactive]
  · rw [Option.filter_eq_some_iff] at h
    exact ⟨new, h.1, Or.inl rfl⟩

theorem tracks_expireRecoveringJobs {clientFilter : Option String} (passCap : ℕ)
    (hspared : Spares inner fun _ ↦ isExpiring env now clientFilter) :
    Tracks quoted inner (expireRecoveringJobs env clientFilter now passCap inner) := by
  refine .of_lookup (loses_expireRecoveringJobs inner env clientFilter now passCap)
    fun jobId new hnew ↦ ?_
  obtain ⟨old, hold, rfl | ⟨hexpiring, rfl⟩⟩ := lookup_expireRecoveringJobs_cases env inner now hnew
  · exact ⟨new, hold, .refl new⟩
  · refine ⟨old, hold, reports_markJobLost now old (fun h ↦ absurd h (by decide)) (by decide)
      (hspared jobId old hold hexpiring) fun hqueued ↦ ?_⟩
    -- only jobs that their runner owns recover
    simp [isExpiring, ShellJobRecord.recoveryActive, hqueued,
      RunnerJobLifecycle.isRunnerActive] at hexpiring

theorem keepsTaken_expireRecoveringJobs (clientFilter : Option String) (passCap : ℕ) :
    KeepsTaken inner (expireRecoveringJobs env clientFilter now passCap inner) := by
  intro _ _ hnew htaken
  obtain ⟨old, hold, rfl | ⟨-, rfl⟩⟩ := lookup_expireRecoveringJobs_cases env inner now hnew
  · exact hold
  · rw [isTakenUnstarted_of_isTerminal (lifecycle_markJobLost now _ _ old)] at htaken
    exact absurd htaken Bool.false_ne_true

/-- Every pending request of a queued job names the runner of the job. -/
def QueuedJobsBelong : Prop := ∀ jobId job requestId pending,
    inner.jobsById.lookup jobId = some job →
    job.lifecycle = .queued → job.requestId = some requestId →
    inner.pendingById.lookup requestId = some pending → pending.request.clientId = job.clientId

theorem lookup_prune_cases
    (h : (pruneExpiredSharedKeyRunners env now inner).1.jobsById.lookup jobId = some new) :
    ∃ old, inner.jobsById.lookup jobId = some old ∧
      new = if (expiredRunners env now inner).contains old.clientId then
        markJobLost now .sharedKeyRunnerExpired
          "shared-key runner registration expired after being offline" old
      else old := by
  rw [lookup_pruneExpiredSharedKeyRunners, Option.map_eq_some_iff] at h
  obtain ⟨old, hold, hnew⟩ := h
  exact ⟨old, hold, hnew.symm⟩

theorem keepsTaken_prune : KeepsTaken inner (pruneExpiredSharedKeyRunners env now inner).1 :=
  keepsTaken_of_markJobLost now fun _ _ hjob ↦ lookup_prune_cases env inner now hjob

/-- The pending requests of forgotten runners are gone. -/
theorem lookup_pending_prune {requestId : String} {pending : PendingShellRequest}
    (h : (pruneExpiredSharedKeyRunners env now inner).1.pendingById.lookup requestId =
      some pending) :
    (expiredRunners env now inner).contains pending.request.clientId = false := by
  have hbefore := (settles_pruneExpiredSharedKeyRunners env inner now).loses.pending _ _ h
  simp only [pruneExpiredSharedKeyRunners] at h
  split_ifs at h with hempty
  · rw [List.isEmpty_iff.mp hempty]
    rfl
  · rw [forgetRunners, Table.lookup_keep, Option.filter_eq_some_iff] at h
    have hkept : ∀ other, ⟨requestId, other⟩ ∈ inner.pendingById.entries →
        other.request.clientId ∉ expiredRunners env now inner := by
      simpa using h.2
    simpa using hkept pending (Table.mem_entries.mpr hbefore)

theorem tracks_prune (hbelong : QueuedJobsBelong inner)
    (hspared : Spares inner fun _ job ↦ (expiredRunners env now inner).contains job.clientId) :
    Tracks quoted inner (pruneExpiredSharedKeyRunners env now inner).1 := by
  have hloses := (settles_pruneExpiredSharedKeyRunners env inner now).loses
  refine .of_lookup hloses fun jobId _ hnew ↦ ?_
  obtain ⟨old, hold, rfl⟩ := lookup_prune_cases env inner now hnew
  refine ⟨old, hold, ?_⟩
  by_cases hexpired : (expiredRunners env now inner).contains old.clientId = true
  · rw [if_pos hexpired]
    refine reports_markJobLost now old (fun h ↦ absurd h (by decide)) (by decide)
      (hspared jobId old hold hexpired) fun hqueued requestId hrequest ↦ ?_
    cases hpending : (pruneExpiredSharedKeyRunners env now inner).1.pendingById.lookup
        requestId with
    | none => rfl
    | some pending =>
      have hclient := hbelong jobId old requestId pending hold hqueued hrequest
        (hloses.pending requestId pending hpending)
      have hkept := lookup_pending_prune env inner now hpending
      rw [hclient, hexpired] at hkept
      exact absurd hkept.symm Bool.false_ne_true
  · rw [if_neg hexpired]
    exact .refl old

/-! ### Registrations -/

/-- A runner does not report a job as queued. -/
theorem status_ne_queued_of_validateSnapshot {checks : Checks} {active : Bool}
    (h : validateSnapshot checks clientId snapshot = .ok active) : snapshot.status ≠ .queued := by
  intro hstatus
  simp only [validateSnapshot, bind, Except.bind, hstatus, RunnerJobLifecycle.isRunnerActive,
    RunnerJobLifecycle.isTerminal, Bool.not_false, Bool.and_self, if_true] at h
  split at h
  · simp at h
  · split at h
    · simp at h
    · split_ifs at h

theorem status_ne_queued_of_validateSnapshots {checks : Checks} {ids requestIds : List String}
    {sawTerminal : Bool} {snapshots : List ShellJobSnapshot}
    (h : validateSnapshots checks clientId ids requestIds sawTerminal snapshots = .ok ()) :
    ∀ snapshot ∈ snapshots, snapshot.status ≠ .queued := by
  induction snapshots generalizing ids requestIds sawTerminal with
  | nil => simp
  | cons _ _ ih =>
    obtain ⟨-, ⟨_, hvalid⟩, _, hrest⟩ := validateSnapshots_cons h
    intro other hother
    rcases List.mem_cons.mp hother with rfl | hlater
    · exact status_ne_queued_of_validateSnapshot hvalid
    · exact ih hrest other hlater

section Snapshots

variable (clientId instanceId : String) (authGroup : Option RunnerAccessGroup)

theorem tracks_settleSnapshot (snapshot : ShellJobSnapshot) :
    Tracks quoted inner (settleSnapshot clientId snapshot inner) :=
  .of_jobs_eq (loses_settleSnapshot inner clientId snapshot)
    (jobsById_settleSnapshot clientId snapshot inner)

theorem saysNotStarted_rebuiltJob
    (h : (rebuiltJob inner clientId instanceId authGroup snapshot now).saysNotStarted = true) :
    quotesNotStarted snapshot.commandExecutionState snapshot.error = true := by
  have hrecord : (recordFromSnapshot clientId instanceId authGroup inner.nextHandle snapshot
      now).saysNotStarted = true := h
  rw [recordFromSnapshot, saysNotStarted_observeJobTerminal] at hrecord
  simpa [ShellJobRecord.saysNotStarted, quotesNotStarted] using hrecord

/-- A job that is rebuilt from its snapshot is a new one. -/
theorem tracks_addRebuiltJob (hstatus : snapshot.status ≠ .queued)
    (hquoted : quotesNotStarted snapshot.commandExecutionState snapshot.error = true →
      quoted snapshot.jobId) :
    Tracks quoted inner (inner.addJob snapshot.jobId
      (rebuiltJob inner clientId instanceId authGroup snapshot now)) where
  pending_none _ h := h
  origin jobId new hnew := by
    rw [RunnerRegistryInner.addJob, Table.lookup_insert_eq] at hnew
    by_cases hsame : jobId = snapshot.jobId
    · rw [if_pos hsame, Option.some.injEq] at hnew
      subst hnew hsame
      refine Or.inl ⟨?_, fun h ↦ hquoted
        (saysNotStarted_rebuiltJob inner now clientId instanceId authGroup h)⟩
      rw [lifecycle_rebuiltJob]
      exact hstatus
    · rw [if_neg hsame] at hnew
      exact Or.inr ⟨new, hnew, .refl new⟩

theorem tracks_reconcileSnapshot (hstatus : snapshot.status ≠ .queued)
    (hquoted : quotesNotStarted snapshot.commandExecutionState snapshot.error = true →
      quoted snapshot.jobId) :
    Tracks quoted inner (reconcileSnapshot clientId instanceId authGroup now inner snapshot) := by
  rw [reconcileSnapshot]
  split
  · split
    · exact .refl inner
    · refine .trans (tracks_modifyJob inner snapshot.jobId _ fun job _ ↦ ?_)
        (tracks_settleSnapshot _ clientId snapshot)
      exact reports_reconciledJob now job instanceId snapshot hstatus hquoted
  · split
    · exact .refl inner
    · exact (tracks_addRebuiltJob inner now clientId instanceId authGroup hstatus hquoted).trans
        (tracks_settleSnapshot _ clientId snapshot)

theorem tracks_reconcileInventory (inventory : ShellJobInventory)
    (hexpiring : Spares inner fun _ ↦ isExpiring env now (some clientId))
    (hmissing : Spares inner (isMissing clientId instanceId inventory))
    (hstatus : ∀ snapshot ∈ inventory.jobs, snapshot.status ≠ .queued)
    (hquoted : ∀ snapshot ∈ inventory.jobs,
      quotesNotStarted snapshot.commandExecutionState snapshot.error = true →
        quoted snapshot.jobId) :
    Tracks quoted inner
      (reconcileInventory env inner clientId instanceId authGroup inventory now) := by
  have hpruned : Tracks quoted inner (pruneAllSuppressions now inner) :=
    .of_jobs_eq (.of_requests_eq rfl) rfl
  have hkept : KeepsTaken inner (expireRecoveringJobs env (some clientId) now recoverySweepPassCap
      (pruneAllSuppressions now inner)) :=
    keepsTaken_expireRecoveringJobs env (pruneAllSuppressions now inner) now _ _
  have hswept := hpruned.trans (tracks_expireRecoveringJobs env (pruneAllSuppressions now inner) now
    recoverySweepPassCap hexpiring)
  refine hswept.trans (.trans (tracks_loseJobs _ now clientId (hmissing.of_keepsTaken hkept)
    (by decide) (by decide)) (.trans (.foldl inventory.jobs (fun state snapshot hmem ↦ ?_) _)
      (tracks_removeCleanupTerminalJobs _)))
  exact tracks_reconcileSnapshot state now clientId instanceId authGroup (hstatus snapshot hmem)
    (hquoted snapshot hmem)

end Snapshots

section Replacement

variable (body : RunnerRegisterRequest)

/-- A job of the instance that a registration replaces, when its successor does not carry it on. -/
def isReplaced (job : ShellJobRecord) : Bool :=
    (inner.runners.lookup body.clientId).any fun existing ↦
    existing.runnerInstanceId != body.runnerInstanceId &&
      isAbandoned body.clientId existing.runnerInstanceId body.jobInventory job

theorem jobsById_retire (instanceId : String) (error : String) (state : RunnerRegistryInner) :
    (retireInstance body.clientId instanceId
      (resolveDisconnectedSyncRequests body.clientId error state).1).jobsById = state.jobsById :=
  jobsById_of_jobs_eq (jobs_resolveDisconnectedSyncRequests state body.clientId error)

theorem tracks_replaceInstance (hspared : Spares inner fun _ ↦ isReplaced inner body) :
    Tracks quoted inner (replaceInstance body now inner).1 := by
  rw [replaceInstance]
  cases hrunner : inner.runners.lookup body.clientId with
  | none => exact .refl inner
  | some existing =>
    dsimp only
    by_cases hsame : (existing.runnerInstanceId == body.runnerInstanceId) = true
    · rw [if_pos hsame]
      exact .refl inner
    · rw [if_neg hsame]
      have habandoned : Spares inner fun _ ↦ isAbandoned body.clientId existing.runnerInstanceId
          body.jobInventory := by
        intro jobId job hjob habandoned
        refine hspared jobId job hjob ?_
        simp only [isReplaced, hrunner, Option.any_some, bne, hsame, habandoned]
        rfl
      have hlost : Tracks quoted inner (terminateInstanceJobs body.clientId
          existing.runnerInstanceId body.jobInventory now inner) :=
        (tracks_loseJobs inner now body.clientId habandoned (by decide) (by decide)).trans
          (tracks_removeCleanupTerminalJobs _)
      refine hlost.trans (.of_jobs_eq ?_ (jobsById_retire body _ _ _))
      exact (settles_resolveDisconnectedSyncRequests _ body.clientId _).loses.trans
        (loses_retireInstance _ body.clientId _)

theorem keepsTaken_replaceInstance : KeepsTaken inner (replaceInstance body now inner).1 := by
  rw [replaceInstance]
  cases inner.runners.lookup body.clientId with
  | none => exact .of_jobs_eq rfl
  | some existing =>
    dsimp only
    by_cases hsame : (existing.runnerInstanceId == body.runnerInstanceId) = true
    · rw [if_pos hsame]
      exact .of_jobs_eq rfl
    · rw [if_neg hsame]
      refine KeepsTaken.trans (KeepsTaken.trans ?_ (keepsTaken_removeCleanupTerminalJobs _))
        (.of_jobs_eq (jobsById_retire body _ _ _))
      exact keepsTaken_of_markJobLost now fun _ _ hjob ↦ lookup_loseJobs_cases inner now hjob

/-- The runners that a prune leaves are among those before. -/
theorem runners_prune {runner : RunnerRecord}
    (h : (pruneExpiredSharedKeyRunners env now inner).1.runners.lookup clientId = some runner) :
    inner.runners.lookup clientId = some runner := by
  simp only [pruneExpiredSharedKeyRunners] at h
  split_ifs at h
  · exact h
  · rw [forgetRunners, Table.lookup_keep, Option.filter_eq_some_iff,
      runners_of_leases_eq (leases_loseRunnerJobs _ _ _),
      runners_of_leases_eq (leases_resolveDisconnectedRunners _ _ _)] at h
    exact h.1

/-- The jobs that a registration gives up: those of runners that it forgets, and, when it takes the
lease, those of the instance that it replaces, those whose recovery took too long and those that its
inventory lacks. -/
def registrationGivesUp (jobId : String) (job : ShellJobRecord) : Bool :=
  (body.validate env.checks).isOk && ((expiredRunners env now inner).contains job.clientId ||
      ((leaseFault env (pruneExpiredSharedKeyRunners env now inner).1 body).isNone &&
        (isReplaced inner body job ||
          body.jobInventory.any fun inventory ↦
            isExpiring env now (some body.clientId) job ||
              isMissing body.clientId body.runnerInstanceId inventory jobId job)))

theorem Spares.imp {q : String → ShellJobRecord → Bool} {state : RunnerRegistryInner}
    (h : Spares state q) (hpq : ∀ jobId job, p jobId job = true → q jobId job = true) :
    Spares state p :=
  fun jobId job hjob hp ↦ h jobId job hjob (hpq jobId job hp)

/-- A registration tracks all jobs when it spares those whose requests were taken, which is what the
condition on the operation says. -/
theorem tracks_registerSession (hbelong : QueuedJobsBelong inner)
    (hspared : Spares inner (registrationGivesUp env inner now body))
    (hquoted : ∀ jobId, Operation.quotes jobId (.register body now) = true → quoted jobId) :
    Tracks quoted inner (registerSession env inner body now).state := by
  simp only [registerSession]
  cases hvalid : body.validate env.checks with
  | error => exact .refl inner
  | ok =>
    have hpruned : Tracks quoted inner (pruneExpiredSharedKeyRunners env now inner).1 := by
      refine tracks_prune env inner now hbelong (hspared.imp fun jobId job hexpired ↦ ?_)
      simp only [registrationGivesUp, hvalid, hexpired]
      rfl
    have hkept := keepsTaken_prune env inner now
    cases hlease : leaseFault env (pruneExpiredSharedKeyRunners env now inner).1 body with
    | some => exact hpruned
    | none =>
      have hreplaced : Spares (pruneExpiredSharedKeyRunners env now inner).1
          fun _ ↦ isReplaced (pruneExpiredSharedKeyRunners env now inner).1 body := by
        refine Spares.of_keepsTaken (hspared.imp fun jobId job hreplaced ↦ ?_) hkept
        have hfirst : isReplaced inner body job = true := by
          rw [isReplaced, Option.any_eq_true] at hreplaced ⊢
          obtain ⟨existing, hexisting, hcond⟩ := hreplaced
          exact ⟨existing, runners_prune env inner now hexisting, hcond⟩
        simp [registrationGivesUp, hvalid, Except.toBool, hlease, hfirst]
      have hadmitted := hpruned.trans (tracks_replaceInstance _ now body hreplaced)
      have hinstalled : ∀ state, Tracks quoted state (installRunner body now state) :=
        fun state ↦ .of_jobs_eq (.of_requests_eq rfl) rfl
      have hkeptAll : KeepsTaken inner (installRunner body now
          (replaceInstance body now (pruneExpiredSharedKeyRunners env now inner).1).1) :=
        (hkept.trans (keepsTaken_replaceInstance _ now body)).trans (.of_jobs_eq rfl)
      refine (hadmitted.trans (hinstalled _)).trans ?_
      rw [reconcileRegistration]
      cases hinventory : body.jobInventory with
      | none => exact .refl _
      | some inventory =>
        have hsnapshots := validateSnapshots_of_validateJobInventory
          (validateJobInventory_of_validate hvalid hinventory)
        refine tracks_reconcileInventory env _ now body.clientId body.runnerInstanceId body.group
          inventory ?_ ?_ (status_ne_queued_of_validateSnapshots hsnapshots) ?_
        · refine Spares.of_keepsTaken (hspared.imp fun jobId job hexpiring ↦ ?_) hkeptAll
          simp [registrationGivesUp, hvalid, Except.toBool, hlease, hinventory, hexpiring]
        · refine Spares.of_keepsTaken (hspared.imp fun jobId job hmissing ↦ ?_) hkeptAll
          simp [registrationGivesUp, hvalid, Except.toBool, hlease, hinventory, hmissing]
        · intro snapshot hmem hquotes
          refine hquoted snapshot.jobId ?_
          simp only [Operation.quotes, hinventory, Option.any_some, List.any_eq_true]
          exact ⟨snapshot, hmem, by simp [hquotes]⟩

end Replacement

/-! ### Disconnections -/

section Disconnection

variable (clientId : String)

theorem jobsById_disconnectJob (recoverable : Bool) (entry : String × ShellJobRecord) :
    (disconnectJob clientId recoverable now inner entry).jobsById =
      Table.modify entry.1 (disconnectedJob recoverable now) inner.jobsById := by
  simp only [disconnectJob]
  split
  · rfl
  · rfl

/-- A disconnection gives a job up that a runner has taken, unless the runner can reconcile. -/
theorem reports_disconnectedJob {quoted settled : Prop} {recoverable : Bool}
    (hspared : recoverable = false → job.isTakenUnstarted = false)
    (hsettled : job.lifecycle = .queued → settled) :
    Reports quoted settled job (disconnectedJob recoverable now job) := by
  by_cases hqueued : job.lifecycle = .queued
  · have hlost : disconnectedJob recoverable now job = markJobLost now .runnerRequestNotDispatched
          "Runner transport disconnected before the queued request was dispatched" job := by
      simp [disconnectedJob, hqueued]
    rw [hlost]
    exact reports_markJobLost now job (fun _ ↦ hqueued) (by decide)
      (isTakenUnstarted_of_queued hqueued) hsettled
  · cases hrecoverable : recoverable with
    | true =>
      have hrecovering : disconnectedJob true now job =
          beginJobRecovery now .runnerTransportDisconnected job := by
        simp [disconnectedJob, hqueued]
      rw [hrecovering]
      exact reports_beginJobRecovery now job (by decide)
    | false =>
      have hlost : disconnectedJob false now job =
          markJobLost now .runnerDisconnectedWithoutReconciliation
            "Runner transport disconnected without reconciliation support" job := by
        simp [disconnectedJob, hqueued]
      rw [hlost]
      exact reports_markJobLost now job (fun h ↦ absurd h (by decide)) (by decide)
        (hspared hrecoverable) hsettled

theorem requestGone_disconnect (recoverable : Bool) {jobs : List (String × ShellJobRecord)}
    {entry : String × ShellJobRecord} (hmem : entry ∈ jobs) :
    RequestGone (jobs.foldl (disconnectJob clientId recoverable now) inner) entry.2 := by
  intro requestId hrequest
  refine lookup_foldl_of_drops (fun state item ↦ loses_disconnectJob state clientId recoverable now
    item) hmem (fun state ↦ ?_) inner
  simp only [disconnectJob, hrequest]
  exact (lookup_dropPending _ requestId requestId).trans (if_pos rfl)

theorem tracks_disconnectJobs (recoverable : Bool)
    (hspared : recoverable = false → Spares inner fun _ ↦ isAffected clientId) :
    Tracks quoted inner ((jobsWhere (fun _ ↦ isAffected clientId) inner).foldl
      (disconnectJob clientId recoverable now) inner) := by
  refine .of_lookup (.foldl (fun state entry ↦
    loses_disconnectJob state clientId recoverable now entry) _ inner) fun jobId _ hnew ↦ ?_
  rw [Table.lookup_foldl_modify RunnerRegistryInner.jobsById _ Prod.fst
    (disconnectedJob recoverable now)
    (fun state entry ↦ jobsById_disconnectJob state now clientId recoverable entry) _
    (jobsWhere_ids_nodup _ inner), ite_mem_jobsWhere, Option.map_eq_some_iff] at hnew
  obtain ⟨old, hold, rfl⟩ := hnew
  refine ⟨old, hold, ?_⟩
  by_cases haffected : isAffected clientId old = true
  · rw [if_pos haffected]
    refine reports_disconnectedJob now (fun h ↦ hspared h jobId old hold haffected) fun _ ↦ ?_
    exact requestGone_disconnect inner now clientId recoverable
      (mem_jobsWhere.mpr ⟨hold, haffected⟩ :
        (jobId, old) ∈ jobsWhere (fun _ ↦ isAffected clientId) inner)
  · rw [if_neg haffected]
    exact .refl old

/-- The jobs that a disconnection gives up, those apart that are queued. -/
def disconnectionGivesUp (instanceId : String) (connectionId : Option String)
    (transport : Option RunnerTransport) (job : ShellJobRecord) : Bool :=
  (inner.runners.lookup clientId).any fun runner ↦
    disconnectApplies runner instanceId connectionId transport &&
      !runner.supports .jobStateReconciliation && isAffected clientId job

/-- A disconnection tracks all jobs when it spares those whose requests were taken. -/
theorem tracks_reconcileDisconnectChecked (instanceId : String) (connectionId : Option String)
    (transport : Option RunnerTransport)
    (hspared : Spares inner fun _ ↦
      disconnectionGivesUp inner clientId instanceId connectionId transport) :
    Tracks quoted inner
      (reconcileDisconnectChecked inner clientId instanceId connectionId transport now).state := by
  simp only [reconcileDisconnectChecked]
  cases hrunner : inner.runners.lookup clientId with
  | none => exact .refl inner
  | some runner =>
    dsimp only
    by_cases happlies : (!disconnectApplies runner instanceId connectionId transport) = true
    · rw [if_pos happlies]
      exact .refl inner
    · rw [if_neg happlies]
      have hoffline : Tracks quoted inner
          (markDisconnected clientId instanceId connectionId now inner) :=
        .of_jobs_eq (.of_requests_eq rfl) rfl
      refine hoffline.trans (.trans (tracks_disconnectJobs _ now clientId _ fun hrecoverable ↦ ?_)
        (.trans (.foldl _ (fun state requestId _ ↦ ?_) _) (.of_jobs_eq
          (settles_resolveDisconnectedSyncRequests _ clientId _).loses
          (jobsById_of_jobs_eq (jobs_resolveDisconnectedSyncRequests _ clientId _)))))
      · intro jobId job hjob haffected
        refine hspared jobId job hjob ?_
        simp only [disconnectionGivesUp, hrunner, Option.any_some, hrecoverable, haffected]
        simpa using happlies
      · exact .of_jobs_eq (loses_forgetJobRequest state clientId requestId) rfl

end Disconnection

/-! ### Sweeps -/

theorem tracks_applySweepAction (action : TerminalSweepAction) :
    Tracks quoted inner (applySweepAction now inner action) := by
  cases action with
  | observe jobId =>
    exact tracks_modifyJob inner jobId _ fun job _ ↦ reports_observeJobTerminal now job
  | remove _ clientId requestId =>
    exact .of_jobs_eq (loses_removeJobRequestMapping inner clientId requestId)
      (jobsById_of_jobs_eq (jobs_removeJobRequestMapping inner clientId requestId))

theorem tracks_removeExpiredJobs (expired : List (String × String)) :
    Tracks quoted inner (removeExpiredJobs expired inner) := by
  have huncontrolled : ∀ clientIds : List String, Tracks quoted inner
      (clientIds.foldl (fun current clientId ↦
        removeJobControlRequests clientId (expired.map (·.1)) current) inner) := by
    refine fun clientIds ↦ .foldl clientIds (fun state clientId _ ↦ ?_) inner
    exact .of_jobs_eq (loses_removeJobControlRequests state clientId _)
      (jobsById_of_jobs_eq (jobs_removeJobControlRequests state clientId _))
  rw [removeExpiredJobs]
  refine (huncontrolled _).trans (.of_subset (.of_requests_eq rfl) fun _ _ hjob ↦ ?_)
  rw [Table.lookup_keep, Option.filter_eq_some_iff] at hjob
  exact hjob.1

theorem tracks_pruneExpiredTerminalJobs :
    Tracks quoted inner (pruneExpiredTerminalJobs now inner) := by
  have hswept : ∀ actions : List TerminalSweepAction,
      Tracks quoted inner (actions.foldl (applySweepAction now) inner) :=
    fun actions ↦
      .foldl actions (fun state action _ ↦ tracks_applySweepAction state now action) inner
  simp only [pruneExpiredTerminalJobs]
  split
  · exact hswept _
  · exact (hswept _).trans (tracks_removeExpiredJobs _ _)

def sweepGivesUp (job : ShellJobRecord) : Bool :=
  (expiredRunners env now inner).contains job.clientId || isExpiring env now none job

theorem tracks_recoveryTimeoutSweep (hbelong : QueuedJobsBelong inner)
    (hspared : Spares inner fun _ ↦ sweepGivesUp env inner now) :
    Tracks quoted inner (recoveryTimeoutSweep env now inner).1 := by
  have hpruned : Tracks quoted inner (pruneExpiredSharedKeyRunners env now inner).1 :=
    tracks_prune env inner now hbelong (hspared.imp fun _ _ h ↦ by simp only [sweepGivesUp, h]; rfl)
  have hunsuppressed : ∀ state, Tracks quoted state (pruneAllSuppressions now state) :=
    fun state ↦ .of_jobs_eq (.of_requests_eq rfl) rfl
  have hexpiring : Spares inner fun _ ↦ isExpiring env now none :=
    hspared.imp fun _ _ h ↦ by simp [sweepGivesUp, h]
  refine (hpruned.trans (hunsuppressed _)).trans (.trans (tracks_expireRecoveringJobs env _ now
    recoverySweepPassCap (hexpiring.of_keepsTaken ?_)) (tracks_pruneExpiredTerminalJobs _ now))
  exact keepsTaken_prune env inner now

end Functions

end WebCodex.Registry
