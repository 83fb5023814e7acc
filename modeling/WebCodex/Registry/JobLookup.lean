import WebCodex.Registry.JobEvolution

/-!
What the stages of a registration leave under one job id: the sweep of jobs whose recovery took too
long, the loss of missing or abandoned jobs, and the loop over the snapshots of the inventory.
-/

namespace WebCodex.Registry

open Foundation

variable (env : Environment) (now : ℤ)

variable {inner : RunnerRegistryInner}

theorem mem_jobsWhere {p : String → ShellJobRecord → Bool} {entry : String × ShellJobRecord} :
    entry ∈ jobsWhere p inner ↔
      inner.jobsById.lookup entry.1 = some entry.2 ∧ p entry.1 entry.2 = true := by
  obtain ⟨jobId, job⟩ := entry
  simp only [jobsWhere, List.mem_map, List.mem_filter, Table.mem_entries, Prod.mk.injEq]
  constructor
  · rintro ⟨_, hfound, rfl, rfl⟩
    exact hfound
  · intro h
    exact ⟨⟨jobId, job⟩, h, rfl, rfl⟩

theorem jobsWhere_ids_nodup (p : String → ShellJobRecord → Bool) (inner : RunnerRegistryInner) :
    ((jobsWhere p inner).map Prod.fst).Nodup := by
  have hkeys : ((jobsWhere p inner).map Prod.fst) =
      (inner.jobsById.entries.filter fun entry ↦ p entry.1 entry.2).keys := by
    simp [jobsWhere, List.keys, Function.comp_def]
  rw [hkeys]
  exact inner.jobsById.nodupKeys.sublist List.filter_sublist

/-- An expiring job is a known job that recovers, for the client in question, beyond its
deadline. -/
theorem mem_expiring {clientFilter : Option String} {passCap : ℕ} {entry : String × ShellJobRecord}
    (h : entry ∈ expiring env clientFilter now passCap inner) :
    inner.jobsById.lookup entry.1 = some entry.2 ∧ entry.2.recoveryActive = true ∧
      (clientFilter.all fun clientId ↦ entry.2.clientId == clientId) = true ∧
      recoveryExpired env now entry.2 = true := by
  rw [expiring, List.mem_map] at h
  obtain ⟨_, hfound, rfl⟩ := h
  have hfiltered := List.mem_filter.mp (List.mem_of_mem_take hfound)
  simp only [Bool.and_eq_true] at hfiltered
  exact ⟨Table.mem_entries.mp hfiltered.1, hfiltered.2.1.1, hfiltered.2.1.2, hfiltered.2.2⟩

variable (clientFilter : Option String)

theorem expiring_ids_nodup (passCap : ℕ) (inner : RunnerRegistryInner) :
    ((expiring env clientFilter now passCap inner).map Prod.fst).Nodup := by
  have hsub : ((expiring env clientFilter now passCap inner).map Prod.fst).Sublist
      inner.jobsById.entries.keys := by
    simp only [expiring, List.map_map]
    exact ((List.take_sublist _ _).trans List.filter_sublist).map _
  exact hsub.nodup inner.jobsById.keys_nodup

variable {jobId : String}

/-- An id is among those of a list of jobs when its record is. -/
theorem mem_expiring_ids {clientFilter : Option String} {passCap : ℕ} {job : ShellJobRecord}
    (hjob : inner.jobsById.lookup jobId = some job) :
    jobId ∈ (expiring env clientFilter now passCap inner).map Prod.fst ↔
      (jobId, job) ∈ expiring env clientFilter now passCap inner := by
  constructor
  · intro h
    obtain ⟨⟨_, _⟩, hfound, rfl⟩ := List.mem_map.mp h
    have hsame := (mem_expiring env now hfound).1.symm.trans hjob
    rw [Option.some.injEq] at hsame
    exact hsame ▸ hfound
  · intro h
    exact List.mem_map.mpr ⟨(jobId, job), h, rfl⟩

/-- Changing the listed jobs is changing the jobs that satisfy the predicate of the list. -/
theorem ite_mem_jobsWhere (p : String → ShellJobRecord → Bool) (inner : RunnerRegistryInner)
    (jobId : String) (f : ShellJobRecord → ShellJobRecord) :
    (if jobId ∈ (jobsWhere p inner).map Prod.fst then (inner.jobsById.lookup jobId).map f
      else inner.jobsById.lookup jobId) =
      (inner.jobsById.lookup jobId).map fun job ↦ if p jobId job then f job else job := by
  cases hjob : inner.jobsById.lookup jobId with
  | none => simp
  | some job =>
    have hmem : jobId ∈ (jobsWhere p inner).map Prod.fst ↔ p jobId job = true := by
      constructor
      · intro h
        obtain ⟨⟨_, _⟩, hfound, rfl⟩ := List.mem_map.mp h
        have hentry := mem_jobsWhere.mp hfound
        have hsame := hentry.1.symm.trans hjob
        rw [Option.some.injEq] at hsame
        exact hsame ▸ hentry.2
      · intro h
        exact List.mem_map.mpr ⟨(jobId, job), mem_jobsWhere.mpr ⟨hjob, h⟩, rfl⟩
    simp only [hmem, Option.map_some]
    split_ifs
    · rfl
    · rfl

variable (clientId : String)

/-- Losing the jobs of a kind, seen job by job. -/
theorem lookup_loseJobs (reason : JobRecoveryReason) (message : String)
    (p : String → ShellJobRecord → Bool) (inner : RunnerRegistryInner) (jobId : String) :
    (loseJobs clientId now reason message (jobsWhere p inner) inner).jobsById.lookup jobId =
      (inner.jobsById.lookup jobId).map fun job ↦
        if p jobId job then markJobLost now reason message job else job := by
  rw [loseJobs, jobsById_of_jobs_eq (jobs_removeJobControlRequests _ _ _),
    Table.lookup_foldl_modify RunnerRegistryInner.jobsById _ Prod.fst
      (markJobLost now reason message)
      (fun _ _ ↦ jobsById_of_jobs_eq (jobs_removeJobRequestMapping _ _ _)) _
      (jobsWhere_ids_nodup p inner)]
  exact ite_mem_jobsWhere p inner jobId _

/-- A record that only waits for its removal. -/
def awaitsRemoval (job : ShellJobRecord) : Bool :=
  job.visibility == .cleanupPending && job.lifecycle.isTerminal

theorem lookup_removeCleanupTerminalJobs (inner : RunnerRegistryInner) (jobId : String) :
    (removeCleanupTerminalJobs inner).jobsById.lookup jobId =
      (inner.jobsById.lookup jobId).filter fun job ↦ !awaitsRemoval job :=
  Table.lookup_keep _ inner.jobsById jobId

/-- The sweep loses a job exactly when it is among the expiring ones. -/
theorem lookup_expireRecoveringJobs (passCap : ℕ) (inner : RunnerRegistryInner) (jobId : String) :
    (expireRecoveringJobs env clientFilter now passCap inner).jobsById.lookup jobId =
      let expired := expiring env clientFilter now passCap inner
      if expired.isEmpty then inner.jobsById.lookup jobId
      else
        (if jobId ∈ expired.map Prod.fst then
          (inner.jobsById.lookup jobId).map (expiredJob now)
        else inner.jobsById.lookup jobId).filter fun job ↦ !awaitsRemoval job := by
  simp only [expireRecoveringJobs]
  split_ifs with hempty hmem
  · rfl
  all_goals
    rw [lookup_removeCleanupTerminalJobs, jobsById_of_jobs_eq (jobs_forgetRequestsOf _ _),
      Table.lookup_foldl_modify RunnerRegistryInner.jobsById _ Prod.fst (expiredJob now)
        (fun _ _ ↦ rfl) _ (expiring_ids_nodup env now clientFilter passCap inner)]
    simp [hmem]

section Sweep

variable {clientFilter : Option String} {passCap : ℕ} {inner : RunnerRegistryInner}
  {jobId : String} {job : ShellJobRecord}

/-- The sweep leaves a job alone that it does not select and that does not wait for its removal. -/
theorem lookup_expire_of_notMem (hjob : inner.jobsById.lookup jobId = some job)
    (hkept : awaitsRemoval job = false)
    (hnot : (jobId, job) ∉ expiring env clientFilter now passCap inner) :
    (expireRecoveringJobs env clientFilter now passCap inner).jobsById.lookup jobId = some job := by
  have hid := (mem_expiring_ids env now hjob).not.mpr hnot
  rw [lookup_expireRecoveringJobs]
  simp only [if_neg hid]
  split_ifs
  · exact hjob
  · simp [hjob, hkept]

/-- The sweep declares a job that it selects lost, and removes it when it waited for cleanup. -/
theorem lookup_expire_of_mem (hmem : (jobId, job) ∈ expiring env clientFilter now passCap inner) :
    (expireRecoveringJobs env clientFilter now passCap inner).jobsById.lookup jobId =
      (some (expiredJob now job)).filter fun job ↦ !awaitsRemoval job := by
  have hjob := (mem_expiring env now hmem).1
  have hsome : (expiring env clientFilter now passCap inner).isEmpty = false :=
    List.isEmpty_eq_false_iff.mpr (List.ne_nil_of_mem hmem)
  rw [lookup_expireRecoveringJobs]
  simp [hsome, mem_expiring_ids env now hjob, hmem, hjob]

end Sweep

/-- The jobs of runners that are forgotten are lost, and all others are as they were. -/
theorem lookup_pruneExpiredSharedKeyRunners (inner : RunnerRegistryInner) (jobId : String) :
    (pruneExpiredSharedKeyRunners env now inner).1.jobsById.lookup jobId =
      (inner.jobsById.lookup jobId).map fun job ↦
        if (expiredRunners env now inner).contains job.clientId then
          markJobLost now .sharedKeyRunnerExpired
            "shared-key runner registration expired after being offline" job
        else job := by
  simp only [pruneExpiredSharedKeyRunners]
  split_ifs with hempty
  · have hnone : expiredRunners env now inner = [] := List.isEmpty_iff.mp hempty
    simp [hnone]
  · rw [jobsById_of_jobs_eq (jobs_forgetRunners _ _ _ _), loseRunnerJobs,
      Table.lookup_foldl_modify RunnerRegistryInner.jobsById _ id
        (markJobLost now .sharedKeyRunnerExpired
          "shared-key runner registration expired after being offline")
        (fun _ _ ↦ rfl) _ (by simpa using jobsWhere_ids_nodup _ inner),
      jobsById_of_jobs_eq (jobs_resolveDisconnectedRunners _ _ _), List.map_id]
    exact ite_mem_jobsWhere (fun _ job ↦ (expiredRunners env now inner).contains job.clientId) inner
      jobId _

def RunnerRegistryInner.leases (inner : RunnerRegistryInner) :
    Table String RunnerRecord × Table String (List String) :=
  (inner.runners, inner.retiredInstances)

theorem runners_of_leases_eq {before after : RunnerRegistryInner}
    (h : after.leases = before.leases) :
    after.runners = before.runners :=
  congrArg Prod.fst h

section Frames

variable (inner : RunnerRegistryInner) (clientId : String)

@[simp] theorem leases_removeJobRequestMapping (requestId : Option String) :
    (removeJobRequestMapping clientId requestId inner).leases = inner.leases := by
  cases requestId <;> rfl

@[simp] theorem leases_removeJobControlRequests (jobIds : List String) :
    (removeJobControlRequests clientId jobIds inner).leases = inner.leases := by
  refine foldl_view_eq RunnerRegistryInner.leases _ (fun state item ↦ ?_) _ inner
  exact leases_removeJobRequestMapping state clientId (some item)

@[simp] theorem leases_forgetRequestsOf (jobs : List (String × ShellJobRecord)) :
    (forgetRequestsOf jobs inner).leases = inner.leases := by
  refine (foldl_view_eq RunnerRegistryInner.leases _ (fun state item ↦ ?_) _ _).trans
    (foldl_view_eq RunnerRegistryInner.leases _ (fun state item ↦ ?_) _ inner)
  · exact leases_removeJobControlRequests state item _
  · exact leases_removeJobRequestMapping state _ _

@[simp] theorem leases_expireRecoveringJobs (clientFilter : Option String) (passCap : ℕ) :
    (expireRecoveringJobs env clientFilter now passCap inner).leases = inner.leases := by
  simp only [expireRecoveringJobs]
  split
  · rfl
  · refine (leases_forgetRequestsOf _ _).trans
      (foldl_view_eq RunnerRegistryInner.leases _ (fun _ _ ↦ ?_) _ inner)
    rfl

@[simp] theorem leases_loseJobs (reason : JobRecoveryReason) (message : String)
    (jobs : List (String × ShellJobRecord)) :
    (loseJobs clientId now reason message jobs inner).leases = inner.leases := by
  rw [loseJobs, leases_removeJobControlRequests]
  refine foldl_view_eq RunnerRegistryInner.leases _ (fun _ _ ↦ ?_) jobs inner
  exact leases_removeJobRequestMapping _ clientId _

@[simp] theorem leases_resolveDisconnectedSyncRequests (error : String) :
    (resolveDisconnectedSyncRequests clientId error inner).1.leases = inner.leases := by
  refine foldl_view_eq (fun pair : RunnerRegistryInner × List Response ↦ pair.1.leases) _
    (fun _ _ ↦ ?_) _ (inner, [])
  rw [resolveDisconnected]
  split
  · rfl
  · rfl

@[simp] theorem leases_resolveDisconnectedRunners (error : String) (clientIds : List String) :
    (resolveDisconnectedRunners error clientIds inner).1.leases = inner.leases := by
  refine foldl_view_eq (fun pair : RunnerRegistryInner × List Response ↦ pair.1.leases) _
    (fun state item ↦ ?_) _ (inner, [])
  exact leases_resolveDisconnectedSyncRequests state.1 item error

@[simp] theorem leases_loseRunnerJobs (jobIds : List String) :
    (loseRunnerJobs now jobIds inner).leases = inner.leases := by
  refine foldl_view_eq RunnerRegistryInner.leases _ (fun _ _ ↦ ?_) jobIds inner
  rfl

@[simp] theorem leases_settleSnapshot (snapshot : ShellJobSnapshot) :
    (settleSnapshot clientId snapshot inner).leases = inner.leases := by
  rw [settleSnapshot]
  split_ifs
  · exact leases_removeJobRequestMapping inner clientId _
  · rfl

@[simp] theorem leases_reconcileSnapshot (instanceId : String)
    (authGroup : Option RunnerAccessGroup) (snapshot : ShellJobSnapshot) :
    (reconcileSnapshot clientId instanceId authGroup now inner snapshot).leases = inner.leases := by
  simp only [reconcileSnapshot]
  split
  · split
    · rfl
    · exact leases_settleSnapshot _ clientId snapshot
  · split
    · rfl
    · exact leases_settleSnapshot _ clientId snapshot

end Frames

section Loop

variable (clientId instanceId : String) (authGroup : Option RunnerAccessGroup)

@[simp] theorem jobsById_settleSnapshot (snapshot : ShellJobSnapshot)
    (inner : RunnerRegistryInner) :
    (settleSnapshot clientId snapshot inner).jobsById = inner.jobsById := by
  rw [settleSnapshot]
  split_ifs
  · exact jobsById_of_jobs_eq (jobs_removeJobRequestMapping _ _ _)
  · rfl

/-- A snapshot touches its own job only. -/
theorem lookup_reconcileSnapshot_ne {snapshot : ShellJobSnapshot} (hne : jobId ≠ snapshot.jobId)
    (inner : RunnerRegistryInner) :
    (reconcileSnapshot clientId instanceId authGroup now inner snapshot).jobsById.lookup jobId =
      inner.jobsById.lookup jobId := by
  simp only [reconcileSnapshot]
  split
  · split_ifs
    · rfl
    · rw [jobsById_settleSnapshot, RunnerRegistryInner.modifyJob]
      exact Table.lookup_modify_ne hne _ _
  · split_ifs
    · rfl
    · rw [jobsById_settleSnapshot, RunnerRegistryInner.addJob]
      exact AList.lookup_insert_ne hne

/-- What a snapshot leaves of its own job. -/
theorem lookup_reconcileSnapshot_self (inner : RunnerRegistryInner) (snapshot : ShellJobSnapshot) :
    (reconcileSnapshot clientId instanceId authGroup now inner snapshot).jobsById.lookup
        snapshot.jobId =
      match inner.jobsById.lookup snapshot.jobId with
      | some job =>
        if leavesJob instanceId job snapshot then some job
        else some (reconciledJob instanceId snapshot now job)
      | none =>
        if suppressesSnapshot inner clientId instanceId now snapshot then none
        else some (rebuiltJob inner clientId instanceId authGroup snapshot now) := by
  cases hjob : inner.jobsById.lookup snapshot.jobId with
  | some =>
    simp only [reconcileSnapshot, hjob]
    split_ifs
    · exact hjob
    · rw [jobsById_settleSnapshot, RunnerRegistryInner.modifyJob, Table.lookup_modify_self, hjob]
      rfl
  | none =>
    simp only [reconcileSnapshot, hjob]
    split_ifs
    · exact hjob
    · rw [jobsById_settleSnapshot, RunnerRegistryInner.addJob]
      exact AList.lookup_insert _

/-- Snapshots of other jobs leave a job as it is. -/
theorem lookup_foldl_reconcileSnapshot_of_notMem (snapshots : List ShellJobSnapshot)
    (hnot : jobId ∉ snapshots.map (·.jobId)) (inner : RunnerRegistryInner) :
    (snapshots.foldl (reconcileSnapshot clientId instanceId authGroup now) inner).jobsById.lookup
      jobId = inner.jobsById.lookup jobId := by
  induction snapshots generalizing inner with
  | nil => rfl
  | cons _ _ ih =>
    rw [List.map_cons, List.mem_cons, not_or] at hnot
    rw [List.foldl_cons, ih hnot.2]
    exact lookup_reconcileSnapshot_ne now clientId instanceId authGroup hnot.1 inner

/-- The loop does to a job what its one snapshot does, in a state with the same record for it and
the same runners. -/
theorem lookup_foldl_reconcileSnapshot {snapshots : List ShellJobSnapshot}
    {snapshot : ShellJobSnapshot} (hnodup : (snapshots.map (·.jobId)).Nodup)
    (hmem : snapshot ∈ snapshots) (inner : RunnerRegistryInner) :
    ∃ state : RunnerRegistryInner,
      state.jobsById.lookup snapshot.jobId = inner.jobsById.lookup snapshot.jobId ∧
      state.runners = inner.runners ∧
      (snapshots.foldl (reconcileSnapshot clientId instanceId authGroup now) inner).jobsById.lookup
        snapshot.jobId =
        (reconcileSnapshot clientId instanceId authGroup now state snapshot).jobsById.lookup
          snapshot.jobId := by
  induction snapshots generalizing inner with
  | nil => simp at hmem
  | cons first rest ih =>
    rw [List.map_cons, List.nodup_cons] at hnodup
    rcases List.mem_cons.mp hmem with rfl | hrest
    · refine ⟨inner, rfl, rfl, ?_⟩
      exact lookup_foldl_reconcileSnapshot_of_notMem now clientId instanceId authGroup rest
        hnodup.1 _
    · have hne : snapshot.jobId ≠ first.jobId := by
        intro hsame
        exact hnodup.1 (hsame ▸ List.mem_map_of_mem hrest)
      obtain ⟨state, hlookup, hrunners, hresult⟩ := ih hnodup.2 hrest
        (reconcileSnapshot clientId instanceId authGroup now inner first)
      refine ⟨state, hlookup.trans ?_, hrunners.trans ?_, hresult⟩
      · exact lookup_reconcileSnapshot_ne now clientId instanceId authGroup hne inner
      · exact runners_of_leases_eq
          (leases_reconcileSnapshot now inner clientId instanceId authGroup first)

end Loop

end WebCodex.Registry
