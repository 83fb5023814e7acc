import WebCodex.Registry.JobChanges

/-!
Apart from the operations that enqueue a request and the poll that hands one out, the registry
only takes requests away (`Loses`). A waiter that is resolved on the way is resolved once, and one
that is told that its request was not dispatched waited for a request that no runner had taken and
that is no longer pending (`Settles`).
-/

namespace WebCodex.Registry

open Foundation

/-- Where the sending half of a waiter stands. -/
inductive WaiterPlace
  | pendingRequest
  | gateway (gateway : Gateway)
  | persistentShell

structure Waiter where
  place : WaiterPlace
  requestId : String

def Response.waiter : Response → Waiter
  | .shell response => ⟨.pendingRequest, response.requestId⟩
  | .answered gateway requestId => ⟨.gateway gateway, requestId⟩
  | .failed gateway requestId _ _ _ => ⟨.gateway gateway, requestId⟩
  | .persistentShell requestId => ⟨.persistentShell, requestId⟩

@[simp] theorem Response.waiter_requestId (response : Response) :
    response.waiter.requestId = response.requestId := by
  cases response <;> rfl

namespace RunnerRegistryInner

def gatewayWaiters (inner : RunnerRegistryInner) : Gateway → Finset String
  | .mcp => inner.mcpGatewayWaiters
  | .plugin => inner.pluginGatewayWaiters
  | .codingAgent => inner.codingAgentWaiters

/-- Whether the registry still holds the sending half of a waiter. -/
def Waits (inner : RunnerRegistryInner) (waiter : Waiter) : Prop :=
  match waiter.place with
  | .pendingRequest =>
    ∃ pending, inner.pendingById.lookup waiter.requestId = some pending ∧ pending.waiter = true
  | .gateway gateway => waiter.requestId ∈ inner.gatewayWaiters gateway
  | .persistentShell => waiter.requestId ∈ inner.persistentWaiters

end RunnerRegistryInner

/-- Requests, queues and waiters only go away. -/
structure Loses (before after : RunnerRegistryInner) : Prop where
  pending : ∀ requestId pending, after.pendingById.lookup requestId = some pending →
    before.pendingById.lookup requestId = some pending
  queues : ∀ clientId, (queueOf after clientId).Sublist (queueOf before clientId)
  gateways : ∀ gateway, after.gatewayWaiters gateway ⊆ before.gatewayWaiters gateway
  shells : after.persistentWaiters ⊆ before.persistentWaiters

/-- The tables of the registry that requests stand in. -/
structure RequestTables where
  pendingById : Table String PendingShellRequest
  queuesByRunner : Table String (List String)
  gatewayWaiters : Gateway → Finset String
  persistentWaiters : Finset String

def RunnerRegistryInner.requests (inner : RunnerRegistryInner) : RequestTables :=
  ⟨inner.pendingById, inner.queuesByRunner, inner.gatewayWaiters, inner.persistentWaiters⟩

namespace Loses

variable {before middle after : RunnerRegistryInner}

theorem refl (inner : RunnerRegistryInner) : Loses inner inner where
  pending _ _ h := h
  queues _ := List.Sublist.refl _
  gateways _ := Finset.Subset.refl _
  shells := Finset.Subset.refl _

theorem trans (hfirst : Loses before middle) (hlast : Loses middle after) : Loses before after where
  pending requestId pending h := hfirst.pending requestId pending
    (hlast.pending requestId pending h)
  queues clientId := (hlast.queues clientId).trans (hfirst.queues clientId)
  gateways gateway := (hlast.gateways gateway).trans (hfirst.gateways gateway)
  shells := hlast.shells.trans hfirst.shells

/-- A change that leaves requests alone loses none. -/
theorem of_requests_eq (h : after.requests = before.requests) : Loses before after := by
  have hpending : after.pendingById = before.pendingById := congrArg RequestTables.pendingById h
  have hqueues : after.queuesByRunner = before.queuesByRunner :=
    congrArg RequestTables.queuesByRunner h
  have hgateways : after.gatewayWaiters = before.gatewayWaiters :=
    congrArg RequestTables.gatewayWaiters h
  have hshells : after.persistentWaiters = before.persistentWaiters :=
    congrArg RequestTables.persistentWaiters h
  constructor
  · intro _ _ hlookup
    rwa [hpending] at hlookup
  · intro _
    rw [queueOf, hqueues]
    exact List.Sublist.refl _
  · intro _
    rw [hgateways]
  · rw [hshells]

theorem foldl {A : Type} {f : RunnerRegistryInner → A → RunnerRegistryInner}
    (hf : ∀ inner item, Loses inner (f inner item)) (items : List A) (inner : RunnerRegistryInner) :
    Loses inner (items.foldl f inner) := by
  induction items generalizing inner with
  | nil => exact refl inner
  | cons item _ ih => exact (hf inner item).trans (ih (f inner item))

theorem pending_none (h : Loses before after) {requestId : String}
    (hnone : before.pendingById.lookup requestId = none) :
    after.pendingById.lookup requestId = none := by
  cases hafter : after.pendingById.lookup requestId with
  | none => rfl
  | some pending =>
    rw [h.pending requestId pending hafter] at hnone
    exact absurd hnone (Option.some_ne_none pending)

theorem waits (h : Loses before after) {waiter : Waiter} (hwaits : after.Waits waiter) :
    before.Waits waiter := by
  obtain ⟨place, requestId⟩ := waiter
  cases place with
  | pendingRequest =>
    obtain ⟨pending, hpending, hwaiter⟩ := hwaits
    exact ⟨pending, h.pending requestId pending hpending, hwaiter⟩
  | gateway gateway => exact h.gateways gateway hwaits
  | persistentShell => exact h.shells hwaits

end Loses

section Losses

variable (inner : RunnerRegistryInner) (clientId requestId : String)

theorem lookup_dropPending (other : String) :
    (dropPending requestId inner).pendingById.lookup other =
      if other = requestId then none else inner.pendingById.lookup other :=
  Table.lookup_erase_eq requestId inner.pendingById other

theorem loses_dropPending : Loses inner (dropPending requestId inner) where
  pending other pending h := by
    rw [lookup_dropPending] at h
    by_cases hsame : other = requestId
    · simp [hsame] at h
    · simpa [hsame] using h
  queues _ := List.Sublist.refl _
  gateways _ := Finset.Subset.refl _
  shells := Finset.Subset.refl _

theorem queueOf_removeFromQueue (other : String) :
    (queueOf (removeFromQueue clientId requestId inner) other).Sublist (queueOf inner other) := by
  rw [queueOf, removeFromQueue, Table.lookup_modify, queueOf]
  by_cases hsame : other = clientId
  · rw [if_pos hsame]
    cases inner.queuesByRunner.lookup other with
    | none => exact List.Sublist.refl _
    | some => exact List.filter_sublist
  · rw [if_neg hsame]

theorem loses_removeFromQueue : Loses inner (removeFromQueue clientId requestId inner) where
  pending _ _ h := h
  queues := queueOf_removeFromQueue inner clientId requestId
  gateways _ := Finset.Subset.refl _
  shells := Finset.Subset.refl _

theorem loses_removePendingRequest : Loses inner (removePendingRequest requestId inner) where
  pending := (loses_dropPending inner requestId).pending
  queues other := by
    rw [queueOf, removePendingRequest, removeFromQueues, Table.lookup_mapValues]
    show (((inner.queuesByRunner.lookup other).map _).getD []).Sublist (queueOf inner other)
    rw [queueOf]
    cases inner.queuesByRunner.lookup other with
    | none => exact List.Sublist.refl _
    | some => exact List.filter_sublist
  gateways _ := Finset.Subset.refl _
  shells := Finset.Subset.refl _

theorem loses_dropSideTables : Loses inner (dropSideTables requestId inner) where
  pending _ _ h := h
  queues _ := List.Sublist.refl _
  gateways gateway := by
    cases gateway <;> exact Finset.erase_subset _ _
  shells := Finset.erase_subset _ _

theorem loses_dropStale (stale : StaleRequest) : Loses inner (dropStale requestId inner stale) where
  pending other pending h := by
    refine (loses_dropPending inner requestId).pending other pending ?_
    cases stale <;> exact h
  queues other := by
    cases stale <;> exact List.Sublist.refl _
  gateways gateway := by
    cases stale <;> cases gateway <;>
      first
        | exact Finset.Subset.refl _
        | exact Finset.erase_subset _ _
  shells := by
    cases stale <;>
      first
        | exact Finset.Subset.refl _
        | exact Finset.erase_subset _ _

theorem loses_modifyJob (jobId : String) (change : ShellJobRecord → ShellJobRecord) :
    Loses inner (inner.modifyJob jobId change) :=
  .of_requests_eq rfl

theorem loses_removeCleanupTerminalJobs : Loses inner (removeCleanupTerminalJobs inner) :=
  .of_requests_eq rfl

theorem loses_retireInstance (instanceId : String) :
    Loses inner (retireInstance clientId instanceId inner) :=
  .of_requests_eq rfl

theorem loses_cancelRequest : Loses inner (cancelRequest requestId inner).1 :=
  (loses_dropSideTables inner requestId).trans (loses_removePendingRequest _ requestId)

theorem loses_cancelAbandonedSyncRequests (closed : List String) :
    Loses inner (cancelAbandonedSyncRequests closed inner) := by
  refine .foldl (fun current entry ↦ ?_) _ inner
  exact loses_cancelRequest current entry.1

theorem loses_forgetJobRequest : Loses inner (forgetJobRequest clientId requestId inner) := by
  refine .trans ?_ (loses_removeFromQueue _ clientId requestId)
  exact (loses_dropPending inner requestId).trans (.of_requests_eq rfl)

theorem loses_removeJobRequestMapping (requestId : Option String) :
    Loses inner (removeJobRequestMapping clientId requestId inner) := by
  cases requestId with
  | none => exact .refl inner
  | some requestId =>
    refine (loses_dropPending inner requestId).trans (.trans ?_
      (loses_removeFromQueue _ clientId requestId))
    constructor
    · exact fun _ _ h ↦ h
    · exact fun _ ↦ List.Sublist.refl _
    · exact fun _ ↦ Finset.Subset.refl _
    · exact Finset.erase_subset _ _

theorem loses_removeJobControlRequests (jobIds : List String) :
    Loses inner (removeJobControlRequests clientId jobIds inner) := by
  exact .foldl (fun current requestId ↦
    loses_removeJobRequestMapping current clientId (some requestId)) _ inner

theorem loses_forgetRequestsOf (jobs : List (String × ShellJobRecord)) :
    Loses inner (forgetRequestsOf jobs inner) := by
  refine .trans ?_ (.foldl (fun current clientId ↦ ?_) _ _)
  · refine .foldl (fun current entry ↦ ?_) _ inner
    exact loses_removeJobRequestMapping current entry.2.clientId entry.2.requestId
  · exact loses_removeJobControlRequests current clientId _

/-- Forgetting runners takes their requests and their waiters away together. -/
theorem loses_forgetRunners (expired requestIds jobIds : List String) :
    Loses inner (forgetRunners expired requestIds jobIds inner) where
  pending id pending h := by
    rw [forgetRunners, Table.lookup_keep, Option.filter_eq_some_iff] at h
    exact h.1
  queues other := by
    rw [queueOf, forgetRunners, Table.lookup_keep, queueOf]
    cases inner.queuesByRunner.lookup other with
    | none => exact List.Sublist.refl _
    | some =>
      rw [Option.filter_some]
      split_ifs
      · exact List.Sublist.refl _
      · exact List.nil_sublist _
  gateways _ := Finset.Subset.refl _
  shells := Finset.filter_subset _ _

theorem loses_loseRunnerJobs (now : ℤ) (jobIds : List String) :
    Loses inner (loseRunnerJobs now jobIds inner) := by
  exact .foldl (fun current jobId ↦ loses_modifyJob current jobId _) jobIds inner

theorem loses_loseJobs (now : ℤ) (reason : JobRecoveryReason) (message : String)
    (jobs : List (String × ShellJobRecord)) :
    Loses inner (loseJobs clientId now reason message jobs inner) := by
  refine .trans (.foldl (fun current entry ↦ ?_) jobs inner)
    (loses_removeJobControlRequests _ clientId _)
  exact (loses_modifyJob current entry.1 _).trans
    (loses_removeJobRequestMapping _ clientId entry.2.requestId)

theorem loses_terminateInstanceJobs (instanceId : String) (replacement : Option ShellJobInventory)
    (now : ℤ) : Loses inner (terminateInstanceJobs clientId instanceId replacement now inner) :=
  (loses_loseJobs inner clientId now _ _ _).trans (.of_requests_eq rfl)

variable (env : Environment)

theorem loses_expireRecoveringJobs (clientFilter : Option String) (now : ℤ) (passCap : ℕ) :
    Loses inner (expireRecoveringJobs env clientFilter now passCap inner) := by
  simp only [expireRecoveringJobs]
  split
  · exact .refl inner
  · refine .trans (.foldl (fun current entry ↦ ?_) _ inner)
      ((loses_forgetRequestsOf _ _).trans (.of_requests_eq rfl))
    exact loses_modifyJob current entry.1 _

theorem loses_applySweepAction (now : ℤ) (action : TerminalSweepAction) :
    Loses inner (applySweepAction now inner action) := by
  cases action with
  | observe jobId => exact loses_modifyJob inner jobId _
  | remove _ clientId requestId => exact loses_removeJobRequestMapping inner clientId requestId

theorem loses_pruneExpiredTerminalJobs (now : ℤ) :
    Loses inner (pruneExpiredTerminalJobs now inner) := by
  have hswept : ∀ actions : List TerminalSweepAction,
      Loses inner (actions.foldl (applySweepAction now) inner) :=
    fun actions ↦ .foldl (fun current action ↦ loses_applySweepAction current now action)
      actions inner
  simp only [pruneExpiredTerminalJobs]
  split
  · exact hswept _
  · rw [removeExpiredJobs]
    refine (hswept _).trans (.trans (.foldl (fun current clientId ↦ ?_) _ _) (.of_requests_eq rfl))
    exact loses_removeJobControlRequests current clientId _

theorem loses_settleSnapshot (snapshot : ShellJobSnapshot) :
    Loses inner (settleSnapshot clientId snapshot inner) := by
  rw [settleSnapshot]
  split
  · exact loses_removeJobRequestMapping inner clientId _
  · exact .refl inner

theorem loses_reconcileSnapshot (instanceId : String) (authGroup : Option RunnerAccessGroup)
    (now : ℤ) (snapshot : ShellJobSnapshot) :
    Loses inner (reconcileSnapshot clientId instanceId authGroup now inner snapshot) := by
  rw [reconcileSnapshot]
  split
  · split
    · exact .refl inner
    · exact (loses_modifyJob inner snapshot.jobId _).trans
        (loses_settleSnapshot _ clientId snapshot)
  · split
    · exact .refl inner
    · refine Loses.trans ?_ (loses_settleSnapshot _ clientId snapshot)
      exact .of_requests_eq rfl

/-- Reconciliation loses requests and makes none. -/
theorem loses_reconcileInventory (instanceId : String) (authGroup : Option RunnerAccessGroup)
    (inventory : ShellJobInventory) (now : ℤ) :
    Loses inner (reconcileInventory env inner clientId instanceId authGroup inventory now) := by
  have hpruned : Loses inner (pruneAllSuppressions now inner) := .of_requests_eq rfl
  have hswept := hpruned.trans (loses_expireRecoveringJobs _ env (some clientId) now
    recoverySweepPassCap)
  refine hswept.trans ((loses_loseJobs _ clientId now _ _ _).trans
    (.trans (.foldl (fun current snapshot ↦ ?_) inventory.jobs _)
      (loses_removeCleanupTerminalJobs _)))
  exact loses_reconcileSnapshot current clientId instanceId authGroup now snapshot

theorem loses_refreshJobStatus (now : ℤ) (jobId : String) :
    Loses inner (refreshJobStatus env now jobId inner) :=
  loses_modifyJob inner jobId _

theorem loses_refreshAllJobs (now : ℤ) : Loses inner (refreshAllJobs env now inner) := by
  exact .foldl (fun current jobId ↦ loses_refreshJobStatus current env now jobId) _ inner

theorem loses_touchIfCurrent (connectionId : Option String) (now : ℤ) :
    Loses inner (touchIfCurrent clientId connectionId now inner) := by
  rw [touchIfCurrent]
  split_ifs
  · exact .of_requests_eq rfl
  · exact .refl inner

theorem loses_forgetStartRequest (job : ShellJobRecord) :
    Loses inner (forgetStartRequest job inner) := by
  rw [forgetStartRequest]
  split
  · exact .refl inner
  · exact (loses_removePendingRequest inner _).trans (.of_requests_eq rfl)

theorem loses_settleUpdatedJob (old new : ShellJobRecord) (jobId : String) :
    Loses inner (settleUpdatedJob old new jobId inner) := by
  simp only [settleUpdatedJob]
  split
  · cases old.requestId with
    | none =>
      split
      · exact .of_requests_eq rfl
      · exact .refl inner
    | some requestId =>
      have hunrequested : Loses inner { dropPending requestId inner with
          requestToJob := inner.requestToJob.erase requestId } :=
        (loses_dropPending inner _).trans (.of_requests_eq rfl)
      split
      · exact hunrequested.trans (.of_requests_eq rfl)
      · exact hunrequested
  · exact .refl inner

theorem loses_applyUpdate (checks : Checks) (job : ShellJobRecord)
    (update : RunnerJobUpdateRequest) (lifecycle : RunnerJobLifecycle) (now : ℤ) :
    Loses inner (applyUpdate checks inner job update lifecycle now).state := by
  have hset : ∀ record, Loses inner (inner.setJob update.jobId record) :=
    fun record ↦ .of_requests_eq rfl
  simp only [applyUpdate]
  split
  · exact (hset _).trans (loses_settleUpdatedJob _ _ _ _)
  · split
    · exact hset _
    · exact (hset _).trans (loses_settleUpdatedJob _ _ _ _)

/-- An update loses requests and makes none. -/
theorem loses_updateJobChecked (update : RunnerJobUpdateRequest) (connectionId : Option String)
    (now : ℤ) :
    Loses inner (updateJobChecked env inner update connectionId now).state := by
  have htouched := loses_touchIfCurrent inner update.clientId connectionId now
  simp only [updateJobChecked]
  split
  · exact .refl inner
  · split
    · exact .refl inner
    · split
      · exact .refl inner
      · split
        · exact htouched
        · split
          · exact htouched
          · split_ifs
            · exact htouched
            · exact htouched
            · exact htouched.trans (loses_applyUpdate _ _ _ _ _ _)

theorem loses_promoteHiddenJob (jobId : String) (now : ℤ) :
    Loses inner (promoteHiddenJob env inner jobId now).state := by
  have hfresh := loses_refreshJobStatus inner env now jobId
  simp only [promoteHiddenJob]
  split
  · exact hfresh
  · split_ifs
    · exact hfresh
    · exact hfresh
    · exact hfresh.trans (loses_modifyJob _ jobId _)

theorem loses_removeProjected (jobId : String) (now : ℤ) :
    Loses inner (removeProjectedHiddenTerminalJobRecord inner jobId now).1 := by
  rw [removeProjectedHiddenTerminalJobRecord]
  split
  · exact .refl inner
  · rename_i job _
    split
    · exact .refl inner
    · rename_i requestId _
      split_ifs
      · exact .refl inner
      · refine .trans ?_ (loses_removeFromQueue _ job.clientId requestId)
        exact (loses_dropPending inner requestId).trans (.of_requests_eq rfl)

theorem loses_beginProjectUnregister (access : Option RunnerAccess) (projectId : String) (now : ℤ) :
    Loses inner (beginProjectUnregister env inner access projectId now).state := by
  have hfresh := loses_refreshAllJobs inner env now
  simp only [beginProjectUnregister]
  split_ifs
  · exact hfresh.trans (.of_requests_eq rfl)
  · exact hfresh

theorem loses_disconnectJob (recoverable : Bool) (now : ℤ) (entry : String × ShellJobRecord) :
    Loses inner (disconnectJob clientId recoverable now inner entry) := by
  have hchanged := loses_modifyJob inner entry.1 (disconnectedJob recoverable now)
  simp only [disconnectJob]
  split
  · exact hchanged
  · exact hchanged.trans (loses_forgetJobRequest _ clientId _)

end Losses

end WebCodex.Registry
