import WebCodex.Foundation.Delivery
import WebCodex.Registry.RequestSteps

/-!
Along a run a ledger is kept of the requests that were enqueued, handed out and denied, and of the
waiters that were resolved (`Ledger`). The books are in order when queues and log agree
(`InOrder`), what is pending was enqueued, and what was denied is gone and was never handed out
(`Account.Sound`). A run draws no id twice; it keeps its books in order when no step denies a job
that its runner has taken (`deniesTakenJob`).
-/

namespace WebCodex.Registry

open Foundation Foundation.Delivery

/-! ### The ledger -/

/-- What happened to requests so far, by the runner and the id of a request. -/
structure Ledger where
  enqueued : List (String × String) := []
  handed : List (String × String) := []
  resolved : List Waiter := []
  denied : List String := []

structure Account where
  state : RunnerRegistryInner
  ledger : Ledger := {}

section Entries

variable (env : Environment) (inner : RunnerRegistryInner) (operation : Operation)

/-- The request that a step enqueues: the one whose id it draws, when it is pending afterwards. -/
def enqueuedBy : List (String × String) :=
  match operation.drawnRequest with
  | none => []
  | some requestId =>
    match (step env inner operation).state.pendingById.lookup requestId with
    | none => []
    | some pending => [(pending.request.clientId, requestId)]

/-- The request that a poll returns to its runner. -/
def handedBy : List (String × String) :=
  match operation with
  | .poll clientId _ _ _ =>
    ((step env inner operation).handed.map fun request ↦ (clientId, request.requestId)).toList
  | _ => []

/-- The request that a caller cancels and is told that it was not dispatched. -/
def cancelledBy : List String :=
  match operation with
  | .cancel requestId => if (cancelRequest requestId inner).2 = some false then [requestId] else []
  | _ => []

/-- The requests of the jobs that the registry itself newly declares not started. -/
def declaredBy : List String :=
    (step env inner operation).state.jobsById.entries.filterMap fun entry ↦
    if entry.2.saysNotStarted && !operation.quotes entry.1 &&
        !(inner.jobsById.lookup entry.1).any fun old ↦
          old.handle == entry.2.handle && old.saysNotStarted then
      entry.2.requestId
    else none

/-- The requests about which somebody is told that they were not dispatched. -/
def deniedBy : List String :=
  ((step env inner operation).responses.filter Response.saysNotDispatched).map Response.requestId ++
    (cancelledBy inner operation ++ declaredBy env inner operation)

end Entries

def Account.step (env : Environment) (account : Account) (operation : Operation) : Account where
  state := (Registry.step env account.state operation).state
  ledger :=
    { enqueued := account.ledger.enqueued ++ enqueuedBy env account.state operation
      handed := account.ledger.handed ++ handedBy env account.state operation
      resolved := account.ledger.resolved ++
        (Registry.step env account.state operation).responses.map Response.waiter
      denied := account.ledger.denied ++ deniedBy env account.state operation }

def Account.run (env : Environment) (account : Account) (operations : List Operation) : Account :=
  operations.foldl (Account.step env) account

/-! ### Books in order -/

def Ledger.enqueuedIds (ledger : Ledger) : List String := ledger.enqueued.map Prod.snd
def Ledger.handedIds (ledger : Ledger) : List String := ledger.handed.map Prod.snd

/-- A queued job whose request nobody has taken. -/
structure AwaitsPickup (state : RunnerRegistryInner) (ledger : Ledger) (jobId : String)
    (job : ShellJobRecord) (requestId : String) : Prop where
  enqueued : requestId ∈ ledger.enqueuedIds
  unhanded : requestId ∉ ledger.handedIds
  pending : ∀ pending, state.pendingById.lookup requestId = some pending →
    pending.request.operation = .job (.start jobId) ∧ pending.jobId = some jobId ∧
      pending.request.clientId = job.clientId

structure Account.Sound (account : Account) : Prop where
  order : InOrder (queueOf account.state) account.ledger.enqueued account.ledger.handed
  pending : ∀ requestId pending, account.state.pendingById.lookup requestId = some pending →
    pending.request.requestId = requestId ∧
      (pending.request.clientId, requestId) ∈ account.ledger.enqueued ∧
      (requestId ∈ account.ledger.handedIds → pending.dispatched = true)
  waits : ∀ waiter, account.state.Waits waiter → waiter.requestId ∈ account.ledger.enqueuedIds
  distinct : account.ledger.resolved.Nodup
  resolved : ∀ waiter ∈ account.ledger.resolved,
    waiter.requestId ∈ account.ledger.enqueuedIds ∧ ¬account.state.Waits waiter
  denied : ∀ requestId ∈ account.ledger.denied, requestId ∈ account.ledger.enqueuedIds ∧
    requestId ∉ account.ledger.handedIds ∧ account.state.pendingById.lookup requestId = none
  queued : ∀ jobId job requestId, account.state.jobsById.lookup jobId = some job →
    job.lifecycle = .queued → job.requestId = some requestId →
    AwaitsPickup account.state account.ledger jobId job requestId

variable {requestId : String} {pending : PendingShellRequest}

namespace Account.Sound

variable {state after : RunnerRegistryInner} {ledger : Ledger}

theorem mem_enqueuedIds (h : Sound ⟨state, ledger⟩)
    (hpending : state.pendingById.lookup requestId = some pending) :
    requestId ∈ ledger.enqueuedIds :=
  List.mem_map.mpr ⟨_, (h.pending requestId pending hpending).2.1, rfl⟩

theorem queuedJobsBelong (h : Sound ⟨state, ledger⟩) : QueuedJobsBelong state :=
  fun jobId job requestId pending hjob hqueued hrequest hpending ↦
    ((h.queued jobId job requestId hjob hqueued hrequest).pending pending hpending).2.2

/-- A pending request that no runner has taken was not handed out. -/
theorem notMem_handedIds_of_untaken (h : Sound ⟨state, ledger⟩)
    (huntaken : Untaken state requestId) :
    requestId ∉ ledger.handedIds := by
  obtain ⟨pending, hpending, hstate⟩ := huntaken
  intro hhanded
  rcases hstate with hstate | ⟨clientId, hmem⟩
  · have hdispatched := (h.pending requestId pending hpending).2.2 hhanded
    rw [hstate] at hdispatched
    exact absurd hdispatched Bool.false_ne_true
  · exact h.order.notMem_handed_of_mem_queue hmem hhanded

/-- The books after waiters were settled. -/
theorem settle (h : Sound ⟨state, ledger⟩) {responses : List Response} {quoted : String → Prop}
    (hsettles : Settles state after responses) (htracks : Tracks quoted state after) :
    Sound ⟨after, { ledger with
      resolved := ledger.resolved ++ responses.map Response.waiter
      denied := ledger.denied ++
        (responses.filter Response.saysNotDispatched).map Response.requestId }⟩ where
  order := h.order.shrink hsettles.loses.queues
  pending requestId pending hpending :=
    h.pending requestId pending (hsettles.loses.pending requestId pending hpending)
  waits waiter hwaits := h.waits waiter (hsettles.loses.waits hwaits)
  distinct := by
    rw [List.nodup_append]
    refine ⟨h.distinct, hsettles.distinct, ?_⟩
    rintro waiter hearly _ hlate rfl
    obtain ⟨response, hresponse, rfl⟩ := List.mem_map.mp hlate
    exact (h.resolved _ hearly).2 (hsettles.resolved response hresponse).1
  resolved waiter hmem := by
    rcases List.mem_append.mp hmem with hmem | hmem
    · obtain ⟨henqueued, hgone⟩ := h.resolved waiter hmem
      exact ⟨henqueued, fun hwaits ↦ hgone (hsettles.loses.waits hwaits)⟩
    · obtain ⟨response, hresponse, rfl⟩ := List.mem_map.mp hmem
      obtain ⟨hbefore, hgone⟩ := hsettles.resolved response hresponse
      exact ⟨h.waits _ hbefore, hgone⟩
  denied requestId hmem := by
    rcases List.mem_append.mp hmem with hmem | hmem
    · obtain ⟨henqueued, hunhanded, hgone⟩ := h.denied requestId hmem
      exact ⟨henqueued, hunhanded, hsettles.loses.pending_none hgone⟩
    · obtain ⟨response, hresponse, rfl⟩ := List.mem_map.mp hmem
      obtain ⟨hmem, hclaim⟩ := List.mem_filter.mp hresponse
      obtain ⟨huntaken, hgone⟩ := hsettles.honest response hmem hclaim
      refine ⟨?_, h.notMem_handedIds_of_untaken huntaken, hgone⟩
      obtain ⟨pending, hpending, -⟩ := huntaken
      exact h.mem_enqueuedIds hpending
  queued jobId job requestId hjob hqueued hrequest := by
    rcases htracks.origin jobId job hjob with ⟨hopen, -⟩ | ⟨old, hold, hreports⟩
    · exact absurd hqueued hopen
    · have hawaits := h.queued jobId old requestId hold (hreports.queued hqueued)
        (hreports.requestId_eq.symm.trans hrequest)
      refine ⟨hawaits.enqueued, hawaits.unhanded, fun pending hpending ↦ ?_⟩
      rw [hreports.clientId_eq]
      exact hawaits.pending pending (hsettles.loses.pending requestId pending hpending)

/-- The books after more requests were denied. -/
theorem deny (h : Sound ⟨state, ledger⟩) {requestIds : List String}
    (hdenied : ∀ requestId ∈ requestIds, requestId ∈ ledger.enqueuedIds ∧
      requestId ∉ ledger.handedIds ∧ state.pendingById.lookup requestId = none) :
    Sound ⟨state, { ledger with denied := ledger.denied ++ requestIds }⟩ :=
  { h with
    denied := fun requestId hmem ↦
      (List.mem_append.mp hmem).elim (h.denied requestId) (hdenied requestId)
    queued := fun jobId job requestId hjob hqueued hrequest ↦
      let ⟨henqueued, hunhanded, hpending⟩ := h.queued jobId job requestId hjob hqueued hrequest
      ⟨henqueued, hunhanded, hpending⟩ }

end Account.Sound

/-! ### Handing out -/

section Dispatch

variable (inner : RunnerRegistryInner) (requestId : String) (pending : PendingShellRequest)
    (now : ℤ)

/-- A request that is handed out is marked or forgotten, and every other stays as it is. -/
theorem lookup_dispatchRequest {other : String} {found : PendingShellRequest}
    (h : (dispatchRequest inner requestId pending now).pendingById.lookup other = some found) :
    (other = requestId ∧ found = { pending with dispatched := true }) ∨
      (other ≠ requestId ∧ inner.pendingById.lookup other = some found) := by
  have hmarked : (inner.pendingById.insert requestId
      { pending with dispatched := true }).lookup other = some found →
      (other = requestId ∧ found = { pending with dispatched := true }) ∨
        (other ≠ requestId ∧ inner.pendingById.lookup other = some found) := by
    intro hfound
    rw [Table.lookup_insert_eq] at hfound
    by_cases hsame : other = requestId
    · rw [if_pos hsame, Option.some.injEq] at hfound
      exact Or.inl ⟨hsame, hfound.symm⟩
    · rw [if_neg hsame] at hfound
      exact Or.inr ⟨hsame, hfound⟩
  simp only [dispatchRequest] at h
  split at h
  · rw [lookup_dropPending] at h
    split_ifs at h with hsame
    exact Or.inr ⟨hsame, h⟩
  · split at h
    · exact hmarked h
    · exact hmarked h

theorem requests_dispatchRequest :
    (dispatchRequest inner requestId pending now).queuesByRunner = inner.queuesByRunner ∧
      (dispatchRequest inner requestId pending now).gatewayWaiters = inner.gatewayWaiters ∧
      (dispatchRequest inner requestId pending now).persistentWaiters =
        inner.persistentWaiters := by
  simp only [dispatchRequest]
  split
  · exact ⟨rfl, rfl, rfl⟩
  · split
    · exact ⟨rfl, rfl, rfl⟩
    · exact ⟨rfl, rfl, rfl⟩

/-- The job of a request that is handed out leaves the queued state. -/
theorem jobs_dispatchRequest {jobId : String} {new : ShellJobRecord}
    (h : (dispatchRequest inner requestId pending now).jobsById.lookup jobId = some new) :
    ∃ old, inner.jobsById.lookup jobId = some old ∧ (new = dispatchedJob now old ∨ (new = old ∧
        ¬(pending.request.operation = .job (.start jobId) ∧ pending.jobId = some jobId))) := by
  simp only [dispatchRequest] at h
  split at h
  · rename_i hstop
    refine ⟨new, h, Or.inr ⟨rfl, fun hstart ↦ ?_⟩⟩
    rw [hstop] at hstart
    exact absurd hstart.1 (by simp)
  · split at h
    · rename_i hnone
      refine ⟨new, h, Or.inr ⟨rfl, fun hstart ↦ ?_⟩⟩
      rw [hnone] at hstart
      exact absurd hstart.2.symm (Option.some_ne_none jobId)
    · rename_i startedId hsome
      rw [RunnerRegistryInner.modifyJob, Table.lookup_modify] at h
      by_cases hsame : jobId = startedId
      · rw [if_pos hsame, Option.map_eq_some_iff] at h
        obtain ⟨old, hold, hnew⟩ := h
        exact ⟨old, hold, Or.inl hnew.symm⟩
      · rw [if_neg hsame] at h
        refine ⟨new, h, Or.inr ⟨rfl, fun hstart ↦ hsame ?_⟩⟩
        rw [hsome, Option.some.injEq] at hstart
        exact hstart.2.symm

end Dispatch

variable {inner : RunnerRegistryInner}

/-- A waiter stands after a dispatch only when it stood before. -/
theorem waits_of_dispatch {clientId : String} {rest : List String} {now : ℤ}
    (hpending : inner.pendingById.lookup requestId = some pending) {waiter : Waiter}
    (h : (dispatchRequest (setQueue clientId rest inner) requestId pending now).Waits waiter) :
    inner.Waits waiter := by
  obtain ⟨-, hgateways, hshells⟩ :=
    requests_dispatchRequest (setQueue clientId rest inner) requestId pending now
  obtain ⟨place, id⟩ := waiter
  cases place with
  | pendingRequest =>
    obtain ⟨found, hfound, hwaiter⟩ := h
    rcases lookup_dispatchRequest _ requestId pending now hfound with ⟨rfl, rfl⟩ | ⟨-, hother⟩
    · exact ⟨pending, hpending, hwaiter⟩
    · exact ⟨found, hother, hwaiter⟩
  | gateway gateway =>
    have hwaits : id ∈ (dispatchRequest (setQueue clientId rest inner) requestId pending
      now).gatewayWaiters gateway := h
    rw [hgateways] at hwaits
    exact hwaits
  | persistentShell =>
    have hwaits : id ∈ (dispatchRequest (setQueue clientId rest inner) requestId pending
      now).persistentWaiters := h
    rw [hshells] at hwaits
    exact hwaits

/-- The books after the front of a queue was handed out. -/
theorem Account.Sound.hand {state : RunnerRegistryInner} {ledger : Ledger}
    (h : Sound ⟨state, ledger⟩)
    {clientId : String} {rest : List String} (hqueue : queueOf state clientId = requestId :: rest)
    (hpending : state.pendingById.lookup requestId = some pending) (now : ℤ) :
    Sound ⟨dispatchRequest (setQueue clientId rest state) requestId pending now,
      { ledger with handed := ledger.handed ++ [(clientId, requestId)] }⟩ := by
  have hqueues : ∀ other, queueOf (dispatchRequest (setQueue clientId rest state) requestId pending
      now) other = if other = clientId then rest else queueOf state other := by
    intro other
    rw [queueOf, (requests_dispatchRequest _ requestId pending now).1]
    exact queueOf_setQueue clientId rest state other
  have hids : ∀ id, id ∈ (ledger.handed ++ [(clientId, requestId)]).map Prod.snd ↔
      id ∈ ledger.handedIds ∨ id = requestId := by
    intro id
    simp [Ledger.handedIds]
  constructor
  · refine h.order.pop ?_ fun other hne ↦ ?_
    · rw [hqueues, if_pos rfl]
      exact hqueue
    · rw [hqueues, if_neg hne]
  · intro id found hfound
    rcases lookup_dispatchRequest _ requestId pending now hfound with ⟨rfl, rfl⟩ | ⟨hne, hother⟩
    · obtain ⟨hid, henqueued, -⟩ := h.pending id pending hpending
      exact ⟨hid, henqueued, fun _ ↦ rfl⟩
    · obtain ⟨hid, henqueued, hdispatched⟩ := h.pending id found hother
      refine ⟨hid, henqueued, fun hhanded ↦ hdispatched ?_⟩
      exact ((hids id).mp hhanded).resolve_right hne
  · exact fun waiter hwaits ↦ h.waits waiter (waits_of_dispatch hpending hwaits)
  · exact h.distinct
  · intro waiter hresolved
    obtain ⟨henqueued, hgone⟩ := h.resolved waiter hresolved
    exact ⟨henqueued, fun hwaits ↦ hgone (waits_of_dispatch hpending hwaits)⟩
  · intro id hdenied
    obtain ⟨henqueued, hunhanded, hgone⟩ := h.denied id hdenied
    have hne : id ≠ requestId := by
      rintro rfl
      rw [hgone] at hpending
      exact absurd hpending.symm (Option.some_ne_none pending)
    refine ⟨henqueued, fun hhanded ↦ ((hids id).mp hhanded).elim hunhanded hne, ?_⟩
    cases hfound : (dispatchRequest (setQueue clientId rest state) requestId pending
        now).pendingById.lookup id with
    | none => rfl
    | some found =>
      rcases lookup_dispatchRequest _ requestId pending now hfound with ⟨hsame, -⟩ | ⟨-, hother⟩
      · exact absurd hsame hne
      · rw [← hgone]
        exact hother.symm
  · intro jobId job id hjob hqueued hrequest
    obtain ⟨old, hold, rfl | ⟨rfl, hother⟩⟩ := jobs_dispatchRequest _ requestId pending now hjob
    · exact absurd hqueued (lifecycle_dispatchedJob_ne_queued now old)
    · obtain ⟨henqueued, hunhanded, hbelongs⟩ := h.queued jobId job id hold hqueued hrequest
      have hne : id ≠ requestId := by
        rintro rfl
        obtain ⟨hoperation, hjobId, -⟩ := hbelongs pending hpending
        exact hother ⟨hoperation, hjobId⟩
      refine ⟨henqueued, fun hhanded ↦ ((hids id).mp hhanded).elim hunhanded hne, ?_⟩
      intro found hfound
      rcases lookup_dispatchRequest _ requestId pending now hfound with ⟨hsame, -⟩ | ⟨-, hfound⟩
      · exact absurd hsame hne
      · exact hbelongs found hfound

/-! ### Enqueuing -/

section Push

variable {state : RunnerRegistryInner} {ledger : Ledger} {pending : PendingShellRequest}

variable (state pending) in
theorem lookup_pushRequest (other : String) : (pushRequest state pending).pendingById.lookup other =
      if other = pending.request.requestId then some { pending with dispatched := false }
      else state.pendingById.lookup other :=
  Table.lookup_insert_eq _ _ _ other

theorem queueOf_pushRequest (other : String) : queueOf (pushRequest state pending) other =
      if other = pending.request.clientId then
        queueOf state other ++ [pending.request.requestId]
      else queueOf state other := by
  rw [queueOf, pushRequest, Table.lookup_insert_eq]
  by_cases hsame : other = pending.request.clientId
  · rw [if_pos hsame, if_pos hsame, hsame]
    rfl
  · rw [if_neg hsame, if_neg hsame]
    rfl

theorem installWaiter_frame (requestId : String) (waiter : SyncWaiter)
    (inner : RunnerRegistryInner) :
    (installWaiter requestId waiter inner).pendingById = inner.pendingById ∧
      (installWaiter requestId waiter inner).queuesByRunner = inner.queuesByRunner ∧
      (installWaiter requestId waiter inner).jobsById = inner.jobsById := by
  cases waiter <;> exact ⟨rfl, rfl, rfl⟩

/-- The only new waiters are those of the new request. -/
theorem waits_of_push {waiter : Waiter} {place : SyncWaiter}
    (h : (installWaiter pending.request.requestId place (pushRequest state pending)).Waits waiter)
    (hne : waiter.requestId ≠ pending.request.requestId) : state.Waits waiter := by
  obtain ⟨position, _⟩ := waiter
  cases position with
  | pendingRequest =>
    obtain ⟨found, hfound, hwaiter⟩ := h
    rw [(installWaiter_frame _ place _).1, lookup_pushRequest, if_neg hne] at hfound
    exact ⟨found, hfound, hwaiter⟩
  | gateway gateway =>
    cases place <;> cases gateway <;>
      first
        | exact h
        | exact Finset.mem_of_mem_insert_of_ne h hne
  | persistentShell =>
    cases place <;>
      first
        | exact h
        | exact Finset.mem_of_mem_insert_of_ne h hne

/-- The books after a request with a fresh id was enqueued. -/
theorem Account.Sound.push (h : Sound ⟨state, ledger⟩)
    (hfresh : pending.request.requestId ∉ ledger.enqueuedIds) (place : SyncWaiter) :
    Sound ⟨installWaiter pending.request.requestId place (pushRequest state pending),
      { ledger with
        enqueued :=
            ledger.enqueued ++ [(pending.request.clientId, pending.request.requestId)] }⟩ := by
  obtain ⟨hpendings, hqueues, hjobs⟩ :=
    installWaiter_frame pending.request.requestId place (pushRequest state pending)
  have hids : ∀ id, id ∈ ledger.enqueuedIds → id ∈ (ledger.enqueued ++
      [(pending.request.clientId, pending.request.requestId)]).map Prod.snd := by
    intro id hmem
    rw [List.map_append]
    exact List.mem_append_left _ hmem
  have hlookup : ∀ id, id ∈ ledger.enqueuedIds →
      (pushRequest state pending).pendingById.lookup id = state.pendingById.lookup id := by
    intro id hmem
    have hne : id ≠ pending.request.requestId := fun hsame ↦ hfresh (hsame ▸ hmem)
    rw [lookup_pushRequest, if_neg hne]
  constructor
  · refine h.order.push hfresh ?_ fun other hne ↦ ?_
    · rw [queueOf, hqueues]
      exact (queueOf_pushRequest _).trans (if_pos rfl)
    · rw [queueOf, hqueues]
      exact (queueOf_pushRequest other).trans (if_neg hne)
  · intro id found hfound
    rw [hpendings, lookup_pushRequest] at hfound
    by_cases hsame : id = pending.request.requestId
    · rw [if_pos hsame, Option.some.injEq] at hfound
      subst hfound hsame
      refine ⟨rfl, List.mem_append_right _ (List.mem_singleton.mpr rfl), fun hhanded ↦ ?_⟩
      obtain ⟨entry, hentry, hid⟩ := List.mem_map.mp hhanded
      refine absurd (List.mem_map.mpr ⟨entry, ?_, hid⟩) hfresh
      exact h.order.mem_enqueued_of_mem_handed hentry
    · rw [if_neg hsame] at hfound
      obtain ⟨hid, henqueued, hdispatched⟩ := h.pending id found hfound
      exact ⟨hid, List.mem_append_left _ henqueued, hdispatched⟩
  · intro waiter hwaits
    by_cases hsame : waiter.requestId = pending.request.requestId
    · rw [hsame]
      simp [Ledger.enqueuedIds]
    · exact hids _ (h.waits waiter (waits_of_push hwaits hsame))
  · exact h.distinct
  · intro waiter hresolved
    obtain ⟨henqueued, hgone⟩ := h.resolved waiter hresolved
    refine ⟨hids _ henqueued, fun hwaits ↦ hgone (waits_of_push hwaits ?_)⟩
    exact fun hsame ↦ hfresh (hsame ▸ henqueued)
  · intro id hdenied
    obtain ⟨henqueued, hunhanded, hgone⟩ := h.denied id hdenied
    refine ⟨hids id henqueued, hunhanded, ?_⟩
    rw [hpendings, hlookup id henqueued]
    exact hgone
  · intro jobId job id hjob hqueued hrequest
    rw [hjobs] at hjob
    obtain ⟨henqueued, hunhanded, hbelongs⟩ := h.queued jobId job id hjob hqueued hrequest
    refine ⟨hids id henqueued, hunhanded, fun found hfound ↦ hbelongs found ?_⟩
    rw [hpendings, hlookup id henqueued] at hfound
    exact hfound

/-- The books after a job was started with a fresh request. -/
theorem Account.Sound.start (h : Sound ⟨state, ledger⟩) {start : ShellJobStart}
    (hfresh : start.requestId ∉ ledger.enqueuedIds) (runner : RunnerRecord) (jobId : String) :
    Sound ⟨{ pushRequest state (startRequest start jobId) with
          requestToJob := state.requestToJob.insert start.requestId jobId }.addJob jobId
          (startedRecord state runner start jobId),
      { ledger with enqueued := ledger.enqueued ++ [(start.clientId, start.requestId)] }⟩ := by
  have hpushed : Sound ⟨pushRequest state (startRequest start jobId), { ledger with
      enqueued := ledger.enqueued ++ [(start.clientId, start.requestId)] }⟩ :=
    show Sound ⟨installWaiter start.requestId .shell (pushRequest state (startRequest start jobId)),
      _⟩
    from h.push hfresh .shell
  refine ⟨hpushed.order, hpushed.pending, hpushed.waits, hpushed.distinct, hpushed.resolved,
    hpushed.denied, ?_⟩
  intro other job id hjob hqueued hrequest
  rw [RunnerRegistryInner.addJob, Table.lookup_insert_eq] at hjob
  by_cases hsame : other = jobId
  · rw [if_pos hsame, Option.some.injEq] at hjob
    subst hjob hsame
    have hid : start.requestId = id := Option.some.inj hrequest
    subst hid
    refine ⟨by simp [Ledger.enqueuedIds], fun hhanded ↦ ?_, fun _ hfound ↦ ?_⟩
    · obtain ⟨entry, hentry, hid⟩ := List.mem_map.mp hhanded
      exact hfresh (List.mem_map.mpr ⟨entry, h.order.mem_enqueued_of_mem_handed hentry, hid⟩)
    · have hlookup := (lookup_pushRequest state (startRequest start other)
        start.requestId).symm.trans hfound
      rw [if_pos (show start.requestId = (startRequest start other).request.requestId from rfl),
        Option.some.injEq] at hlookup
      subst hlookup
      exact ⟨rfl, rfl, rfl⟩
  · rw [if_neg hsame] at hjob
    obtain ⟨henqueued, hunhanded, hbelongs⟩ := hpushed.queued other job id hjob hqueued hrequest
    exact ⟨henqueued, hunhanded, hbelongs⟩

end Push

/-! ### Steps and runs -/

section Steps

variable {env : Environment} {account : Account} {operation : Operation}

/-- A request is declared not started by an operation only together with its job, which said nothing
of the kind before and is not quoted by the operation. -/
theorem mem_declaredBy (h : requestId ∈ declaredBy env inner operation) :
    ∃ jobId new, (step env inner operation).state.jobsById.lookup jobId = some new ∧
      new.requestId = some requestId ∧ new.saysNotStarted = true ∧
      operation.quotes jobId = false ∧
      ∀ old, inner.jobsById.lookup jobId = some old → old.handle = new.handle →
        old.saysNotStarted = false := by
  obtain ⟨⟨jobId, new⟩, hentry, hcond⟩ := List.mem_filterMap.mp h
  rw [Table.mem_entries] at hentry
  split_ifs at hcond with hdeclares
  simp only [Bool.and_eq_true, Bool.not_eq_true'] at hdeclares
  refine ⟨jobId, new, hentry, hcond, hdeclares.1.1, hdeclares.1.2, fun old hold hhandle ↦ ?_⟩
  have hnot := hdeclares.2
  rw [hold, Option.any_some, hhandle, beq_self_eq_true, Bool.true_and] at hnot
  exact hnot

/-- A job that is declared not started was queued, and its request is gone. -/
theorem declared_of_tracks (h : account.Sound) {middle : RunnerRegistryInner}
    (htracks : Tracks (fun jobId ↦ operation.quotes jobId = true) account.state middle)
    (hjobs : (step env account.state operation).state.jobsById = middle.jobsById)
    (hmem : requestId ∈ declaredBy env account.state operation) :
    requestId ∈ account.ledger.enqueuedIds ∧ requestId ∉ account.ledger.handedIds ∧
      middle.pendingById.lookup requestId = none := by
  obtain ⟨jobId, new, hnew, hrequest, hclaim, hunquoted, hsilent⟩ := mem_declaredBy hmem
  rw [hjobs] at hnew
  have hcontra : operation.quotes jobId ≠ true := by simp [hunquoted]
  rcases htracks.origin jobId new hnew with ⟨-, hquotes⟩ | ⟨old, hold, hreports⟩
  · exact absurd (hquotes hclaim) hcontra
  · have hrequest' : old.requestId = some requestId := hreports.requestId_eq.symm.trans hrequest
    rcases hreports.honest hclaim with hearlier | hquotes | ⟨hqueued, hgone⟩
    · rw [hsilent old hold hreports.handle_eq.symm] at hearlier
      exact absurd hearlier Bool.false_ne_true
    · exact absurd hquotes hcontra
    · obtain ⟨henqueued, hunhanded, -⟩ := h.queued jobId old requestId hold hqueued hrequest'
      exact ⟨henqueued, hunhanded, hgone requestId hrequest'⟩

/-- A request that an operation cancels was enqueued and never handed out, and it is gone
afterwards. -/
theorem cancelled_denied (h : account.Sound)
    (hmem : requestId ∈ cancelledBy account.state operation) :
    requestId ∈ account.ledger.enqueuedIds ∧ requestId ∉ account.ledger.handedIds ∧
      (step env account.state operation).state.pendingById.lookup requestId = none := by
  cases operation with
  | cancel =>
    simp only [cancelledBy] at hmem
    split_ifs at hmem with hundispatched
    · rw [List.mem_singleton] at hmem
      subst hmem
      rw [cancelRequest, Option.map_eq_some_iff] at hundispatched
      obtain ⟨pending, hpending, hdispatched⟩ := hundispatched
      refine ⟨h.mem_enqueuedIds hpending,
        h.notMem_handedIds_of_untaken ⟨pending, hpending, Or.inl hdispatched⟩, ?_⟩
      exact (lookup_dropPending _ requestId requestId).trans (if_pos rfl)
    · exact absurd hmem List.not_mem_nil
  | _ => exact absurd hmem List.not_mem_nil

theorem enqueuedBy_subset (inner : RunnerRegistryInner) :
    ∀ entry ∈ enqueuedBy env inner operation, operation.drawnRequest = some entry.2 := by
  intro entry hmem
  rw [enqueuedBy] at hmem
  split at hmem
  · exact absurd hmem List.not_mem_nil
  · rename_i requestId hdrawn
    split at hmem
    · exact absurd hmem List.not_mem_nil
    · rw [List.mem_singleton] at hmem
      rw [hdrawn, hmem]

/-- A step that gives up requests enqueues none. -/
theorem enqueuedBy_of_loses (h : account.Sound)
    (hfresh : ∀ requestId, operation.drawnRequest = some requestId →
      requestId ∉ account.ledger.enqueuedIds)
    (hloses : Loses account.state (step env account.state operation).state) :
    enqueuedBy env account.state operation = [] := by
  rw [enqueuedBy]
  split
  · rfl
  · rename_i requestId hdrawn
    cases hpending : (step env account.state operation).state.pendingById.lookup requestId with
    | none => rfl
    | some pending =>
      have hbefore := hloses.pending requestId pending hpending
      exact absurd (h.mem_enqueuedIds hbefore) (hfresh requestId hdrawn)

theorem handedBy_of_none (inner : RunnerRegistryInner)
    (hhanded : (step env inner operation).handed = none) : handedBy env inner operation = [] := by
  cases operation <;> simp [handedBy, hhanded]

/-- Every step that denies no taken job keeps the books in order. -/
theorem Account.Sound.step (h : account.Sound)
    (hfresh : ∀ requestId, operation.drawnRequest = some requestId →
      requestId ∉ account.ledger.enqueuedIds)
    (hdenies : deniesTakenJob env account.state operation = false) :
    (account.step env operation).Sound := by
  obtain ⟨state, ledger⟩ := account
  have hflows := step_flows env state operation h.queuedJobsBelong hdenies
  rw [Account.step]
  simp only [deniedBy]
  cases hflows with
  | settled hsettles htracks hhanded =>
    rw [enqueuedBy_of_loses h hfresh hsettles.loses, handedBy_of_none state hhanded,
      List.append_nil, List.append_nil, ← List.append_assoc]
    refine (h.settle hsettles htracks).deny fun requestId hmem ↦ ?_
    rcases List.mem_append.mp hmem with hmem | hmem
    · exact cancelled_denied h hmem
    · exact declared_of_tracks h htracks rfl hmem
  | handed clientId instanceId connectionId now middle requestId rest pending hoperation hlease
      hsettles hjobs hqueue hpending hhanded hstate =>
    have hkept : Tracks (fun _ ↦ False) state middle := .of_jobs_eq hsettles.loses hjobs
    have hsettled := h.settle hsettles hkept
    have hid : pending.request.requestId = requestId :=
      (hsettled.pending requestId pending hpending).1
    have hdeclared : declaredBy env state operation = [] := by
      rw [List.eq_nil_iff_forall_not_mem]
      intro other hmem
      obtain ⟨jobId, new, hnew, -, hclaim, -, hsilent⟩ := mem_declaredBy hmem
      rw [hstate] at hnew
      obtain ⟨old, hold, hcases⟩ := jobs_dispatchRequest _ requestId pending now hnew
      have hbefore : state.jobsById.lookup jobId = some old := hjobs ▸ hold
      rcases hcases with rfl | ⟨rfl, -⟩
      · have hhandle : old.handle = (dispatchedJob now old).handle :=
          (congrArg JobIdentity.handle (identity_dispatchedJob now old)).symm
        rw [saysNotStarted_dispatchedJob, hsilent old hbefore hhandle] at hclaim
        exact absurd hclaim Bool.false_ne_true
      · rw [hsilent new hbefore rfl] at hclaim
        exact absurd hclaim Bool.false_ne_true
    subst hoperation
    have hhandedBy : handedBy env state (.poll clientId instanceId connectionId now) =
        [(clientId, requestId)] := by
      simp [handedBy, hhanded, hid]
    have hundrawn : enqueuedBy env state (.poll clientId instanceId connectionId now) = [] := rfl
    have hcancelled : cancelledBy state (.poll clientId instanceId connectionId now) = [] := rfl
    rw [hundrawn, hhandedBy, hcancelled, hdeclared, hstate]
    simp only [List.append_nil]
    exact hsettled.hand hqueue hpending now
  | pushed middle pending waiter hdrawn hloses htracks hresponses hhanded hstate =>
    have hnew := hfresh _ hdrawn
    have hsettled := h.settle (.silent hloses) htracks
    simp only [List.map_nil, List.filter_nil, List.append_nil] at hsettled
    obtain ⟨hpendings, -, hjobs⟩ :=
      installWaiter_frame pending.request.requestId waiter (pushRequest middle pending)
    have henqueued : enqueuedBy env state operation =
        [(pending.request.clientId, pending.request.requestId)] := by
      simp [enqueuedBy, hdrawn, hstate, hpendings, lookup_pushRequest]
    rw [henqueued, handedBy_of_none state hhanded, hresponses, hstate]
    simp only [List.map_nil, List.filter_nil, List.append_nil, List.nil_append]
    refine (hsettled.push hnew waiter).deny fun requestId hmem ↦ ?_
    have hdenied : requestId ∈ ledger.enqueuedIds ∧ requestId ∉ ledger.handedIds ∧
        middle.pendingById.lookup requestId = none := by
      rcases List.mem_append.mp hmem with hmem | hmem
      · cases operation with
        | cancel => exact absurd hdrawn.symm (Option.some_ne_none _)
        | _ => exact absurd hmem List.not_mem_nil
      · refine declared_of_tracks h htracks ?_ hmem
        rw [hstate, hjobs]
        rfl
    obtain ⟨hmember, hunhanded, hgone⟩ := hdenied
    refine ⟨?_, hunhanded, ?_⟩
    · rw [Ledger.enqueuedIds, List.map_append]
      exact List.mem_append_left _ hmember
    · have hne : requestId ≠ pending.request.requestId := fun hsame ↦ hnew (hsame ▸ hmember)
      rw [hpendings, lookup_pushRequest, if_neg hne]
      exact hgone
  | started start runner jobId now hoperation hresponses _ hstate =>
    subst hoperation
    have hnew := hfresh _ rfl
    have henqueued : enqueuedBy env state (.start start now) =
        [(start.clientId, start.requestId)] := by
      have hlookup := lookup_pushRequest state (startRequest start jobId) start.requestId
      rw [if_pos (show start.requestId = (startRequest start jobId).request.requestId from rfl)]
        at hlookup
      have hpending : (Registry.step env state (.start start now)).state.pendingById.lookup
          start.requestId = some (startRequest start jobId) := by
        rw [hstate]
        exact hlookup
      simp only [enqueuedBy, Operation.drawnRequest, hpending]
      rfl
    have hdeclared : declaredBy env state (.start start now) = [] := by
      rw [List.eq_nil_iff_forall_not_mem]
      intro other hmem
      obtain ⟨found, new, hfound, -, hclaim, -, hsilent⟩ := mem_declaredBy hmem
      rw [hstate, RunnerRegistryInner.addJob, Table.lookup_insert_eq] at hfound
      by_cases hsame : found = jobId
      · rw [if_pos hsame, Option.some.injEq] at hfound
        subst hfound
        exact absurd hclaim (by simp [startedRecord, ShellJobRecord.saysNotStarted])
      · rw [if_neg hsame] at hfound
        rw [hsilent new hfound rfl] at hclaim
        exact absurd hclaim Bool.false_ne_true
    have hcancelled : cancelledBy state (.start start now) = [] := rfl
    have hhandedBy : handedBy env state (.start start now) = [] := rfl
    rw [henqueued, hhandedBy, hresponses, hcancelled, hdeclared, hstate]
    simp only [List.map_nil, List.filter_nil, List.append_nil]
    exact h.start hnew runner jobId

end Steps

/-- No step of a run denies a job that its runner has taken. -/
def deniesNoTakenJob (env : Environment) : RunnerRegistryInner → List Operation → Bool
  | _, [] => true
  | inner, operation :: rest =>
    !deniesTakenJob env inner operation && deniesNoTakenJob env
      (step env inner operation).state rest

theorem deniesNoTakenJob_append {env : Environment} {first second : List Operation}
    (h : deniesNoTakenJob env inner (first ++ second) = true) :
    deniesNoTakenJob env inner first = true ∧
      deniesNoTakenJob env (run env inner first) second = true := by
  induction first generalizing inner with
  | nil => exact ⟨rfl, h⟩
  | cons _ _ ih =>
    rw [List.cons_append, deniesNoTakenJob, Bool.and_eq_true] at h
    obtain ⟨hrest, hsecond⟩ := ih h.2
    exact ⟨by rw [deniesNoTakenJob, h.1, hrest]; rfl, hsecond⟩

theorem Account.run_state (env : Environment) (account : Account) (operations : List Operation) :
    (account.run env operations).state = Registry.run env account.state operations := by
  induction operations generalizing account with
  | nil => rfl
  | cons operation _ ih => exact ih (account.step env operation)

/-- The books stay in order along a run that draws fresh ids. -/
theorem Account.Sound.run {env : Environment} {account : Account} (h : account.Sound)
    {operations : List Operation} (hdrawn : (operations.filterMap Operation.drawnRequest).Nodup)
    (hfresh : ∀ requestId ∈ operations.filterMap Operation.drawnRequest,
      requestId ∉ account.ledger.enqueuedIds)
    (hdenies : deniesNoTakenJob env account.state operations = true) :
    (account.run env operations).Sound := by
  induction operations generalizing account with
  | nil => exact h
  | cons operation rest ih =>
    rw [deniesNoTakenJob, Bool.and_eq_true, Bool.not_eq_true'] at hdenies
    have hfirst : ∀ requestId, operation.drawnRequest = some requestId →
        requestId ∉ account.ledger.enqueuedIds := by
      intro requestId hid
      exact hfresh requestId (List.mem_filterMap.mpr ⟨operation, List.mem_cons_self, hid⟩)
    have hrest : (rest.filterMap Operation.drawnRequest).Nodup :=
      hdrawn.sublist ((List.sublist_cons_self operation rest).filterMap _)
    refine ih (h.step hfirst hdenies.1) hrest (fun requestId hmem ↦ ?_) hdenies.2
    -- an id of the rest was not enqueued before, and is not the one that this step draws
    have hearlier := hfresh requestId
      (((List.sublist_cons_self operation rest).filterMap _).subset hmem)
    show requestId ∉ (account.ledger.enqueued ++ enqueuedBy env account.state operation).map
      Prod.snd
    rw [List.map_append, List.mem_append, not_or]
    refine ⟨hearlier, fun hagain ↦ ?_⟩
    obtain ⟨entry, hentry, rfl⟩ := List.mem_map.mp hagain
    have hdrew := enqueuedBy_subset account.state entry hentry
    rw [List.filterMap_cons_some hdrew, List.nodup_cons] at hdrawn
    exact hdrawn.1 hmem

/-- The jobs of an earlier process have all ended. -/
theorem status_hydrated {receipts : List TerminalJobReceipt} (now : ℤ)
    (hreceipts : ∀ receipt ∈ receipts, receipt.snapshot.status.isTerminal = true) :
    (hydrated receipts now).requests = ({} : RunnerRegistryInner).requests ∧
      ∀ jobId job, (hydrated receipts now).jobsById.lookup jobId = some job →
        job.lifecycle ≠ .queued := by
  have hfold : ∀ (rest : List TerminalJobReceipt) (inner : RunnerRegistryInner),
      (∀ receipt ∈ rest, receipt.snapshot.status.isTerminal = true) →
      inner.requests = ({} : RunnerRegistryInner).requests →
      (∀ jobId job, inner.jobsById.lookup jobId = some job → job.lifecycle ≠ .queued) →
      (rest.foldl (restoreReceipt now) inner).requests = ({} : RunnerRegistryInner).requests ∧
        ∀ jobId job, (rest.foldl (restoreReceipt now) inner).jobsById.lookup jobId = some job →
          job.lifecycle ≠ .queued := by
    intro rest
    induction rest with
    | nil => exact fun inner _ hrequests hjobs ↦ ⟨hrequests, hjobs⟩
    | cons receipt _ ih =>
      intro inner hended hrequests hjobs
      refine ih _ (fun other hmem ↦ hended other (List.mem_cons_of_mem receipt hmem)) ?_ ?_
      · rw [restoreReceipt]
        split_ifs
        · exact hrequests
        · exact hrequests
      · intro jobId job hjob
        rw [restoreReceipt] at hjob
        split_ifs at hjob
        · exact hjobs jobId job hjob
        · rw [RunnerRegistryInner.addJob, Table.lookup_insert_eq] at hjob
          split_ifs at hjob
          · rw [Option.some.injEq] at hjob
            subst hjob
            refine ne_queued_of_isTerminal ?_
            have hstatus : (restoredJob inner.nextHandle now receipt).lifecycle =
                receipt.snapshot.status := lifecycle_observeJobTerminal now _
            rw [hstatus]
            exact hended receipt List.mem_cons_self
          · exact hjobs jobId job hjob
  refine hfold receipts {} hreceipts rfl fun jobId job hjob ↦ ?_
  exact absurd hjob (by simp)

/-- The account of a server that has started is sound: no request was handed out, and its jobs have
ended. -/
theorem sound_hydrated {receipts : List TerminalJobReceipt} (now : ℤ)
    (hreceipts : ∀ receipt ∈ receipts, receipt.snapshot.status.isTerminal = true) :
    Account.Sound ⟨hydrated receipts now, {}⟩ := by
  obtain ⟨hrequests, hjobs⟩ := status_hydrated now hreceipts
  have hpending : (hydrated receipts now).pendingById = ∅ :=
    congrArg RequestTables.pendingById hrequests
  have hqueues : (hydrated receipts now).queuesByRunner = ∅ :=
    congrArg RequestTables.queuesByRunner hrequests
  have hloses : Loses ({} : RunnerRegistryInner) (hydrated receipts now) :=
    .of_requests_eq hrequests
  constructor
  · refine InOrder.initial.shrink fun _ ↦ ?_
    rw [queueOf, hqueues]
    exact List.Sublist.refl _
  · intro requestId pending h
    rw [hpending] at h
    exact absurd h (by simp)
  · intro waiter hwaits
    obtain ⟨place, requestId⟩ := waiter
    have hnone := hloses.waits hwaits
    cases place with
    | pendingRequest =>
      obtain ⟨pending, h, -⟩ := hnone
      exact absurd h (by simp)
    | gateway gateway => cases gateway <;> exact absurd hnone (Finset.notMem_empty _)
    | persistentShell => exact absurd hnone (Finset.notMem_empty _)
  · exact List.nodup_nil
  · exact fun waiter hmem ↦ absurd hmem List.not_mem_nil
  · exact fun requestId hmem ↦ absurd hmem List.not_mem_nil
  · exact fun jobId job requestId hjob hqueued ↦ absurd hqueued (hjobs jobId job hjob)

/-- A run hands each request out at most once, in the order of its queue, to the runner that it is
for and under the lease of that runner; it resolves each waiter at most once; and no request about
which somebody was told that it was not dispatched is among those handed out. -/
structure AtMostOnce (env : Environment) (inner : RunnerRegistryInner)
    (operations : List Operation) : Prop where
  once : ((Account.run env ⟨inner, {}⟩ operations).ledger.handedIds).Nodup
  order : ∀ clientId,
      (itemsOf clientId (Account.run env ⟨inner, {}⟩ operations).ledger.handed).Sublist
        (itemsOf clientId (Account.run env ⟨inner, {}⟩ operations).ledger.enqueued)
  lease : ∀ first operation rest request, operations = first ++ operation :: rest →
    (step env (run env inner first) operation).handed = some request →
    ∃ clientId instanceId connectionId now, operation = .poll clientId instanceId connectionId now ∧
      request.clientId = clientId ∧
      HoldsLease (run env inner first) clientId instanceId connectionId
  resolved : (Account.run env ⟨inner, {}⟩ operations).ledger.resolved.Nodup
  denied : ∀ requestId ∈ (Account.run env ⟨inner, {}⟩ operations).ledger.denied,
    requestId ∉ (Account.run env ⟨inner, {}⟩ operations).ledger.handedIds

/-- Every run that draws fresh ids and denies no taken job dispatches requests at most once: a
request is handed out once, and never declared not started or handed out again after that. -/
theorem requests_dispatched_at_most_once (env : Environment) (receipts : List TerminalJobReceipt)
    (begun : ℤ) (operations : List Operation)
    (hreceipts : ∀ receipt ∈ receipts, receipt.snapshot.status.isTerminal = true)
    (hdrawn : (operations.filterMap Operation.drawnRequest).Nodup)
    (hdenies : deniesNoTakenJob env (hydrated receipts begun) operations = true) :
    AtMostOnce env (hydrated receipts begun) operations := by
  have hbegun := sound_hydrated begun hreceipts
  have hsound := hbegun.run hdrawn (fun _ _ hmem ↦ absurd hmem List.not_mem_nil) hdenies
  refine ⟨hsound.order.handed_nodup, fun clientId ↦ ?_, ?_, hsound.distinct,
    fun requestId hmem ↦ (hsound.denied requestId hmem).2.1⟩
  · exact (List.sublist_append_left _ _).trans (hsound.order.order clientId)
  · intro first operation _ request hsplit hhanded
    subst hsplit
    -- the books were in order when the poll was made
    obtain ⟨hfirst, hrest⟩ := deniesNoTakenJob_append hdenies
    rw [deniesNoTakenJob, Bool.and_eq_true, Bool.not_eq_true'] at hrest
    have hthen := hbegun.run (hdrawn.sublist ((List.sublist_append_left first _).filterMap _))
      (fun _ _ hmem ↦ absurd hmem List.not_mem_nil) hfirst
    have hstate := Account.run_state env ⟨hydrated receipts begun, {}⟩ first
    have hflows := step_flows env (run env (hydrated receipts begun) first) operation
      (hstate ▸ hthen.queuedJobsBelong) hrest.1
    cases hflows with
    | settled _ _ hnone | pushed _ _ _ _ _ _ _ hnone _ | started _ _ _ _ _ _ hnone _ =>
      rw [hhanded] at hnone
      exact absurd hnone (Option.some_ne_none request)
    | handed clientId instanceId connectionId now middle requestId others pending hoperation hlease
        hsettles _ hqueue hpending hsome _ =>
      rw [hhanded, Option.some.injEq] at hsome
      refine ⟨clientId, instanceId, connectionId, now, hoperation, ?_, hlease⟩
      rw [hsome]
      have hbefore := hsettles.loses.pending requestId pending hpending
      have hmem : requestId ∈ queueOf middle clientId := hqueue ▸ List.mem_cons_self
      have hwaiting := (hsettles.loses.queues clientId).subset hmem
      rw [← hstate] at hbefore hwaiting
      exact hthen.order.key_eq (hthen.order.mem_enqueued_of_mem_queue hwaiting)
        (hthen.pending requestId pending hbefore).2.1

section Example

def structuredRunner (instanceId : String) : RunnerRegisterRequest where
  clientId := "runner"
  runnerInstanceId := instanceId
  features := [.asyncJobs, .structuredExecutionJobs]

def structuredJobTaken : List Operation := [.register (structuredRunner "first") 0, .start
      { requestId := "request"
        drawnJobId := "job"
        clientId := "runner"
        structuredExecution := some (.process ⟨"make", []⟩)
        createdAt := 0 } 0,
    .poll "runner" "first" none 1]

/-- The runner reports the start before another instance takes its place. -/
theorem requests_dispatched_at_most_once_reported :
    AtMostOnce { checks := plainChecks } (hydrated [] 0)
      (structuredJobTaken ++
        [.update { clientId := "runner", runnerInstanceId := "first", jobId := "job",
                   status := "running" } none 2,
          .register (structuredRunner "second") 3]) :=
  requests_dispatched_at_most_once { checks := plainChecks } [] 0 _ (by simp) (by decide +kernel)
    (by decide +kernel)

/-- When the runner is replaced before it reports the start, the job that it has taken is declared
not started. -/
theorem taken_job_declared_not_started :
    ¬AtMostOnce { checks := plainChecks } (hydrated [] 0)
      (structuredJobTaken ++ [.register (structuredRunner "second") 3]) := by
  intro h
  exact h.denied "request" (by decide +kernel) (by decide +kernel)

end Example

end WebCodex.Registry
