import WebCodex.Registry.RequestFlow

/-!
A change settles waiters when it only takes requests away, each response goes to a different
waiter that is gone afterwards, and one that denies the dispatch is about a request that no runner
had taken and that is no longer pending (`Settles`). Every operation that sends responses is a
sequence of such changes.
-/

namespace WebCodex.Registry

open Foundation

/-- A pending request that no runner has taken: it is not marked as dispatched, or its id still
stands in a queue. -/
def Untaken (inner : RunnerRegistryInner) (requestId : String) : Prop :=
  ∃ pending, inner.pendingById.lookup requestId = some pending ∧
    (pending.dispatched = false ∨ ∃ clientId, requestId ∈ queueOf inner clientId)

variable {after : RunnerRegistryInner} {requestId : String}

theorem Loses.untaken {before : RunnerRegistryInner} (h : Loses before after)
    (huntaken : Untaken after requestId) : Untaken before requestId := by
  obtain ⟨pending, hpending, hstate⟩ := huntaken
  refine ⟨pending, h.pending requestId pending hpending, ?_⟩
  rcases hstate with hstate | ⟨clientId, hmem⟩
  · exact Or.inl hstate
  · exact Or.inr ⟨clientId, (h.queues clientId).subset hmem⟩

/-- Requests go away and the waiters of some of them are resolved. -/
structure Settles (before after : RunnerRegistryInner) (responses : List Response) : Prop where
  loses : Loses before after
  distinct : (responses.map Response.waiter).Nodup
  resolved : ∀ response ∈ responses, before.Waits response.waiter ∧ ¬after.Waits response.waiter
  honest : ∀ response ∈ responses, response.saysNotDispatched = true →
    Untaken before response.requestId ∧ after.pendingById.lookup response.requestId = none

namespace Settles

variable {before middle after : RunnerRegistryInner} {responses first last : List Response}

theorem silent (h : Loses before after) : Settles before after [] where
  loses := h
  distinct := List.nodup_nil
  resolved _ hmem := absurd hmem List.not_mem_nil
  honest _ hmem := absurd hmem List.not_mem_nil

/-- Two changes after each other settle the waiters of both: those of the second were still waiting
after the first. -/
theorem trans (hfirst : Settles before middle first) (hlast : Settles middle after last) :
    Settles before after (first ++ last) where
  loses := hfirst.loses.trans hlast.loses
  distinct := by
    rw [List.map_append, List.nodup_append]
    refine ⟨hfirst.distinct, hlast.distinct, ?_⟩
    -- a waiter of the first part is gone in between, one of the second part still stands there
    intro _ hearly _ hlate hsame
    obtain ⟨answer, hanswer, rfl⟩ := List.mem_map.mp hearly
    obtain ⟨other, hother, rfl⟩ := List.mem_map.mp hlate
    refine (hfirst.resolved answer hanswer).2 ?_
    rw [hsame]
    exact (hlast.resolved other hother).1
  resolved response hmem := by
    rcases List.mem_append.mp hmem with hmem | hmem
    · obtain ⟨hbefore, hgone⟩ := hfirst.resolved response hmem
      exact ⟨hbefore, fun hafter ↦ hgone (hlast.loses.waits hafter)⟩
    · obtain ⟨hmiddle, hgone⟩ := hlast.resolved response hmem
      exact ⟨hfirst.loses.waits hmiddle, hgone⟩
  honest response hmem hclaim := by
    rcases List.mem_append.mp hmem with hmem | hmem
    · obtain ⟨huntaken, hgone⟩ := hfirst.honest response hmem hclaim
      exact ⟨huntaken, hlast.loses.pending_none hgone⟩
    · obtain ⟨huntaken, hgone⟩ := hlast.honest response hmem hclaim
      exact ⟨hfirst.loses.untaken huntaken, hgone⟩

theorem then_loses (h : Settles before middle responses) (hloses : Loses middle after) :
    Settles before after responses := by
  have htrans := h.trans (silent hloses)
  rwa [List.append_nil] at htrans

theorem after_loses (hloses : Loses before middle) (h : Settles middle after responses) :
    Settles before after responses :=
  (silent hloses).trans h

/-- A fold that collects responses settles waiters when each of its steps does. -/
theorem foldl {A : Type}
    {f : RunnerRegistryInner × List Response → A → RunnerRegistryInner × List Response}
    (hf : ∀ state item, ∃ responses, (f state item).2 = state.2 ++ responses ∧
      Settles state.1 (f state item).1 responses)
    (items : List A) (state : RunnerRegistryInner × List Response) :
    ∃ responses, (items.foldl f state).2 = state.2 ++ responses ∧
      Settles state.1 (items.foldl f state).1 responses := by
  induction items generalizing state with
  | nil => exact ⟨[], (List.append_nil _).symm, silent (.refl _)⟩
  | cons item _ ih =>
    obtain ⟨first, hfirst, hsettles⟩ := hf state item
    obtain ⟨last, hlast, hrest⟩ := ih (f state item)
    refine ⟨first ++ last, ?_, hsettles.trans hrest⟩
    rw [List.foldl_cons, hlast, hfirst, List.append_assoc]

end Settles

/-! ### Responses to the waiters of one request -/

/-- A response to a waiter of a pending request that says nothing wrong about its dispatch. -/
structure Response.Answers (inner : RunnerRegistryInner) (requestId : String)
    (pending : PendingShellRequest) (response : Response) : Prop where
  requestId_eq : response.requestId = requestId
  waits : inner.Waits response.waiter
  honest : response.saysNotDispatched = true →
    pending.dispatched = false ∨ ∃ clientId, requestId ∈ queueOf inner clientId

variable {pending : PendingShellRequest}

theorem Settles.of_answers {before : RunnerRegistryInner} {responses : List Response}
    (hloses : Loses before after) (hpending : before.pendingById.lookup requestId = some pending)
    (hgone : after.pendingById.lookup requestId = none)
    (hdistinct : (responses.map Response.waiter).Nodup)
    (hanswers : ∀ response ∈ responses, response.Answers before requestId pending ∧
      ¬after.Waits response.waiter) :
    Settles before after responses where
  loses := hloses
  distinct := hdistinct
  resolved response hmem := ⟨(hanswers response hmem).1.waits, (hanswers response hmem).2⟩
  honest response hmem hclaim := by
    obtain ⟨hanswer, -⟩ := hanswers response hmem
    rw [hanswer.requestId_eq]
    exact ⟨⟨pending, hpending, hanswer.honest hclaim⟩, hgone⟩

variable {response : Response}

section Answers

variable {inner : RunnerRegistryInner} {requestId : String} {pending : PendingShellRequest}

theorem refusal_waiters (clientId : String) (cwd : Option String) (preview error : String)
    (dispatched : Bool) (state : Option ShellCommandExecutionState) :
    ((refusal pending requestId clientId cwd preview error dispatched state).map
      Response.waiter).Sublist [⟨.pendingRequest, requestId⟩] := by
  rw [refusal]
  split_ifs
  · exact List.Sublist.refl _
  · exact List.nil_sublist _

theorem gatewayFailure_waiters (waiters : Finset String) (gateway : Gateway) (state : DispatchState)
    (code message : String) :
    ((gatewayFailure waiters gateway requestId state code message).map Response.waiter).Sublist
      [⟨.gateway gateway, requestId⟩] := by
  rw [gatewayFailure]
  split_ifs
  · exact List.Sublist.refl _
  · exact List.nil_sublist _

theorem answers_refusal (hpending : inner.pendingById.lookup requestId = some pending)
    {clientId : String}
    {cwd : Option String} {preview error : String} {dispatched : Bool}
    {state : Option ShellCommandExecutionState}
    (hdispatched : dispatched = false → pending.dispatched = false ∨
      ∃ clientId, requestId ∈ queueOf inner clientId)
    (hmem : response ∈ refusal pending requestId clientId cwd preview error dispatched state) :
    response.Answers inner requestId pending ∧ response.waiter = ⟨.pendingRequest, requestId⟩ := by
  rw [refusal] at hmem
  by_cases hwaiter : pending.waiter = true
  · rw [if_pos hwaiter, List.mem_singleton] at hmem
    subst hmem
    refine ⟨⟨rfl, ⟨pending, hpending, hwaiter⟩, fun hclaim ↦ hdispatched ?_⟩, rfl⟩
    simpa [Response.saysNotDispatched] using hclaim
  · rw [if_neg hwaiter] at hmem
    exact absurd hmem List.not_mem_nil

theorem answers_gatewayFailure (gateway : Gateway) {state : DispatchState} {code message : String}
    (hstate : state = .notStarted → pending.dispatched = false ∨
      ∃ clientId, requestId ∈ queueOf inner clientId)
    (hmem : response ∈ gatewayFailure (inner.gatewayWaiters gateway) gateway requestId state code
      message) :
    response.Answers inner requestId pending ∧ response.waiter = ⟨.gateway gateway, requestId⟩ := by
  rw [gatewayFailure] at hmem
  by_cases hwaiter : requestId ∈ inner.gatewayWaiters gateway
  · rw [if_pos hwaiter, List.mem_singleton] at hmem
    subst hmem
    refine ⟨⟨rfl, hwaiter, fun hclaim ↦ hstate ?_⟩, rfl⟩
    simpa [Response.saysNotDispatched] using hclaim
  · rw [if_neg hwaiter] at hmem
    exact absurd hmem List.not_mem_nil

theorem not_waits_of_pending_none (hgone : inner.pendingById.lookup requestId = none) :
    ¬inner.Waits ⟨.pendingRequest, requestId⟩ := by
  rintro ⟨pending, hpending, -⟩
  rw [hgone] at hpending
  exact absurd hpending.symm (Option.some_ne_none pending)

theorem dispatchStateOf_eq_notStarted {dispatched : Bool}
    (h : dispatchStateOf dispatched = .notStarted) : dispatched = false := by
  cases dispatched
  · rfl
  · simp [dispatchStateOf] at h

end Answers

/-! ### Requests of a runner that is gone -/

section Disconnected

variable (inner : RunnerRegistryInner) (clientId error : String)

theorem disconnectResponses_waiters_nodup (requestId : String) (pending : PendingShellRequest) :
    ((disconnectResponses inner clientId requestId pending error).map Response.waiter).Nodup := by
  have hplaces : [(⟨.pendingRequest, requestId⟩ : Waiter), ⟨.gateway .mcp, requestId⟩,
      ⟨.gateway .plugin, requestId⟩, ⟨.gateway .codingAgent, requestId⟩].Nodup := by
    simp
  refine hplaces.sublist ?_
  simp only [disconnectResponses, List.map_append]
  exact (((refusal_waiters _ _ _ _ _ _).append (gatewayFailure_waiters _ _ _ _ _)).append
    (gatewayFailure_waiters _ _ _ _ _)).append (gatewayFailure_waiters _ _ _ _ _)

theorem answers_disconnectResponses (hpending : inner.pendingById.lookup requestId = some pending)
    (hmem : response ∈ disconnectResponses inner clientId requestId pending error) :
    response.Answers inner requestId pending ∧ response.waiter.place ≠ .persistentShell := by
  have hstate : dispatchStateOf pending.dispatched = .notStarted →
      pending.dispatched = false ∨ ∃ clientId, requestId ∈ queueOf inner clientId :=
    fun h ↦ Or.inl (dispatchStateOf_eq_notStarted h)
  simp only [disconnectResponses, List.mem_append] at hmem
  rcases hmem with ((hmem | hmem) | hmem) | hmem
  · obtain ⟨hanswer, hwaiter⟩ := answers_refusal hpending (fun h ↦ Or.inl h) hmem
    exact ⟨hanswer, by simp [hwaiter]⟩
  · obtain ⟨hanswer, hwaiter⟩ := answers_gatewayFailure .mcp hstate hmem
    exact ⟨hanswer, by simp [hwaiter]⟩
  · obtain ⟨hanswer, hwaiter⟩ := answers_gatewayFailure .plugin hstate hmem
    exact ⟨hanswer, by simp [hwaiter]⟩
  · obtain ⟨hanswer, hwaiter⟩ := answers_gatewayFailure .codingAgent hstate hmem
    exact ⟨hanswer, by simp [hwaiter]⟩

/-- A request that is dropped with its side tables has no waiter left. -/
theorem not_waits_dropSideTables {waiter : Waiter}
    (hgone : inner.pendingById.lookup requestId = none) (hwaiter : waiter.requestId = requestId) :
    ¬(dropSideTables requestId inner).Waits waiter := by
  obtain ⟨place, id⟩ := waiter
  subst hwaiter
  cases place with
  | pendingRequest =>
    have hdropped : (dropSideTables id inner).pendingById.lookup id = none := hgone
    exact not_waits_of_pending_none hdropped
  | gateway gateway => cases gateway <;> exact Finset.notMem_erase _ _
  | persistentShell => exact Finset.notMem_erase _ _

/-- One request of a runner that is gone is answered, if somebody waits for it. -/
theorem settles_resolveDisconnected (state : RunnerRegistryInner × List Response)
    (requestId : String) :
    ∃ responses, (resolveDisconnected clientId error state requestId).2 = state.2 ++ responses ∧
      Settles state.1 (resolveDisconnected clientId error state requestId).1 responses := by
  rw [resolveDisconnected]
  cases hpending : state.1.pendingById.lookup requestId with
  | none => exact ⟨[], (List.append_nil _).symm, .silent (.refl _)⟩
  | some pending =>
    refine ⟨disconnectResponses state.1 clientId requestId pending error, rfl, ?_⟩
    have hgone : (removeFromQueue clientId requestId
        (dropPending requestId state.1)).pendingById.lookup requestId = none :=
      (lookup_dropPending state.1 requestId requestId).trans (if_pos rfl)
    refine .of_answers ?_ hpending hgone
      (disconnectResponses_waiters_nodup state.1 clientId error requestId pending) ?_
    · exact ((loses_dropPending state.1 requestId).trans
        (loses_removeFromQueue _ clientId requestId)).trans (loses_dropSideTables _ requestId)
    · intro _ hmem
      obtain ⟨hanswer, -⟩ := answers_disconnectResponses state.1 clientId error hpending hmem
      refine ⟨hanswer, not_waits_dropSideTables _ hgone ?_⟩
      rw [Response.waiter_requestId, hanswer.requestId_eq]

theorem settles_resolveDisconnectedSyncRequests :
    Settles inner (resolveDisconnectedSyncRequests clientId error inner).1
      (resolveDisconnectedSyncRequests clientId error inner).2 := by
  obtain ⟨_, hresponses, hsettles⟩ := Settles.foldl (settles_resolveDisconnected clientId error)
    ((inner.pendingById.entries.filter fun entry ↦
      entry.2.jobId.isNone && entry.2.request.clientId == clientId).map fun entry ↦ entry.1)
    (inner, [])
  rw [resolveDisconnectedSyncRequests, hresponses]
  exact hsettles

theorem settles_resolveDisconnectedRunners (clientIds : List String) :
    Settles inner (resolveDisconnectedRunners error clientIds inner).1
      (resolveDisconnectedRunners error clientIds inner).2 := by
  obtain ⟨_, hresponses, hsettles⟩ := Settles.foldl (f := fun state clientId ↦
      ((resolveDisconnectedSyncRequests clientId error state.1).1,
        state.2 ++ (resolveDisconnectedSyncRequests clientId error state.1).2))
    (fun state clientId ↦
      ⟨_, rfl, settles_resolveDisconnectedSyncRequests state.1 clientId error⟩)
    clientIds (inner, [])
  rw [resolveDisconnectedRunners, hresponses]
  exact hsettles

end Disconnected

section Sweeps

variable (env : Environment) (inner : RunnerRegistryInner) (now : ℤ)

theorem settles_pruneExpiredSharedKeyRunners :
    Settles inner (pruneExpiredSharedKeyRunners env now inner).1
      (pruneExpiredSharedKeyRunners env now inner).2 := by
  simp only [pruneExpiredSharedKeyRunners]
  split
  · exact .silent (.refl inner)
  · exact (settles_resolveDisconnectedRunners inner _ _).then_loses
      ((loses_loseRunnerJobs _ now _).trans (loses_forgetRunners _ _ _ _))

theorem settles_recoveryTimeoutSweep : Settles inner (recoveryTimeoutSweep env now inner).1
      (recoveryTimeoutSweep env now inner).2 := by
  have hpruned : ∀ state : RunnerRegistryInner, Loses state (pruneAllSuppressions now state) :=
    fun state ↦ .of_requests_eq rfl
  exact (settles_pruneExpiredSharedKeyRunners env inner now).then_loses ((hpruned _).trans
    ((loses_expireRecoveringJobs _ env none now recoverySweepPassCap).trans
      (loses_pruneExpiredTerminalJobs _ now)))

variable (body : RunnerRegisterRequest)

theorem settles_replaceInstance :
    Settles inner (replaceInstance body now inner).1 (replaceInstance body now inner).2 := by
  rw [replaceInstance]
  split
  · exact .silent (.refl inner)
  · split_ifs
    · exact .silent (.refl inner)
    · exact .after_loses (loses_terminateInstanceJobs inner body.clientId _ _ now)
        ((settles_resolveDisconnectedSyncRequests _ body.clientId _).then_loses
          (loses_retireInstance _ body.clientId _))

theorem loses_reconcileRegistration :
    Loses inner (reconcileRegistration env body now inner) := by
  rw [reconcileRegistration]
  split
  · exact .refl inner
  · exact loses_reconcileInventory inner body.clientId env _ _ _ now

theorem settles_registerSession :
    Settles inner (registerSession env inner body now).state
      (registerSession env inner body now).responses := by
  have hpruned := settles_pruneExpiredSharedKeyRunners env inner now
  have hinstalled : ∀ state : RunnerRegistryInner, Loses state (installRunner body now state) :=
    fun state ↦ .of_requests_eq rfl
  simp only [registerSession]
  split
  · exact .silent (.refl inner)
  · split
    · exact hpruned
    · exact hpruned.trans ((settles_replaceInstance _ now body).then_loses
        ((hinstalled _).trans (loses_reconcileRegistration env _ now body)))

theorem settles_reconcileDisconnectChecked (clientId instanceId : String)
    (connectionId : Option String) (transport : Option RunnerTransport) :
    Settles inner
      (reconcileDisconnectChecked inner clientId instanceId connectionId transport now).state
      (reconcileDisconnectChecked inner clientId instanceId connectionId transport
        now).responses := by
  have hoffline : Loses inner (markDisconnected clientId instanceId connectionId now inner) :=
    .of_requests_eq rfl
  simp only [reconcileDisconnectChecked]
  split
  · exact .silent (.refl inner)
  · split_ifs
    · exact .silent (.refl inner)
    · refine .after_loses ?_ (settles_resolveDisconnectedSyncRequests _ clientId _)
      refine hoffline.trans (.trans (.foldl (fun current entry ↦ ?_) _ _)
        (.foldl (fun current requestId ↦ ?_) _ _))
      · exact loses_disconnectJob current clientId _ now entry
      · exact loses_forgetJobRequest current clientId requestId

end Sweeps

/-! ### Results -/

section Results

variable {inner : RunnerRegistryInner} {pending : PendingShellRequest}

theorem answers_gatewayAnswer {gateway : Gateway}
    (hwaiter : requestId ∈ inner.gatewayWaiters gateway) (valid : Bool)
    (afterDispatch beforeDispatch : String) :
    (gatewayAnswer gateway requestId valid pending.dispatched afterDispatch
      beforeDispatch).Answers inner requestId pending := by
  by_cases hvalid : valid = true
  · rw [gatewayAnswer, if_pos hvalid]
    exact ⟨rfl, hwaiter, fun hclaim ↦ by simp [Response.saysNotDispatched] at hclaim⟩
  · rw [gatewayAnswer, if_neg hvalid]
    refine ⟨rfl, hwaiter, fun hclaim ↦ Or.inl (dispatchStateOf_eq_notStarted ?_)⟩
    simpa [Response.saysNotDispatched] using hclaim

theorem gatewayAnswer_waiter (gateway : Gateway) (requestId : String) (valid dispatched : Bool)
    (afterDispatch beforeDispatch : String) :
    (gatewayAnswer gateway requestId valid dispatched afterDispatch beforeDispatch).waiter =
      ⟨.gateway gateway, requestId⟩ := by
  by_cases hvalid : valid = true
  · rw [gatewayAnswer, if_pos hvalid]
    rfl
  · rw [gatewayAnswer, if_neg hvalid]
    rfl

/-- The answer of a gateway settles the one waiter that stands for it. -/
theorem settles_gatewayAnswer (gateway : Gateway) (hloses : Loses inner after)
    (hpending : inner.pendingById.lookup requestId = some pending)
    (hgone : after.pendingById.lookup requestId = none)
    (hwaiters : requestId ∉ after.gatewayWaiters gateway) (valid : Bool)
    (afterDispatch beforeDispatch : String) :
    Settles inner after (if requestId ∈ inner.gatewayWaiters gateway then
        [gatewayAnswer gateway requestId valid pending.dispatched afterDispatch beforeDispatch]
      else []) := by
  split_ifs with hwaiter
  · refine .of_answers hloses hpending hgone (List.nodup_singleton _) ?_
    intro _ hmem
    rw [List.mem_singleton] at hmem
    subst hmem
    refine ⟨answers_gatewayAnswer hwaiter valid afterDispatch beforeDispatch, ?_⟩
    rw [gatewayAnswer_waiter]
    exact hwaiters
  · exact .silent hloses

theorem settles_commandResponse {payload : RunnerResultPayload} (hloses : Loses inner after)
    (hpending : inner.pendingById.lookup payload.requestId = some pending)
    (hgone : after.pendingById.lookup payload.requestId = none) :
    Settles inner after (commandResponse pending payload) := by
  by_cases hwaiter : pending.waiter = true
  · rw [commandResponse, if_pos hwaiter]
    refine .of_answers hloses hpending hgone (List.nodup_singleton _) ?_
    intro _ hmem
    rw [List.mem_singleton] at hmem
    subst hmem
    refine ⟨⟨rfl, ⟨pending, hpending, hwaiter⟩, fun hclaim ↦ Or.inl ?_⟩,
      not_waits_of_pending_none hgone⟩
    simpa [Response.saysNotDispatched] using hclaim
  · rw [commandResponse, if_neg hwaiter]
    exact .silent hloses

/-- A result answers the waiter of its request and takes both away. -/
theorem settles_resolveRequest {payload : RunnerResultPayload}
    (hpending : inner.pendingById.lookup payload.requestId = some pending) (now : ℤ) :
    Settles inner (resolveRequest inner pending payload now).1
      (resolveRequest inner pending payload now).2 := by
  have htaken := loses_dropPending inner payload.requestId
  have hgone : (dropPending payload.requestId inner).pendingById.lookup payload.requestId = none :=
    (lookup_dropPending inner payload.requestId payload.requestId).trans (if_pos rfl)
  -- the table of one gateway loses the waiter together with the request
  have hgateway : ∀ {after : RunnerRegistryInner},
      after.pendingById = (dropPending payload.requestId inner).pendingById →
      after.queuesByRunner = inner.queuesByRunner →
      (∀ gateway, after.gatewayWaiters gateway ⊆ inner.gatewayWaiters gateway) →
      after.persistentWaiters = inner.persistentWaiters → Loses inner after := by
    intro after hpendings hqueues hgateways hshells
    constructor
    · intro requestId other h
      exact htaken.pending requestId other (hpendings ▸ h)
    · intro _
      rw [queueOf, hqueues]
      exact List.Sublist.refl _
    · exact hgateways
    · rw [hshells]
  simp only [resolveRequest]
  split
  · refine settles_gatewayAnswer .mcp ?_ hpending ?_ ?_ _ _ _
    · refine hgateway rfl rfl (fun gateway ↦ ?_) rfl
      cases gateway
      · exact Finset.erase_subset _ _
      · exact Finset.Subset.refl _
      · exact Finset.Subset.refl _
    · exact hgone
    · exact Finset.notMem_erase _ _
  · refine settles_gatewayAnswer .plugin ?_ hpending ?_ ?_ _ _ _
    · refine hgateway rfl rfl (fun gateway ↦ ?_) rfl
      cases gateway
      · exact Finset.Subset.refl _
      · exact Finset.erase_subset _ _
      · exact Finset.Subset.refl _
    · exact hgone
    · exact Finset.notMem_erase _ _
  · refine settles_gatewayAnswer .codingAgent ?_ hpending ?_ ?_ _ _ _
    · refine hgateway rfl rfl (fun gateway ↦ ?_) rfl
      cases gateway
      · exact Finset.Subset.refl _
      · exact Finset.Subset.refl _
      · exact Finset.erase_subset _ _
    · exact hgone
    · exact Finset.notMem_erase _ _
  · split
    · exact settles_commandResponse htaken hpending hgone
    · exact settles_commandResponse (htaken.trans (.of_requests_eq rfl)) hpending hgone

theorem settles_completeChecked (inner : RunnerRegistryInner) (payload : RunnerResultPayload)
    (connectionId : Option String) (now : ℤ) :
    Settles inner (completeChecked inner payload connectionId now).state
      (completeChecked inner payload connectionId now).responses := by
  have htouched := loses_touchIfCurrent inner payload.clientId connectionId now
  simp only [completeChecked]
  split
  · exact .silent (.refl inner)
  · split
    · exact .silent (.refl inner)
    · cases hpending : (touchIfCurrent payload.clientId connectionId now inner).pendingById.lookup
          payload.requestId with
      | none => exact .silent htouched
      | some pending =>
        dsimp only
        split
        · exact .silent htouched
        · exact .after_loses htouched (settles_resolveRequest hpending now)

/-- The result of a persistent shell settles its own waiter only. -/
theorem settles_completePersistentShellChecked (inner : RunnerRegistryInner)
    (body : PersistentShellResult) (connectionId : Option String) (now : ℤ) :
    Settles inner (completePersistentShellChecked inner body connectionId now).state
      (completePersistentShellChecked inner body connectionId now).responses := by
  have htouched := loses_touchIfCurrent inner body.clientId connectionId now
  have hunwaited : ∀ state : RunnerRegistryInner, Loses state
      { state with persistentWaiters := state.persistentWaiters.erase body.requestId } := by
    intro state
    constructor
    · exact fun _ _ h ↦ h
    · exact fun _ ↦ List.Sublist.refl _
    · exact fun _ ↦ Finset.Subset.refl _
    · exact Finset.erase_subset _ _
  simp only [completePersistentShellChecked]
  split
  · exact .silent (.refl inner)
  · split
    · exact .silent (.refl inner)
    · cases hpending : (touchIfCurrent body.clientId connectionId now inner).pendingById.lookup
          body.requestId with
      | none => exact .silent htouched
      | some pending =>
        dsimp only
        split
        · exact .silent htouched
        · split
          · split
            · exact .silent (htouched.trans ((hunwaited _).trans
                (loses_removePendingRequest _ body.requestId)))
            · have hdropped := (hunwaited (touchIfCurrent body.clientId connectionId now
                inner)).trans (loses_dropPending _ body.requestId)
              refine .after_loses htouched ?_
              split_ifs with hwaiter
              · refine .of_answers hdropped hpending ?_ (List.nodup_singleton _) ?_
                · exact (lookup_dropPending _ body.requestId body.requestId).trans (if_pos rfl)
                · intro _ hmem
                  rw [List.mem_singleton] at hmem
                  subst hmem
                  refine ⟨⟨rfl, hwaiter, fun hclaim ↦ ?_⟩, Finset.notMem_erase _ _⟩
                  simp [Response.saysNotDispatched] at hclaim
              · exact .silent hdropped
          · exact .silent htouched

end Results

/-! ### Polls -/

section Polls

variable (clientId : String)

theorem queueOf_setQueue (rest : List String) (inner : RunnerRegistryInner) (other : String) :
    queueOf (setQueue clientId rest inner) other =
      if other = clientId then rest else queueOf inner other := by
  rw [queueOf, setQueue, Table.lookup_insert_eq]
  split_ifs
  · rfl
  · rfl

theorem loses_setQueue {rest : List String} {inner : RunnerRegistryInner}
    (hrest : rest.Sublist (queueOf inner clientId)) :
    Loses inner (setQueue clientId rest inner) where
  pending _ _ h := h
  queues other := by
    rw [queueOf_setQueue]
    split_ifs with hsame
    · rw [hsame]
      exact hrest
    · exact List.Sublist.refl _
  gateways _ := Finset.Subset.refl _
  shells := Finset.Subset.refl _

variable (inner : RunnerRegistryInner)

theorem staleResponses_waiters_nodup (requestId : String) (pending : PendingShellRequest)
    (stale : StaleRequest) :
    ((staleResponses inner clientId requestId pending stale).map Response.waiter).Nodup := by
  have hplaces : ∀ gateway : Gateway,
      [(⟨.pendingRequest, requestId⟩ : Waiter), ⟨.gateway gateway, requestId⟩].Nodup := by
    simp
  cases stale with
  | runnerConfig | sshResource | skillStore | project =>
    exact (List.nodup_singleton _).sublist (refusal_waiters _ _ _ _ _ _)
  | bridge =>
    refine (hplaces .mcp).sublist ?_
    simp only [staleResponses, List.map_append]
    exact (refusal_waiters _ _ _ _ _ _).append (gatewayFailure_waiters _ _ _ _ _)
  | plugin =>
    refine (hplaces .plugin).sublist ?_
    simp only [staleResponses, List.map_append]
    exact (refusal_waiters _ _ _ _ _ _).append (gatewayFailure_waiters _ _ _ _ _)
  | codingAgent => exact (List.nodup_singleton _).sublist (gatewayFailure_waiters _ _ _ _ _)

theorem lookup_dropStale (requestId : String) (stale : StaleRequest) :
    (dropStale requestId inner stale).pendingById.lookup requestId = none := by
  have hgone := (lookup_dropPending inner requestId requestId).trans (if_pos rfl)
  cases stale <;> exact hgone

/-- A stale request of the queue is dropped and its waiters are told so. -/
theorem settles_dropStale {inner : RunnerRegistryInner}
    (hpending : inner.pendingById.lookup requestId = some pending)
    (hqueued : ∃ clientId, requestId ∈ queueOf inner clientId) (rest : List String)
    (hrest : rest.Sublist (queueOf inner clientId)) (stale : StaleRequest) :
    Settles inner (dropStale requestId (setQueue clientId rest inner) stale)
      (staleResponses (setQueue clientId rest inner) clientId requestId pending stale) := by
  have hgone := lookup_dropStale (setQueue clientId rest inner) requestId stale
  refine .of_answers ((loses_setQueue clientId hrest).trans (loses_dropStale _ requestId stale))
    hpending hgone (staleResponses_waiters_nodup clientId _ requestId pending stale) ?_
  intro response hmem
  have hrefusal : ∀ {cwd preview error state},
      response ∈ refusal pending requestId clientId cwd preview error false state →
      response.Answers inner requestId pending ∧ ¬(dropStale requestId
        (setQueue clientId rest inner) stale).Waits response.waiter := by
    intro cwd preview error state hmem
    obtain ⟨hanswer, hwaiter⟩ := answers_refusal hpending (fun _ ↦ Or.inr hqueued) hmem
    rw [hwaiter]
    exact ⟨hanswer, not_waits_of_pending_none hgone⟩
  have hfailure : ∀ (gateway : Gateway) {code message}, requestId ∉ (dropStale requestId
        (setQueue clientId rest inner) stale).gatewayWaiters gateway →
      response ∈ gatewayFailure (inner.gatewayWaiters gateway) gateway requestId .notStarted code
        message →
      response.Answers inner requestId pending ∧ ¬(dropStale requestId
        (setQueue clientId rest inner) stale).Waits response.waiter := by
    intro gateway code message hwaiters hmem
    obtain ⟨hanswer, hwaiter⟩ := answers_gatewayFailure gateway (fun _ ↦ Or.inr hqueued) hmem
    rw [hwaiter]
    exact ⟨hanswer, hwaiters⟩
  cases stale with
  | runnerConfig | sshResource | skillStore | project => exact hrefusal hmem
  | bridge =>
    rcases List.mem_append.mp hmem with hmem | hmem
    · exact hrefusal hmem
    · exact hfailure .mcp (Finset.notMem_erase _ _) hmem
  | plugin =>
    rcases List.mem_append.mp hmem with hmem | hmem
    · exact hrefusal hmem
    · exact hfailure .plugin (Finset.notMem_erase _ _) hmem
  | codingAgent => exact hfailure .codingAgent (Finset.notMem_erase _ _) hmem

theorem queueOf_dropStale (requestId : String) (stale : StaleRequest) :
    queueOf (dropStale requestId inner stale) clientId = queueOf inner clientId := by
  cases stale <;> rfl

/-- A poll first settles what is stale in its queue; then the queue is empty, or the request at its
front is handed out. -/
theorem pollQueue_cases (now : ℤ) (queue : List String) (inner : RunnerRegistryInner)
    (hqueue : queueOf inner clientId = queue) :
    ∃ middle, Settles inner middle (pollQueue clientId now queue inner).2.1 ∧
      middle.jobs = inner.jobs ∧
      (((pollQueue clientId now queue inner).2.2 = none ∧
          (pollQueue clientId now queue inner).1 = middle) ∨
        ∃ requestId rest pending, queueOf middle clientId = requestId :: rest ∧
          middle.pendingById.lookup requestId = some pending ∧
          (pollQueue clientId now queue inner).2.2 = some pending.request ∧
          (pollQueue clientId now queue inner).1 =
            dispatchRequest (setQueue clientId rest middle) requestId pending now) := by
  induction queue generalizing inner with
  | nil => exact ⟨inner, .silent (.refl inner), rfl, Or.inl ⟨rfl, rfl⟩⟩
  | cons requestId rest ih =>
    have hrest : rest.Sublist (queueOf inner clientId) := hqueue ▸ List.sublist_cons_self _ _
    have hpopped : queueOf (setQueue clientId rest inner) clientId = rest :=
      (queueOf_setQueue clientId rest inner clientId).trans (if_pos rfl)
    cases hpending : inner.pendingById.lookup requestId with
    | none =>
      have hskip : pollQueue clientId now (requestId :: rest) inner =
          pollQueue clientId now rest (setQueue clientId rest inner) := by
        simp only [pollQueue]
        have hlookup : (setQueue clientId rest inner).pendingById.lookup requestId = none :=
          hpending
        rw [hlookup]
      rw [hskip]
      obtain ⟨middle, hsettles, hjobs, hend⟩ := ih _ hpopped
      exact ⟨middle, .after_loses (loses_setQueue clientId hrest) hsettles, hjobs, hend⟩
    | some pending =>
      have hlookup : (setQueue clientId rest inner).pendingById.lookup requestId = some pending :=
        hpending
      cases hstale : staleRequest (setQueue clientId rest inner) clientId requestId pending with
      | none =>
        refine ⟨inner, ?_, rfl, Or.inr ⟨requestId, rest, pending, hqueue, hpending, ?_, ?_⟩⟩
        · simp only [pollQueue, hlookup, hstale]
          exact .silent (.refl inner)
        · simp [pollQueue, hlookup, hstale]
        · simp [pollQueue, hlookup, hstale]
      | some stale =>
        have hnext : queueOf (dropStale requestId (setQueue clientId rest inner) stale) clientId =
            rest := (queueOf_dropStale clientId _ requestId stale).trans hpopped
        obtain ⟨middle, hsettles, hjobs, hend⟩ := ih _ hnext
        have hqueued : ∃ clientId, requestId ∈ queueOf inner clientId :=
          ⟨clientId, hqueue ▸ List.mem_cons_self⟩
        refine ⟨middle, ?_, ?_, ?_⟩
        · simp only [pollQueue, hlookup, hstale]
          exact (settles_dropStale clientId hpending hqueued rest hrest stale).trans hsettles
        · rw [hjobs, jobs_dropStale, jobs_setQueue]
        · simp only [pollQueue, hlookup, hstale]
          exact hend

end Polls

end WebCodex.Registry
