import WebCodex.AgentWake.Constraints

/-!
At most one wake of an agent may be dispatched, says a unique index of the schema. The calls that
take a wake out of the queue look for one that was dispatched already; the preparation of a
claimed wake does not. Of two wakes that an endpoint has claimed it can prepare one, and then the
preparation of the other fails in the database.
-/

namespace WebCodex.AgentWake

open Foundation
open AgentTasks (CommunicationPrincipal Fallible)

variable {wake : AgentWakeRecord} {call : Preparation}

namespace Store

variable {s : Store}

theorem ends_lookupIdempotentResource (principal : CommunicationPrincipal)
    (request : IdempotentRequest) (key : String) :
    Ends Failure.Expected (fun _ ↦ True) (s.lookupIdempotentResource principal request key) := by
  unfold lookupIdempotentResource
  split
  · exact trivial
  · exact (Ends.ensure (expected_refused _)).skip fun _ ↦ .pure trivial

/-- An explicit activation looks for a dispatched wake of the agent itself, so that it cannot run
into the index. -/
theorem ends_acceptExplicitAgentWakeActivation (h : s.Constraints)
    (principal : CommunicationPrincipal) (asserted : EndpointAssertion)
    (wakeId activationKey : String) {new : NewClaim}
    (hfresh : new.attemptId ∉ s.attempts.map AgentWakeAttempt.attemptId) (clock : Clock) :
    Ends Failure.Expected (fun result ↦ result.1.Constraints)
      (s.acceptExplicitAgentWakeActivation principal asserted wakeId activationKey new clock) := by
  refine (ends_checked _).skip fun _ ↦ (ends_checked _).skip fun _ ↦ (ends_checked _).skip fun _ ↦
    (ends_checked _).skip fun _ ↦ (ends_checked _).skip fun _ ↦
    (ends_lookupIdempotentResource _ _ _).skip fun _ ↦ ?_
  split
  · exact ends_required.skip fun _ ↦ (Ends.required (expected_refusal _ _)).skip fun _ ↦ .pure h
  refine (ends_requireCurrentEndpoint _ _ _).bind fun _ hgeneration ↦
    (Ends.required (expected_refusal _ _)).bind fun wake hload ↦ ends_ensure.skip fun _ ↦
    ends_ensure.skip fun _ ↦ ends_ensure.bind fun _ hpending ↦ ends_ensure.bind fun _ hfree ↦ ?_
  obtain ⟨hload, htarget⟩ := Option.filter_eq_some_iff.mp hload
  obtain ⟨hwake, rfl⟩ := mem_of_loadWake hload
  rw [beq_iff_eq] at hpending htarget
  rw [Bool.not_eq_true'] at hfree
  refine (ends_insertAttempt h hgeneration hfresh).bind fun s₁ ⟨h₁, hwakes⟩ ↦ ?_
  have hfree₁ : s₁.hasDispatched wake.targetAgentId = false := by
    rw [hasDispatched, hwakes, htarget]
    exact hfree
  rw [← hwakes] at hwake
  have hcrossed :
      (s₁.updateWakes (fun other ↦ other.wakeId == wake.wakeId && other.state == .pending)
          fun wake ↦ { wake.revise clock.now with
        state := .delivered
        claimedAttemptId := some new.attemptId
        claimedEndpointId := some asserted.endpointId
        claimedControllerGeneration := some asserted.controllerGeneration
        claimLeaseExpiresAt := none }).Constraints := by
    refine (crossing_constraints_iff h₁ hwake ?_ ?_ (only_wake h₁ hwake hpending) ?_ ?_).mpr hfree₁
    · rw [hpending]
      rfl
    · exact ⟨fun _ ↦ rfl, fun _ ↦ rfl, fun _ ↦ rfl, fun _ ↦ rfl, fun _ ↦ rfl⟩
    · exact checks_claimed (h₁.wakes.checks wake hwake) rfl rfl rfl rfl (Or.inr rfl)
    · rfl
  refine (ends_checkTables hcrossed).bind fun _ hs₂ ↦ ends_ensure.skip fun _ ↦ .pure ?_
  subst hs₂
  exact ⟨hcrossed.wakes, hcrossed.attempts, hcrossed.carriers, hcrossed.endpoints, hcrossed.events⟩

/-- The checks of a preparation on its claim leave a claimed wake of the agent. -/
theorem ends_preparationClaim (call : Preparation) : Ends Failure.Expected
      (fun wake ↦ s.loadWake call.claim.wakeId = some wake ∧ wake.state = .claimed ∧
        wake.targetAgentId = call.asserted.agentId)
      (s.preparationClaim call) := by
  refine (ends_checked _).skip fun _ ↦ (ends_checked _).skip fun _ ↦ (ends_checked _).skip fun _ ↦
    (ends_requireCurrentEndpoint _ _ _).skip fun _ ↦ ends_ensure.skip fun _ ↦
    (ends_requireExactClaim _ _ _).bind fun wake ⟨hload, htarget⟩ ↦
        ends_ensure.bind fun _ hclaimed ↦
    ends_ensure.skip fun _ ↦ .pure ⟨hload, beq_iff_eq.mp hclaimed, htarget⟩

/-- The row that a preparation changes. -/
theorem prepared_constraints_iff (h : s.Constraints) (hwake : wake ∈ s.wakes)
    (hclaimed : wake.state = .claimed) (now : ℤ) :
    (s.updateWakes (preparable wake.wakeId) (prepareWake now)).Constraints ↔
      s.hasDispatched wake.targetAgentId = false :=
  crossing_constraints_iff h hwake (by rw [hclaimed]; rfl)
    ⟨fun _ ↦ rfl, fun _ ↦ rfl, fun _ ↦ rfl, fun _ ↦ rfl, fun _ ↦ rfl⟩ (only_wake h hwake hclaimed)
    (checks_claimed (h.wakes.checks wake hwake) rfl rfl rfl rfl (Or.inr rfl)) rfl

theorem ends_preparationEvent (call : Preparation) (wake : AgentWakeRecord) :
    Ends Failure.Expected (fun _ ↦ s.preparationEvent call wake = .ok ())
      (s.preparationEvent call wake) := by
  have hevent : Ends Failure.Expected (fun _ ↦ True) (s.preparationEvent call wake) := by
    unfold preparationEvent
    split
    · exact (ends_requireAgentAttentionEventForWake _ _ _).skip fun _ ↦ .pure trivial
    · exact .pure trivial
  cases hresult : s.preparationEvent call wake with
  | ok => exact rfl
  | error => exact hevent.of_eq_error hresult

theorem ends_wakeEnvelope (principal : CommunicationPrincipal) (wake : AgentWakeRecord)
    (asserted : EndpointAssertion) (consumeToken : String) :
    Ends Failure.Expected (fun _ ↦ True) (s.wakeEnvelope principal wake asserted consumeToken) := by
  unfold wakeEnvelope
  split
  · exact (ends_taskSource wake).skip fun _ ↦ (ends_taskAttempt _ _).skip fun _ ↦ .pure trivial
  · exact (ends_requireAgentAttentionEventForWake _ _ _).skip fun _ ↦ .pure trivial
  · exact ends_required.skip fun _ ↦ ends_required.skip fun _ ↦ .pure trivial

/-- The statements of a preparation, when no wake of the agent is dispatched. -/
theorem ends_crossDispatchFence (h : s.Constraints)
    (hload : s.loadWake call.claim.wakeId = some wake) (hclaimed : wake.state = .claimed)
    (hfree : s.hasDispatched wake.targetAgentId = false) :
    Ends Failure.Expected (fun result ↦ result.1.Constraints) (s.crossDispatchFence call wake) := by
  obtain ⟨hwake, hid⟩ := mem_of_loadWake hload
  refine (ends_updateAttempts h (fun _ ↦ by rfl) fun _ ↦ by rfl).bind fun s₁ ⟨h₁, hs₁⟩ ↦ ?_
  have hwakes : s₁.wakes = s.wakes := by rw [hs₁]; rfl
  have hcrossed :=
    (prepared_constraints_iff h₁.constraints (hwakes ▸ hwake) hclaimed call.clock.now).mpr
      (by rw [hasDispatched, hwakes]; exact hfree)
  rw [hid] at hcrossed
  refine (ends_checkTables hcrossed).bind fun _ hs₂ ↦ ?_
  subst hs₂
  exact (Ends.required (expected_refusal _ _)).skip fun _ ↦ (ends_wakeEnvelope _ _ _ _).skip
    fun _ ↦ .pure hcrossed

/-- The statements of a preparation, when a wake of the agent is dispatched. -/
theorem crossDispatchFence_of_dispatched (h : s.Constraints)
    (hload : s.loadWake call.claim.wakeId = some wake)
    (hclaimed : wake.state = .claimed) (hdispatched : s.hasDispatched wake.targetAgentId = true) :
    s.crossDispatchFence call wake = .error .constraint := by
  obtain ⟨hwake, hid⟩ := mem_of_loadWake hload
  unfold crossDispatchFence
  rw [admit_of_constraints (constraints_updateAttempts h (fun _ ↦ by rfl) fun _ ↦ by rfl), ok_bind,
    admit_of_not_constraints, error_bind]
  have h₁ : (s.updateAttempts
      (fun attempt ↦ attempt.attemptId == call.claim.attemptId && attempt.state == .claimed)
      fun attempt ↦ { attempt with
        state := .prepared
        preparedAt := some call.clock.now }).Constraints :=
    constraints_updateAttempts h (fun _ ↦ rfl) fun _ ↦ rfl
  rw [← hid, prepared_constraints_iff h₁ hwake hclaimed]
  intro hfree
  exact absurd (hdispatched.symm.trans hfree) Bool.noConfusion

/-- The checks of a preparation pass, and its task attempt is not lost. -/
def PreparationPasses (call : Preparation) (s : Store) : Prop :=
  ∃ wake, s.preparationClaim call = .ok wake ∧ s.preparationStale call wake = false ∧
    s.preparationEvent call wake = .ok ()

/-- A preparation looks at its own wake only: that no other one of the agent is dispatched has to be
known. -/
theorem ends_prepareAgentWakeDispatch (h : s.Constraints)
    (hfree : s.PreparationPasses call → s.hasDispatched call.asserted.agentId = false) :
    Ends Failure.Expected (fun result ↦ result.1.Constraints)
      (s.prepareAgentWakeDispatch call) := by
  unfold prepareAgentWakeDispatch
  cases hclaim : s.preparationClaim call with
  | error => exact (ends_preparationClaim call).of_eq_error hclaim
  | ok wake =>
    obtain ⟨hload, hclaimed, htarget⟩ := (ends_preparationClaim call).of_eq_ok hclaim
    rw [ok_bind]
    split_ifs with hstale
    · exact (ends_retireAgentTaskWakePreDispatch h wake.wakeId call.clock.now).bind
        fun _ h₁ ↦ .pure h₁.constraints
    · rw [Bool.not_eq_true] at hstale
      refine (ends_preparationEvent call wake).bind fun _ hevent ↦ ?_
      have hfree' := hfree ⟨wake, hclaim, hstale, hevent⟩
      rw [← htarget] at hfree'
      exact (ends_crossDispatchFence h hload hclaimed hfree').bind fun _ h₁ ↦ .pure h₁

/-- A preparation breaks a constraint when its checks pass while a wake of its agent is
dispatched. -/
theorem preparation_constraint_iff (h : s.Constraints) (call : Preparation) :
    s.prepareAgentWakeDispatch call = .error .constraint ↔
      s.PreparationPasses call ∧ s.hasDispatched call.asserted.agentId = true := by
  constructor
  · intro hfails
    by_contra hnot
    refine (ends_prepareAgentWakeDispatch h fun hpasses ↦ ?_).of_eq_error hfails rfl
    by_contra hdispatched
    rw [Bool.not_eq_false] at hdispatched
    exact hnot ⟨hpasses, hdispatched⟩
  · rintro ⟨⟨_, hclaim, hstale, hevent⟩, hdispatched⟩
    obtain ⟨hload, hclaimed, htarget⟩ := (ends_preparationClaim call).of_eq_ok hclaim
    rw [← htarget] at hdispatched
    unfold prepareAgentWakeDispatch
    rw [hclaim, ok_bind, hstale, if_neg Bool.false_ne_true, hevent, ok_bind,
      crossDispatchFence_of_dispatched h hload hclaimed hdispatched, error_bind]

end Store

end WebCodex.AgentWake
