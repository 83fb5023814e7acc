import WebCodex.AgentWake.Statements

/-!
The parts that several calls share: claims that have run out go back to the queue, stale wakes of
task attempts are retired, and the loss of an endpoint is followed up. Each of them tidies the
tables and never fails with a constraint.
-/

namespace WebCodex.AgentWake

open Foundation
open AgentTasks (CommunicationPrincipal AttemptAssertion)

theorem keepsKeys_unclaim {state : AgentWakeState} {at' : AgentWakeRecord → ℤ} :
    KeepsKeys fun wake ↦ (wake.unclaim state).revise (at' wake) :=
  ⟨fun _ ↦ rfl, fun _ ↦ rfl, fun _ ↦ rfl, fun _ ↦ rfl, fun _ ↦ rfl⟩

/-- A wake without a claim, in a state that needs none. -/
theorem checks_unclaim {wake : AgentWakeRecord} {state : AgentWakeState} {updatedAt : ℤ}
    (hstate : state = .pending ∨ state = .retired) (h : wake.Checks) :
    ((wake.unclaim state).revise updatedAt).Checks where
  trigger := h.trigger
  watermark := h.watermark
  count := h.count
  revision := Int.le_add_one h.revision
  claim := by obtain rfl | rfl := hstate <;> rfl
  consumption := by obtain rfl | rfl := hstate <;> rfl

/-- A wake in a state with a claim, its claim columns whatever they are. -/
theorem checks_claimed {wake after : AgentWakeRecord} (h : wake.Checks)
    (htrigger : after.triggerColumns = wake.triggerColumns)
    (hwatermark : after.inboxHighWatermark = wake.inboxHighWatermark)
    (hcount : after.queuedDeliveryCountSnapshot = wake.queuedDeliveryCountSnapshot)
    (hrevision : after.revision = wake.revision + 1)
    (hstate : after.state = .claimed ∨ after.state.dispatched = true) : after.Checks where
  trigger := htrigger.trans h.trigger
  watermark := by rw [hwatermark]; exact h.watermark
  count := by rw [hcount]; exact h.count
  revision := by rw [hrevision]; exact Int.le_add_one h.revision
  claim := by
    unfold AgentWakeRecord.claimColumns
    cases hafter : after.state <;> simp [hafter, AgentWakeState.dispatched] at hstate ⊢
  consumption := by
    unfold AgentWakeRecord.consumptionColumns
    cases hafter : after.state <;> simp [hafter, AgentWakeState.dispatched] at hstate ⊢

namespace Store

variable {s : Store}

theorem ends_revokeClaimed (h : s.Constraints) (condition : AgentWakeAttempt → Bool) (now : ℤ) :
    Ends Failure.Expected (Tidies s) (s.revokeClaimed condition now) :=
  (ends_updateAttempts h (fun _ ↦ by rfl) fun _ ↦ by rfl).mono fun _ h ↦ h.1

/-- Wakes that wait go back to the queue, or are retired. -/
theorem ends_unclaimWakes (h : s.Constraints) {condition : AgentWakeRecord → Bool}
    {state : AgentWakeState} (hstate : state = .pending ∨ state = .retired)
    (hcondition : ∀ wake, condition wake = true → wake.state.queueable = true) (now : ℤ) :
    Ends Failure.Expected (Tidies s) (s.unclaimWakes condition state now) := by
  refine ends_updateWakes h keepsKeys_unclaim (fun _ _ _ hchecks ↦ checks_unclaim hstate hchecks)
    (fun wake _ hwake _ ↦ hcondition wake hwake) fun wake _ _ hdispatched ↦ ?_
  obtain rfl | rfl := hstate <;> cases hdispatched

theorem ends_clearAgentTaskWakeCarrier (h : s.Constraints) (wakeId : String) (now : ℤ) :
    Ends Failure.Expected (Tidies s) (s.clearAgentTaskWakeCarrier wakeId now) :=
  ends_updateCarriers h (by simp) now

theorem tidies_materializeAgentTaskWakeExpiry (h : s.Constraints) (wake : AgentWakeRecord)
    (now : ℤ) :
    Tidies s (s.materializeAgentTaskWakeExpiry wake now) := by
  unfold materializeAgentTaskWakeExpiry
  split
  · exact ⟨h.withTasks _, rfl⟩
  · exact .refl h

theorem ends_retireAgentTaskWakePreDispatch (h : s.Constraints) (wakeId : String) (now : ℤ) :
    Ends Failure.Expected (Tidies s) (s.retireAgentTaskWakePreDispatch wakeId now) := by
  refine ends_required.skip fun wake ↦ ?_
  split_ifs
  · have hexpired := tidies_materializeAgentTaskWakeExpiry h wake now
    refine (ends_revokeClaimed hexpired.constraints _ now).bind fun _ h₁ ↦ ?_
    refine (ends_clearAgentTaskWakeCarrier h₁.constraints wakeId now).bind fun _ h₂ ↦ ?_
    refine ((hexpired.trans h₁).trans h₂).then
      (ends_unclaimWakes h₂.constraints (Or.inr rfl) ?_ now)
    intro wake hwake
    exact (Bool.and_eq_true_iff.mp hwake).2
  · exact .pure (.refl h)

theorem ends_retireStaleAgentTaskWakesForAgent (h : s.Constraints) (agentId : String) (now : ℤ) :
    Ends Failure.Expected (Tidies s) (s.retireStaleAgentTaskWakesForAgent agentId now) :=
  Ends.foldlM (fun _ wakeId hstate ↦ hstate.then
      (ends_retireAgentTaskWakePreDispatch hstate.constraints wakeId now))
    _ (.refl h)

theorem ends_replaceAgentTaskAttemptController (h : s.Constraints)
    (principal : CommunicationPrincipal) (taskId : String) (asserted : AttemptAssertion) (now : ℤ) :
    Ends Failure.Expected (Tidies s)
      (s.replaceAgentTaskAttemptController principal taskId asserted now) := by
  refine (ends_checked _).skip fun _ ↦ (ends_checked _).skip fun _ ↦ ?_
  exact .pure ⟨h.withTasks _, rfl⟩

theorem ends_taskSource (wake : AgentWakeRecord) :
    Ends Failure.Expected (fun _ ↦ True) (taskSource wake) :=
  ends_required.skip fun _ ↦ ends_required.skip fun _ ↦ .pure trivial

theorem ends_taskAttempt (taskId attemptId : String) :
    Ends Failure.Expected (fun _ ↦ True) (s.taskAttempt taskId attemptId) :=
  (Ends.required (expected_refused _)).mono fun _ _ ↦ trivial

/-- A wake of a task is bound to the endpoint that carries it. -/
theorem ends_bindAgentTaskWakeCarrier (h : s.Constraints) (principal : CommunicationPrincipal)
    (wake : AgentWakeRecord) {asserted : EndpointAssertion}
    (hgeneration : 1 ≤ asserted.controllerGeneration)
    (now : ℤ) :
    Ends Failure.Expected (Tidies s) (s.bindAgentTaskWakeCarrier principal wake asserted now) := by
  refine (ends_taskSource wake).skip fun _ ↦ (ends_taskAttempt _ _).skip fun _ ↦ ?_
  refine (ends_replaceAgentTaskAttemptController h _ _ _ now).bind fun _ h₁ ↦ ?_
  refine (ends_updateCarriers h₁.constraints ?_ now).bind fun _ h₂ ↦ ?_
  · rintro _ ⟨⟩
    exact hgeneration
  · exact ends_ensure.skip fun _ ↦ .pure (h₁.trans h₂)

theorem ends_requireAgentAttentionEventForWake (principal : CommunicationPrincipal)
    (sourceEventId : Option String) (agentId : String) :
    Ends Failure.Expected (fun _ ↦ True)
      (s.requireAgentAttentionEventForWake principal sourceEventId agentId) :=
  ends_required.skip fun _ ↦ ends_required.mono fun _ _ ↦ trivial

theorem ends_fenceAgentTaskControllersForEndpointLoss (h : s.Constraints)
    (asserted : EndpointAssertion) (now : ℤ) :
    Ends Failure.Expected (Tidies s) (s.fenceAgentTaskControllersForEndpointLoss asserted now) :=
  Ends.foldlM (fun _ _ hstate ↦ hstate.then
      (ends_replaceAgentTaskAttemptController hstate.constraints _ _ _ now))
    _ (.refl h)

/-- What became of the deliveries of the wakes is not known any more. -/
theorem ends_loseDeliveries (h : s.Constraints) {condition : AgentWakeRecord → Bool}
    (hcondition : ∀ wake, condition wake = true → wake.state.dispatched = true) (now : ℤ) :
    Ends Failure.Expected (Tidies s) (checkTables (s.updateWakes condition fun wake ↦
      { wake.revise (max wake.updatedAt now) with
        state := .deliveryUnknown
        claimLeaseExpiresAt := none })) := by
  refine ends_updateWakes h ⟨fun _ ↦ rfl, fun _ ↦ rfl, fun _ ↦ rfl, fun _ ↦ rfl, fun _ ↦ rfl⟩
    ?_ ?_ ?_
  · intro wake _ _ hchecks
    exact checks_claimed hchecks rfl rfl rfl rfl (Or.inr rfl)
  · intro wake _ _ hqueueable
    cases hqueueable
  · intro wake _ hwake _
    exact hcondition wake hwake

/-- What an endpoint leaves behind when it is lost is cleared up statement by statement, as in a
takeover. -/
theorem ends_reconcileWakesForEndpointLoss (h : s.Constraints) (asserted : EndpointAssertion)
    (now : ℤ) (fenceTaskController : Bool) :
    Ends Failure.Expected (Tidies s)
      (s.reconcileWakesForEndpointLoss asserted now fenceTaskController) := by
  have hfenced : Ends Failure.Expected (Tidies s)
      (if fenceTaskController = true then s.fenceAgentTaskControllersForEndpointLoss asserted now
        else pure s) := by
    split_ifs
    · exact ends_fenceAgentTaskControllersForEndpointLoss h asserted now
    · exact .pure (.refl h)
  refine hfenced.bind fun _ h₁ ↦ ?_
  refine (ends_updateCarriers h₁.constraints (by simp) now).bind
    fun _ h₂ ↦ ?_
  refine (ends_revokeClaimed h₂.constraints _ now).bind fun _ h₃ ↦ ?_
  refine (ends_unclaimWakes h₃.constraints (Or.inl rfl) ?_ now).bind fun _ h₄ ↦ ?_
  · intro wake hwake
    rw [Bool.and_eq_true, beq_iff_eq] at hwake
    rw [hwake.1]
    rfl
  refine (ends_updateAttempts h₄.constraints (fun _ ↦ by rfl) fun _ ↦ by rfl).bind fun _ h₅ ↦ ?_
  refine ((((h₁.trans h₂).trans h₃).trans h₄).trans h₅.1).then
    (ends_loseDeliveries h₅.1.constraints ?_ now)
  intro wake hwake
  rw [Bool.and_eq_true, Bool.or_eq_true, beq_iff_eq, beq_iff_eq] at hwake
  obtain hstate | hstate := hwake.1 <;> rw [hstate] <;> rfl

theorem ends_expireStaleEndpoint (h : s.Constraints) (now : ℤ) (stale : AgentEndpoint) :
    Ends Failure.Expected (Tidies s) (s.expireStaleEndpoint now stale) := by
  refine (ends_updateEndpoints h (fun _ ↦ by rfl) (fun _ ↦ by rfl) (fun _ ↦ by rfl) ?_ ?_).bind
    fun _ h₁ ↦ ?_
  · intro _ _ _
    rfl
  · intro _ _ hattached
    cases hattached
  · exact h₁.1.then (ends_reconcileWakesForEndpointLoss h₁.1.constraints _ now true)

theorem ends_expireStaleEndpoints (h : s.Constraints) (now : ℤ) :
    Ends Failure.Expected (Tidies s) (s.expireStaleEndpoints now) :=
  Ends.foldlM
    (fun _ stale hstate ↦ hstate.then (ends_expireStaleEndpoint hstate.constraints now stale)) _
      (.refl h)

/-- Claims that have expired are released before the agent claims anew. -/
theorem ends_releaseExpiredClaimsForAgent (h : s.Constraints) (agentId : String) (now : ℤ) :
    Ends Failure.Expected (Tidies s) (s.releaseExpiredClaimsForAgent agentId now) := by
  refine (ends_updateCarriers h (by simp) now).bind fun _ h₁ ↦ ?_
  refine (ends_revokeClaimed h₁.constraints _ now).bind fun _ h₂ ↦ ?_
  refine (h₁.trans h₂).then (ends_unclaimWakes h₂.constraints (Or.inl rfl) ?_ now)
  intro _ hwake
  simp only [Bool.and_eq_true, beq_iff_eq] at hwake
  rw [hwake.1.2]
  rfl

theorem ends_requireCurrentEndpoint (principal : CommunicationPrincipal)
    (asserted : EndpointAssertion) (now : ℤ) :
    Ends Failure.Expected (fun _ ↦ 1 ≤ asserted.controllerGeneration)
      (s.requireCurrentEndpoint principal asserted now) := by
  refine (ends_checked _).skip fun _ ↦ (ends_checked _).skip fun _ ↦ ends_ensure.bind fun _ hge ↦ ?_
  refine ends_required.skip fun _ ↦ ends_ensure.skip fun _ ↦ ends_ensure.skip fun _ ↦
    ends_ensure.skip fun _ ↦ ends_ensure.skip fun _ ↦ ?_
  refine (Ends.ensure (expected_refusal _ _)).skip fun _ ↦ .pure ?_
  exact of_decide_eq_true hge

/-- The wake that an exact claim is for. -/
theorem ends_requireExactClaim (asserted : EndpointAssertion) (claim : ClaimAssertion)
    (consumeToken : Option String) :
    Ends Failure.Expected
      (fun wake ↦ s.loadWake claim.wakeId = some wake ∧ wake.targetAgentId = asserted.agentId)
      (s.requireExactClaim asserted claim consumeToken) := by
  refine (ends_checked _).skip fun _ ↦ (Ends.required (expected_refusal _ _)).bind fun wake hwake ↦
    ?_
  refine ends_ensure.bind fun _ htarget ↦ ends_ensure.skip fun _ ↦ ?_
  refine (Ends.required (expected_refusal _ _)).skip fun _ ↦ ends_ensure.skip fun _ ↦ ?_
  exact ends_ensure.skip fun _ ↦ .pure ⟨hwake, beq_iff_eq.mp htarget⟩

end Store

end WebCodex.AgentWake
