import WebCodex.AgentWake.Tidying

/-!
No call on wakes breaks a constraint of the schema, except a preparation: it looks only at the
wake that it names, and of several wakes of its agent that an endpoint has claimed it can prepare
one. So a preparation breaks a constraint exactly when its checks pass while a wake of the agent
is dispatched (`preparation_constraint_iff`).
-/

namespace WebCodex.AgentWake

open Foundation
open AgentTasks (CommunicationPrincipal Fallible)

variable {condition : AgentWakeRecord → Bool} {wake : AgentWakeRecord} {recipient : Recipient}
  {watermark : ℤ}

namespace Store

variable {s : Store}

/-- A new wake attempt. -/
theorem ends_insertAttempt (h : s.Constraints) {attempt : AgentWakeAttempt}
    (hgeneration : 1 ≤ attempt.controllerGeneration)
    (hfresh : attempt.attemptId ∉ s.attempts.map AgentWakeAttempt.attemptId) :
    Ends Failure.Expected (fun after ↦ after.Constraints ∧ after.wakes = s.wakes)
      (checkTables { s with attempts := s.attempts ++ [attempt] }) := by
  have hattempts : AttemptConstraints (s.attempts ++ [attempt]) := by
    refine ⟨fun other hother ↦ ?_, UniqueIndex.holds_concat h.attempts.primaryKey ?_⟩
    · obtain hold | hnew := List.mem_append.mp hother
      · exact h.attempts.checks other hold
      · rw [List.mem_singleton.mp hnew]
        exact hgeneration
    · rintro other hother ⟨-, -, hkey⟩
      exact hfresh (List.mem_map.mpr ⟨other, hother, hkey.symm⟩)
  have hafter : ({ s with attempts := s.attempts ++ [attempt] } : Store).Constraints :=
    ⟨h.wakes, hattempts, h.carriers, h.endpoints, h.events⟩
  refine (ends_checkTables hafter).mono ?_
  rintro after rfl
  exact ⟨hafter, rfl⟩

theorem foldl_earlier_eq_none {wakes : List AgentWakeRecord} {first : Option AgentWakeRecord}
    (h : wakes.foldl earlier first = none) : first = none ∧ wakes = [] := by
  induction wakes generalizing first with
  | nil => exact ⟨h, rfl⟩
  | cons _ _ ih =>
    obtain ⟨hfirst, -⟩ := ih h
    unfold earlier at hfirst
    split at hfirst
    · cases hfirst
    · split_ifs at hfirst

theorem mem_of_foldl_earlier {wakes : List AgentWakeRecord} {first : Option AgentWakeRecord}
    {oldest : AgentWakeRecord} (h : wakes.foldl earlier first = some oldest) :
    oldest ∈ wakes ∨ first = some oldest := by
  induction wakes generalizing first with
  | nil => exact Or.inr h
  | cons _ _ ih =>
    obtain hrest | hfirst := ih h
    · exact Or.inl (List.mem_cons_of_mem _ hrest)
    · unfold earlier at hfirst
      split at hfirst
      · exact Or.inl (Option.some.inj hfirst ▸ List.mem_cons_self)
      · split_ifs at hfirst
        · exact Or.inr hfirst
        · exact Or.inl (Option.some.inj hfirst ▸ List.mem_cons_self)

theorem mem_of_oldestWake (h : s.oldestWake condition = some wake) :
    wake ∈ s.wakes ∧ condition wake = true := by
  obtain hmem | hnone := mem_of_foldl_earlier h
  · exact List.mem_filter.mp hmem
  · cases hnone

theorem not_of_oldestWake_eq_none (h : s.oldestWake condition = none) (hwake : wake ∈ s.wakes) :
    condition wake = false := by
  have hempty := (foldl_earlier_eq_none h).2
  rw [List.filter_eq_nil_iff] at hempty
  simpa using hempty wake hwake

theorem hasDispatched_eq_false {agentId : String} : s.hasDispatched agentId = false ↔
      ∀ wake ∈ s.wakes, wake.targetAgentId = agentId → wake.state.dispatched = false := by
  simp [hasDispatched, AgentWakeRecord.dispatchedFor]

/-- A wake crosses the dispatch fence: no other wake of its agent may have crossed it. -/
theorem crossing_constraints_iff (h : s.Constraints) (hwake : wake ∈ s.wakes)
    (hwaits : wake.state.dispatched = false) {f : AgentWakeRecord → AgentWakeRecord}
    (hkeys : KeepsKeys f)
    (honly : ∀ other ∈ s.wakes, condition other = true ↔ other = wake) (hchecks : (f wake).Checks)
    (hdispatched : (f wake).state.dispatched = true) :
    (s.updateWakes condition f).Constraints ↔ s.hasDispatched wake.targetAgentId = false := by
  have hindex : oneDispatched.Holds (updateWhere condition f s.wakes) ↔
      s.hasDispatched wake.targetAgentId = false := by
    rw [UniqueIndex.holds_updateWhere_iff hwake honly ?_ h.wakes.dispatched, hasDispatched_eq_false]
    · constructor
      · intro hfree other hother htarget
        by_contra hcrossed
        rw [Bool.not_eq_false] at hcrossed
        have hne : other ≠ wake := by
          rintro rfl
          rw [hwaits] at hcrossed
          cases hcrossed
        exact hfree other hother hne
          ⟨hdispatched, hcrossed, (hkeys.targetAgentId wake).trans htarget.symm⟩
      · rintro hfree other hother - ⟨-, hcrossed, htarget⟩
        have hwaits' := hfree other hother (htarget.symm.trans (hkeys.targetAgentId wake))
        exact absurd (hcrossed.symm.trans hwaits') Bool.noConfusion
    · have hprimary := UniqueIndex.holds_iff_pairwise.mp h.wakes.primaryKey
      exact hprimary.imp fun {first second} hfree heq ↦ hfree ⟨rfl, rfl, congrArg _ heq⟩
  rw [← hindex]
  refine ⟨fun hafter ↦ hafter.wakes.dispatched, fun hholds ↦ h.withWakes ?_⟩
  refine h.wakes.updateWhere hkeys ?_ ?_ hholds
  · intro other hother hcondition
    rw [(honly other hother).mp hcondition]
    exact hchecks
  · intro other hother hcondition hqueueable
    rw [(honly other hother).mp hcondition] at hqueueable
    cases hstate : (f wake).state <;> simp [hstate, AgentWakeState.queueable,
      AgentWakeState.dispatched] at hqueueable hdispatched

/-- The condition of an update of one wake that is in a state. -/
theorem only_wake (h : s.Constraints) (hwake : wake ∈ s.wakes) {state : AgentWakeState}
    (hstate : wake.state = state) :
    ∀ other ∈ s.wakes, (other.wakeId == wake.wakeId && other.state == state) = true ↔
      other = wake := by
  intro other hother
  rw [Bool.and_eq_true, beq_iff_eq, beq_iff_eq]
  constructor
  · rintro ⟨hid, -⟩
    exact h.wakes.eq_of_wakeId hother hwake hid
  · rintro rfl
    exact ⟨rfl, hstate⟩

/-! ### Claims -/

theorem ends_bindSource (h : s.Constraints) (principal : CommunicationPrincipal)
    (wake : AgentWakeRecord)
    {asserted : EndpointAssertion} (hgeneration : 1 ≤ asserted.controllerGeneration) (now : ℤ) :
    Ends Failure.Expected (Tidies s) (s.bindSource principal wake asserted now) := by
  unfold bindSource
  split
  · exact ends_bindAgentTaskWakeCarrier h principal wake hgeneration now
  · exact (ends_requireAgentAttentionEventForWake _ _ _).skip fun _ ↦ .pure (.refl h)
  · exact .pure (.refl h)

theorem ends_claimWake (h : s.Constraints) (wake : AgentWakeRecord) {asserted : EndpointAssertion}
    (hgeneration : 1 ≤ asserted.controllerGeneration) (adapterKind : String) {new : NewClaim}
    (hfresh : new.attemptId ∉ s.attempts.map AgentWakeAttempt.attemptId) (now : ℤ) :
    Ends Failure.Expected (fun result ↦ result.1.Constraints)
      (s.claimWake wake asserted adapterKind new now) := by
  refine (ends_insertAttempt h hgeneration hfresh).bind fun _ h₁ ↦ ?_
  refine (ends_updateWakes h₁.1
    ⟨fun _ ↦ by rfl, fun _ ↦ by rfl, fun _ ↦ by rfl, fun _ ↦ by rfl, fun _ ↦ by rfl⟩ ?_ ?_ ?_).bind
    fun _ h₂ ↦ ?_
  · intro other _ _ hchecks
    exact checks_claimed hchecks rfl rfl rfl rfl (Or.inl rfl)
  · intro other _ hpending _
    rw [Bool.and_eq_true, beq_iff_eq, beq_iff_eq] at hpending
    rw [hpending.2]
    rfl
  · intro other _ _ hdispatched
    cases hdispatched
  · exact ends_ensure.skip fun _ ↦ .pure h₂.constraints

/-- A claim clears up behind the agent first. Then it takes one wake and inserts one attempt, under
a fresh id. -/
theorem ends_claimNextAgentWake (h : s.Constraints) (principal : CommunicationPrincipal)
    (asserted : EndpointAssertion) (adapterKind : String) {new : NewClaim}
    (hfresh : new.attemptId ∉ s.attempts.map AgentWakeAttempt.attemptId) (clock : Clock) :
    Ends Failure.Expected (fun result ↦ result.1.Constraints)
      (s.claimNextAgentWake principal asserted adapterKind new clock) := by
  refine (ends_checked _).skip fun _ ↦ (ends_checked _).skip fun _ ↦ (ends_checked _).skip fun _ ↦
    (ends_checked _).skip fun kind ↦ ?_
  refine (ends_requireCurrentEndpoint principal asserted clock.atEndpoint).bind
    fun _ hgeneration ↦ ends_ensure.skip fun _ ↦ ?_
  refine (ends_releaseExpiredClaimsForAgent h asserted.agentId clock.now).bind fun _ h₁ ↦ ?_
  refine (ends_retireStaleAgentTaskWakesForAgent h₁.constraints asserted.agentId clock.now).bind
    fun _ h₂ ↦ ?_
  split_ifs
  · exact .pure h₂.constraints
  · split
    · exact .pure h₂.constraints
    · next wake _ =>
      refine (ends_bindSource h₂.constraints principal wake hgeneration clock.now).bind fun _ h₃ ↦
        ?_
      have hids := ((h₁.trans h₂).trans h₃).attempts
      exact (ends_claimWake h₃.constraints wake hgeneration kind (hids ▸ hfresh) clock.now).bind
        fun _ hclaimed ↦ .pure hclaimed

/-- A wake that is released was claimed, so it waited before and may wait again. -/
theorem ends_releaseAgentWakeClaim (h : s.Constraints) (principal : CommunicationPrincipal)
    (asserted : EndpointAssertion) (claim : ClaimAssertion) (clock : Clock) :
    Ends Failure.Expected (fun result ↦ result.1.Constraints)
      (s.releaseAgentWakeClaim principal asserted claim clock) := by
  refine (ends_checked _).skip fun _ ↦ (ends_checked _).skip fun _ ↦
    (ends_requireCurrentEndpoint _ _ _).skip fun _ ↦ (ends_requireExactClaim _ _ _).skip fun _ ↦
    ends_ensure.skip fun _ ↦ ?_
  refine (ends_updateAttempts h (fun _ ↦ by rfl) fun _ ↦ by rfl).bind fun _ h₁ ↦ ?_
  refine (ends_updateWakes h₁.1.constraints keepsKeys_unclaim ?_ ?_ ?_).bind fun _ h₂ ↦ ?_
  · intro other _ _ hchecks
    exact checks_unclaim (Or.inl rfl) hchecks
  · intro other _ hclaimed _
    rw [Bool.and_eq_true, beq_iff_eq, beq_iff_eq] at hclaimed
    rw [hclaimed.2]
    rfl
  · intro other _ _ hdispatched
    cases hdispatched
  · exact (ends_clearAgentTaskWakeCarrier h₂.constraints _ _).bind fun _ h₃ ↦ .pure h₃.constraints

/-! ### Delivery and consumption -/

/-- A delivery is finished on a wake that was dispatched already, so that no further one gets
dispatched. -/
theorem ends_finishAgentWakeDelivery (h : s.Constraints) (principal : CommunicationPrincipal)
    (asserted : EndpointAssertion) (claim : ClaimAssertion) (delivered : Bool) (clock : Clock) :
    Ends Failure.Expected (fun result ↦ result.1.Constraints)
      (s.finishAgentWakeDelivery principal asserted claim delivered clock) := by
  refine (ends_checked _).skip fun _ ↦ (ends_checked _).skip fun _ ↦
    (ends_requireCurrentEndpoint _ _ _).skip fun _ ↦ (ends_requireExactClaim _ _ _).bind
    fun wake ⟨hload, _⟩ ↦ ?_
  split
  · exact .pure h
  · refine ends_ensure.bind fun _ hstate ↦ ?_
    have hcrossed : wake.state.dispatched = true := by
      rw [Bool.or_eq_true, beq_iff_eq, beq_iff_eq] at hstate
      obtain hstate | hstate := hstate <;> rw [hstate] <;> rfl
    refine (ends_updateAttempts h (fun attempt ↦ ?_) fun attempt ↦ ?_).bind fun _ h₁ ↦ ?_
    · cases delivered <;> rfl
    · cases delivered <;> rfl
    refine (ends_updateWakes h₁.1.constraints
      ⟨fun _ ↦ by rfl, fun _ ↦ by rfl, fun _ ↦ by rfl, fun _ ↦ by rfl, fun _ ↦ by rfl⟩ ?_ ?_
        ?_).bind
      fun _ h₂ ↦ .pure h₂.constraints
    · intro other _ _ hchecks
      refine checks_claimed hchecks rfl rfl rfl rfl (Or.inr ?_)
      cases delivered <;> rfl
    · intro other _ _ hqueueable
      cases delivered <;> cases hqueueable
    · -- The row is the wake that the claim names.
      intro other hother hid _
      obtain ⟨hwake, hwakeId⟩ := mem_of_loadWake hload
      rw [h₁.2] at hother
      rw [h.wakes.eq_of_wakeId hother hwake ((beq_iff_eq.mp hid).trans hwakeId.symm)]
      exact hcrossed

theorem ends_consumptionAttempt (asserted : EndpointAssertion) (endpoint : AgentEndpoint)
    (wake : AgentWakeRecord) (consumeToken : String) :
    Ends Failure.Expected (fun _ ↦ True)
      (s.consumptionAttempt asserted endpoint wake consumeToken) := by
  refine ends_ensure.skip fun _ ↦ ends_ensure.skip fun _ ↦ ends_required.skip fun _ ↦ ?_
  exact (Ends.required (expected_refusal _ _)).skip fun _ ↦ ends_ensure.skip fun _ ↦
    ends_ensure.skip fun _ ↦ .pure trivial

theorem tidies_promoteTakeover (h : s.Constraints) (principal : CommunicationPrincipal)
    (wake : AgentWakeRecord) (asserted : EndpointAssertion) (now : ℤ) :
    Tidies s (s.promoteTakeover principal wake asserted now) := by
  unfold promoteTakeover
  split
  · split_ifs
    · exact ⟨h.withTasks _, rfl⟩
    · exact .refl h
  · exact .refl h

/-- Consuming a wake keeps the constraints and fails with an expected error only. -/
theorem ends_consumeAgentWake (h : s.Constraints) (principal : CommunicationPrincipal)
    (asserted : EndpointAssertion) (wakeId consumeToken : String) (clock : Clock) :
    Ends Failure.Expected (fun result ↦ result.1.Constraints)
      (s.consumeAgentWake principal asserted wakeId consumeToken clock) := by
  refine (ends_checked _).skip fun _ ↦ (ends_checked _).skip fun _ ↦ (ends_checked _).skip fun _ ↦
    (ends_checked _).skip fun _ ↦ (ends_checked _).skip fun _ ↦
    (ends_requireCurrentEndpoint _ _ _).skip fun _ ↦
    (Ends.required (expected_refusal _ _)).skip fun wake ↦
    (ends_consumptionAttempt _ _ _ _).skip fun _ ↦ ?_
  split_ifs
  · exact ends_ensure.skip fun _ ↦ .pure h
  · refine ends_ensure.skip fun _ ↦ ?_
    have h₀ := tidies_promoteTakeover h principal wake asserted clock.now
    refine (ends_updateAttempts h₀.constraints (fun _ ↦ by rfl) fun _ ↦ by rfl).bind fun _ h₁ ↦ ?_
    refine (ends_updateWakes h₁.1.constraints
      ⟨fun _ ↦ by rfl, fun _ ↦ by rfl, fun _ ↦ by rfl, fun _ ↦ by rfl, fun _ ↦ by rfl⟩ ?_ ?_
        ?_).bind
      fun _ h₂ ↦ ?_
    · intro other _ _ hchecks
      exact ⟨hchecks.trigger, hchecks.watermark, hchecks.count,
        Int.le_add_one hchecks.revision, rfl, rfl⟩
    · intro other _ _ hqueueable
      cases hqueueable
    · intro other _ _ hdispatched
      cases hdispatched
    · exact (ends_updateEndpoints h₂.constraints (fun _ ↦ by rfl) (fun _ ↦ by rfl) (fun _ ↦ by rfl)
        (fun _ _ hcolumns ↦ by exact hcolumns) fun _ _ hattached ↦ by exact hattached).bind
        fun _ h₃ ↦ .pure h₃.1.constraints

/-- A takeover unclaims the claimed wakes and gives up what was under delivery, in one statement for
each. -/
theorem ends_recoverAgentWakesForServerTakeover (h : s.Constraints) (ownsDatabase : Bool)
    (now : ℤ) :
    Ends Failure.Expected Store.Constraints
      (s.recoverAgentWakesForServerTakeover ownsDatabase now) := by
  refine ends_ensure.skip fun _ ↦ (ends_expireStaleEndpoints h now).bind fun _ h₁ ↦ ?_
  refine (ends_updateEndpoints h₁.constraints (fun _ ↦ by rfl) (fun _ ↦ by rfl) (fun _ ↦ by rfl)
    (fun _ _ hcolumns ↦ by exact hcolumns) fun _ _ hattached ↦ by exact hattached).bind fun _ h₂ ↦
      ?_
  refine (ends_updateCarriers h₂.1.constraints (by simp) now).bind fun _ h₃ ↦ ?_
  refine (ends_revokeClaimed h₃.constraints _ now).bind fun _ h₄ ↦ ?_
  refine (ends_unclaimWakes h₄.constraints (Or.inl rfl) ?_ now).bind fun _ h₅ ↦ ?_
  · intro wake hwake
    rw [beq_iff_eq.mp hwake]
    rfl
  refine (ends_updateAttempts h₅.constraints (fun _ ↦ by rfl) fun _ ↦ by rfl).bind fun _ h₆ ↦ ?_
  refine (ends_loseDeliveries h₆.1.constraints ?_ now).mono fun _ h₇ ↦ h₇.constraints
  intro wake hwake
  rw [beq_iff_eq.mp hwake]
  rfl

/-! ### Inboxes -/

/-- A new inbox wake, when none of the agent waits. -/
theorem insertInboxWake (h : s.Constraints) (message : PostedMessage) {count : ℤ}
    (hwatermark : 1 ≤ watermark) (hcount : 1 ≤ count) (now : ℤ)
    (hfresh : recipient.wakeId ∉ s.wakes.map AgentWakeRecord.wakeId)
    (hnone : s.queueableInbox recipient.agentId = none) :
    WakeConstraints (s.wakes ++ [inboxWake recipient message watermark count now]) where
  checks := by
    intro wake hwake
    obtain hold | hnew := List.mem_append.mp hwake
    · exact h.wakes.checks wake hold
    · rw [List.mem_singleton.mp hnew]
      refine ⟨rfl, ?_, ?_, le_refl _, rfl, rfl⟩
      · rintro _ ⟨⟩
        exact hwatermark
      · rintro _ ⟨⟩
        exact hcount
  primaryKey := by
    refine UniqueIndex.holds_concat h.wakes.primaryKey ?_
    rintro other hother ⟨-, -, hkey⟩
    exact hfresh (List.mem_map.mpr ⟨other, hother, hkey.symm⟩)
  queueableInbox := by
    refine UniqueIndex.holds_concat h.wakes.queueableInbox ?_
    rintro other hother ⟨-, hcovers, hkey⟩
    have hother' := not_of_oldestWake_eq_none hnone hother
    have htarget : other.targetAgentId = recipient.agentId := hkey.symm
    rw [htarget, beq_self_eq_true, Bool.true_and] at hother'
    exact absurd (hcovers.symm.trans hother') Bool.noConfusion
  taskAttempt := UniqueIndex.holds_concat h.wakes.taskAttempt fun _ _ hclash ↦ nomatch hclash.1
  attentionEvent := UniqueIndex.holds_concat h.wakes.attentionEvent fun _ _ hclash ↦
    nomatch hclash.1
  dispatched := UniqueIndex.holds_concat h.wakes.dispatched fun _ _ hclash ↦ nomatch hclash.1

/-- The update of an inbox wake that covers a delivery more. -/
theorem checks_coverDelivery {message : PostedMessage} {count now : ℤ} (h : wake.Checks)
    (htrigger : wake.triggerKind = .inboxChanged) (hcount : 1 ≤ count) :
    (coverDelivery recipient message watermark count now wake).Checks where
  trigger := by
    have hcolumns := h.trigger
    simp only [AgentWakeRecord.triggerColumns, htrigger, List.all_cons, List.all_nil, List.any_cons,
      List.any_nil, id_eq, Bool.and_true, Bool.or_false, Bool.and_eq_true] at hcolumns
    simp [AgentWakeRecord.triggerColumns, coverDelivery, AgentWakeRecord.revise, htrigger, hcolumns]
  watermark := by
    intro _ hafter
    obtain ⟨before, hbefore, rfl⟩ := Option.map_eq_some_iff.mp hafter
    exact le_max_of_le_left (h.watermark before hbefore)
  count := by
    rintro _ ⟨⟩
    exact hcount
  revision := Int.le_add_one h.revision
  claim := h.claim
  consumption := h.consumption

/-- A delivery goes into the inbox wake that waits for its agent, or inserts one when none does; the
id of a new wake is drawn fresh. -/
theorem ends_coalesceAgentWakeForDelivery (h : s.Constraints) (message : PostedMessage)
    (hwatermark : 1 ≤ watermark) (hcount : 1 ≤ s.queuedDeliveryCount recipient.agentId)
    (hfresh : recipient.wakeId ∉ s.wakes.map AgentWakeRecord.wakeId) (now : ℤ) :
    Ends Failure.Expected
      (fun after ↦ after.Constraints ∧ ∀ wakeId ∈ after.wakes.map AgentWakeRecord.wakeId,
        wakeId ∈ s.wakes.map AgentWakeRecord.wakeId ∨ wakeId = recipient.wakeId)
      (s.coalesceAgentWakeForDelivery recipient message watermark now) := by
  unfold coalesceAgentWakeForDelivery
  split
  · next existing hexisting =>
    obtain ⟨hmem, hcondition⟩ := mem_of_oldestWake hexisting
    simp only [Bool.and_eq_true, beq_iff_eq] at hcondition
    have hkeys : KeepsKeys (coverDelivery recipient message watermark
        (s.queuedDeliveryCount recipient.agentId) now) :=
      ⟨fun _ ↦ rfl, fun _ ↦ rfl, fun _ ↦ rfl, fun _ ↦ rfl, fun _ ↦ rfl⟩
    have hafter : (s.updateWakes (fun wake ↦ wake.wakeId == existing.wakeId && wake.state.queueable)
        (coverDelivery recipient message watermark (s.queuedDeliveryCount recipient.agentId)
          now)).Constraints := by
      refine h.withWakes (h.wakes.updateWhere hkeys ?_ (fun _ _ _ hqueueable ↦ hqueueable)
        (holds_oneDispatched h.wakes hkeys fun _ _ _ hdispatched ↦ hdispatched))
      intro wake hwake hfound
      rw [Bool.and_eq_true, beq_iff_eq] at hfound
      have heq := h.wakes.eq_of_wakeId hwake hmem hfound.1
      exact checks_coverDelivery (h.wakes.checks wake hwake) (heq ▸ hcondition.1.2) hcount
    refine (ends_checkTables hafter).mono ?_
    rintro after rfl
    refine ⟨hafter, fun wakeId hwakeId ↦ Or.inl ?_⟩
    rwa [updateWakes, map_view_updateWhere hkeys.wakeId] at hwakeId
  · next hnone =>
    have hafter := h.withWakes (insertInboxWake h message hwatermark hcount now hfresh hnone)
    refine (ends_checkTables hafter).mono ?_
    rintro after rfl
    refine ⟨hafter, fun wakeId hwakeId ↦ ?_⟩
    rw [List.map_append, List.mem_append] at hwakeId
    exact hwakeId.imp id fun hnew ↦ List.mem_singleton.mp hnew

theorem ends_deliver (h : s.Constraints) (message : PostedMessage) (now : ℤ)
    (hfresh : recipient.wakeId ∉ s.wakes.map AgentWakeRecord.wakeId) :
    Ends Failure.Expected
      (fun after ↦ after.Constraints ∧ ∀ wakeId ∈ after.wakes.map AgentWakeRecord.wakeId,
        wakeId ∈ s.wakes.map AgentWakeRecord.wakeId ∨ wakeId = recipient.wakeId)
      (s.deliver message now recipient) := by
  refine (Ends.ensure (expected_refused _)).skip fun _ ↦ ?_
  let delivery := Delivery.mk recipient.deliveryId message.messageId message.conversationId
    recipient.agentId true
  have hstored : ({ s with deliveries := s.deliveries ++ [delivery] } : Store).Constraints :=
    ⟨h.wakes, h.attempts, h.carriers, h.endpoints, h.events⟩
  refine ends_coalesceAgentWakeForDelivery hstored message ?_ ?_ hfresh now
  · simp
  · simp [queuedDeliveryCount, delivery]

/-- The wakes that the recipients draw are new, each of them. -/
def FreshWakes (recipients : List Recipient) (s : Store) : Prop :=
  (recipients.map Recipient.wakeId).Nodup ∧
    ∀ recipient ∈ recipients, recipient.wakeId ∉ s.wakes.map AgentWakeRecord.wakeId

theorem ends_postConversationMessage (h : s.Constraints) (admitted : Fallible Unit)
    (message : PostedMessage) {recipients : List Recipient} (hfresh : s.FreshWakes recipients)
    (now : ℤ) :
    Ends Failure.Expected Store.Constraints
      (s.postConversationMessage admitted message recipients now) := by
  refine (ends_checked _).skip fun _ ↦ ?_
  induction recipients generalizing s with
  | nil => exact h
  | cons recipient _ ih =>
    obtain ⟨hnodup, hnew⟩ := hfresh
    rw [List.map_cons, List.nodup_cons] at hnodup
    refine (ends_deliver h message now (hnew recipient List.mem_cons_self)).bind fun _ h₁ ↦ ?_
    refine ih h₁.1 ⟨hnodup.2, fun other hother hold ↦ ?_⟩
    obtain hwas | hsame := h₁.2 _ hold
    · exact hnew other (List.mem_cons_of_mem _ hother) hwas
    · exact hnodup.1 (hsame ▸ List.mem_map_of_mem hother)

end Store

end WebCodex.AgentWake
