import WebCodex.AgentWake.Runs

/-!
What a statement has to be like so that the constraints of the schema survive it. Most statements
bring no row under an index (`WakeConstraints.updateWhere`). The calls that tidy up before a
claim, after the loss of an endpoint, or when a task attempt has ended consist of such statements
only (`Tidies`).
-/

namespace WebCodex.AgentWake

open Foundation
open AgentTasks (CommunicationPrincipal)

def Failure.Expected (failure : Failure) : Prop := failure ≠ .constraint

@[simp] theorem expected_refusal (code message : String) : (refusal code message).Expected :=
  fun h ↦ nomatch h

theorem expected_refused (error : AgentTasks.CommunicationStoreError) :
    (Failure.refused error).Expected :=
  fun h ↦ nomatch h

theorem ends_checked {α : Type} (check : AgentTasks.Fallible α) :
    Ends Failure.Expected (fun value ↦ check = .ok value) (checked check) :=
  .mapError expected_refused

theorem ends_ensure {condition : Bool} {code message : String} :
    Ends Failure.Expected (fun _ ↦ condition = true) (ensure condition (refusal code message)) :=
  .ensure (expected_refusal code message)

theorem ends_required {α : Type} {value : Option α} {code message : String} :
    Ends Failure.Expected (fun found ↦ value = some found)
      (required value (refusal code message)) :=
  .required (expected_refusal code message)

/-- The update keeps the columns that the indexes of the wakes look at, apart from the state. -/
structure KeepsKeys (f : AgentWakeRecord → AgentWakeRecord) : Prop where
  wakeId : ∀ wake, (f wake).wakeId = wake.wakeId
  targetAgentId : ∀ wake, (f wake).targetAgentId = wake.targetAgentId
  triggerKind : ∀ wake, (f wake).triggerKind = wake.triggerKind
  sourceTaskAttemptId : ∀ wake, (f wake).sourceTaskAttemptId = wake.sourceTaskAttemptId
  sourceEventId : ∀ wake, (f wake).sourceEventId = wake.sourceEventId

section Wakes

variable {wakes : List AgentWakeRecord} {condition : AgentWakeRecord → Bool}
  {f : AgentWakeRecord → AgentWakeRecord}

/-- An update that makes no wake wait that did not, if the index of the dispatched wakes survives
it. -/
theorem WakeConstraints.updateWhere (h : WakeConstraints wakes) (hkeys : KeepsKeys f)
    (hchecks : ∀ wake ∈ wakes, condition wake = true → (f wake).Checks)
    (hqueueable : ∀ wake ∈ wakes, condition wake = true → (f wake).state.queueable = true →
      wake.state.queueable = true)
    (hdispatched : oneDispatched.Holds (updateWhere condition f wakes)) :
    WakeConstraints (updateWhere condition f wakes) where
  checks := by
    intro _ hafter
    obtain ⟨wake, hwake, rfl⟩ := mem_updateWhere hafter
    split_ifs with hcondition
    · exact hchecks wake hwake hcondition
    · exact h.checks wake hwake
  primaryKey := UniqueIndex.holds_updateWhere (fun wake _ _ _ ↦ ⟨rfl, hkeys.wakeId wake⟩)
    h.primaryKey
  queueableInbox := by
    refine UniqueIndex.holds_updateWhere (fun wake hwake hcondition hcovers ↦ ?_) h.queueableInbox
    simp only [oneQueueableInbox, Bool.and_eq_true, beq_iff_eq, hkeys.triggerKind,
      hkeys.targetAgentId] at hcovers ⊢
    exact ⟨⟨hcovers.1, hqueueable wake hwake hcondition hcovers.2⟩, trivial⟩
  taskAttempt := by
    refine UniqueIndex.holds_updateWhere (fun wake _ _ hcovers ↦ ?_) h.taskAttempt
    simp only [oneForTaskAttempt, hkeys.triggerKind, hkeys.sourceTaskAttemptId] at hcovers ⊢
    exact ⟨hcovers, trivial⟩
  attentionEvent := by
    refine UniqueIndex.holds_updateWhere (fun wake _ _ hcovers ↦ ?_) h.attentionEvent
    simp only [oneForAttentionEvent, hkeys.triggerKind, hkeys.sourceEventId] at hcovers ⊢
    exact ⟨hcovers, trivial⟩
  dispatched := hdispatched

/-- No wake comes under the index of the dispatched ones. -/
theorem holds_oneDispatched (h : WakeConstraints wakes) (hkeys : KeepsKeys f)
    (hdispatched : ∀ wake ∈ wakes, condition wake = true → (f wake).state.dispatched = true →
      wake.state.dispatched = true) :
    oneDispatched.Holds (updateWhere condition f wakes) :=
  UniqueIndex.holds_updateWhere (fun wake hwake hcondition hcovers ↦
      ⟨hdispatched wake hwake hcondition hcovers, hkeys.targetAgentId wake⟩) h.dispatched

/-- A wake is found under its id. -/
theorem WakeConstraints.eq_of_wakeId (h : WakeConstraints wakes) {wake other : AgentWakeRecord}
    (hwake : wake ∈ wakes) (hother : other ∈ wakes) (hid : wake.wakeId = other.wakeId) :
    wake = other :=
  UniqueIndex.eq_of_key (fun _ ↦ rfl) h.primaryKey hwake hother hid

end Wakes

namespace Store

variable {s : Store}

theorem mem_of_loadWake {wakeId : String} {wake : AgentWakeRecord}
    (h : s.loadWake wakeId = some wake) :
    wake ∈ s.wakes ∧ wake.wakeId = wakeId :=
  mem_of_find?_key h

theorem admit_of_constraints (h : s.Constraints) : checkTables s = .ok s := if_pos h

theorem admit_of_not_constraints (h : ¬ s.Constraints) : checkTables s = .error .constraint :=
    if_neg h

theorem ends_checkTables (h : s.Constraints) :
    Ends Failure.Expected (fun after ↦ after = s) (checkTables s) := by
  rw [admit_of_constraints h]
  exact rfl

/-- The tables keep their constraints and get no wake attempt. -/
structure Tidies (before after : Store) : Prop where
  constraints : after.Constraints
  attempts : after.attempts.map AgentWakeAttempt.attemptId =
    before.attempts.map AgentWakeAttempt.attemptId

theorem Tidies.refl (h : s.Constraints) : Tidies s s := ⟨h, rfl⟩

theorem Tidies.trans {first second third : Store} (h : Tidies first second)
    (h' : Tidies second third) :
    Tidies first third :=
  ⟨h'.constraints, h'.attempts.trans h.attempts⟩

/-- A step after tidying up. -/
theorem Tidies.then {first second : Store} {x : Attempted Store} (h : Tidies first second)
    (hx : Ends Failure.Expected (Tidies second) x) : Ends Failure.Expected (Tidies first) x :=
  hx.mono fun _ h' ↦ h.trans h'

theorem Constraints.withWakes (h : s.Constraints) {wakes : List AgentWakeRecord}
    (hwakes : WakeConstraints wakes) : ({ s with wakes := wakes } : Store).Constraints :=
  ⟨hwakes, h.attempts, h.carriers, h.endpoints, h.events⟩

theorem Constraints.withTasks (h : s.Constraints) (tasks : AgentTasks.Database) :
    ({ s with tasks := tasks } : Store).Constraints :=
  ⟨h.wakes, h.attempts, h.carriers, h.endpoints, h.events⟩

/-- An update of wakes that waits for nothing new and dispatches nothing new. -/
theorem ends_updateWakes (h : s.Constraints) {condition : AgentWakeRecord → Bool}
    {f : AgentWakeRecord → AgentWakeRecord} (hkeys : KeepsKeys f)
    (hchecks : ∀ wake ∈ s.wakes, condition wake = true → wake.Checks → (f wake).Checks)
    (hqueueable : ∀ wake ∈ s.wakes, condition wake = true → (f wake).state.queueable = true →
      wake.state.queueable = true)
    (hdispatched : ∀ wake ∈ s.wakes, condition wake = true → (f wake).state.dispatched = true →
      wake.state.dispatched = true) :
    Ends Failure.Expected (Tidies s) (checkTables (s.updateWakes condition f)) := by
  have hafter : (s.updateWakes condition f).Constraints := h.withWakes (h.wakes.updateWhere hkeys
      (fun wake hwake hcondition ↦ hchecks wake hwake hcondition (h.wakes.checks wake hwake))
      hqueueable (holds_oneDispatched h.wakes hkeys hdispatched))
  refine (ends_checkTables hafter).mono ?_
  rintro _ rfl
  exact ⟨hafter, rfl⟩

theorem constraints_updateAttempts (h : s.Constraints) {condition : AgentWakeAttempt → Bool}
    {f : AgentWakeAttempt → AgentWakeAttempt}
    (hid : ∀ attempt, (f attempt).attemptId = attempt.attemptId)
    (hgeneration : ∀ attempt, (f attempt).controllerGeneration = attempt.controllerGeneration) :
    (s.updateAttempts condition f).Constraints := by
  refine ⟨h.wakes, ⟨fun _ hafter ↦ ?_, ?_⟩, h.carriers, h.endpoints, h.events⟩
  · obtain ⟨attempt, hattempt, rfl⟩ := mem_updateWhere hafter
    split_ifs
    · exact (hgeneration attempt).ge.trans' (h.attempts.checks attempt hattempt)
    · exact h.attempts.checks attempt hattempt
  · exact UniqueIndex.holds_updateWhere (fun attempt _ _ _ ↦ ⟨rfl, hid attempt⟩)
      h.attempts.primaryKey

/-- Attempts may change in anything but their ids and generations. -/
theorem ends_updateAttempts (h : s.Constraints) {condition : AgentWakeAttempt → Bool}
    {f : AgentWakeAttempt → AgentWakeAttempt}
    (hid : ∀ attempt, (f attempt).attemptId = attempt.attemptId)
    (hgeneration : ∀ attempt, (f attempt).controllerGeneration = attempt.controllerGeneration) :
    Ends Failure.Expected (fun after ↦ Tidies s after ∧ after = s.updateAttempts condition f)
      (checkTables (s.updateAttempts condition f)) := by
  have hafter : (s.updateAttempts condition f).Constraints :=
    constraints_updateAttempts h hid hgeneration
  refine (ends_checkTables hafter).mono ?_
  rintro after rfl
  exact ⟨⟨hafter, map_view_updateWhere hid⟩, rfl⟩

/-- Moving tasks to another endpoint, or to none, leaves the tables of wakes as they were. -/
theorem ends_updateCarriers (h : s.Constraints) {condition : EndpointCarrier → Bool}
    {endpoint : Option (String × ℤ)} (hendpoint : ∀ carried ∈ endpoint, 1 ≤ carried.2) (now : ℤ) :
    Ends Failure.Expected (Tidies s) (checkTables (s.updateCarriers condition endpoint now)) := by
  have hcarriers : CarrierConstraints (s.updateCarriers condition endpoint now).carriers := by
    refine ⟨fun after hafter ↦ ?_,
      UniqueIndex.holds_updateWhere (fun _ _ _ _ ↦ ⟨rfl, rfl⟩) h.carriers.attempt,
      UniqueIndex.holds_updateWhere (fun _ _ _ _ ↦ ⟨rfl, rfl⟩) h.carriers.wake⟩
    obtain ⟨carrier, hcarrier, rfl⟩ := mem_updateWhere hafter
    split_ifs
    · exact hendpoint
    · exact h.carriers.checks carrier hcarrier
  have hafter : (s.updateCarriers condition endpoint now).Constraints :=
    ⟨h.wakes, h.attempts, hcarriers, h.endpoints, h.events⟩
  refine (ends_checkTables hafter).mono ?_
  rintro after rfl
  exact ⟨hafter, rfl⟩

/-- An update of endpoints that attaches none. -/
theorem ends_updateEndpoints (h : s.Constraints) {condition : AgentEndpoint → Bool}
    {f : AgentEndpoint → AgentEndpoint}
    (hid : ∀ endpoint, (f endpoint).endpointId = endpoint.endpointId)
    (hagent : ∀ endpoint, (f endpoint).agentId = endpoint.agentId)
    (hgeneration : ∀ endpoint, (f endpoint).controllerGeneration = endpoint.controllerGeneration)
    (hcolumns : ∀ endpoint, condition endpoint = true → endpoint.lifecycleColumns = true →
      (f endpoint).lifecycleColumns = true)
    (hattached : ∀ endpoint, condition endpoint = true → (f endpoint).lifecycle = .attached →
      endpoint.lifecycle = .attached) :
    Ends Failure.Expected (fun after ↦ Tidies s after ∧ after = s.updateEndpoints condition f)
      (checkTables (s.updateEndpoints condition f)) := by
  have hendpoints : EndpointConstraints (s.updateEndpoints condition f).endpoints := by
    refine ⟨fun after hafter ↦ ?_,
      UniqueIndex.holds_updateWhere (fun endpoint _ _ _ ↦ ⟨rfl, hid endpoint⟩)
        h.endpoints.primaryKey,
      UniqueIndex.holds_updateWhere (fun endpoint _ hcondition hcovers ↦ ?_) h.endpoints.attached⟩
    · obtain ⟨endpoint, hendpoint, rfl⟩ := mem_updateWhere hafter
      obtain ⟨hwell, hge⟩ := h.endpoints.checks endpoint hendpoint
      split_ifs with hcondition
      · exact ⟨hcolumns endpoint hcondition hwell, hge.trans_eq (hgeneration endpoint).symm⟩
      · exact ⟨hwell, hge⟩
    · simp only [oneAttached, beq_iff_eq] at hcovers ⊢
      exact ⟨hattached endpoint hcondition hcovers, hagent endpoint⟩
  have hafter : (s.updateEndpoints condition f).Constraints :=
    ⟨h.wakes, h.attempts, h.carriers, hendpoints, h.events⟩
  refine (ends_checkTables hafter).mono ?_
  rintro after rfl
  exact ⟨⟨hafter, rfl⟩, rfl⟩

end Store

end WebCodex.AgentWake
