import WebCodex.AgentTasks.Store

/-!
A call that ends well has changed the rows of its task in one of the ways listed in `Change`, each
with the guards that the call has passed. Every invariant of the store is derived from this list.
-/

namespace WebCodex.AgentTasks

open Foundation

/-! ### The current attempt -/

/-- The asserted attempt may act: the task goes on, names the attempt as its latest and is assigned
as the caller says, and the attempt has the asserted assignee, fence and controller generation, is
active, and its lease runs. -/
structure Current (asserted : AttemptAssertion) (now : ℤ) (rows : AgentTaskRows) : Prop where
  goes_on : rows.storedState.terminal = false
  latest : rows.latestAttemptId = some asserted.attemptId
  assigned : rows.assigneeAgentId = some asserted.assigneeAgentId
  attempt : ∃ attempt, rows.findAttempt asserted.attemptId = some attempt ∧
    attempt.assigneeAgentId = asserted.assigneeAgentId ∧
      attempt.attemptFence = asserted.attemptFence ∧
    attempt.controllerGeneration = asserted.controllerGeneration ∧ attempt.storedState = .active ∧
    now < attempt.leaseExpiresAt

/-- An answer that hands something out: an attempt, a dispatch, or the end of the task. -/
def Answer.grants : Answer → Bool
  | started _ _ replayed => !replayed
  | claimed _ mayDispatch => mayDispatch
  | completed _ _ replayed => !replayed
  | _ => false

/-- The fields that identify an attempt and say how it stands. -/
structure KeepsAttempt (f : StoredAttempt → StoredAttempt) : Prop where
  attemptId : ∀ attempt, (f attempt).attemptId = attempt.attemptId
  attemptNumber : ∀ attempt, (f attempt).attemptNumber = attempt.attemptNumber
  storedState : ∀ attempt, (f attempt).storedState = attempt.storedState

/-- The fields that identify a binding and say how its dispatch stands. -/
structure KeepsBinding (f : CodingRunBinding → CodingRunBinding) : Prop where
  attemptId : ∀ binding, (f binding).attemptId = binding.attemptId
  runId : ∀ binding, (f binding).runId = binding.runId
  dispatchState : ∀ binding, (f binding).dispatchState = binding.dispatchState

/-- What a call has to be for, when it ends well: the current attempt, if it asserts one and is not
the repeated start of a continuation, and the latest attempt, if it ends a task. -/
def Admitted (now : ℤ) (rows : AgentTaskRows) (answer : Answer) : TaskRequest → Prop
  | .terminalize attemptId _ _ _ _ => rows.latestAttemptId = some attemptId
  | .continueEndpoint asserted _ =>
    Current asserted now rows ∨ ∃ execution,
      rows.loadEndpointExecutionForAttempt asserted.attemptId = some execution ∧
        execution.startIdentity = asserted ∧ answer = .continued execution true
  | request => ∀ asserted, request.asserted = some asserted → Current asserted now rows

/-- What a call has made of the rows of its task, with its answer. -/
inductive Change (keys : Keys) (now : ℤ) (rows : AgentTaskRows) :
    TaskRequest → AgentTaskRows → Answer → Prop
  | kept {request answer} (hquiet : answer.grants = false)
      (hadmitted : Admitted now rows answer request) : Change keys now rows request rows answer
  | expired {assigneeAgentId} (hopen : rows.storedState.terminal = false) :
      Change keys now rows (.assign assigneeAgentId) (rows.materializeExpiredLatestAttempt now)
        (.assigned false)
  | assigned {assigneeAgentId} (hopen : rows.storedState.terminal = false)
      (hfree : (rows.materializeExpiredLatestAttempt now).blocked = false)
      (hidle : (rows.materializeExpiredLatestAttempt now).attemptActive = false) :
      Change keys now rows (.assign assigneeAgentId)
        { rows.materializeExpiredLatestAttempt now with
          assigneeAgentId := some assigneeAgentId
          storedState := .ready
          updatedAt := max now (rows.materializeExpiredLatestAttempt now).updatedAt }
        (.assigned true)
  | started {assigneeAgentId key new attempt} (hopen : rows.storedState.terminal = false)
      (hfree : (rows.materializeExpiredLatestAttempt now).blocked = false)
      (hidle : (rows.materializeExpiredLatestAttempt now).attemptActive = false)
      (hnumber : attempt.attemptNumber = (rows.materializeExpiredLatestAttempt
        now).nextAttemptNumber)
      (hactive : attempt.storedState = .active)
      (hadmits : (rows.materializeExpiredLatestAttempt now).admitsAttempt keys attempt = true)
      (hvalid : validateAttemptId attempt.attemptId = .ok ()) :
      Change keys now rows (.start assigneeAgentId key new)
        ((rows.materializeExpiredLatestAttempt now).addAttempt attempt now)
        (.started (attempt.record now) attempt.attemptFence false)
  | renewed {request answer asserted f} (hasked : request.asserted = some asserted)
      (hcurrent : Current asserted now rows) (hf : KeepsAttempt f)
        (hquiet : answer.grants = false) :
      Change keys now rows request ((rows.setAttempt asserted.attemptId f).touch now) answer
  | continued {asserted wakeId} (hcurrent : Current asserted now rows)
      (hfree : rows.loadEndpointExecutionForAttempt asserted.attemptId = none)
      (hunbound : rows.loadCodingRunBindingForAttempt asserted.attemptId = none) :
      Change keys now rows (.continueEndpoint asserted wakeId)
        { rows with
          endpointExecutions :=
            rows.endpointExecutions ++ [⟨asserted.attemptId, wakeId, asserted, now⟩] }
        (.continued ⟨asserted.attemptId, wakeId, asserted, now⟩ false)
  | completed {asserted completion key attention record events}
      (hcurrent : Current asserted now rows) (hrecord : record.attemptId = asserted.attemptId) :
      Change keys now rows (.complete asserted completion key attention)
        (rows.terminate asserted.attemptId completion.outcome completion.outcome.attemptState
          completion.terminalResult completion.terminalReason now)
        (.completed record events false)
  | prepared {asserted project intent} (hcurrent : Current asserted now rows)
      (hunbound : rows.loadEndpointExecutionForAttempt asserted.attemptId = none)
      (hfree : rows.loadCodingRunBindingForAttempt asserted.attemptId = none) :
      Change keys now rows (.prepare asserted project intent)
        { rows with codingRuns := rows.codingRuns ++ [intent.binding asserted.attemptId now] }
        (.prepared (intent.binding asserted.attemptId now) false)
  | rebound {asserted project intent binding f} (hcurrent : Current asserted now rows)
      (hf : KeepsBinding f) :
      Change keys now rows (.prepare asserted project intent)
        (rows.setCodingRun asserted.attemptId f) (.prepared binding true)
  | dispatched {asserted fingerprint before after} (hcurrent : Current asserted now rows)
      (hbinding : rows.loadCodingRunBindingForAttempt asserted.attemptId = some before)
      (hmay : before.dispatchState.mayDispatch = true) :
      Change keys now rows (.claim asserted fingerprint)
        (rows.setDispatch asserted.attemptId .outcomeUnknown now) (.claimed after true)
  | notStarted {attemptId runId before after}
      (hbinding : rows.loadCodingRunBindingForAttempt attemptId = some before)
      (hrun : before.runId = runId) (hunknown : before.dispatchState = .outcomeUnknown) :
      Change keys now rows (.notStarted attemptId runId)
        (rows.setDispatch attemptId .notStarted now) (.observed after)
  | observed {request answer attemptId observation} (hquiet : answer.grants = false)
      (hasked : request.asserted = none) (hadmitted : Admitted now rows answer request) :
      Change keys now rows request
        (rows.setCodingRun attemptId (CodingRunBinding.observe observation now)) answer
  | unavailable {attemptId after} :
      Change keys now rows (.unavailable attemptId) (rows.setDispatch attemptId .outcomeUnknown now)
        (.observed after)
  | terminalized {attemptId observation result reason attention binding events merged outcome}
      (hlatest : rows.latestAttemptId = some attemptId) (hopen : rows.storedState.terminal = false)
      (hmerged : merged = rows ∨
        merged = rows.setCodingRun attemptId (CodingRunBinding.observe observation now))
      (hattempt : (rows.findAttempt attemptId).isSome = true)
      (houtcome : outcome.terminal = true) :
      Change keys now rows (.terminalize attemptId observation result reason attention)
        (merged.terminalizeWith attemptId outcome result reason now)
        (.terminalized binding true events)

variable {asserted : AttemptAssertion} {now : ℤ}

theorem admitted_of_current {rows : AgentTaskRows} {answer : Answer} {request : TaskRequest}
    (hcurrent : Current asserted now rows) (hasked : request.asserted = some asserted) :
    Admitted now rows answer request := by
  unfold Admitted
  split
  · cases hasked
  · cases hasked
    exact Or.inl hcurrent
  · intro _ hother
    rw [hasked, Option.some.injEq] at hother
    exact hother ▸ hcurrent

variable {attemptId : String} {attempt : StoredAttempt} {binding : CodingRunBinding} {keys : Keys}
  {after : AgentTaskRows} {replayed : Bool} {record : AttemptRecord} {observation : Observation}

namespace AgentTaskRows

variable {rows : AgentTaskRows}

theorem loadCodingRunBindingForAttempt_setCodingRun {f : CodingRunBinding → CodingRunBinding}
    (hf : ∀ binding, (f binding).attemptId = binding.attemptId) (attemptId other : String) :
    (rows.setCodingRun attemptId f).loadCodingRunBindingForAttempt other =
      (rows.loadCodingRunBindingForAttempt other).map
        (updateRow CodingRunBinding.attemptId attemptId f) :=
  find?_map_updateRow hf other rows.codingRuns

theorem attemptId_of_findAttempt (h : rows.findAttempt attemptId = some attempt) :
    attempt.attemptId = attemptId := by
  simpa using List.find?_some h

theorem attemptId_of_loadCodingRun
    (h : rows.loadCodingRunBindingForAttempt attemptId = some binding) :
    binding.attemptId = attemptId := by
  simpa using List.find?_some h

/-! ### The calls -/

theorem current_of_requireCurrentAttempt
    (h : rows.requireCurrentAttempt asserted now = .ok attempt) :
    Current asserted now rows ∧ rows.findAttempt asserted.attemptId = some attempt := by
  simp only [requireCurrentAttempt, loadAttemptForTask, bind_eq_ok, ensure_eq_ok, required_eq_ok,
    Bool.and_eq_true, beq_iff_eq, decide_eq_true_eq, Bool.not_eq_true', pure_eq_ok] at h
  obtain ⟨_, hopen, _, hlatest, _, hassigned, _, ⟨_, _, rfl⟩, _, hfound, _,
    ⟨⟨hassignee, hfence⟩, hgeneration⟩, _, ⟨hactive, hlease⟩, rfl⟩ := h
  exact ⟨⟨hopen, hlatest, hassigned, _, hfound, hassignee, hfence, hgeneration, hactive, hlease⟩,
    hfound⟩

theorem blocked_of_requireUnblocked (h : rows.requireUnblocked = .ok ()) :
    rows.blocked = false := by
  unfold requireUnblocked at h
  unfold blocked
  cases hfilter : rows.latestCodingRun.filter fun binding ↦
      binding.dispatchState.blocksReplacement with
  | some =>
    rw [hfilter] at h
    cases h
  | none =>
    cases hlatest : rows.latestCodingRun with
    | none => rfl
    | some =>
      rw [hlatest] at hfilter
      simpa [Option.filter] using hfilter

theorem change_assign {owned : Bool} {assigneeAgentId : String} {changed : Bool}
    (h : rows.assign owned assigneeAgentId now = .ok (after, changed)) :
    Change keys now rows (.assign assigneeAgentId) after (.assigned changed) := by
  simp only [assign, bind_eq_ok, ensure_eq_ok, Bool.not_eq_true'] at h
  obtain ⟨_, hopen, _, _, h⟩ := h
  by_cases hsame : (rows.materializeExpiredLatestAttempt now).assigneeAgentId = some assigneeAgentId
  · rw [if_pos hsame] at h
    cases h
    exact .expired hopen
  · rw [if_neg hsame] at h
    simp only [bind_eq_ok, ensure_eq_ok, Bool.not_eq_true'] at h
    obtain ⟨_, hfree, _, hidle, h⟩ := h
    cases h
    exact .assigned hopen (blocked_of_requireUnblocked hfree) hidle

theorem change_startAttempt {owned : Bool} {assigneeAgentId key : String} {new : NewAttempt}
    (h : rows.startAttempt keys owned assigneeAgentId new now = .ok (after, attempt)) :
    Change keys now rows (.start assigneeAgentId key new) after
      (.started (attempt.record now) attempt.attemptFence false) := by
  simp only [startAttempt, bind_eq_ok, ensure_eq_ok, Bool.not_eq_true'] at h
  obtain ⟨_, hopen, _, _, _, _, _, _, _, hfree, _, hidle, _, hadmits, _, hvalid, h⟩ := h
  cases h
  exact .started hopen (blocked_of_requireUnblocked hfree) hidle rfl rfl hadmits hvalid

theorem change_startEndpointContinuation {wakeId : String} {execution : EndpointExecution}
    (h : rows.startEndpointContinuation keys asserted wakeId now =
      .ok (after, execution, replayed)) :
    Change keys now rows (.continueEndpoint asserted wakeId) after
      (.continued execution replayed) := by
  unfold startEndpointContinuation at h
  cases hexisting : rows.loadEndpointExecutionForAttempt asserted.attemptId with
  | some =>
    rw [hexisting] at h
    simp only [bind_eq_ok, ensure_eq_ok, beq_iff_eq] at h
    obtain ⟨_, hsame, h⟩ := h
    cases h
    exact .kept rfl (Or.inr ⟨_, hexisting, hsame, rfl⟩)
  | none =>
    rw [hexisting] at h
    simp only [bind_eq_ok, ensure_eq_ok, Option.isNone_iff_eq_none] at h
    obtain ⟨_, hcurrent, _, hunbound, _, _, h⟩ := h
    cases h
    exact .continued (current_of_requireCurrentAttempt hcurrent).1 hexisting hunbound

theorem attemptId_of_reread {message : String}
    (h : rows.reread attemptId message now = .ok record) :
    record.attemptId = attemptId := by
  simp only [reread, loadAttemptForTask, bind_eq_ok, required_eq_ok] at h
  obtain ⟨_, ⟨_, _, hload⟩, _, hfound, h⟩ := h
  cases hload
  cases h
  exact attemptId_of_findAttempt hfound

theorem change_heartbeat (h : rows.heartbeat asserted now = .ok (after, record)) :
    Change keys now rows (.heartbeat asserted) after (.attempt record) := by
  simp only [heartbeat, bind_eq_ok] at h
  obtain ⟨_, hcurrent, _, _, h⟩ := h
  cases h
  exact .renewed rfl (current_of_requireCurrentAttempt hcurrent).1
    ⟨fun _ ↦ rfl, fun _ ↦ rfl, fun _ ↦ rfl⟩ rfl

theorem change_replaceController (h : rows.replaceController asserted now = .ok (after, record)) :
    Change keys now rows (.replaceController asserted) after (.attempt record) := by
  simp only [replaceController, bind_eq_ok] at h
  obtain ⟨_, hcurrent, _, _, h⟩ := h
  cases h
  exact .renewed rfl (current_of_requireCurrentAttempt hcurrent).1
    ⟨fun _ ↦ rfl, fun _ ↦ rfl, fun _ ↦ rfl⟩ rfl

theorem change_complete {completion : Completion} {key : String} {attention : Fallible ℕ}
    {events : ℕ}
    (h : rows.complete asserted completion attention now = .ok (after, record, events)) :
    Change keys now rows (.complete asserted completion key attention) after
      (.completed record events false) := by
  simp only [complete, bind_eq_ok] at h
  obtain ⟨_, hcurrent, _, _, _, hrecord, h⟩ := h
  cases h
  exact .completed (current_of_requireCurrentAttempt hcurrent).1 (attemptId_of_reread hrecord)

theorem change_prepareAgain {project : String} {intent : BindingIntent}
    {existing : CodingRunBinding} (hcurrent : Current asserted now rows)
    (hexisting : rows.loadCodingRunBindingForAttempt asserted.attemptId = some existing)
    (h : rows.prepareAgain existing intent now = .ok (after, binding, replayed)) :
    Change keys now rows (.prepare asserted project intent) after (.prepared binding replayed) := by
  simp only [prepareAgain, bind_eq_ok] at h
  obtain ⟨_, _, h⟩ := h
  by_cases hsame : existing.providerInstanceId = intent.providerInstanceId
  · rw [if_pos hsame] at h
    cases h
    exact .kept rfl (admitted_of_current hcurrent rfl)
  · rw [if_neg hsame] at h
    simp only [bind_eq_ok] at h
    obtain ⟨_, _, _, _, h⟩ := h
    cases h
    rw [attemptId_of_loadCodingRun hexisting]
    exact .rebound hcurrent ⟨fun _ ↦ rfl, fun _ ↦ rfl, fun _ ↦ rfl⟩

theorem change_prepareCodingRun {project : String} {intent : BindingIntent}
    (h : rows.prepareCodingRun keys asserted project intent now = .ok (after, binding, replayed)) :
    Change keys now rows (.prepare asserted project intent) after (.prepared binding replayed) := by
  simp only [prepareCodingRun, bind_eq_ok, ensure_eq_ok, Option.isNone_iff_eq_none] at h
  obtain ⟨_, _, _, _, _, hcurrent, _, hunbound, h⟩ := h
  have hcurrent := (current_of_requireCurrentAttempt hcurrent).1
  cases hexisting : rows.loadCodingRunBindingForAttempt asserted.attemptId with
  | some =>
    rw [hexisting] at h
    exact change_prepareAgain hcurrent hexisting h
  | none =>
    rw [hexisting] at h
    simp only [bind_eq_ok] at h
    obtain ⟨_, _, h⟩ := h
    cases h
    exact .prepared hcurrent hunbound hexisting

theorem change_claimDispatch {fingerprint : String} {mayDispatch : Bool}
    (h : rows.claimDispatch asserted fingerprint now = .ok (after, binding, mayDispatch)) :
    Change keys now rows (.claim asserted fingerprint) after (.claimed binding mayDispatch) := by
  simp only [claimDispatch, requireCodingRun, bind_eq_ok, required_eq_ok] at h
  obtain ⟨_, hcurrent, before, hbefore, _, _, _, _, h⟩ := h
  cases h
  cases hmay : before.dispatchState.mayDispatch with
  | true =>
    exact .dispatched (current_of_requireCurrentAttempt hcurrent).1 hbefore hmay
  | false =>
    exact .kept rfl (admitted_of_current (current_of_requireCurrentAttempt hcurrent).1 rfl)

theorem change_recordNotStarted {runId : String}
    (h : rows.recordNotStarted attemptId runId now = .ok (after, binding)) :
    Change keys now rows (.notStarted attemptId runId) after (.observed binding) := by
  simp only [recordNotStarted, requireCodingRun, bind_eq_ok, required_eq_ok, ensure_eq_ok,
    beq_iff_eq] at h
  obtain ⟨before, hbefore, _, hrun, _, _, h⟩ := h
  cases h
  by_cases hunknown : before.dispatchState = .outcomeUnknown
  · rw [if_pos hunknown]
    exact .notStarted hbefore hrun hunknown
  · rw [if_neg hunknown]
    exact .kept rfl (by simp [Admitted, TaskRequest.asserted])

/-- A merge leaves the rows alone or writes the observation into the binding of the attempt. -/
theorem mergeObservation_cases {before : CodingRunBinding}
    {disposition : CodingAgentObservationMerge}
    (h : rows.mergeObservation before observation now = .ok (after, binding, disposition)) :
    after = rows ∨
      after = rows.setCodingRun before.attemptId (CodingRunBinding.observe observation now) := by
  simp only [mergeObservation, bind_eq_ok] at h
  obtain ⟨merge, _, h⟩ := h
  by_cases hold : merge = .stale ∨ merge = .exactReplay
  · rw [if_pos hold] at h
    cases h
    exact Or.inl rfl
  · rw [if_neg hold] at h
    simp only [bind_eq_ok] at h
    obtain ⟨_, _, h⟩ := h
    cases h
    exact Or.inr rfl

theorem change_recordObservation
    (h : rows.recordObservation attemptId observation now = .ok (after, binding)) :
    Change keys now rows (.observe attemptId observation) after (.observed binding) := by
  simp only [recordObservation, requireCodingRun, bind_eq_ok, required_eq_ok] at h
  obtain ⟨_, _, ⟨_, _, _⟩, hmerge, h⟩ := h
  cases h
  rcases mergeObservation_cases hmerge with rfl | rfl
  · exact .kept rfl (by simp [Admitted, TaskRequest.asserted])
  · exact .observed rfl rfl (by simp [Admitted, TaskRequest.asserted])

theorem change_markReconcileUnavailable
    (h : rows.markReconcileUnavailable attemptId now = .ok (after, binding)) :
    Change keys now rows (.unavailable attemptId) after (.observed binding) := by
  simp only [markReconcileUnavailable, requireCodingRun, bind_eq_ok, required_eq_ok] at h
  obtain ⟨before, _, _, _, h⟩ := h
  cases h
  by_cases hbound : before.dispatchState = .bound
  · rw [if_pos hbound]
    exact .unavailable
  · rw [if_neg hbound]
    exact .kept rfl (by simp [Admitted, TaskRequest.asserted])

theorem terminal_of_desiredTaskState {state : Option CodingAgentRunState} {outcome : AgentTaskState}
    (h : desiredTaskState state = some outcome) : outcome.terminal = true := by
  unfold desiredTaskState at h
  split at h <;> cases h <;> rfl

theorem change_terminalizeCodingRun {result reason : Option String} {attention : Fallible ℕ}
    {changed : Bool} {events : ℕ}
    (h : rows.terminalizeCodingRun attemptId observation result reason attention now =
      .ok (after, binding, changed, events)) :
    Change keys now rows (.terminalize attemptId observation result reason attention) after
      (.terminalized binding changed events) := by
  simp only [terminalizeCodingRun, requireCodingRun, loadAttemptForTask, bind_eq_ok, required_eq_ok,
    ensure_eq_ok, beq_iff_eq] at h
  obtain ⟨_, hlatest, _, hbefore, ⟨merged, _, _⟩, hmerge, _, _, _, houtcome, _, _, _,
    ⟨_, _, hfound⟩, _, hattempt, h⟩ := h
  have hid := attemptId_of_loadCodingRun hbefore
  have hmerged := mergeObservation_cases hmerge
  rw [hid] at hmerged
  cases hfound
  by_cases hterminal : merged.storedState.terminal = true
  · rw [if_pos hterminal] at h
    simp only [bind_eq_ok] at h
    obtain ⟨_, _, h⟩ := h
    cases h
    rcases hmerged with rfl | rfl
    · exact .kept rfl hlatest
    · exact .observed rfl rfl hlatest
  · rw [if_neg hterminal] at h
    simp only [bind_eq_ok] at h
    obtain ⟨_, _, _, _, h⟩ := h
    cases h
    have hsame : merged.storedState = rows.storedState ∧
        merged.findAttempt attemptId = rows.findAttempt attemptId := by
      rcases hmerged with rfl | rfl
      · exact ⟨rfl, rfl⟩
      · exact ⟨rfl, rfl⟩
    rw [hsame.1] at hterminal
    rw [hsame.2] at hattempt
    exact .terminalized hlatest (by simpa using hterminal) hmerged hattempt
      (terminal_of_desiredTaskState houtcome)

/-- What a call has changed. -/
theorem change_handle {owns : String → Bool} {request : TaskRequest} {answer : Answer}
    (h : rows.handle keys owns now request = .ok (after, answer)) :
    Change keys now rows request after answer := by
  cases request with
  | assign =>
    obtain ⟨⟨rows, changed⟩, hcall, h⟩ := bind_eq_ok.mp h
    cases h
    exact change_assign hcall
  | start =>
    obtain ⟨⟨rows, _⟩, hcall, h⟩ := bind_eq_ok.mp h
    cases h
    exact change_startAttempt hcall
  | continueEndpoint =>
    obtain ⟨⟨rows, _, replayed⟩, hcall, h⟩ := bind_eq_ok.mp h
    cases h
    exact change_startEndpointContinuation hcall
  | heartbeat =>
    obtain ⟨⟨rows, record⟩, hcall, h⟩ := bind_eq_ok.mp h
    cases h
    exact change_heartbeat hcall
  | replaceController =>
    obtain ⟨⟨rows, record⟩, hcall, h⟩ := bind_eq_ok.mp h
    cases h
    exact change_replaceController hcall
  | complete =>
    obtain ⟨⟨rows, record, events⟩, hcall, h⟩ := bind_eq_ok.mp h
    cases h
    exact change_complete hcall
  | prepare =>
    obtain ⟨⟨rows, binding, replayed⟩, hcall, h⟩ := bind_eq_ok.mp h
    cases h
    exact change_prepareCodingRun hcall
  | claim =>
    obtain ⟨⟨rows, binding, _⟩, hcall, h⟩ := bind_eq_ok.mp h
    cases h
    exact change_claimDispatch hcall
  | notStarted =>
    obtain ⟨⟨rows, binding⟩, hcall, h⟩ := bind_eq_ok.mp h
    cases h
    exact change_recordNotStarted hcall
  | observe =>
    obtain ⟨⟨rows, binding⟩, hcall, h⟩ := bind_eq_ok.mp h
    cases h
    exact change_recordObservation hcall
  | unavailable =>
    obtain ⟨⟨rows, binding⟩, hcall, h⟩ := bind_eq_ok.mp h
    cases h
    exact change_markReconcileUnavailable hcall
  | terminalize =>
    obtain ⟨⟨rows, binding, changed, events⟩, hcall, h⟩ := bind_eq_ok.mp h
    cases h
    exact change_terminalizeCodingRun hcall

end AgentTaskRows

end WebCodex.AgentTasks
