import WebCodex.TaskStore.Timeline

/-!
A request that succeeds changes the rows of its task in one of a few ways (`Change`), each with what
the request had checked before; `RowsEffect` adds what it does to the executions. Requests for
approvals and claims of guidance are apart: they touch the approvals or the watermark and nothing
else (`Move`).
-/

namespace WebCodex.TaskStore

open Foundation

/-- The course of an execution that ends neither its run nor its task. -/
structure Advances (before after : ConnectorExecution) : Prop where
  ended : before.isTerminal = true → after.state = before.state
  open_ : before.isTerminal = false → after.state ≠ .unknown ∧ after.state ≠ .cancelled
  requested : before.state = .cancelRequested → after.isActive = true →
    after.state = .cancelRequested ∧ after.failureCode = before.failureCode

/-- What stays of a result while notes are added to it. -/
def ConnectorTaskResult.core (result : ConnectorTaskResult) :
    String × ConnectorResultDecisionStatus :=
  (result.resultId, result.decisionStatus)

def Uncancelling (bodies : List EventBody) : Prop := bodies.any EventBody.isCancellation = false

variable {bodies : List EventBody}

theorem cancelled_of_uncancelling {rows before : TaskRows} (hevents : before.events = rows.events)
    (hbodies : Uncancelling bodies) (now : ℤ) :
    (before.logs bodies now).cancelled = rows.cancelled := by
  rw [TaskRows.cancelled_logs, hbodies, Bool.or_false, TaskRows.cancelled, hevents]
  rfl

def TaskRequest.closes : TaskRequest → Bool
  | owner (.finish _ _) | host (.abandon _ _ _) => true
  | _ => false

/-- The ways in which a request changes the rows of its task. -/
inductive Change (keys : Keys) (rows : TaskRows) (asked : TaskRequest) : TaskRows → Prop
  | unchanged : Change keys rows asked rows
  | noted (run : RunRow) (mode : ConnectorTaskMode) (result : Option ConnectorTaskResult)
      (bodies : List EventBody) (now time : ℤ) (hrun : run.status = rows.run.status)
      (hresult : result.map ConnectorTaskResult.core = rows.result.map ConnectorTaskResult.core)
      (hbodies : Uncancelling bodies) :
      Change keys rows asked
        ((({ rows with run := run, mode := mode, result := result } : TaskRows).logs bodies
          now).touch time)
  | reserved (request : NewExecution) (kind : ConnectorExecutionKind) (bodies : List EventBody)
      (hasked : asked = .owner (.reserve request))
      (hoperation : ∀ execution ∈ rows.executions, execution.operationId ≠ request.operationId)
      (hrunning : rows.requireRunning = .ok ()) (hfree : rows.connectorFinishBlocker = none)
      (hnew : request.executionId ∉ keys.executionIds) (hbodies : Uncancelling bodies) :
      Change keys rows asked
        ((({ rows with executions := rows.executions ++ [request.row kind] } : TaskRows).logs bodies
          request.now).touch request.now)
  | updated (execution : ConnectorExecution) (f : ConnectorExecution → ConnectorExecution)
      (bodies : List EventBody) (now time : ℤ)
      (hmem : execution ∈ rows.executions) (hf : KeepsIdentity f)
      (hadvances : Advances execution (f execution)) (hbodies : Uncancelling bodies) :
      Change keys rows asked
        (((rows.setExecution execution.executionId f).logs bodies now).touch time)
  | lost (execution : ConnectorExecution) (f : ConnectorExecution → ConnectorExecution)
      (bodies : List EventBody) (reason : String) (now : ℤ)
      (hmem : execution ∈ rows.executions) (hf : KeepsIdentity f)
      (hactive : execution.isActive = true) (hstate : (f execution).state = .unknown)
      (hbodies : Uncancelling bodies) :
      Change keys rows asked
        (((rows.setExecution execution.executionId f).logs bodies now).interrupted reason now)
  | stopped (execution : ConnectorExecution) (f : ConnectorExecution → ConnectorExecution)
      (bodies : List EventBody) (now : ℤ)
      (hmem : execution ∈ rows.executions) (hf : KeepsIdentity f)
      (hactive : execution.isActive = true) (hstate : (f execution).state = .cancelled)
      (hbodies : Uncancelling bodies) :
      Change keys rows asked
          (((rows.setExecution execution.executionId f).logs bodies now).cancelledBy
            (some execution.executionId) none now)
  | cancelled (reason : Option String) (now : ℤ) (hrunning : rows.requireRunning = .ok ())
      (hidle : ∀ execution, rows.latestExecution = some execution → execution.isTerminal = true) :
      Change keys rows asked (rows.cancelledBy none reason now)
  | restartedIdle (now : ℤ) (hrun : rows.run.status = .running)
      (hidle : newest (rows.executions.filter ConnectorExecution.isActive) = none) :
      Change keys rows asked (rows.interrupted "runtime_restarted" now)
  | restarted (execution : ConnectorExecution) (bodies : List EventBody) (now : ℤ)
      (hrun : rows.run.status = .running)
      (hactive : newest (rows.executions.filter ConnectorExecution.isActive) = some execution)
      (hbodies : Uncancelling bodies) :
      Change keys rows asked
        (((rows.setExecution execution.executionId (TaskRows.interruptExecution now)).logs bodies
          now).interrupted "runtime_restarted" now)
  | finished (result : ConnectorTaskResult) (bodies : List EventBody) (now : ℤ)
      (hrunning : rows.requireRunning = .ok ()) (hfree : rows.connectorFinishBlocker = none)
      (hnone : rows.result = none) (hpending : result.decisionStatus = .pending)
      (hbodies : Uncancelling bodies) (hasked : asked.closes = true) :
      Change keys rows asked (({ rows.logs bodies now with
          result := some result
          run := { rows.run with status := .completed, finishedAt := some now }
          lifecycle := .readyForReview
          updatedAt := now } : TaskRows).expireApprovals)
  | abandoned (result : ConnectorTaskResult) (bodies : List EventBody) (now : ℤ)
      (hrun : rows.run.status = .interrupted) (hnone : rows.result = none)
      (hrejected : result.decisionStatus = .rejected) (hbodies : Uncancelling bodies)
      (hasked : asked.closes = true) :
      Change keys rows asked (({ rows.logs bodies now with
          result := some result
          run := { rows.run with status := .completed, finishedAt := some now }
          lifecycle := .readyForReview
          updatedAt := now } : TaskRows).expireApprovals)
  | resumed (bodies : List EventBody) (now : ℤ) (hrun : rows.runStatus = .interrupted)
      (htask : rows.taskStatus = .needsAttention) (hnone : rows.result = none)
      (hbodies : Uncancelling bodies) :
      Change keys rows asked
        ((({ rows with run := { rows.run with status := .running, finishedAt := none } } :
          TaskRows).logs bodies now).touch now)
  | begun (intent : ResultDecisionIntent) (result : ConnectorTaskResult)
      (hresult : rows.result = some result) (hid : result.resultId = intent.resultId)
      (hpending : result.decisionStatus = .pending) (hstate : intent.state = .pending)
      (hintent : rows.intent = none ∨ ∃ old, rows.intent = some old ∧
        old.state = .needsAttention ∧ intent.decision = .rejected) :
      Change keys rows asked { rows with intent := some intent }
  | aborted (resultId : String) (hasked : asked = .abort resultId) :
      Change keys rows asked (rows.abortConnectorResultDecision resultId)
  | quarantined (intent marked : ResultDecisionIntent) (finishedAt : Option ℤ)
      (bodies : List EventBody) (now : ℤ) (hintent : rows.intent = some intent)
      (hpending : intent.state = .pending) (hstate : marked.state = .needsAttention)
      (hid : marked.resultId = intent.resultId) (hdecision : marked.decision = intent.decision)
      (hbodies : Uncancelling bodies) :
      Change keys rows asked ((({ rows with
            intent := some marked
            run := { rows.run with status := .interrupted, finishedAt := finishedAt } } :
          TaskRows).logs bodies now).touch now)
  | finalized (intent : ResultDecisionIntent) (result settled : ConnectorTaskResult)
      (finishedAt : Option ℤ) (bodies : List EventBody) (now : ℤ)
      (hintent : rows.intent = some intent) (hstate : intent.state = .pending)
      (hresult : rows.result = some result) (hpending : result.decisionStatus = .pending)
      (hintentId : intent.resultId = result.resultId)
      (hid : settled.resultId = result.resultId)
      (hsettled : settled.decisionStatus = intent.decision.status) (hbodies : Uncancelling bodies) :
      Change keys rows asked
        { ({ rows with
            result := some settled
            lifecycle := intent.decision.lifecycle
            updatedAt := now
            run := { rows.run with status := .completed, finishedAt := finishedAt } } :
          TaskRows).logs bodies now with
          intent := none }

/-- What a request does to the rows of its task and to the executions among them. -/
structure RowsEffect (keys : Keys) (rows : TaskRows) (asked : TaskRequest) (after : TaskRows) :
    Prop where
  change : Change keys rows asked after
  executions : ExecutionsUpdate asked rows.executions after.executions

theorem RowsEffect.unchanged {keys : Keys} {rows : TaskRows} {asked : TaskRequest} :
    RowsEffect keys rows asked rows :=
  ⟨.unchanged, .same⟩

variable {executionId resultId actor : String} {execution answer : ConnectorExecution} {now : ℤ}
  {resultIds : List String}

namespace TaskRows

variable {keys : Keys} {rows after : TaskRows} {asked : TaskRequest}

/-! ### Executions -/

theorem executionId_of_loadExecution (h : rows.loadExecution executionId = .ok execution) :
    execution.executionId = executionId := by
  unfold loadExecution at h
  split at h
  · cases h
  · next hfind =>
    obtain rfl := Except.ok.inj h
    simpa using List.find?_some hfind

theorem mem_of_loadExecution (h : rows.loadExecution executionId = .ok execution) :
    execution ∈ rows.executions := by
  unfold loadExecution at h
  split at h
  · cases h
  · next hfind =>
    obtain rfl := Except.ok.inj h
    exact List.mem_of_find?_eq_some hfind

theorem commitExecution_eq_ok (h : rows.commitExecution executionId = .ok (after, execution)) :
    after = rows := by
  rw [commitExecution, bind_eq_ok] at h
  obtain ⟨_, _, h⟩ := h
  exact ((Prod.mk.inj (Except.ok.inj h)).1).symm

theorem return_eq_ok {α : Type} {value : α} {answer : α}
    (h : (pure (rows, value) : Fallible (TaskRows × α)) = .ok (after, answer)) : after = rows :=
  (Prod.mk.inj (Except.ok.inj h)).1.symm

theorem isActive_of_not_isTerminal (h : ¬ execution.isTerminal = true) :
    execution.isActive = true := by
  simpa [ConnectorExecution.isTerminal, ConnectorExecutionState.isTerminal,
    ConnectorExecution.isActive] using h

/-- An update that leaves the state alone. -/
theorem advances_of_state_eq {before after : ConnectorExecution}
    (hstate : after.state = before.state) (hcode : after.failureCode = before.failureCode) :
    Advances before after where
  ended _ := hstate
  open_ hopen := by
    rw [hstate]
    constructor
    · intro hunknown
      simp [ConnectorExecution.isTerminal, hunknown, ConnectorExecutionState.isTerminal,
        ConnectorExecutionState.isActive] at hopen
    · intro hcancelled
      simp [ConnectorExecution.isTerminal, hcancelled, ConnectorExecutionState.isTerminal,
        ConnectorExecutionState.isActive] at hopen
  requested hrequested _ := ⟨hstate.trans hrequested, hcode⟩

/-- An update without events that leaves the state alone. -/
theorem effect_of_state_eq {f : ConnectorExecution → ConnectorExecution} (time : ℤ)
    (hmem : execution ∈ rows.executions) (hf : KeepsIdentity f)
    (hupdate : RowUpdate asked execution (f execution))
    (hstate : (f execution).state = execution.state)
    (hcode : (f execution).failureCode = execution.failureCode) :
    RowsEffect keys rows asked ((rows.setExecution execution.executionId f).touch time) := by
  refine ⟨?_, .updated execution f hmem hf hupdate⟩
  have hchange : Change keys rows asked
      (((rows.setExecution execution.executionId f).logs [] time).touch time) :=
    .updated execution f [] time time hmem hf (advances_of_state_eq hstate hcode) rfl
  rwa [logs_nil] at hchange

/-- An attached execution goes on. -/
theorem advances_attachedState {before after : ConnectorExecution} {executorStatus : String}
    (hopen : before.isTerminal = false) (hstate : after.state = attachedState before executorStatus)
    (hcode : after.failureCode = before.failureCode) : Advances before after := by
  have hcases : attachedState before executorStatus = before.state ∨
    (before.state ≠ .cancelRequested ∧
        (attachedState before executorStatus = .queued ∨
          attachedState before executorStatus = .running)) := by
    unfold attachedState
    by_cases hrequested : before.state = .cancelRequested
    · simp [hrequested]
    · simp only [beq_iff_eq, hrequested, if_false]
      split <;> simp [hrequested]
  rw [← hstate] at hcases
  rcases hcases with hsame | ⟨hother, hnew⟩
  · exact advances_of_state_eq hsame hcode
  · refine ⟨fun hended ↦ ?_, fun _ ↦ ?_, fun hrequested ↦ absurd hrequested hother⟩
    · rw [hended] at hopen
      cases hopen
    · rcases hnew with hnew | hnew <;> simp [hnew]

@[simp] theorem appendStateChange_eq (execution : ConnectorExecution)
    (state : ConnectorExecutionState) (now : ℤ) :
    rows.appendStateChange execution state now = .ok (rows.logs (if state != execution.state then
        [.execution execution.executionId execution.kind state] else []) now) := by
  rw [appendStateChange]
  split_ifs
  · exact appendExecutionEvent_eq execution state now
  · rw [logs_nil]
    rfl

theorem uncancelling_stateChange (execution : ConnectorExecution)
    (state : ConnectorExecutionState) :
    Uncancelling (if state != execution.state then
      [.execution execution.executionId execution.kind state] else []) := by
  split_ifs <;> rfl

theorem startConnectorExecution_effect
    (h : rows.startConnectorExecution executionId now = .ok (after, answer)) :
    RowsEffect keys rows asked after := by
  rw [startConnectorExecution, bind_eq_ok] at h
  obtain ⟨execution, hload, h⟩ := h
  obtain rfl := executionId_of_loadExecution hload
  by_cases hstate : execution.state = .accepted
  · simp only [hstate, bne_self_eq_false, Bool.false_eq_true, if_false, appendExecutionEvent_eq,
      bind_eq_ok, Except.ok.injEq, exists_eq_left'] at h
    obtain rfl := commitExecution_eq_ok h
    refine ⟨.updated execution _ _ now now (mem_of_loadExecution hload) ⟨fun _ ↦ rfl, fun _ ↦ rfl⟩
      ⟨?_, ?_, ?_⟩ rfl, .updated execution _ (mem_of_loadExecution hload) ⟨fun _ ↦ rfl, fun _ ↦ rfl⟩
        (.started hstate)⟩
    · simp [ConnectorExecution.isTerminal, hstate, ConnectorExecutionState.isTerminal,
        ConnectorExecutionState.isActive]
    · simp
    · simp [hstate]
  · rw [if_pos (by simpa using hstate)] at h
    obtain rfl := return_eq_ok h
    exact RowsEffect.unchanged

theorem attachConnectorExecutor_effect {executorReference executorStatus : String}
    (h : rows.attachConnectorExecutor executionId executorReference executorStatus now =
      .ok (after, answer)) :
    RowsEffect keys rows asked after := by
  simp only [attachConnectorExecutor, bind_eq_ok, ensure_eq_ok] at h
  obtain ⟨execution, hload, _, hreference, h⟩ := h
  obtain rfl := executionId_of_loadExecution hload
  have htakes : execution.takes executorReference := by
    intro _ hexisting
    simpa [hexisting] using hreference
  by_cases hterminal : execution.isTerminal = true
  · rw [if_pos hterminal] at h
    obtain rfl := commitExecution_eq_ok h
    exact effect_of_state_eq now (mem_of_loadExecution hload) ⟨fun _ ↦ rfl, fun _ ↦ rfl⟩
      (.attachedEnded executorReference htakes hterminal) rfl rfl
  · rw [if_neg hterminal] at h
    simp only [appendStateChange_eq, bind_eq_ok, Except.ok.injEq, exists_eq_left'] at h
    obtain rfl := commitExecution_eq_ok h
    exact ⟨.updated execution _ _ now now (mem_of_loadExecution hload) ⟨fun _ ↦ rfl, fun _ ↦ rfl⟩
        (advances_attachedState (by simpa using hterminal) rfl rfl) (uncancelling_stateChange _ _),
      .updated execution _ (mem_of_loadExecution hload) ⟨fun _ ↦ rfl, fun _ ↦ rfl⟩
        (.attached executorReference executorStatus _ now htakes
          (isActive_of_not_isTerminal hterminal))⟩

theorem materializeConnectorExecutionMcpTask_effect {projectId subjectId : String}
    (h : rows.materializeConnectorExecutionMcpTask executionId projectId subjectId now =
      .ok (after, answer)) :
    RowsEffect keys rows asked after := by
  simp only [materializeConnectorExecutionMcpTask, bind_eq_ok, ensure_eq_ok] at h
  obtain ⟨_, hload, _, _, h⟩ := h
  obtain rfl := executionId_of_loadExecution hload
  split_ifs at h with hdone
  · obtain rfl := return_eq_ok h
    exact RowsEffect.unchanged
  · simp only [bind_eq_ok, ensure_eq_ok] at h
    obtain ⟨_, _, h⟩ := h
    obtain rfl := commitExecution_eq_ok h
    rw [Bool.or_eq_true, not_or] at hdone
    exact effect_of_state_eq rows.updatedAt (mem_of_loadExecution hload) ⟨fun _ ↦ rfl, fun _ ↦ rfl⟩
      (.materialized now (isActive_of_not_isTerminal hdone.2)) rfl rfl

theorem recordConnectorMcpTaskOutputTail_effect {outputTail : String}
    (h : rows.recordConnectorMcpTaskOutputTail executionId outputTail = .ok (after, answer)) :
    RowsEffect keys rows asked after := by
  simp only [recordConnectorMcpTaskOutputTail, bind_eq_ok, ensure_eq_ok] at h
  obtain ⟨_, _, _, hload, h⟩ := h
  obtain rfl := executionId_of_loadExecution hload
  split_ifs at h with hdone
  · obtain rfl := return_eq_ok h
    exact RowsEffect.unchanged
  · obtain rfl := commitExecution_eq_ok h
    rw [Bool.or_eq_true, not_or] at hdone
    exact effect_of_state_eq rows.updatedAt (mem_of_loadExecution hload) ⟨fun _ ↦ rfl, fun _ ↦ rfl⟩
      (.outputTail outputTail (isActive_of_not_isTerminal hdone.2)) rfl rfl

theorem armConnectorTerminalContinuation_effect
    (h : rows.armConnectorTerminalContinuation executionId now = .ok (after, answer)) :
    RowsEffect keys rows asked after := by
  rw [armConnectorTerminalContinuation, bind_eq_ok] at h
  obtain ⟨_, hload, h⟩ := h
  obtain rfl := executionId_of_loadExecution hload
  split_ifs at h with hdone
  · obtain rfl := return_eq_ok h
    exact RowsEffect.unchanged
  · obtain rfl := commitExecution_eq_ok h
    rw [Bool.or_eq_true, not_or] at hdone
    exact effect_of_state_eq rows.updatedAt (mem_of_loadExecution hload) ⟨fun _ ↦ rfl, fun _ ↦ rfl⟩
      (.armed now (isActive_of_not_isTerminal hdone.1)) rfl rfl

theorem recordConnectorExecutionStatusFailure_effect {failureCode : String}
    (h : rows.recordConnectorExecutionStatusFailure executionId failureCode now =
      .ok (after, answer)) :
    RowsEffect keys rows asked after := by
  rw [recordConnectorExecutionStatusFailure, bind_eq_ok] at h
  obtain ⟨_, hload, h⟩ := h
  obtain rfl := executionId_of_loadExecution hload
  split_ifs at h with hterminal
  · obtain rfl := return_eq_ok h
    exact RowsEffect.unchanged
  · obtain rfl := commitExecution_eq_ok h
    exact effect_of_state_eq now (mem_of_loadExecution hload) ⟨fun _ ↦ rfl, fun _ ↦ rfl⟩
      (.statusFailed failureCode now (isActive_of_not_isTerminal hterminal)) rfl rfl

theorem requestConnectorQueueTimeout_effect
    (h : rows.requestConnectorQueueTimeout executionId now = .ok (after, answer)) :
    RowsEffect keys rows asked after := by
  rw [requestConnectorQueueTimeout, bind_eq_ok] at h
  obtain ⟨execution, hload, h⟩ := h
  obtain rfl := executionId_of_loadExecution hload
  by_cases hstate : execution.state = .queued
  · simp only [hstate, bne_self_eq_false, Bool.false_eq_true, if_false, appendExecutionEvent_eq,
      bind_eq_ok, Except.ok.injEq, exists_eq_left'] at h
    obtain rfl := commitExecution_eq_ok h
    refine ⟨.updated execution _ _ now now (mem_of_loadExecution hload) ⟨fun _ ↦ rfl, fun _ ↦ rfl⟩
      ⟨?_, ?_, ?_⟩ rfl, .updated execution _ (mem_of_loadExecution hload) ⟨fun _ ↦ rfl, fun _ ↦ rfl⟩
        (.timedOut now hstate)⟩
    · simp [ConnectorExecution.isTerminal, hstate, ConnectorExecutionState.isTerminal,
        ConnectorExecutionState.isActive]
    · simp [ConnectorExecution.requestQueueTimeout]
    · simp [hstate]
  · rw [if_pos (by simpa using hstate)] at h
    obtain rfl := return_eq_ok h
    exact RowsEffect.unchanged

/-! ### Ends of executions -/

theorem settleRun_cases {state : ConnectorExecutionState}
    (h : rows.settleRun executionId state now = .ok after) :
    (state = .unknown ∧ after = rows.interrupted "execution_terminal_unknown" now) ∨
      (state = .cancelled ∧ after = rows.cancelledBy (some executionId) none now) ∨
      (state ≠ .unknown ∧ state ≠ .cancelled ∧ after = rows) := by
  by_cases hunknown : state = .unknown
  · subst hunknown
    change rows.interruptRun _ now = _ at h
    rw [interruptRun_eq] at h
    exact Or.inl ⟨rfl, (Except.ok.inj h).symm⟩
  · by_cases hcancelled : state = .cancelled
    · subst hcancelled
      change rows.finalizeTaskCancel _ none now = _ at h
      rw [finalizeTaskCancel_eq] at h
      exact Or.inr (Or.inl ⟨rfl, (Except.ok.inj h).symm⟩)
    · right; right
      rw [settleRun, if_neg (by simpa using hunknown), if_neg (by simpa using hcancelled)] at h
      exact ⟨hunknown, hcancelled, (Except.ok.inj h).symm⟩

/-- The end of an execution that the store found active. -/
theorem effect_of_settleRun {f : ConnectorExecution → ConnectorExecution} {settled : TaskRows}
    (hmem : execution ∈ rows.executions) (hf : KeepsIdentity f)
    (hactive : execution.isActive = true)
    (hbodies : Uncancelling bodies) (hupdate : RowUpdate asked execution (f execution))
    (hrequested : execution.state = .cancelRequested → (f execution).isActive = true →
      (f execution).state = .cancelRequested ∧ (f execution).failureCode = execution.failureCode)
    (hsettled : ((rows.setExecution execution.executionId f).logs bodies now).settleRun
      execution.executionId (f execution).state now = .ok settled) :
    RowsEffect keys rows asked (settled.touch now) := by
  have hexecutions : settled.executions = rows.executions.map
      (updated execution.executionId f) := by
    rcases settleRun_cases hsettled with ⟨_, rfl⟩ | ⟨_, rfl⟩ | ⟨_, _, rfl⟩ <;> rfl
  refine ⟨?_, by rw [TaskRows.touch, hexecutions]; exact .updated execution f hmem hf hupdate⟩
  rcases settleRun_cases hsettled with ⟨hstate, rfl⟩ | ⟨hstate, rfl⟩ | ⟨hknown, hgoes, rfl⟩
  · rw [touch_interrupted]
    exact .lost execution f bodies _ now hmem hf hactive hstate hbodies
  · rw [touch_cancelledBy]
    exact .stopped execution f bodies now hmem hf hactive hstate hbodies
  · refine .updated execution f bodies now now hmem hf ⟨fun hended ↦ ?_, fun _ ↦ ⟨hknown, hgoes⟩,
      hrequested⟩ hbodies
    rw [ConnectorExecution.isTerminal, ConnectorExecutionState.isTerminal] at hended
    rw [ConnectorExecution.isActive] at hactive
    simp [hactive] at hended

/-- An outcome that ends an execution or leaves its cancellation requested. -/
def EndsOrWaits (outcome : StateOutcome) : Prop :=
  outcome.state.isActive = true → outcome.state = .cancelRequested ∧ outcome.code = none

theorem endsOrWaits_of_ended {outcome : StateOutcome} (h : outcome.state.isActive = false) :
    EndsOrWaits outcome := by
  intro hactive
  rw [h] at hactive
  cases hactive

theorem isActive_completedOutcome (execution : ConnectorExecution)
    (observation : ConnectorExecutionObservation) :
    (completedOutcome execution observation).state.isActive = false := by
  unfold completedOutcome
  split_ifs <;> rfl

theorem isActive_failureOutcome (execution : ConnectorExecution)
    (observation : ConnectorExecutionObservation) :
    (failureOutcome execution observation).state.isActive = false := by
  unfold failureOutcome
  split_ifs <;> rfl

/-- A report on an execution whose cancellation was requested either ends it or leaves it so. -/
theorem endsOrWaits_observedState {observation : ConnectorExecutionObservation}
    (hstate : execution.state = .cancelRequested) :
    EndsOrWaits (observedState execution observation) := by
  have hactive : ∀ state, EndsOrWaits (activeState execution state) := by
    intro state _
    simp [activeState, hstate]
  have hstopped : EndsOrWaits (stoppedOutcome execution) := by
    unfold stoppedOutcome
    by_cases hqueue : execution.failureCode = some "queue_deadline"
    · rw [if_pos (by simp [hstate, hqueue])]
      exact endsOrWaits_of_ended rfl
    · rw [if_neg (by simp [hqueue]), if_pos (by simp [hstate])]
      exact endsOrWaits_of_ended rfl
  unfold observedState
  split
  · exact endsOrWaits_of_ended rfl
  · by_cases hrecovering : (observation.executorStatus == "recovering") = true
    · rw [if_pos hrecovering]
      exact hactive _
    · rw [if_neg hrecovering]
      split
      case h_7 => exact endsOrWaits_of_ended (isActive_completedOutcome _ _)
      case h_8 | h_9 => exact hstopped
      case h_10 | h_11 | h_12 => exact endsOrWaits_of_ended rfl
      case h_13 => exact endsOrWaits_of_ended (isActive_failureOutcome _ _)
      all_goals exact hactive _

variable (observation : ConnectorExecutionObservation) (outcome : StateOutcome)

@[simp] theorem state_recordObservation (execution : ConnectorExecution) :
    (execution.recordObservation observation outcome).state = outcome.state := by
  unfold ConnectorExecution.recordObservation
  split_ifs <;> rfl

@[simp] theorem failureCode_recordObservation (execution : ConnectorExecution) :
    (execution.recordObservation observation outcome).failureCode =
      outcome.code.or execution.failureCode := by
  unfold ConnectorExecution.recordObservation
  split_ifs <;> rfl

theorem keepsIdentity_recordObservation :
    KeepsIdentity (·.recordObservation observation outcome) := by
  constructor <;> intro _ <;> unfold ConnectorExecution.recordObservation <;>
    split_ifs <;> rfl

theorem observeConnectorExecution_effect {observation : ConnectorExecutionObservation}
    (h : rows.observeConnectorExecution executionId observation = .ok (after, answer)) :
    RowsEffect keys rows (.execution executionId (.observe observation)) after := by
  rw [observeConnectorExecution, bind_eq_ok] at h
  obtain ⟨execution, hload, h⟩ := h
  obtain rfl := executionId_of_loadExecution hload
  split_ifs at h with hterminal hstatus
  · obtain rfl := return_eq_ok h
    exact RowsEffect.unchanged
  · obtain rfl := commitExecution_eq_ok h
    exact effect_of_state_eq _ (mem_of_loadExecution hload) ⟨fun _ ↦ rfl, fun _ ↦ rfl⟩
      (.statusFailed _ _ (isActive_of_not_isTerminal hterminal)) rfl rfl
  · simp only [appendStateChange_eq, bind_eq_ok, Except.ok.injEq, exists_eq_left'] at h
    obtain ⟨_, hchecks, _, hsettled, h⟩ := h
    obtain rfl := commitExecution_eq_ok h
    rw [← state_recordObservation observation (observedState execution observation) execution]
      at hsettled
    refine effect_of_settleRun (mem_of_loadExecution hload)
      (keepsIdentity_recordObservation observation (observedState execution observation))
      (isActive_of_not_isTerminal hterminal) (uncancelling_stateChange execution _)
      (.observed observation rfl (isActive_of_not_isTerminal hterminal) hchecks) ?_ hsettled
    intro hrequested hactive
    rw [ConnectorExecution.isActive, state_recordObservation] at hactive
    have hwaits := endsOrWaits_observedState hrequested hactive
    simp [hwaits]

/-- An execution that fails outside its executor has ended. -/
theorem isActive_failureState (execution : ConnectorExecution)
    (failure : ConnectorExecutionFailure) :
    (failureState execution failure).state.isActive = false := by
  unfold failureState
  split
  · split_ifs <;> rfl
  · rfl
  · rfl

theorem finishConnectorExecution_effect {failure : ConnectorExecutionFailure}
    (h : rows.finishConnectorExecution executionId failure now = .ok (after, answer)) :
    RowsEffect keys rows asked after := by
  rw [finishConnectorExecution, bind_eq_ok] at h
  obtain ⟨execution, hload, h⟩ := h
  obtain rfl := executionId_of_loadExecution hload
  by_cases hactive : execution.isActive = true
  · simp only [hactive, Bool.not_true, Bool.false_eq_true, if_false, appendExecutionEvent_eq,
      bind_eq_ok, Except.ok.injEq, exists_eq_left'] at h
    obtain ⟨_, hsettled, h⟩ := h
    obtain rfl := commitExecution_eq_ok h
    refine effect_of_settleRun (mem_of_loadExecution hload)
      (f := failExecution failure (failureState execution failure) now)
        ⟨fun _ ↦ rfl, fun _ ↦ rfl⟩ hactive ?_ (.failed failure now hactive) ?_ hsettled
    · rfl
    · intro _ hstill
      exact absurd hstill (by
        show ¬ (failureState execution failure).state.isActive = true
        simp [isActive_failureState])
  · rw [if_pos (by simpa using hactive)] at h
    obtain rfl := return_eq_ok h
    exact RowsEffect.unchanged

theorem keepsIdentity_cancelExecution (immediate : Bool) (now : ℤ) :
    KeepsIdentity (cancelExecution immediate now) := by
  constructor <;> intro _ <;> unfold cancelExecution <;> split_ifs <;> rfl

theorem cancelActiveExecution_effect {reason : Option String} (hmem : execution ∈ rows.executions)
    (hactive : execution.isActive = true)
    (h : rows.cancelActiveExecution execution reason now = .ok after) :
    RowsEffect keys rows asked (after.touch now) := by
  have hadvances : Advances execution (cancelExecution false now execution) := by
    refine ⟨fun hended ↦ ?_, fun _ ↦ by simp [cancelExecution], fun _ _ ↦ ⟨rfl, rfl⟩⟩
    simp [ConnectorExecution.isTerminal, ConnectorExecutionState.isTerminal,
      show execution.state.isActive = true from hactive] at hended
  have hupdate (immediate : Bool) : ExecutionsUpdate asked rows.executions
      (rows.executions.map (updated execution.executionId (cancelExecution immediate now))) :=
    .updated execution _ hmem (keepsIdentity_cancelExecution immediate now)
      (.cancelled immediate now hactive)
  have heffect : ∀ bodies, Uncancelling bodies →
      RowsEffect keys rows asked (((rows.setExecution execution.executionId
        (cancelExecution false now)).logs bodies now).touch now) :=
    fun bodies hbodies ↦ ⟨.updated execution _ bodies now now hmem
      (keepsIdentity_cancelExecution false now) hadvances hbodies, hupdate false⟩
  unfold cancelActiveExecution at h
  cases himmediate : execution.state == .accepted && execution.executorReference.isNone with
  | true =>
    simp only [himmediate, if_true, appendExecutionEvent_eq, bind_eq_ok, Except.ok.injEq,
      exists_eq_left', finalizeTaskCancel_eq] at h
    subst h
    exact ⟨.stopped execution _ _ now hmem (keepsIdentity_cancelExecution true now) hactive rfl rfl,
      hupdate true⟩
  | false =>
    simp only [himmediate, Bool.false_eq_true, if_false] at h
    by_cases hrequested : (execution.state == .cancelRequested) = true
    · rw [if_pos hrequested] at h
      obtain rfl := Except.ok.inj h
      have hsilent := heffect [] rfl
      rwa [logs_nil] at hsilent
    · rw [if_neg hrequested] at h
      simp only [appendExecutionEvent_eq, bind_eq_ok, Except.ok.injEq, exists_eq_left'] at h
      cases reason with
      | none =>
        obtain rfl := Except.ok.inj h
        exact heffect _ rfl
      | some =>
        simp only [insertEvent_next, logs_logs, Except.ok.injEq] at h
        subst h
        exact heffect _ rfl

theorem mem_of_latestExecution (h : rows.latestExecution = some execution) :
    execution ∈ rows.executions := by
  simpa using List.argmax_mem h

theorem requestConnectorExecutionCancel_effect {reason : Option String}
    {answer : Option ConnectorExecution}
    (h : rows.requestConnectorExecutionCancel reason now = .ok (after, answer)) :
    RowsEffect keys rows asked after := by
  unfold requestConnectorExecutionCancel at h
  split_ifs at h with hcancelled
  · obtain rfl := return_eq_ok h
    exact RowsEffect.unchanged
  · rw [bind_eq_ok] at h
    obtain ⟨_, hrunning, h⟩ := h
    cases hlatest : rows.latestExecution with
    | none =>
      simp only [hlatest, finalizeTaskCancel_eq, bind_eq_ok, Except.ok.injEq, exists_eq_left'] at h
      obtain rfl := return_eq_ok h
      exact ⟨.cancelled reason now hrunning (by simp [hlatest]), .same⟩
    | some =>
      simp only [hlatest] at h
      split_ifs at h with hterminal
      · simp only [finalizeTaskCancel_eq, bind_eq_ok, Except.ok.injEq, exists_eq_left'] at h
        obtain rfl := return_eq_ok h
        refine ⟨.cancelled reason now hrunning fun _ hsame ↦ ?_, .same⟩
        rw [hlatest] at hsame
        obtain rfl := Option.some.inj hsame
        exact hterminal
      · simp only [bind_eq_ok] at h
        obtain ⟨_, hrequested, ⟨_, _⟩, hcommit, h⟩ := h
        obtain rfl := return_eq_ok h
        obtain rfl := commitExecution_eq_ok hcommit
        exact cancelActiveExecution_effect (mem_of_latestExecution hlatest)
          (isActive_of_not_isTerminal hterminal) hrequested

theorem reserveConnectorExecution_effect {request : NewExecution}
    {answer : ConnectorExecutionReservation}
    (h : rows.reserveConnectorExecution keys.executionIds request = .ok (after, answer)) :
    RowsEffect keys rows (.owner (.reserve request)) after := by
  simp only [reserveConnectorExecution, bind_eq_ok] at h
  obtain ⟨kind, _, _, hrunning, h⟩ := h
  cases hfind : rows.executions.find? fun execution ↦
      execution.operationId == request.operationId with
  | some existing =>
    simp only [hfind, bind_eq_ok] at h
    obtain ⟨_, _, h⟩ := h
    obtain rfl := return_eq_ok h
    exact RowsEffect.unchanged
  | none =>
    cases hfree : rows.connectorFinishBlocker with
    | some => simp [hfind, hfree] at h
    | none =>
      simp only [hfind, hfree, appendExecutionEvent_eq, bind_eq_ok, ensure_eq_ok, Except.ok.injEq,
        exists_eq_left'] at h
      obtain ⟨_, _, _, hnew, h⟩ := h
      obtain rfl := return_eq_ok h
      exact ⟨.reserved request kind _ rfl (by simpa using hfind) hrunning hfree
        (by simpa using hnew) rfl, .reserved request kind⟩

theorem mem_of_newest_filter {p : ConnectorExecution → Bool}
    (h : newest (rows.executions.filter p) = some execution) :
    execution ∈ rows.executions ∧ p execution = true := by
  have hmem := List.argmax_mem h
  rw [List.mem_reverse, List.mem_filter] at hmem
  exact hmem

theorem reconcileConnectorExecutions_effect
    (h : rows.reconcileConnectorExecutions now = .ok after) :
    RowsEffect keys rows asked after := by
  unfold reconcileConnectorExecutions at h
  by_cases hrun : rows.run.status = .running
  · simp only [hrun, bne_self_eq_false, Bool.false_eq_true, if_false] at h
    cases hactive : newest (rows.executions.filter ConnectorExecution.isActive) with
    | none =>
      simp only [hactive, interruptRun_eq, Except.ok.injEq] at h
      subst h
      exact ⟨.restartedIdle now hrun hactive, .same⟩
    | some execution =>
      simp only [hactive, appendExecutionEvent_eq, bind_eq_ok, Except.ok.injEq, exists_eq_left',
        interruptRun_eq] at h
      subst h
      obtain ⟨hmem, hopen⟩ := mem_of_newest_filter hactive
      exact ⟨.restarted execution _ now hrun hactive rfl,
        .updated execution (interruptExecution now) hmem ⟨fun _ ↦ rfl, fun _ ↦ rfl⟩
          (.interrupted now hopen)⟩
  · rw [if_pos (by simpa using hrun)] at h
    obtain rfl := Except.ok.inj h
    exact RowsEffect.unchanged

/-- A restart never fails. -/
theorem exists_reconcileConnectorExecutions (rows : TaskRows) (now : ℤ) :
    ∃ after, rows.reconcileConnectorExecutions now = .ok after := by
  unfold reconcileConnectorExecutions
  split_ifs
  · exact ⟨rows, rfl⟩
  · split
    · exact ⟨_, interruptRun_eq _ now⟩
    · simp only [appendExecutionEvent_eq, interruptRun_eq, bind, Except.bind]
      exact ⟨_, rfl⟩

/-! ### Notes -/

/-- Events that leave everything else alone. -/
theorem effect_of_logs (now time : ℤ) (hbodies : Uncancelling bodies) :
    RowsEffect keys rows asked ((rows.logs bodies now).touch time) :=
  ⟨.noted rows.run rows.mode rows.result bodies now time rfl rfl hbodies, .same⟩

variable {answer : ℕ}

theorem continueConnectorTask_effect {continuation : ConnectorTaskContinuation}
    (h : rows.continueConnectorTask continuation = .ok (after, answer)) :
    RowsEffect keys rows asked after := by
  simp only [continueConnectorTask, bind_eq_ok] at h
  obtain ⟨mode, _, _, _, _, _, _, _, _, _, _, _, _, _, _, hlogged, _, _, h⟩ := h
  obtain rfl := return_eq_ok h
  rw [insertEvent_cursor (by rfl), Except.ok.injEq] at hlogged
  subst hlogged
  refine ⟨.noted _ mode rows.result _ continuation.now continuation.now ?_ rfl rfl, .same⟩
  cases continuation.workspace <;> rfl

theorem appendInterruptedConnectorInstruction_effect {instruction requested : String}
    {binding : Option ConnectorWindowBinding}
    (h : rows.appendInterruptedConnectorInstruction instruction requested now binding =
      .ok (after, answer)) :
    RowsEffect keys rows asked after := by
  simp only [appendInterruptedConnectorInstruction, bind_eq_ok] at h
  obtain ⟨_, _, _, _, _, _, _, _, _, _, _, hlogged, _, _, h⟩ := h
  obtain rfl := return_eq_ok h
  rw [insertEvent_cursor rfl, Except.ok.injEq] at hlogged
  subst hlogged
  exact effect_of_logs now now rfl

theorem appendConnectorTaskEvent_effect {entry : TimelineEntry}
    (h : rows.appendConnectorTaskEvent entry now = .ok (after, answer)) :
    RowsEffect keys rows asked after := by
  simp only [appendConnectorTaskEvent, bind_eq_ok] at h
  obtain ⟨_, _, _, hlogged, h⟩ := h
  obtain rfl := return_eq_ok h
  rw [insertEvent_cursor rfl, Except.ok.injEq] at hlogged
  subst hlogged
  refine effect_of_logs now now ?_
  cases entry <;> rfl

theorem appendConnectorDecisionGuidance_effect {payload : String}
    (h : rows.appendConnectorDecisionGuidance payload now = .ok (after, answer)) :
    RowsEffect keys rows asked after := by
  simp only [appendConnectorDecisionGuidance, bind_eq_ok] at h
  obtain ⟨_, hlogged, h⟩ := h
  obtain rfl := return_eq_ok h
  rw [insertEvent_cursor rfl, Except.ok.injEq] at hlogged
  subst hlogged
  exact effect_of_logs now now rfl

theorem recordConnectorWorkspaceRelease_effect {released : Bool} {cleanupWarning : Option String}
    (h : rows.recordConnectorWorkspaceRelease released cleanupWarning now = .ok (after, answer)) :
    RowsEffect keys rows asked after := by
  simp only [recordConnectorWorkspaceRelease, bind_eq_ok, required_eq_ok] at h
  obtain ⟨_, _, _, hresult, _, hlogged, h⟩ := h
  obtain rfl := return_eq_ok h
  rw [insertEvent_cursor (by rfl), Except.ok.injEq] at hlogged
  subst hlogged
  refine ⟨.noted rows.run rows.mode _ _ now now rfl ?_ rfl, .same⟩
  rw [hresult]
  rfl

theorem insertResult_eq_ok {result : ConnectorTaskResult}
    (h : rows.insertResult resultIds result = .ok after) :
    rows.result = none ∧ after = { rows with result := some result } := by
  simp only [insertResult, bind_eq_ok, ensure_eq_ok] at h
  obtain ⟨_, _, _, hnone, h⟩ := h
  exact ⟨by simpa using hnone, (Except.ok.inj h).symm⟩

theorem taskFinish_effect {result : NewConnectorResult}
    (h : rows.taskFinish resultIds result now = .ok (after, answer)) :
    RowsEffect keys rows (.owner (.finish result now)) after := by
  unfold taskFinish at h
  cases hfree : rows.connectorFinishBlocker with
  | some => simp [hfree] at h
  | none =>
    simp only [hfree, finishConnectorTask, bind_eq_ok] at h
    obtain ⟨_, _, _, hrunning, _, hlogged, finished, hfinished, h⟩ := h
    obtain rfl := return_eq_ok h
    rw [insertEvent_cursor rfl, Except.ok.injEq] at hlogged
    subst hlogged
    obtain ⟨hnone, rfl⟩ := insertResult_eq_ok hfinished
    exact ⟨.finished _ _ now hrunning hfree hnone rfl rfl rfl, .same⟩

theorem abandonInterruptedConnectorTask_effect
    (h : rows.abandonInterruptedConnectorTask resultIds resultId actor now = .ok after) :
    RowsEffect keys rows (.host (.abandon resultId actor now)) after := by
  simp only [abandonInterruptedConnectorTask, bind_eq_ok, ensure_eq_ok] at h
  obtain ⟨_, hcheck, abandoned, habandoned, _, hlogged, h⟩ := h
  obtain rfl := (Except.ok.inj h).symm
  obtain ⟨hnone, rfl⟩ := insertResult_eq_ok habandoned
  rw [insertEvent_cursor (by rfl), Except.ok.injEq] at hlogged
  subst hlogged
  rw [Bool.and_eq_true, beq_iff_eq] at hcheck
  exact ⟨.abandoned _ _ now hcheck.1 hnone rfl rfl rfl, .same⟩

theorem resumeConnectorTask_effect (h : rows.resumeConnectorTask actor now = .ok after) :
    RowsEffect keys rows asked after := by
  simp only [resumeConnectorTask, bind_eq_ok, ensure_eq_ok] at h
  obtain ⟨_, _, _, _, _, hcheck, _, hnone, _, hlogged, h⟩ := h
  obtain rfl := (Except.ok.inj h).symm
  rw [insertEvent_cursor (by rfl), Except.ok.injEq] at hlogged
  subst hlogged
  rw [Bool.and_eq_true, beq_iff_eq, beq_iff_eq] at hcheck
  exact ⟨.resumed _ now hcheck.1 hcheck.2 (by simpa using hnone) rfl, .same⟩

theorem beginConnectorResultDecision_effect {requested : String}
    (h : rows.beginConnectorResultDecision resultId requested actor now = .ok after) :
    RowsEffect keys rows asked after := by
  simp only [beginConnectorResultDecision, bind_eq_ok, ensure_eq_ok, required_eq_ok,
    Option.filter_eq_some_iff] at h
  obtain ⟨_, _, result, ⟨hresult, hcheck⟩, _, hintent, h⟩ := h
  obtain rfl := (Except.ok.inj h).symm
  rw [Bool.and_eq_true, beq_iff_eq, beq_iff_eq] at hcheck
  refine ⟨.begun _ result hresult rfl hcheck.2 rfl ?_, .same⟩
  cases hold : rows.intent with
  | none => exact Or.inl rfl
  | some old =>
    simp only [hold, Option.all_some, Bool.and_eq_true, beq_iff_eq] at hintent
    exact Or.inr ⟨old, rfl, hintent.1.2, hintent.2⟩

theorem markConnectorResultDecisionNeedsAttention_effect {errorCode errorMessage : String}
    (h : rows.markConnectorResultDecisionNeedsAttention resultId errorCode errorMessage now =
      .ok after) :
    RowsEffect keys rows asked after := by
  simp only [markConnectorResultDecisionNeedsAttention, bind_eq_ok, required_eq_ok,
    Option.filter_eq_some_iff] at h
  obtain ⟨intent, ⟨hintent, hcheck⟩, _, hlogged, h⟩ := h
  obtain rfl := (Except.ok.inj h).symm
  rw [insertEvent_cursor (by rfl), Except.ok.injEq] at hlogged
  subst hlogged
  rw [Bool.and_eq_true, beq_iff_eq, beq_iff_eq] at hcheck
  exact ⟨.quarantined intent _ _ _ now hintent hcheck.2 rfl rfl rfl rfl, .same⟩

theorem finalizeConnectorResultDecision_effect {cleanupWarning : Option String}
    {answer : ConnectorTaskResult}
    (h : rows.finalizeConnectorResultDecision resultId cleanupWarning now = .ok (after, answer)) :
    RowsEffect keys rows asked after := by
  simp only [finalizeConnectorResultDecision, bind_eq_ok, ensure_eq_ok, required_eq_ok,
    Option.filter_eq_some_iff] at h
  obtain ⟨intent, ⟨hintent, hcheck⟩, result, ⟨hresult, hpending⟩, _, hid, _, hlogged, h⟩ := h
  obtain rfl := return_eq_ok h
  rw [insertEvent_cursor (by rfl), Except.ok.injEq] at hlogged
  subst hlogged
  rw [Bool.and_eq_true, beq_iff_eq, beq_iff_eq] at hcheck
  rw [beq_iff_eq] at hpending hid
  exact ⟨.finalized intent result _ _ _ now hintent hcheck.2 hresult hpending
    (hcheck.1.trans hid.symm) rfl rfl rfl, .same⟩

/-! ### Requests -/

theorem map_eq_ok {α : Type} {f : α → Answer} {result : Fallible (TaskRows × α)} {answer : Answer}
    (h : answered f result = .ok (after, answer)) :
    ∃ value, result = .ok (after, value) ∧ answer = f value := by
  cases result with
  | error => cases h
  | ok outcome =>
    obtain ⟨_, value⟩ := outcome
    obtain ⟨rfl, rfl⟩ := Prod.mk.inj (Except.ok.inj h)
    exact ⟨value, rfl, rfl⟩

theorem map_done_eq_ok {result : Fallible TaskRows} {answer : Answer}
    (h : (result.map fun rows ↦ (rows, Answer.done)) = .ok (after, answer)) :
    result = .ok after ∧ answer = .done := by
  cases result with
  | error => cases h
  | ok =>
    obtain ⟨rfl, rfl⟩ := Prod.mk.inj (Except.ok.inj h)
    exact ⟨rfl, rfl⟩

theorem handleExecution_effect {request : ExecutionRequest} {answer : Answer}
    (h : rows.handleExecution executionId request = .ok (after, answer)) :
    RowsEffect keys rows (.execution executionId request) after := by
  obtain ⟨_, h, _⟩ := map_eq_ok h
  cases request with
  | start => exact startConnectorExecution_effect h
  | attach => exact attachConnectorExecutor_effect h
  | statusFailure => exact recordConnectorExecutionStatusFailure_effect h
  | observe => exact observeConnectorExecution_effect h
  | queueTimeout => exact requestConnectorQueueTimeout_effect h
  | finish => exact finishConnectorExecution_effect h
  | arm => exact armConnectorTerminalContinuation_effect h
  | materialize => exact materializeConnectorExecutionMcpTask_effect h
  | outputTail => exact recordConnectorMcpTaskOutputTail_effect h

end TaskRows

/-- Requests that ask for an approval or decide on one. -/
def TaskRequest.isApproval : TaskRequest → Bool
  | owner (.approval _) | host (.decideApproval _ _ _ _ _) => true
  | _ => false

def TaskRequest.isClaim : TaskRequest → Bool
  | owner (.claimGuidance _) => true
  | _ => false

namespace TaskRows

variable {keys : Keys} {rows after : TaskRows}

/-- What the other requests change. -/
theorem handle_effect {request : TaskRequest} {answer : Answer}
    (hrequest : request.isApproval = false ∧ request.isClaim = false)
    (h : rows.handle keys request = .ok (after, answer)) : RowsEffect keys rows request after := by
  cases request with
  | owner request =>
    cases request with
    | approval => cases hrequest.1
    | claimGuidance => cases hrequest.2
    | reserve =>
      obtain ⟨_, h, _⟩ := map_eq_ok h
      exact reserveConnectorExecution_effect h
    | cancel =>
      obtain ⟨_, h, _⟩ := map_eq_ok h
      exact requestConnectorExecutionCancel_effect h
    | continueTask =>
      obtain ⟨_, h, _⟩ := map_eq_ok h
      exact continueConnectorTask_effect h
    | instruct =>
      obtain ⟨_, h, _⟩ := map_eq_ok h
      exact appendInterruptedConnectorInstruction_effect h
    | append =>
      obtain ⟨_, h, _⟩ := map_eq_ok h
      exact appendConnectorTaskEvent_effect h
    | guide =>
      obtain ⟨_, h, _⟩ := map_eq_ok h
      exact appendConnectorDecisionGuidance_effect h
    | finish =>
      obtain ⟨_, h, _⟩ := map_eq_ok h
      exact taskFinish_effect h
    | release =>
      obtain ⟨_, h, _⟩ := map_eq_ok h
      exact recordConnectorWorkspaceRelease_effect h
  | host request =>
    cases request with
    | decideApproval => cases hrequest.1
    | resume => exact resumeConnectorTask_effect (map_done_eq_ok h).1
    | abandon => exact abandonInterruptedConnectorTask_effect (map_done_eq_ok h).1
    | beginDecision =>
      exact beginConnectorResultDecision_effect (map_done_eq_ok h).1
    | needsAttention =>
      exact markConnectorResultDecisionNeedsAttention_effect (map_done_eq_ok h).1
    | finalizeDecision =>
      obtain ⟨_, h, _⟩ := map_eq_ok h
      exact finalizeConnectorResultDecision_effect h
  | execution => exact handleExecution_effect h
  | abort resultId =>
    obtain ⟨rfl, _⟩ := Prod.mk.inj (Except.ok.inj h)
    exact ⟨.aborted resultId rfl, .same⟩
  | restart => exact reconcileConnectorExecutions_effect (map_done_eq_ok h).1

end TaskRows

end WebCodex.TaskStore
