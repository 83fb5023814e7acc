import WebCodex.TaskStore.ExecutionIds

/-!
What the row of an execution says about its end fits together (`Consistent`), and nothing that was
recorded is taken back (`EvidenceKept`). Both hold in every run. One part needs a condition: a
requested queue timeout writes its failure into the row before the execution ends, and a later
report of success does not erase it (`ConnectorExecution.overdue`).
-/

namespace WebCodex.TaskStore

open Foundation
open Registry (RunnerJobLifecycle)

/-! ### Outcomes of observations -/

/-- The kinds of outcome that are read from an observation. -/
inductive OutcomeKind (outcome : StateOutcome) : Prop
  | active (hstate : outcome.state.isActive = true) (hsource : outcome.source = none)
      (hcode : outcome.code = none)
  | succeeded (hstate : outcome.state = .succeeded) (hsource : outcome.source = none)
      (hcode : outcome.code = none)
  | ended (hactive : outcome.state.isActive = false) (hstate : outcome.state ≠ .succeeded)

variable {state : ConnectorExecutionState}

section Outcomes

variable {execution : ConnectorExecution}

theorem OutcomeKind.of_failed (source code reason : String) :
    OutcomeKind (failedOutcome source code reason) :=
  .ended rfl (by simp [failedOutcome])

theorem OutcomeKind.of_unknown (code : String) : OutcomeKind (unknownOutcome code) :=
  .ended rfl (by simp [unknownOutcome])

theorem OutcomeKind.of_active (hstate : state.isActive = true) :
    OutcomeKind (activeState execution state) := by
  refine .active ?_ rfl rfl
  unfold activeState
  split_ifs
  · rfl
  · exact hstate

theorem outcomeKind_completed (execution : ConnectorExecution)
    (observation : ConnectorExecutionObservation) :
    OutcomeKind (completedOutcome execution observation) := by
  unfold completedOutcome
  split_ifs
  · exact .succeeded rfl rfl rfl
  · exact .of_failed _ _ _
  · exact .of_failed _ _ _
  · exact .succeeded rfl rfl rfl
  · exact .of_unknown _
  · exact .of_failed _ _ _

theorem outcomeKind_stopped (execution : ConnectorExecution) :
    OutcomeKind (stoppedOutcome execution) := by
  unfold stoppedOutcome
  split_ifs
  · exact .of_failed _ _ _
  · exact .ended rfl (by simp)
  · exact .of_active rfl

theorem outcomeKind_failure (execution : ConnectorExecution)
    (observation : ConnectorExecutionObservation) :
    OutcomeKind (failureOutcome execution observation) := by
  unfold failureOutcome
  split_ifs <;> exact .of_failed _ _ _

theorem outcomeKind_observedState (execution : ConnectorExecution)
    (observation : ConnectorExecutionObservation) :
    OutcomeKind (observedState execution observation) := by
  unfold observedState
  split
  · exact .of_failed _ _ _
  · by_cases hrecovering : (observation.executorStatus == "recovering") = true
    · rw [if_pos hrecovering]
      apply OutcomeKind.of_active
      split_ifs <;> rfl
    · rw [if_neg hrecovering]
      split
      case h_7 => exact outcomeKind_completed execution observation
      case h_8 | h_9 => exact outcomeKind_stopped execution
      case h_10 | h_11 => exact .of_failed _ _ _
      case h_12 => exact .of_unknown _
      case h_13 => exact outcomeKind_failure execution observation
      all_goals exact .of_active rfl

def reportsCompletion (observation : ConnectorExecutionObservation) : Bool :=
  observation.executorFailureCode.isNone && observation.exitCode == some 0 &&
    RunnerJobLifecycle.fromWire observation.executorStatus == some .completed

/-- An observation that a command, or a whole check on its workspace, succeeded. -/
def reportsSuccess (execution : ConnectorExecution) (observation : ConnectorExecutionObservation) :
    Bool :=
  reportsCompletion observation && observation.failedCheck.isNone &&
    observation.assertionEvidence.isNone &&
    (observation.mcpTaskOutputTail.all fun tail ↦ tail.utf8ByteSize ≤ maxMcpTaskOutputTailBytes) &&
    match execution.kind with
    | .command => observation.checkCompleted.isNone && observation.validatedWorkspaceSha256.isNone
    | .check =>
      observation.checkCompleted == some execution.checkPlan.length &&
        observation.validatedWorkspaceSha256.isSome &&
        execution.checkWorkspaceSha256 == observation.validatedWorkspaceSha256

theorem state_activeState_ne_succeeded (hstate : state ≠ .succeeded) :
    (activeState execution state).state ≠ .succeeded := by
  unfold activeState
  split_ifs
  · simp
  · exact hstate

theorem state_stoppedOutcome_ne_succeeded : (stoppedOutcome execution).state ≠ .succeeded := by
  unfold stoppedOutcome
  split_ifs
  · simp [failedOutcome]
  · simp
  · exact state_activeState_ne_succeeded (by simp)

variable {observation : ConnectorExecutionObservation}

theorem state_failureOutcome_ne_succeeded :
    (failureOutcome execution observation).state ≠ .succeeded := by
  unfold failureOutcome
  split_ifs <;> simp [failedOutcome]

theorem state_completedOutcome_eq_succeeded :
    (completedOutcome execution observation).state = .succeeded ↔
      observation.exitCode = some 0 ∧ (execution.kind = .check →
        observation.checkCompleted = some execution.checkPlan.length ∧
          observation.failedCheck = none) := by
  unfold completedOutcome
  split_ifs with hkind hdone hexit <;> simp_all [failedOutcome, unknownOutcome]

/-- Only the end of a completed job is a success. -/
theorem state_observedState_eq_succeeded :
    (observedState execution observation).state = .succeeded ↔
      reportsCompletion observation = true ∧ (execution.kind = .check →
        observation.checkCompleted = some execution.checkPlan.length ∧
          observation.failedCheck = none) := by
  unfold observedState reportsCompletion
  split
  · next hfault => simp [hfault, failedOutcome]
  · next hfault =>
    by_cases hrecovering : observation.executorStatus = "recovering"
    · have hnone : RunnerJobLifecycle.fromWire "recovering" = none := by decide
      have hactive : ∀ state ∈ [ConnectorExecutionState.queued, .running],
          (activeState execution state).state ≠ .succeeded := by
        intro state hstate
        refine state_activeState_ne_succeeded ?_
        rintro rfl
        simp at hstate
      split_ifs <;> simp_all
    · rw [if_neg (by simpa using hrecovering)]
      split <;> rename_i hstatus
      case h_7 => simp [hstatus, hfault, state_completedOutcome_eq_succeeded]
      case h_8 | h_9 => simp [hstatus, state_stoppedOutcome_ne_succeeded]
      case h_10 | h_11 => simp [hstatus, failedOutcome]
      case h_12 => simp [hstatus, unknownOutcome]
      case h_13 => simp [hstatus, state_failureOutcome_ne_succeeded]
      all_goals simp [hstatus, state_activeState_ne_succeeded]

/-- An observation of a success that passes its checks. -/
theorem reportsSuccess_iff (hprogress : execution.checkCompleted ≤ execution.checkPlan.length) :
    reportsSuccess execution observation = true ↔
      (observedState execution observation).state = .succeeded ∧
        checkObservation execution observation (observedState execution observation) = .ok () := by
  constructor
  · intro _
    have hstate : (observedState execution observation).state = .succeeded := by
      rw [state_observedState_eq_succeeded]
      cases hkind : execution.kind <;> simp_all [reportsSuccess]
    refine ⟨hstate, ?_⟩
    cases hkind : execution.kind <;>
      simp_all [reportsSuccess, checkObservation, ensure, Except.bind, bind]
  · rintro ⟨hstate, hchecks⟩
    simp only [checkObservation, bind_eq_ok, ensure_eq_ok] at hchecks
    obtain ⟨_, _, _, _, _, _, _, _, _, _, _, _, _, _, _, _, _⟩ := hchecks
    obtain ⟨_, _⟩ := state_observedState_eq_succeeded.mp hstate
    cases hkind : execution.kind <;> simp_all [reportsSuccess]

end Outcomes

/-! ### Consistent rows -/

/-- The row says one thing about the end of its execution. -/
structure ConnectorExecution.Consistent (execution : ConnectorExecution) : Prop where
  succeededCheck : execution.state = .succeeded → execution.kind = .check →
    execution.checkCompleted = execution.checkPlan.length ∧ execution.failedCheck = none ∧
      ∃ hash, execution.checkWorkspaceSha256 = some hash ∧
        execution.validatedWorkspaceSha256 = some hash
  failedCheck : ∀ name, execution.failedCheck = some name →
    execution.checkPlan[execution.checkCompleted]? = some name
  finalized : execution.isTerminal = true → execution.mcpTaskMaterializedAt.isSome = true →
    execution.mcpTaskResultFinalizedAt.isSome = true

def ConnectorExecution.Unfailed (execution : ConnectorExecution) : Prop :=
  execution.state = .succeeded → execution.failureSource = none ∧ execution.failureCode = none

/-- Consistent rows, with what holds while an execution goes on: no check has failed yet, and only a
queue timeout has left a failure behind. -/
structure ConnectorExecution.Sound (execution : ConnectorExecution) : Prop
    extends execution.Consistent where
  progress : execution.checkCompleted ≤ execution.checkPlan.length
  openCheck : execution.isActive = true → execution.failedCheck = none
  openFailure : execution.isActive = true →
    (execution.failureSource = none ∧ execution.failureCode = none) ∨
      execution.failureCode = some "queue_deadline"

variable {observation : ConnectorExecutionObservation}

section Rows

variable {asked : TaskRequest} {before after : ConnectorExecution}

theorem sound_row (request : NewExecution) (kind : ConnectorExecutionKind) :
    (request.row kind).Sound where
  succeededCheck := by simp [NewExecution.row]
  failedCheck := by simp [NewExecution.row]
  finalized := by simp [NewExecution.row]
  progress := Nat.zero_le _
  openCheck _ := rfl
  openFailure _ := Or.inl ⟨rfl, rfl⟩

/-- The row of an execution that goes on. -/
theorem ConnectorExecution.Sound.of_active (hactive : after.isActive = true)
    (hprogress : after.checkCompleted ≤ after.checkPlan.length) (hcheck : after.failedCheck = none)
    (hfailure : (after.failureSource = none ∧ after.failureCode = none) ∨
      after.failureCode = some "queue_deadline") : after.Sound where
  succeededCheck hstate := by
    rw [ConnectorExecution.isActive, hstate] at hactive
    cases hactive
  failedCheck name hname := by
    rw [hcheck] at hname
    cases hname
  finalized hterminal := by
    rw [ConnectorExecution.isTerminal, ConnectorExecutionState.isTerminal] at hterminal
    rw [ConnectorExecution.isActive] at hactive
    simp [hactive] at hterminal
  progress := hprogress
  openCheck _ := hcheck
  openFailure _ := hfailure

/-- The row of an execution that ended without a report of its progress. -/
theorem ConnectorExecution.Sound.of_ended (hactive : after.isActive = false)
    (hstate : after.state ≠ .succeeded) (hprogress : after.checkCompleted ≤ after.checkPlan.length)
    (hcheck : ∀ name, after.failedCheck = some name →
      after.checkPlan[after.checkCompleted]? = some name)
    (hfinalized : after.mcpTaskMaterializedAt.isSome = true →
      after.mcpTaskResultFinalizedAt.isSome = true) : after.Sound where
  succeededCheck hsucceeded := absurd hsucceeded hstate
  failedCheck := hcheck
  finalized _ := hfinalized
  progress := hprogress
  openCheck hopen := by rw [hactive] at hopen; cases hopen
  openFailure hopen := by rw [hactive] at hopen; cases hopen

/-- What happens to a materialized MCP task at the end of its execution. -/
theorem isSome_finalizeMcpTask (now : ℤ) (execution : ConnectorExecution)
    (hmaterialized : (execution.finalizeMcpTask now).mcpTaskMaterializedAt.isSome = true) :
    (execution.finalizeMcpTask now).mcpTaskResultFinalizedAt.isSome = true := by
  have hbefore : execution.mcpTaskMaterializedAt.isSome = true := hmaterialized
  simp [ConnectorExecution.finalizeMcpTask, hbefore]

theorem isActive_of_state (hstate : before.state = state) (hactive : state.isActive = true) :
    before.isActive = true := by
  rw [ConnectorExecution.isActive, hstate]
  exact hactive

theorem isActive_attachedState {execution : ConnectorExecution} (hopen : execution.isActive = true)
    (executorStatus : String) :
    (TaskRows.attachedState execution executorStatus).isActive = true := by
  unfold TaskRows.attachedState
  split_ifs
  · rfl
  · split
    · rfl
    · rfl
    · rfl
    · rfl
    · exact hopen

theorem ended_failureState (execution : ConnectorExecution) (failure : ConnectorExecutionFailure) :
    (TaskRows.failureState execution failure).state.isActive = false ∧
      (TaskRows.failureState execution failure).state ≠ .succeeded := by
  cases failure with
  | submission =>
    unfold TaskRows.failureState
    split_ifs <;> simp [failedOutcome, ConnectorExecutionState.isActive]
  | unknown => simp [TaskRows.failureState, ConnectorExecutionState.isActive]
  | workspace =>
    simp [TaskRows.failureState, failedOutcome, ConnectorExecutionState.isActive]

/-- What the checks say about the progress that an observation leads to. -/
theorem progress_of_checkObservation {outcome : StateOutcome}
    (hprogress : before.checkCompleted ≤ before.checkPlan.length)
    (h : checkObservation before observation outcome = .ok ()) :
    before.checkCompleted ≤ observation.checkCompleted.getD before.checkCompleted ∧
      observation.checkCompleted.getD before.checkCompleted ≤ before.checkPlan.length ∧
      ∀ name, observation.failedCheck = some name →
        before.checkPlan[observation.checkCompleted.getD before.checkCompleted]? = some name := by
  simp only [checkObservation, bind_eq_ok, ensure_eq_ok] at h
  obtain ⟨_, hbound, _, hforward, _, _, _, hfailed, _⟩ := h
  refine ⟨?_, ?_, fun name hname ↦ by simpa [hname] using hfailed⟩
  · cases hcompleted : observation.checkCompleted with
    | none => exact le_rfl
    | some => simpa [hcompleted] using hforward
  · cases hcompleted : observation.checkCompleted with
    | none => exact hprogress
    | some => simpa [hcompleted] using hbound

/-- What the checks say about the workspace of a check that succeeded. -/
theorem validated_of_checkObservation {outcome : StateOutcome}
    (h : checkObservation before observation outcome = .ok ()) (hstate : outcome.state = .succeeded)
    (hkind : before.kind = .check) :
    observation.checkCompleted = some before.checkPlan.length ∧
      ∃ hash, before.checkWorkspaceSha256 = some hash ∧
        observation.validatedWorkspaceSha256 = some hash := by
  simp only [checkObservation, bind_eq_ok, ensure_eq_ok] at h
  obtain ⟨_, _, _, _, _, _, _, _, _, _, _, _, _, _, _, hsuccess, _⟩ := h
  simp only [hstate, hkind, beq_self_eq_true, Bool.true_and, Bool.not_eq_true',
    Bool.or_eq_false_iff, bne_eq_false_iff_eq, Option.isNone_eq_false_iff,
    Option.isSome_iff_exists] at hsuccess
  obtain ⟨⟨⟨hcompleted, _⟩, hash, hhash⟩, hsame⟩ := hsuccess
  exact ⟨hcompleted, hash, hsame.trans hhash, hhash⟩

section Recorded

variable (observation : ConnectorExecutionObservation) (outcome : StateOutcome)

@[simp] theorem kind_recordObservation :
    (before.recordObservation observation outcome).kind = before.kind := by
  unfold ConnectorExecution.recordObservation
  split_ifs <;> rfl

@[simp] theorem checkPlan_recordObservation :
    (before.recordObservation observation outcome).checkPlan = before.checkPlan := by
  unfold ConnectorExecution.recordObservation
  split_ifs <;> rfl

@[simp] theorem checkWorkspaceSha256_recordObservation :
    (before.recordObservation observation outcome).checkWorkspaceSha256 =
      before.checkWorkspaceSha256 := by
  unfold ConnectorExecution.recordObservation
  split_ifs <;> rfl

@[simp] theorem checkCompleted_recordObservation :
    (before.recordObservation observation outcome).checkCompleted =
      observation.checkCompleted.getD before.checkCompleted := by
  unfold ConnectorExecution.recordObservation
  split_ifs <;> rfl

@[simp] theorem failureSource_recordObservation :
    (before.recordObservation observation outcome).failureSource =
      outcome.source.or before.failureSource := by
  unfold ConnectorExecution.recordObservation
  split_ifs <;> rfl

variable (before) in
/-- A failed check is recorded with the failure of its execution. -/
theorem failedCheck_recordObservation :
    (before.recordObservation observation outcome).failedCheck = observation.failedCheck ∧
        outcome.state = .failed ∨
      (before.recordObservation observation outcome).failedCheck = before.failedCheck := by
  unfold ConnectorExecution.recordObservation
  by_cases hfailed : outcome.state = .failed ∧ before.kind = .check ∧ outcome.source = some "check"
  · obtain ⟨hstate, hkind, hsource⟩ := hfailed
    left
    split_ifs <;> simp [hstate, hkind, hsource, ConnectorExecution.finalizeMcpTask]
  · right
    split_ifs <;> simp_all [ConnectorExecution.finalizeMcpTask]

theorem validatedWorkspaceSha256_recordObservation (hstate : outcome.state = .succeeded)
    (hkind : before.kind = .check) :
    (before.recordObservation observation outcome).validatedWorkspaceSha256 =
      observation.validatedWorkspaceSha256 := by
  have hcheck : (outcome.state == .succeeded && before.kind == .check) = true := by
    simp [hstate, hkind]
  unfold ConnectorExecution.recordObservation
  split_ifs <;> rfl

theorem finalized_recordObservation (hactive : outcome.state.isActive = false)
    (hmaterialized :
      (before.recordObservation observation outcome).mcpTaskMaterializedAt.isSome = true) :
    (before.recordObservation observation outcome).mcpTaskResultFinalizedAt.isSome = true := by
  have hterminal : outcome.state.isTerminal = true := by
    simp [ConnectorExecutionState.isTerminal, hactive]
  simp only [ConnectorExecution.recordObservation, hterminal, if_true] at hmaterialized ⊢
  exact isSome_finalizeMcpTask observation.now _ hmaterialized

end Recorded

theorem sound_recordObservation (hsound : before.Sound) (hopen : before.isActive = true)
    (hchecks : checkObservation before observation (observedState before observation) = .ok ()) :
    (before.recordObservation observation (observedState before observation)).Sound := by
  obtain ⟨_, hbound, hfailed⟩ := progress_of_checkObservation hsound.progress hchecks
  have hnone := hsound.openCheck hopen
  have hkind := outcomeKind_observedState before observation
  generalize observedState before observation = outcome at hchecks hkind ⊢
  have hrecorded := failedCheck_recordObservation before observation outcome
  cases hkind with
  | active hstate hsource hcode =>
    refine .of_active (by simpa [ConnectorExecution.isActive] using hstate)
      (by simpa using hbound) ?_ ?_
    · rcases hrecorded with ⟨_, hended⟩ | hsame
      · rw [hended] at hstate
        cases hstate
      · exact hsame.trans hnone
    · simpa [hsource, hcode] using hsound.openFailure hopen
  | succeeded hstate =>
    have hunchecked : (before.recordObservation observation outcome).failedCheck = none := by
      rcases hrecorded with ⟨_, hended⟩ | hsame
      · rw [hended] at hstate
        cases hstate
      · exact hsame.trans hnone
    have hactive : outcome.state.isActive = false := by rw [hstate]; rfl
    refine ⟨⟨fun _ hcheck ↦ ?_, by simp [hunchecked],
      fun _ ↦ finalized_recordObservation observation outcome hactive⟩, by simpa using hbound, ?_,
      ?_⟩
    · rw [kind_recordObservation] at hcheck
      obtain ⟨hcompleted, hash, hreserved, hvalidated⟩ :=
        validated_of_checkObservation hchecks hstate hcheck
      refine ⟨by simp [hcompleted], hunchecked, hash, by simpa using hreserved, ?_⟩
      rw [validatedWorkspaceSha256_recordObservation observation outcome hstate hcheck, hvalidated]
    all_goals
      intro hlive
      rw [ConnectorExecution.isActive, TaskRows.state_recordObservation, hactive] at hlive
      cases hlive
  | ended hactive hstate =>
    refine .of_ended (by simpa [ConnectorExecution.isActive] using hactive) (by simpa using hstate)
      (by simpa using hbound) (fun name hname ↦ ?_)
      (finalized_recordObservation observation outcome hactive)
    rw [checkPlan_recordObservation, checkCompleted_recordObservation]
    rcases hrecorded with ⟨hsame, _⟩ | hsame
    · exact hfailed name (hsame ▸ hname)
    · rw [hsame, hnone] at hname
      cases hname

theorem sound_rowUpdate (hsound : before.Sound) (h : RowUpdate asked before after) :
    after.Sound := by
  cases h with
  | started hstate =>
    have hopen := isActive_of_state hstate rfl
    exact .of_active rfl hsound.progress (hsound.openCheck hopen) (hsound.openFailure hopen)
  | attachedEnded =>
    exact ⟨⟨hsound.succeededCheck, hsound.failedCheck, hsound.finalized⟩, hsound.progress,
      hsound.openCheck, hsound.openFailure⟩
  | attached _ status _ _ _ hopen =>
    exact .of_active (isActive_attachedState hopen status) hsound.progress (hsound.openCheck hopen)
      (hsound.openFailure hopen)
  | observed _ _ hopen hchecks => exact sound_recordObservation hsound hopen hchecks
  | timedOut _ hstate =>
    have hopen := isActive_of_state hstate rfl
    exact .of_active rfl hsound.progress (hsound.openCheck hopen) (Or.inr rfl)
  | cancelled immediate now hopen =>
    cases immediate with
    | false =>
      exact .of_active rfl hsound.progress (hsound.openCheck hopen) (hsound.openFailure hopen)
    | true =>
      exact .of_ended rfl (by simp [TaskRows.cancelExecution, ConnectorExecution.finalizeMcpTask])
        hsound.progress hsound.failedCheck (isSome_finalizeMcpTask now _)
  | failed failure now =>
    obtain ⟨hactive, hstate⟩ := ended_failureState before failure
    exact .of_ended hactive hstate hsound.progress hsound.failedCheck (isSome_finalizeMcpTask now _)
  | interrupted now =>
    exact .of_ended rfl (by simp [TaskRows.interruptExecution, ConnectorExecution.finalizeMcpTask])
      hsound.progress hsound.failedCheck (isSome_finalizeMcpTask now _)
  | statusFailed _ _ hopen | materialized _ hopen | outputTail _ hopen | armed _ hopen =>
    exact .of_active hopen hsound.progress (hsound.openCheck hopen) (hsound.openFailure hopen)

/-! ### Successes after a queue timeout -/

/-- An execution goes on after it was given up because it had waited too long. -/
def ConnectorExecution.overdue (execution : ConnectorExecution) : Bool :=
  execution.isActive && execution.failureCode == some "queue_deadline"

theorem unfailed_of_active (hactive : after.isActive = true) : after.Unfailed := by
  intro hstate
  rw [ConnectorExecution.isActive, hstate] at hactive
  cases hactive

/-- A recorded observation leaves failure fields in a success exactly when the execution was
overdue. -/
theorem unfailed_recordObservation (hsound : before.Sound) (hopen : before.isActive = true)
    (hchecks : checkObservation before observation (observedState before observation) = .ok ()) :
    (before.recordObservation observation (observedState before observation)).Unfailed ↔
      (before.overdue && reportsSuccess before observation) = false := by
  have hreports : reportsSuccess before observation = true ↔ _ := reportsSuccess_iff hsound.progress
  rw [and_iff_left hchecks] at hreports
  have hkind := outcomeKind_observedState before observation
  generalize observedState before observation = outcome at hkind hreports ⊢
  rw [ConnectorExecution.Unfailed, TaskRows.state_recordObservation,
    failureSource_recordObservation, TaskRows.failureCode_recordObservation]
  cases hkind with
  | active hstate =>
    have hother : outcome.state ≠ .succeeded := by
      intro hsucceeded
      rw [hsucceeded] at hstate
      cases hstate
    simp [hother, Bool.eq_false_iff.mpr (mt hreports.mp hother)]
  | succeeded hstate hsource hcode =>
    rw [hsource, hcode, hreports.mpr hstate, Bool.and_true]
    rcases hsound.openFailure hopen with ⟨hsource, hcode⟩ | hcode
    · simp [hstate, ConnectorExecution.overdue, hsource, hcode]
    · simp [hstate, ConnectorExecution.overdue, hopen, hcode]
  | ended _ hstate => simp [hstate, Bool.eq_false_iff.mpr (mt hreports.mp hstate)]

theorem unfailed_rowUpdate (hsound : before.Sound) (hunfailed : before.Unfailed)
    (hpunctual : ∀ observation, asked = .execution before.executionId (.observe observation) →
      (before.overdue && reportsSuccess before observation) = false)
    (h : RowUpdate asked before after) : after.Unfailed := by
  cases h with
  | started | timedOut => exact unfailed_of_active rfl
  | attachedEnded => exact hunfailed
  | attached _ status _ _ _ hopen =>
    exact unfailed_of_active (isActive_attachedState hopen status)
  | observed observation hasked hopen hchecks =>
    exact (unfailed_recordObservation hsound hopen hchecks).mpr (hpunctual observation hasked)
  | cancelled immediate =>
    intro hstate
    cases immediate <;>
      simp [TaskRows.cancelExecution, ConnectorExecution.finalizeMcpTask] at hstate
  | failed failure =>
    intro hstate
    exact absurd hstate (ended_failureState before failure).2
  | interrupted =>
    intro hstate
    simp [TaskRows.interruptExecution, ConnectorExecution.finalizeMcpTask] at hstate
  | statusFailed _ _ hopen | materialized _ hopen | outputTail _ hopen | armed _ hopen =>
    exact unfailed_of_active hopen

/-! ### What a row keeps -/

/-- Nothing that a row has recorded is taken back. -/
structure EvidenceKept (before after : ConnectorExecution) : Prop where
  identity : after.executionId = before.executionId
  reserved : after.kind = before.kind ∧ after.checkPlan = before.checkPlan ∧
    after.checkWorkspaceSha256 = before.checkWorkspaceSha256
  ended : before.isTerminal = true →
    after = { before with executorReference := after.executorReference }
  stdoutCursor : before.stdoutCursor ≤ after.stdoutCursor
  stderrCursor : before.stderrCursor ≤ after.stderrCursor
  checkCompleted : before.checkCompleted ≤ after.checkCompleted
  executorReference : ∀ reference, before.executorReference = some reference →
    after.executorReference = some reference

theorem EvidenceKept.refl (execution : ConnectorExecution) : EvidenceKept execution execution :=
  ⟨rfl, ⟨rfl, rfl, rfl⟩, fun _ ↦ rfl, le_rfl, le_rfl, le_rfl, fun _ hreference ↦ hreference⟩

theorem EvidenceKept.trans {first middle last : ConnectorExecution}
    (hfirst : EvidenceKept first middle) (hlast : EvidenceKept middle last) :
    EvidenceKept first last where
  identity := hlast.identity.trans hfirst.identity
  reserved := ⟨hlast.reserved.1.trans hfirst.reserved.1,
    hlast.reserved.2.1.trans hfirst.reserved.2.1, hlast.reserved.2.2.trans hfirst.reserved.2.2⟩
  ended hterminal := by
    have hmiddle := hfirst.ended hterminal
    have hsame := hlast.ended (by rw [hmiddle]; exact hterminal)
    rw [hmiddle] at hsame
    exact hsame
  stdoutCursor := hfirst.stdoutCursor.trans hlast.stdoutCursor
  stderrCursor := hfirst.stderrCursor.trans hlast.stderrCursor
  checkCompleted := hfirst.checkCompleted.trans hlast.checkCompleted
  executorReference reference hreference :=
    hlast.executorReference reference (hfirst.executorReference reference hreference)

/-- An update of an execution that goes on. -/
theorem EvidenceKept.of_active (hopen : before.isActive = true)
    (hidentity : after.executionId = before.executionId)
    (hreserved : after.kind = before.kind ∧ after.checkPlan = before.checkPlan ∧
      after.checkWorkspaceSha256 = before.checkWorkspaceSha256)
    (hstdout : before.stdoutCursor ≤ after.stdoutCursor)
    (hstderr : before.stderrCursor ≤ after.stderrCursor)
    (hcompleted : before.checkCompleted ≤ after.checkCompleted)
    (hreference : ∀ reference, before.executorReference = some reference →
      after.executorReference = some reference) : EvidenceKept before after where
  identity := hidentity
  reserved := hreserved
  ended hterminal := by
    rw [ConnectorExecution.isActive] at hopen
    rw [ConnectorExecution.isTerminal, ConnectorExecutionState.isTerminal, hopen] at hterminal
    cases hterminal
  stdoutCursor := hstdout
  stderrCursor := hstderr
  checkCompleted := hcompleted
  executorReference := hreference

theorem evidenceKept_rowUpdate (hsound : before.Sound) (h : RowUpdate asked before after) :
    EvidenceKept before after := by
  cases h with
  | attachedEnded =>
    exact ⟨rfl, ⟨rfl, rfl, rfl⟩, fun _ ↦ rfl, le_rfl, le_rfl, le_rfl,
      fun existing hexisting ↦ by simp [hexisting]⟩
  | attached _ _ _ _ htakes hopen =>
    refine .of_active hopen rfl ⟨rfl, rfl, rfl⟩ le_rfl le_rfl le_rfl fun existing hexisting ↦ ?_
    rw [htakes existing hexisting]
    rfl
  | observed _ _ hopen hchecks =>
    have hforward := (progress_of_checkObservation hsound.progress hchecks).1
    refine .of_active hopen ((TaskRows.keepsIdentity_recordObservation _ _).executionId _)
      ⟨by simp, by simp, by simp⟩ ?_ ?_ (by simpa using hforward) fun existing hexisting ↦ ?_
    all_goals
      unfold ConnectorExecution.recordObservation
      split_ifs
    all_goals first | exact le_max_left _ _ | exact hexisting
  | started hstate =>
    have hopen := isActive_of_state hstate rfl
    exact .of_active hopen rfl ⟨rfl, rfl, rfl⟩ le_rfl le_rfl le_rfl fun _ hreference ↦ hreference
  | timedOut _ hstate =>
    have hopen := isActive_of_state hstate rfl
    exact .of_active hopen rfl ⟨rfl, rfl, rfl⟩ le_rfl le_rfl le_rfl fun _ hreference ↦ hreference
  | cancelled immediate _ hopen =>
    cases immediate <;>
      exact .of_active hopen rfl ⟨rfl, rfl, rfl⟩ le_rfl le_rfl le_rfl fun _ hreference ↦ hreference
  | failed _ _ hopen | interrupted _ hopen | statusFailed _ _ hopen
  | materialized _ hopen | outputTail _ hopen | armed _ hopen =>
    exact .of_active hopen rfl ⟨rfl, rfl, rfl⟩ le_rfl le_rfl le_rfl fun _ hreference ↦ hreference

end Rows

end WebCodex.TaskStore
