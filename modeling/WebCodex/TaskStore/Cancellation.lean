import WebCodex.TaskStore.SingleExecution

/-!
A user who cancels a task with an active execution asks the executor to stop it; execution and
task end as cancelled when the executor reports that it did. Until then only a flag says so
(`Requested`), and every request in between keeps it. An execution that has waited too long
carries the same flag, told apart by the failure code alone, which stays when the user cancels
after it.
-/

namespace WebCodex.TaskStore

open Foundation
open Registry (RunnerJobLifecycle)

variable {observation : ConnectorExecutionObservation}

/-! ### Cancelled executions -/

/-- The task of a cancelled execution is cancelled. -/
def CancelledWithTask (rows : TaskRows) : Prop :=
  ∀ execution ∈ rows.executions, execution.state = .cancelled → rows.cancelled = true

/-- The course of an execution does not cancel it. -/
theorem Advances.cancelled {before after : ConnectorExecution} (h : Advances before after)
    (hafter : after.state = .cancelled) : before.state = .cancelled := by
  by_cases hended : before.isTerminal = true
  · rw [← h.ended hended]
    exact hafter
  · exact absurd hafter (h.open_ (by simpa using hended)).2

variable {execution : ConnectorExecution} {f : ConnectorExecution → ConnectorExecution}

namespace CancelledWithTask

variable {keys : Keys} {rows after : TaskRows} {asked : TaskRequest}

/-- An update that does not cancel an execution. -/
theorem of_update (h : CancelledWithTask rows) (hids : DistinctIds rows.executions)
    (hmem : execution ∈ rows.executions)
    (hexecutions : after.executions = rows.executions.map (updated execution.executionId f))
    (hcancelled : rows.cancelled = true → after.cancelled = true)
    (hf : (f execution).state = .cancelled → execution.state = .cancelled) :
    CancelledWithTask after := by
  intro other hother hstate
  rw [hexecutions] at hother
  rcases hids.mem_update hmem hother with rfl | ⟨hold, _⟩
  · exact hcancelled (h execution hmem (hf hstate))
  · exact hcancelled (h other hold hstate)

theorem move (h : CancelledWithTask rows) (hids : DistinctIds rows.executions)
    (hmove : Move keys rows asked after) : CancelledWithTask after := by
  have hcancelled : rows.cancelled = true → after.cancelled = true := cancelled_move hmove
  have hframe : after.executions = rows.executions → CancelledWithTask after := by
    intro hsame execution hmem hstate
    rw [hsame] at hmem
    exact hcancelled (h execution hmem hstate)
  cases hmove with
  | approvals | claimed => exact hframe rfl
  | change hchange =>
    cases hchange with
    | reserved _ _ _ _ _ _ _ hnew =>
      intro execution hmem hstate
      rcases List.mem_append.mp hmem with hold | hnew
      · exact hcancelled (h execution hold hstate)
      · rw [List.mem_singleton.mp hnew] at hstate
        cases hstate
    | updated _ _ _ _ _ hmem _ hadvances =>
      exact h.of_update hids hmem rfl hcancelled hadvances.cancelled
    | lost _ _ _ _ _ hmem _ _ hstate =>
      refine h.of_update hids hmem rfl hcancelled fun hother ↦ ?_
      rw [hstate] at hother
      cases hother
    | stopped _ _ _ now =>
      intro _ _ _
      show (TaskRows.logs _ now _).cancelled = true
      rw [TaskRows.cancelled_logs]
      exact Bool.or_true _
    | restarted _ _ now _ hactive =>
      obtain ⟨hmem, _⟩ := TaskRows.mem_of_newest_filter hactive
      refine h.of_update (f := TaskRows.interruptExecution now) hids hmem rfl hcancelled
        fun hother ↦ ?_
      cases hother
    | _ => exact hframe rfl

end CancelledWithTask

/-! ### Requested cancellations -/

/-- The user has asked to cancel the execution with the id, should it be active. -/
structure Requested (executionId : String) (rows : TaskRows) : Prop where
  known : ∃ execution ∈ rows.executions, execution.executionId = executionId
  waits : ∀ execution ∈ rows.executions, execution.executionId = executionId →
    execution.isActive = true →
      execution.state = .cancelRequested ∧ execution.failureCode ≠ some "queue_deadline"

namespace Requested

variable {keys : Keys} {rows after : TaskRows} {asked : TaskRequest} {executionId : String}

/-- An update of an execution that, once it is to be cancelled, goes on to wait or ends. -/
theorem of_update (h : Requested executionId rows) (hids : DistinctIds rows.executions)
    (hmem : execution ∈ rows.executions) (hf : KeepsIdentity f)
    (hexecutions : after.executions = rows.executions.map (updated execution.executionId f))
    (hwaits : (f execution).isActive = true → execution.isActive = true ∧
      (execution.state = .cancelRequested → (f execution).state = .cancelRequested ∧
        (f execution).failureCode = execution.failureCode)) :
    Requested executionId after where
  known := by
    obtain ⟨row, hrow, hid⟩ := h.known
    refine ⟨updated execution.executionId f row, ?_, ?_⟩
    · rw [hexecutions]
      exact List.mem_map_of_mem hrow
    · exact (view_updateRow hf.executionId row).trans hid
  waits := by
    intro row hrow hid hactive
    rw [hexecutions] at hrow
    rcases hids.mem_update hmem hrow with rfl | ⟨hold, _⟩
    · obtain ⟨hlive, hkeeps⟩ := hwaits hactive
      obtain ⟨hstate, hcode⟩ := h.waits execution hmem
        ((hf.executionId execution).symm.trans hid) hlive
      obtain ⟨hafter, hsame⟩ := hkeeps hstate
      exact ⟨hafter, hsame ▸ hcode⟩
    · exact h.waits row hold hid hactive

/-- An update that ends an execution. -/
theorem of_ended (h : Requested executionId rows) (hids : DistinctIds rows.executions)
    (hmem : execution ∈ rows.executions) (hf : KeepsIdentity f)
    (hexecutions : after.executions = rows.executions.map (updated execution.executionId f))
    (hended : (f execution).state.isActive = false) : Requested executionId after := by
  refine h.of_update hids hmem hf hexecutions fun hactive ↦ ?_
  rw [ConnectorExecution.isActive, hended] at hactive
  cases hactive

/-- No request takes the wish of the user back. -/
theorem move (h : Requested executionId rows) (hids : DistinctIds rows.executions)
    (hcovers : Covers keys rows) (hmove : Move keys rows asked after) :
    Requested executionId after := by
  have hframe : after.executions = rows.executions → Requested executionId after := by
    intro hsame
    constructor
    · rw [hsame]
      exact h.known
    · rw [hsame]
      exact h.waits
  cases hmove with
  | approvals | claimed => exact hframe rfl
  | change hchange =>
    cases hchange with
    | reserved _ _ _ _ _ _ _ hnew =>
      obtain ⟨row, hrow, hid⟩ := h.known
      refine ⟨⟨row, List.mem_append_left _ hrow, hid⟩, ?_⟩
      intro other hother hsame hactive
      rcases List.mem_append.mp hother with hold | hadded
      · exact h.waits other hold hsame hactive
      · -- The id of a new execution is not in use.
        rw [List.mem_singleton.mp hadded] at hsame
        have hused := hcovers.executions row hrow
        rw [hid, ← hsame] at hused
        exact absurd hused hnew
    | updated _ _ _ _ _ hmem hf hadvances =>
      refine h.of_update hids hmem hf rfl fun hactive ↦ ⟨hadvances.blocks.2 hactive, ?_⟩
      intro hstate
      exact hadvances.requested hstate hactive
    | lost _ _ _ _ _ hmem hf _ hstate =>
      exact h.of_ended hids hmem hf rfl (by rw [hstate]; rfl)
    | stopped _ _ _ _ hmem hf _ hstate =>
      exact h.of_ended hids hmem hf rfl (by rw [hstate]; rfl)
    | restarted _ _ now _ hactive =>
      obtain ⟨hmem, _⟩ := TaskRows.mem_of_newest_filter hactive
      exact h.of_ended (f := TaskRows.interruptExecution now) hids hmem
        ⟨fun _ ↦ rfl, fun _ ↦ rfl⟩ rfl rfl
    | _ => exact hframe rfl

end Requested

variable {reason : Option String} {now : ℤ}

namespace TaskRows

variable {rows after : TaskRows} {execution : ConnectorExecution}

/-- The executions after a cancellation. -/
theorem executions_cancelActiveExecution
    (h : rows.cancelActiveExecution execution reason now = .ok after) :
    ∃ immediate, after.executions =
      rows.executions.map (updated execution.executionId (cancelExecution immediate now)) := by
  unfold cancelActiveExecution at h
  cases himmediate : execution.state == .accepted && execution.executorReference.isNone with
  | true =>
    simp only [himmediate, if_true, appendExecutionEvent_eq, bind_eq_ok, Except.ok.injEq,
      exists_eq_left', finalizeTaskCancel_eq] at h
    subst h
    exact ⟨true, rfl⟩
  | false =>
    simp only [himmediate, Bool.false_eq_true, if_false] at h
    refine ⟨false, ?_⟩
    by_cases hrequested : (execution.state == .cancelRequested) = true
    · rw [if_pos hrequested] at h
      obtain rfl := Except.ok.inj h
      rfl
    · rw [if_neg hrequested] at h
      simp only [appendExecutionEvent_eq, bind_eq_ok, Except.ok.injEq, exists_eq_left'] at h
      cases reason with
      | none =>
        obtain rfl := Except.ok.inj h
        rfl
      | some =>
        simp only [insertEvent_next, Except.ok.injEq] at h
        subst h
        rfl

/-- A cancellation asks for the end of the newest execution, unless it had waited too long. -/
theorem requested_of_cancel {answer : Option ConnectorExecution}
    (hids : DistinctIds rows.executions) (hopen : rows.cancelled = false)
    (hlatest : rows.latestExecution = some execution)
    (hactive : execution.isActive = true) (hwait : execution.failureCode ≠ some "queue_deadline")
    (h : rows.requestConnectorExecutionCancel reason now = .ok (after, answer)) :
    Requested execution.executionId after := by
  have hmem := mem_of_latestExecution hlatest
  have hstatus : ¬ (rows.taskStatus == .cancelled) = true := by
    rw [beq_iff_eq, taskStatus_eq_cancelled, hopen]
    exact Bool.false_ne_true
  have hlive : ¬ execution.isTerminal = true := by
    simp [ConnectorExecution.isTerminal, ConnectorExecutionState.isTerminal,
      show execution.state.isActive = true from hactive]
  rw [requestConnectorExecutionCancel, if_neg hstatus, bind_eq_ok] at h
  obtain ⟨_, _, h⟩ := h
  simp only [hlatest, if_neg hlive, bind_eq_ok] at h
  obtain ⟨requested, hrequested, ⟨_, _⟩, hcommit, h⟩ := h
  obtain rfl := return_eq_ok h
  obtain rfl := commitExecution_eq_ok hcommit
  obtain ⟨immediate, hexecutions⟩ := executions_cancelActiveExecution hrequested
  have hkeeps := keepsIdentity_cancelExecution immediate now
  have hafter : (requested.touch now).executions =
      rows.executions.map (updated execution.executionId (cancelExecution immediate now)) :=
    hexecutions
  constructor
  · refine ⟨cancelExecution immediate now execution, ?_, hkeeps.executionId execution⟩
    rw [hafter]
    exact mem_map_updated hmem
  · intro _ hrow hid hrowLive
    rw [hafter] at hrow
    rcases hids.mem_update hmem hrow with rfl | ⟨hold, hother⟩
    · cases immediate with
      | true => cases hrowLive
      | false => exact ⟨rfl, hwait⟩
    · exact absurd (hids.eq_of_executionId hmem hold hid) hother

end TaskRows

/-! ### The report of the executor -/

/-- A report that the execution was stopped, which passes the checks of a report. The execution has
not ended in another way. -/
structure StopReport (rows : TaskRows) (executionId : String)
    (observation : ConnectorExecutionObservation) : Prop where
  status : RunnerJobLifecycle.fromWire observation.executorStatus = some .stopped ∨
    RunnerJobLifecycle.fromWire observation.executorStatus = some .cancelled
  sound : observation.executorFailureCode = none
  unended : ∀ execution ∈ rows.executions, execution.executionId = executionId →
    execution.isActive = true ∨ execution.state = .cancelled
  checked : ∀ execution ∈ rows.executions, execution.executionId = executionId →
    execution.isActive = true →
      checkObservation execution observation (observedState execution observation) = .ok ()

/-- What is read from a report that the execution was stopped. -/
theorem observedState_of_stopped
    (hstatus : RunnerJobLifecycle.fromWire observation.executorStatus = some .stopped ∨
      RunnerJobLifecycle.fromWire observation.executorStatus = some .cancelled)
    (hsound : observation.executorFailureCode = none) :
    observedState execution observation = stoppedOutcome execution := by
  have hrecovering : ¬ (observation.executorStatus == "recovering") = true := by
    intro hsame
    have hsame : observation.executorStatus = "recovering" := by simpa using hsame
    rw [hsame] at hstatus
    rcases hstatus with hstatus | hstatus <;> revert hstatus <;> decide
  rw [observedState, hsound]
  rw [if_neg hrecovering]
  rcases hstatus with hstatus | hstatus <;> rw [hstatus]

theorem stoppedOutcome_of_requested (hstate : execution.state = .cancelRequested)
    (hwait : execution.failureCode ≠ some "queue_deadline") :
    (stoppedOutcome execution).state = .cancelled := by
  have hdeadline : ¬ (execution.state == .cancelRequested &&
      execution.failureCode == some "queue_deadline") = true := by
    simp [hwait]
  rw [stoppedOutcome, if_neg hdeadline, if_pos (by simp [hstate])]

/-- The execution ended as cancelled, and so did its task. -/
def CancelledTogether (executionId : String) (rows : TaskRows) : Prop :=
  ∃ execution, rows.loadExecution executionId = .ok execution ∧ execution.state = .cancelled ∧
    rows.taskStatus = .cancelled

namespace TaskRows

variable {rows : TaskRows} {executionId : String} {execution : ConnectorExecution}

theorem loadExecution_setExecution (hf : KeepsIdentity f)
    (h : rows.loadExecution executionId = .ok execution) :
    (rows.setExecution executionId f).loadExecution executionId = .ok (f execution) := by
  have hfind : (rows.setExecution executionId f).executions.find?
      (fun row ↦ row.executionId == executionId) =
      (rows.executions.find? fun row ↦ row.executionId == executionId).map f :=
    find?_updateRow hf.executionId rows.executions
  unfold loadExecution at h ⊢
  rw [hfind]
  split at h
  · cases h
  · next hrow =>
    obtain rfl := Except.ok.inj h
    rw [hrow, Option.map_some]

theorem exists_loadExecution {row : ConnectorExecution} (hrow : row ∈ rows.executions)
    (hid : row.executionId = executionId) :
    ∃ execution, rows.loadExecution executionId = .ok execution := by
  unfold loadExecution
  split
  · next hnone =>
    rw [List.find?_eq_none] at hnone
    exact absurd hid (by simpa using hnone row hrow)
  · exact ⟨_, rfl⟩

theorem settleRun_of_cancelled {state : ConnectorExecutionState} (h : state = .cancelled) :
    rows.settleRun executionId state now = .ok (rows.cancelledBy (some executionId) none now) := by
  subst h
  exact finalizeTaskCancel_eq (some executionId) none now

/-- The report that the execution was stopped cancels the execution and the task, if the user
asked. -/
theorem observe_stopped
    (hrequested : Requested executionId rows) (htogether : CancelledWithTask rows)
    (hreport : StopReport rows executionId observation) :
    ∃ after answer, rows.observeConnectorExecution executionId observation = .ok (after, answer) ∧
      CancelledTogether executionId after := by
  obtain ⟨_, hrow, hid⟩ := hrequested.known
  obtain ⟨execution, hload⟩ := exists_loadExecution hrow hid
  have hmem := mem_of_loadExecution hload
  have hsame := executionId_of_loadExecution hload
  rcases hreport.unended execution hmem hsame with hactive | hcancelled
  · have hlive : ¬ execution.isTerminal = true := by
      simp [ConnectorExecution.isTerminal, ConnectorExecutionState.isTerminal,
        show execution.state.isActive = true from hactive]
    have hrecognized : ConnectorExecution.executorStatusRecognized observation.executorStatus =
        true := by
      rcases hreport.status with hstatus | hstatus <;>
        simp [ConnectorExecution.executorStatusRecognized, hstatus]
    obtain ⟨hstate, hwait⟩ := hrequested.waits execution hmem hsame hactive
    have hchecked := hreport.checked execution hmem hsame hactive
    have hoffer : (observedState execution observation).state = .cancelled := by
      rw [observedState_of_stopped hreport.status hreport.sound]
      exact stoppedOutcome_of_requested hstate hwait
    generalize hout : observedState execution observation = outcome at hchecked hoffer
    have hkeeps := keepsIdentity_recordObservation observation outcome
    have hloaded := loadExecution_setExecution hkeeps hload
    refine ⟨(((rows.setExecution executionId (·.recordObservation observation outcome)).logs
      (if outcome.state != execution.state then
        [.execution execution.executionId execution.kind outcome.state] else [])
      observation.now).cancelledBy (some execution.executionId) none observation.now),
      execution.recordObservation observation outcome, ?_, ?_⟩
    · rw [observeConnectorExecution, bind_eq_ok]
      refine ⟨execution, hload, ?_⟩
      rw [if_neg hlive, if_neg (by simp [hrecognized])]
      simp only [hout, appendStateChange_eq, bind_eq_ok]
      refine ⟨(), hchecked, _, rfl, _, settleRun_of_cancelled hoffer, ?_⟩
      rw [touch_cancelledBy, commitExecution, bind_eq_ok]
      exact ⟨_, hloaded, rfl⟩
    · refine ⟨_, hloaded, ?_, ?_⟩
      · rw [state_recordObservation, hoffer]
      · rw [taskStatus_eq_cancelled]
        show (TaskRows.logs _ _ _).cancelled = true
        rw [cancelled_logs]
        exact Bool.or_true _
  · have hended : execution.isTerminal = true := by
      simp [ConnectorExecution.isTerminal, hcancelled, ConnectorExecutionState.isTerminal,
        ConnectorExecutionState.isActive]
    refine ⟨rows, execution, ?_, execution, hload, hcancelled, ?_⟩
    · rw [observeConnectorExecution, hload]
      simp [hended, bind, Except.bind, pure, Except.pure]
    · exact taskStatus_eq_cancelled.mpr (htogether execution hmem hcancelled)

end TaskRows

/-! ### Runs -/

/-- In every run the task of a cancelled execution is cancelled. -/
theorem cancelledWithTask_run (operations : List Operation) :
    ∀ taskId rows, (run {} operations).tasks.lookup taskId = some rows →
      CancelledWithTask rows := by
  intro taskId rows hrows
  have hboth : DistinctIds rows.executions ∧ CancelledWithTask rows := by
    refine invariant_of_moves (P := fun rows ↦ DistinctIds rows.executions ∧ CancelledWithTask rows)
      ?_ ?_ operations taskId rows hrows
    · intro _ _
      exact ⟨List.nodup_nil, fun _ hmem ↦ absurd hmem (by simp [TaskRows.started])⟩
    · intro _ rows _ _ hcovers hinv hmove
      exact ⟨distinctIds_move hinv.1 hcovers hmove, hinv.2.move hinv.1 hmove⟩
  exact hboth.2

/-- The execution that a cancellation of the task reaches: the newest one, which is active and was
not given up because it had waited too long, of a task that is not cancelled. -/
structure Cancellable (rows : TaskRows) (execution : ConnectorExecution) : Prop where
  latest : rows.latestExecution = some execution
  active : execution.isActive = true
  waited : execution.failureCode ≠ some "queue_deadline"
  open_ : rows.cancelled = false

/-- The request of the user stays until the execution has ended. -/
theorem requested_run {earlier : List Operation} {taskId projectId subjectId : String}
    {rows : TaskRows}
    {answer : Answer} (hrows : (run {} earlier).tasks.lookup taskId = some rows)
    (hcancellable : Cancellable rows execution)
    (hcancel : (step (run {} earlier) (.owner taskId projectId subjectId
      (.cancel reason now))).answer = .ok answer)
    (between : List Operation) :
    ∃ after, (run {} (earlier ++ .owner taskId projectId subjectId (.cancel reason now) ::
        between)).tasks.lookup taskId = some after ∧
      Requested execution.executionId after := by
  have hids := distinctIds_run earlier taskId rows hrows
  rw [run_append, run_cons]
  have hrequested : ∃ after, (step (run {} earlier) (.owner taskId projectId subjectId
      (.cancel reason now))).database.tasks.lookup taskId = some after ∧
      DistinctIds after.executions ∧ Requested execution.executionId after := by
    obtain ⟨after, hhandle, hafter⟩ := Database.handle_of_answer hrows hcancel
    refine ⟨after, hafter, ?_, ?_⟩
    · exact distinctIds_move hids (covers_of_lookup hrows) (TaskRows.handle_move hhandle)
    · obtain ⟨_, hrequest, _⟩ := TaskRows.map_eq_ok hhandle
      exact TaskRows.requested_of_cancel hids hcancellable.open_ hcancellable.latest
        hcancellable.active hcancellable.waited hrequest
  obtain ⟨after, hafter, hinv⟩ := hrequested
  obtain ⟨last, hlast, _, hlastRequested⟩ := lookup_run
    (P := fun rows ↦ DistinctIds rows.executions ∧ Requested execution.executionId rows)
    (fun _ hbefore _ hinv hhandle ↦
      have hmove := TaskRows.handle_move hhandle
      have hcovers := covers_of_lookup hbefore
      ⟨distinctIds_move hinv.1 hcovers hmove, hinv.2.move hinv.1 hcovers hmove⟩)
    hafter hinv between (along_true between _)
  exact ⟨last, hlast, hlastRequested⟩

/-- A user cancels a task with an active execution, and later the executor reports that it has
stopped the execution. Whatever happens in between, the execution and the task end as cancelled,
unless the execution had waited too long in the queue before, hides behind a newer one, belongs to a
task that is cancelled already, or has ended in another way. -/
theorem user_cancellation_is_kept (earlier between : List Operation)
    {taskId projectId subjectId : String} {reason : Option String} {now : ℤ} {rows : TaskRows}
    {execution : ConnectorExecution} {answer : Answer}
    (hrows : (run {} earlier).tasks.lookup taskId = some rows)
    (hcancellable : Cancellable rows execution)
    (hcancel : (step (run {} earlier)
      (.owner taskId projectId subjectId (.cancel reason now))).answer = .ok answer)
    (hreport : ∀ before,
      (run {} (earlier ++ .owner taskId projectId subjectId (.cancel reason now) ::
        between)).tasks.lookup taskId = some before →
      StopReport before execution.executionId observation) :
    ∃ after, (run {} (earlier ++ .owner taskId projectId subjectId (.cancel reason now) ::
        between ++ [.execution execution.executionId (.observe observation)])).tasks.lookup taskId =
          some after ∧
      CancelledTogether execution.executionId after := by
  obtain ⟨before, hbefore, hrequested⟩ := requested_run hrows hcancellable hcancel between
  rw [run_append _ (earlier ++ _ :: between)]
  generalize hoperations : earlier ++ .owner taskId projectId subjectId (.cancel reason now) ::
    between = operations at hbefore hreport ⊢
  have htogether := cancelledWithTask_run operations taskId before hbefore
  obtain ⟨_, hrow, hid⟩ := hrequested.known
  have howner := ownerOfExecution_eq (separateIds_run operations) hbefore hrow
  rw [hid] at howner
  obtain ⟨after, answer, hobserve, hcancelled⟩ :=
    TaskRows.observe_stopped hrequested htogether (hreport before hbefore)
  refine ⟨after, ?_, hcancelled⟩
  rw [run_cons, run_nil, lookup_step hbefore]
  simp [Operation.reaches, howner, TaskRows.afterRequest, TaskRows.handle, TaskRows.handleExecution,
    hobserve, answered, Except.map]

def surveyQueued : List Operation :=
  surveyStarted ++ [surveyCommand "first" 10, .execution "first" (.attach "job" "queued" 11)]

def surveyCancel (now : ℤ) : Operation := .owner "survey" "atlas" "client" (.cancel none now)

/-- The executor reports that it has stopped the command. -/
def surveyStopped (now : ℤ) : Operation :=
  .execution "first" (.observe { executorStatus := "stopped", now := now })

/-- The user cancels the task while its command is queued. That the command was started then makes
no difference: when it has stopped, the two are cancelled together. -/
theorem user_cancellation_is_kept_survey :
    ∃ after, (run {} (surveyQueued ++ surveyCancel 12 ::
        [.execution "first" (.attach "job" "running" 13)] ++ [surveyStopped 14])).tasks.lookup
          "survey" = some after ∧
      CancelledTogether "first" after := by
  have hqueued : ((run {} surveyQueued).tasks.lookup "survey").any (fun rows ↦
      !rows.cancelled && rows.latestExecution.any fun execution ↦
        execution.executionId == "first" && execution.isActive && execution.failureCode.isNone) =
      true := by
    decide +kernel
  have hwaits : ((run {} (surveyQueued ++ surveyCancel 12 ::
      [.execution "first" (.attach "job" "running" 13)])).tasks.lookup "survey").all (fun rows ↦
        rows.executions.all fun execution ↦ execution.isActive &&
          (checkObservation execution { executorStatus := "stopped", now := 14 }
            (observedState execution { executorStatus := "stopped", now := 14 })).isOk) = true := by
    decide +kernel
  have hcancel : (step (run {} surveyQueued) (surveyCancel 12)).answer.isOk = true := by
    decide +kernel
  obtain ⟨rows, hrows, hrow⟩ := (Option.any_eq_true _ _).mp hqueued
  simp only [Bool.and_eq_true, Bool.not_eq_true', Option.any_eq_true, beq_iff_eq,
    Option.isNone_iff_eq_none] at hrow
  obtain ⟨hopen, execution, hlatest, ⟨hid, hactive⟩, hcode⟩ := hrow
  obtain ⟨answer, hanswer⟩ := exists_ok_of_isOk hcancel
  have hreport : ∀ before, (run {} (surveyQueued ++ surveyCancel 12 ::
      [.execution "first" (.attach "job" "running" 13)])).tasks.lookup "survey" = some before →
      StopReport before execution.executionId { executorStatus := "stopped", now := 14 } := by
    intro before hbefore
    rw [Option.all_eq_true] at hwaits
    have hlive := hwaits before hbefore
    simp only [List.all_eq_true, Bool.and_eq_true] at hlive
    refine ⟨Or.inl (by decide), rfl, fun row hrow _ ↦ Or.inl (hlive row hrow).1, ?_⟩
    intro row hrow _ _
    obtain ⟨⟨⟩, hchecked⟩ := exists_ok_of_isOk (hlive row hrow).2
    exact hchecked
  have hkept := user_cancellation_is_kept surveyQueued _ hrows
    ⟨hlatest, hactive, by simp [hcode], hopen⟩ hanswer hreport
  rw [hid] at hkept
  exact hkept

/-- The command has waited too long when the user cancels, and the report counts as the end of the
wait: the execution has failed and the task is still active. -/
theorem cancellation_after_queue_timeout_is_lost :
    ((run {} (surveyQueued ++ [.execution "first" (.queueTimeout 200)])).tasks.lookup "survey").map
        (fun rows ↦ rows.latestExecution.map fun execution ↦
          (execution.executionId, execution.isActive)) = some (some ("first", true)) ∧
      (step (run {} (surveyQueued ++ [.execution "first" (.queueTimeout 200)]))
        (surveyCancel 201)).answer.isOk = true ∧
      ¬ ∃ rows, (run {} (surveyQueued ++ [.execution "first" (.queueTimeout 200), surveyCancel 201,
          surveyStopped 202])).tasks.lookup "survey" = some rows ∧
              CancelledTogether "first" rows := by
  refine ⟨by decide +kernel, by decide +kernel, ?_⟩
  rintro ⟨rows, hrows, _, _, _, hcancelled⟩
  have hactive : ((run {} (surveyQueued ++ [.execution "first" (.queueTimeout 200),
      surveyCancel 201, surveyStopped 202])).tasks.lookup "survey").map TaskRows.taskStatus =
      some .active := by
    decide +kernel
  rw [hrows, Option.map_some, hcancelled] at hactive
  cases hactive

end WebCodex.TaskStore
