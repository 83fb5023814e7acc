import WebCodex.TaskStore.Cancellation
import WebCodex.TaskStore.ExecutionEvidence

/-!
In every run all rows are consistent and nothing that they record is taken back (`kept_run`). A
success is free of failure fields in a run exactly when no overdue execution reports one
(`connector_evidence_iff_punctual`): such a report leaves the failure of the timeout in place.
-/

namespace WebCodex.TaskStore

open Foundation
open Registry (RunnerJobLifecycle)

/-- An observation that reports the success of an overdue execution. -/
def TaskRequest.overdueSuccess (rows : TaskRows) : TaskRequest → Bool
  | execution executionId (.observe observation) => rows.executions.any fun row ↦
      row.executionId == executionId && row.overdue && reportsSuccess row observation
  | _ => false

/-- All executions of a task have sound rows. -/
def SoundRows (rows : TaskRows) : Prop :=
  DistinctIds rows.executions ∧ ∀ execution ∈ rows.executions, execution.Sound

variable {execution : ConnectorExecution}

section Requests

variable {keys : Keys} {rows after : TaskRows} {asked : TaskRequest} {answer : Answer}

theorem soundRows_started (task : NewConnectorTask) (mode : ConnectorTaskMode) :
    SoundRows (.started task mode) :=
  ⟨List.nodup_nil, fun _ hmem ↦ absurd hmem (by simp [TaskRows.started])⟩

theorem SoundRows.handle (h : SoundRows rows) (hcovers : Covers keys rows)
    (hhandle : rows.handle keys asked = .ok (after, answer)) : SoundRows after := by
  refine ⟨distinctIds_move h.1 hcovers (TaskRows.handle_move hhandle), ?_⟩
  have hupdate := TaskRows.handle_executions hhandle
  generalize after.executions = executions at hupdate ⊢
  cases hupdate with
  | same => exact h.2
  | reserved request kind =>
    intro execution hmem
    rcases List.mem_append.mp hmem with hmem | hmem
    · exact h.2 execution hmem
    · rw [List.mem_singleton.mp hmem]
      exact sound_row request kind
  | updated execution _ hmem _ hupdate =>
    intro other hother
    rcases h.1.mem_update hmem hother with rfl | ⟨hother, _⟩
    · exact sound_rowUpdate (h.2 execution hmem) hupdate
    · exact h.2 other hother

/-- The row of an execution after a request. -/
theorem SoundRows.kept (h : SoundRows rows) (hhandle : rows.handle keys asked = .ok (after, answer))
    (hmem : execution ∈ rows.executions) :
    ∃ later ∈ after.executions, EvidenceKept execution later := by
  have hupdate := TaskRows.handle_executions hhandle
  generalize after.executions = executions at hupdate ⊢
  cases hupdate with
  | same => exact ⟨execution, hmem, .refl execution⟩
  | reserved => exact ⟨execution, List.mem_append_left _ hmem, .refl execution⟩
  | updated other f hother _ hupdate =>
    refine ⟨updated other.executionId f execution, List.mem_map_of_mem hmem, ?_⟩
    by_cases hsame : execution.executionId = other.executionId
    · obtain rfl := h.1.eq_of_executionId hother hmem hsame
      have hrow : updated execution.executionId f execution = f execution :=
        updateRow_self execution
      rw [hrow]
      exact evidenceKept_rowUpdate (h.2 execution hmem) hupdate
    · have hrow : updated other.executionId f execution = execution := updateRow_ne hsame
      rw [hrow]
      exact .refl execution

theorem unfailed_handle (hsound : SoundRows rows)
    (hunfailed : ∀ execution ∈ rows.executions, execution.Unfailed)
    (hpunctual : asked.overdueSuccess rows = false)
    (hhandle : rows.handle keys asked = .ok (after, answer)) :
    ∀ execution ∈ after.executions, execution.Unfailed := by
  have hupdate := TaskRows.handle_executions hhandle
  generalize after.executions = executions at hupdate ⊢
  cases hupdate with
  | same => exact hunfailed
  | reserved =>
    intro execution hmem
    rcases List.mem_append.mp hmem with hmem | hmem
    · exact hunfailed execution hmem
    · rw [List.mem_singleton.mp hmem]
      exact unfailed_of_active rfl
  | updated execution _ hmem _ hupdate =>
    intro other hother
    rcases hsound.1.mem_update hmem hother with rfl | ⟨hother, _⟩
    · refine unfailed_rowUpdate (hsound.2 execution hmem) (hunfailed execution hmem) ?_ hupdate
      rintro _ rfl
      have hrow := List.any_eq_false.mp hpunctual execution hmem
      simpa using hrow
    · exact hunfailed other hother

variable (keys) in
/-- The report of success of an overdue execution is recorded, with the failure in place. -/
theorem failed_success (hsound : SoundRows rows) {executionId : String}
    {observation : ConnectorExecutionObservation} (hmem : execution ∈ rows.executions)
    (hid : execution.executionId = executionId) (hoverdue : execution.overdue = true)
    (hreports : reportsSuccess execution observation = true) :
    ∃ after answer, rows.handle keys (.execution executionId (.observe observation)) =
        .ok (after, answer) ∧ ∃ later ∈ after.executions, later.isTerminal = true ∧
          ¬ later.Unfailed := by
  have hsoundRow := hsound.2 execution hmem
  obtain ⟨hstate, hchecks⟩ := (reportsSuccess_iff hsoundRow.progress).mp hreports
  obtain ⟨hopen, _⟩ := Bool.and_eq_true_iff.mp hoverdue
  have hunfailed := unfailed_recordObservation hsoundRow hopen hchecks
  rw [hoverdue, hreports] at hunfailed
  have hfailed := mt hunfailed.mp (by simp)
  have hlive : ¬ execution.isTerminal = true := by
    rw [ConnectorExecution.isActive] at hopen
    simp [ConnectorExecution.isTerminal, ConnectorExecutionState.isTerminal, hopen]
  have hstatus := (state_observedState_eq_succeeded.mp hstate).1
  have hrecognized : ConnectorExecution.executorStatusRecognized observation.executorStatus =
      true := by
    simp only [reportsCompletion, Bool.and_eq_true, beq_iff_eq] at hstatus
    simp [ConnectorExecution.executorStatusRecognized, hstatus.2]
  obtain ⟨found, hload⟩ := TaskRows.exists_loadExecution hmem hid
  obtain rfl : found = execution := hsound.1.eq_of_executionId hmem
    (TaskRows.mem_of_loadExecution hload)
      ((TaskRows.executionId_of_loadExecution hload).trans hid.symm)
  generalize hout : observedState found observation = outcome at hstate hchecks hfailed
  have hloaded := TaskRows.loadExecution_setExecution
    (TaskRows.keepsIdentity_recordObservation observation outcome) hload
  have hsettle : ∀ logged : TaskRows,
      logged.settleRun found.executionId outcome.state observation.now = .ok logged := by
    intro logged
    rw [hstate]
    rfl
  obtain ⟨after, hobserve, hafter⟩ : ∃ after, rows.observeConnectorExecution executionId
    observation =
        .ok (after, found.recordObservation observation outcome) ∧ after.executions =
          (rows.setExecution executionId (·.recordObservation observation outcome)).executions := by
    refine ⟨((rows.setExecution executionId (·.recordObservation observation outcome)).logs
      (if outcome.state != found.state then
        [.execution found.executionId found.kind outcome.state] else []) observation.now).touch
      observation.now, ?_, rfl⟩
    rw [TaskRows.observeConnectorExecution, bind_eq_ok]
    refine ⟨found, hload, ?_⟩
    rw [if_neg hlive, if_neg (by simp [hrecognized])]
    simp only [hout, TaskRows.appendStateChange_eq, bind_eq_ok]
    refine ⟨(), hchecks, _, rfl, _, hsettle _, ?_⟩
    rw [TaskRows.commitExecution, bind_eq_ok]
    exact ⟨_, hloaded, rfl⟩
  refine ⟨after, .execution (found.recordObservation observation outcome), ?_,
    found.recordObservation observation outcome, ?_, ?_, hfailed⟩
  · rw [TaskRows.handle, TaskRows.handleExecution, answered, hobserve]
    rfl
  · rw [hafter]
    exact TaskRows.mem_of_loadExecution hloaded
  · rw [ConnectorExecution.isTerminal, TaskRows.state_recordObservation, hstate]
    rfl

end Requests

/-- An operation that reports the success of an overdue execution. -/
def overdueSuccess (database : Database) (operation : Operation) : Bool :=
  match operation with
  | .execution executionId (.observe observation) => (Table.values database.tasks).any fun rows ↦
      TaskRequest.overdueSuccess rows (.execution executionId (.observe observation))
  | _ => false

/-- No operation of a run reports the success of an overdue execution. -/
def Punctual (database : Database) (operations : List Operation) : Prop :=
  Along (fun database operation ↦ overdueSuccess database operation = false) database operations

/-- All successes of the store come without failure fields. -/
def UnfailedSuccesses (database : Database) : Prop :=
  ∀ taskId rows, database.tasks.lookup taskId = some rows → ∀ execution ∈ rows.executions,
    execution.Unfailed

theorem soundRows_run (operations : List Operation) :
    ∀ taskId rows, (run {} operations).tasks.lookup taskId = some rows → SoundRows rows := by
  refine invariant_run soundRows_started ?_ (fun _ _ hnone ↦ by simp at hnone) operations
    (along_true operations {})
  intro _ _ taskId rows _ _ _ _ hrows _ hsound hhandle
  exact hsound.handle (covers_of_lookup hrows) hhandle

/-- The row of an execution is still there in every later state, with all that it had recorded. -/
theorem kept_run {earlier : List Operation} {taskId : String} {rows : TaskRows}
    (hrows : (run {} earlier).tasks.lookup taskId = some rows) (hmem : execution ∈ rows.executions)
    (later : List Operation) :
    ∃ after kept, (run {} (earlier ++ later)).tasks.lookup taskId = some after ∧
      after.loadExecution execution.executionId = .ok kept ∧ EvidenceKept execution kept := by
  have hsound := soundRows_run earlier taskId rows hrows
  rw [run_append]
  obtain ⟨after, hafter, hsound, kept, hkept, hevidence⟩ := lookup_run
    (P := fun rows ↦ SoundRows rows ∧ ∃ kept ∈ rows.executions, EvidenceKept execution kept)
    (fun {database operation taskId rows request after answer} _ hrows _ hinv hhandle ↦ by
      obtain ⟨hsound, kept, hkept, hevidence⟩ := hinv
      obtain ⟨next, hnext, hstep⟩ := hsound.kept hhandle hkept
      exact ⟨hsound.handle (covers_of_lookup hrows) hhandle, next, hnext, hevidence.trans hstep⟩)
    hrows ⟨hsound, execution, hmem, .refl execution⟩ later (along_true later _)
  obtain ⟨found, hload⟩ := TaskRows.exists_loadExecution hkept hevidence.identity
  obtain rfl : found = kept := hsound.1.eq_of_executionId hkept
    (TaskRows.mem_of_loadExecution hload)
      ((TaskRows.executionId_of_loadExecution hload).trans hevidence.identity.symm)
  exact ⟨after, found, hafter, hload, hevidence⟩

theorem overdueSuccess_of_reaches {database : Database} {operation : Operation} {taskId : String}
    {rows : TaskRows} {request : TaskRequest}
    (hpunctual : overdueSuccess database operation = false)
    (hrows : database.tasks.lookup taskId = some rows)
    (hreaches : operation.reaches database taskId rows = some request) :
    request.overdueSuccess rows = false := by
  have hmem : rows ∈ Table.values database.tasks := Table.mem_values.mpr ⟨taskId, hrows⟩
  cases operation with
  | bind | start => cases hreaches
  | execution _ asked =>
    rw [Operation.reaches] at hreaches
    split_ifs at hreaches
    obtain rfl := Option.some.inj hreaches
    cases asked with
    | observe => simpa using List.any_eq_false.mp hpunctual rows hmem
    | _ => rfl
  | _ =>
    rw [Operation.reaches] at hreaches
    split_ifs at hreaches
    obtain rfl := Option.some.inj hreaches
    rfl

/-- In a punctual run no success has failure fields. -/
theorem unfailed_run {operations : List Operation} (h : Punctual {} operations) :
    UnfailedSuccesses (run {} operations) := by
  have hrun : ∀ taskId rows, (run {} operations).tasks.lookup taskId = some rows →
      SoundRows rows ∧ ∀ execution ∈ rows.executions, execution.Unfailed := by
    refine invariant_run (P := fun rows ↦ SoundRows rows ∧ ∀ execution ∈ rows.executions,
      execution.Unfailed) ?_ ?_ (fun _ _ hnone ↦ by simp at hnone) operations h
    · intro task mode
      exact ⟨soundRows_started task mode, fun _ hmem ↦ absurd hmem (by simp [TaskRows.started])⟩
    · intro _ _ taskId rows _ _ _ hpunctual hrows hreaches hinv hhandle
      exact ⟨hinv.1.handle (covers_of_lookup hrows) hhandle, unfailed_handle hinv.1 hinv.2
        (overdueSuccess_of_reaches hpunctual hrows hreaches) hhandle⟩
  exact fun taskId rows hrows ↦ (hrun taskId rows hrows).2

/-- The report of success of an overdue execution leaves a row that has ended with its failure. -/
theorem failed_step {earlier : List Operation} {operation : Operation}
    (h : overdueSuccess (run {} earlier) operation = true) :
    ∃ taskId after, (run {} (earlier ++ [operation])).tasks.lookup taskId = some after ∧
      ∃ execution ∈ after.executions, execution.isTerminal = true ∧ ¬ execution.Unfailed := by
  cases operation with
  | execution _ asked =>
    cases asked with
    | observe =>
      obtain ⟨rows, hrows, hlate⟩ := List.any_eq_true.mp h
      obtain ⟨taskId, hrows⟩ := Table.mem_values.mp hrows
      obtain ⟨execution, hmem, hlate⟩ := List.any_eq_true.mp hlate
      simp only [Bool.and_eq_true, beq_iff_eq] at hlate
      obtain ⟨⟨rfl, hoverdue⟩, hreports⟩ := hlate
      obtain ⟨after, _, hhandle, hfailed⟩ := failed_success (run {} earlier).keys
        (soundRows_run earlier taskId rows hrows) hmem rfl hoverdue hreports
      refine ⟨taskId, after, ?_, hfailed⟩
      have howner := ownerOfExecution_eq (separateIds_run earlier) hrows hmem
      rw [run_append, run_cons, run_nil, lookup_step hrows, Operation.reaches, if_pos howner,
        TaskRows.afterRequest, hhandle]
    | _ => cases h
  | _ => cases h

/-- A run that is not punctual has a success with failure fields, for good. -/
theorem failed_run {operations : List Operation} (h : ¬ Punctual {} operations) :
    ¬ UnfailedSuccesses (run {} operations) := by
  intro hunfailed
  obtain ⟨_, _, later, rfl, hlate⟩ := exists_of_not_along h
  obtain ⟨taskId, _, hrows, _, hmem, hended, hfailed⟩ := failed_step (by simpa using hlate)
  obtain ⟨after, kept, hafter, hload, hevidence⟩ := kept_run hrows hmem later
  rw [List.append_assoc] at hafter
  have hsame := hunfailed taskId after hafter kept (TaskRows.mem_of_loadExecution hload)
  rw [hevidence.ended hended] at hsame
  exact hfailed hsame

/-- What the rows of the executions say in a run and after it. -/
structure ConnectorEvidence (operations : List Operation) : Prop where
  consistent : ∀ taskId rows, (run {} operations).tasks.lookup taskId = some rows →
    ∀ execution ∈ rows.executions, execution.Consistent
  unfailed : UnfailedSuccesses (run {} operations)
  kept : ∀ taskId rows, (run {} operations).tasks.lookup taskId = some rows →
    ∀ execution ∈ rows.executions, ∀ later, ∃ after kept,
      (run {} (operations ++ later)).tasks.lookup taskId = some after ∧
        after.loadExecution execution.executionId = .ok kept ∧ EvidenceKept execution kept

/-- The evidence of the executions is consistent in exactly the punctual runs: a success that is
reported behind the timeout of the queue keeps the failure, and nothing takes it away again. -/
theorem connector_evidence_iff_punctual (operations : List Operation) :
    ConnectorEvidence operations ↔ Punctual {} operations := by
  constructor
  · intro h
    by_contra hlate
    exact failed_run hlate h.unfailed
  · intro hpunctual
    exact ⟨fun taskId rows hrows execution hmem ↦
      ((soundRows_run operations taskId rows hrows).2 execution hmem).toConsistent,
      unfailed_run hpunctual, fun taskId rows hrows execution hmem later ↦
        kept_run hrows hmem later⟩

/-- The queue timeout of a command is requested, and then the executor reports that the command has
succeeded. -/
def lateSuccess : List Operation := surveyQueued ++ [.execution "first" (.queueTimeout 101),
    .execution "first" (.observe { executorStatus := "completed", exitCode := some 0, now := 102 })]

/-- The command has succeeded, with the failure of the queue. -/
theorem late_success_keeps_queue_failure : ¬ ConnectorEvidence lateSuccess := by
  intro h
  have hfailed : ((run {} lateSuccess).tasks.lookup "survey").any (fun rows ↦
      rows.executions.any fun execution ↦ execution.state == .succeeded &&
        execution.failureSource == some "queue" &&
        execution.failureCode == some "queue_deadline") = true := by
    decide +kernel
  obtain ⟨rows, hrows, hrow⟩ := (Option.any_eq_true _ _).mp hfailed
  obtain ⟨execution, hmem, hexecution⟩ := List.any_eq_true.mp hrow
  simp only [Bool.and_eq_true, beq_iff_eq] at hexecution
  obtain ⟨⟨hstate, _⟩, hcode⟩ := hexecution
  have hnone := (h.unfailed "survey" rows hrows execution hmem hstate).2
  rw [hcode] at hnone
  cases hnone

end WebCodex.TaskStore
