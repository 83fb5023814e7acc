import WebCodex.TaskStore.Store

/-!
The events of a task are numbered in the order in which they are inserted. An insertion never
fails (`insertEvent_next`), and what an operation adds to the timeline is a list of bodies with
consecutive numbers (`logs`). With this, the operations that end a run are total functions of the
rows (`interrupted`, `cancelledBy`). Few requests reach the executions: a reservation adds a row,
and the others update one row, in one of twelve ways (`RowUpdate`).
-/

namespace WebCodex.TaskStore

section

def numbered : ℕ → List EventBody → ℤ → List ConnectorTaskEvent
  | _, [], _ => []
  | cursor, body :: rest, now => ⟨cursor + 1, body, now⟩ :: numbered (cursor + 1) rest now

variable (bodies : List EventBody)

namespace TaskRows

def logs (bodies : List EventBody) (now : ℤ) (rows : TaskRows) : TaskRows :=
  { rows with events := rows.events ++ numbered rows.eventCursor bodies now }

variable {rows : TaskRows}

theorem le_foldl_sequence (events : List ConnectorTaskEvent) (top : ℕ) :
    top ≤ events.foldl (fun top event ↦ max top event.sequence) top ∧
      ∀ event ∈ events, event.sequence ≤ events.foldl (fun top event ↦ max top event.sequence)
        top := by
  induction events generalizing top with
  | nil => simp
  | cons head _ ih =>
    obtain ⟨htop, hrest⟩ := ih (max top head.sequence)
    refine ⟨(le_max_left top head.sequence).trans htop, ?_⟩
    intro event hevent
    rcases List.mem_cons.mp hevent with rfl | hevent
    · exact (le_max_right top event.sequence).trans htop
    · exact hrest event hevent

theorem sequence_le_eventCursor {event : ConnectorTaskEvent} (h : event ∈ rows.events) :
    event.sequence ≤ rows.eventCursor :=
  (le_foldl_sequence rows.events 0).2 event h

theorem foldl_sequence_numbered (now : ℤ) (cursor : ℕ) :
    (numbered cursor bodies now).foldl (fun top event ↦ max top event.sequence) cursor =
      cursor + bodies.length := by
  induction bodies generalizing cursor with
  | nil => rfl
  | cons _ _ ih =>
    simp only [numbered, List.foldl_cons, List.length_cons]
    rw [max_eq_right (Nat.le_succ cursor), ih]
    omega

@[simp] theorem eventCursor_logs (bodies : List EventBody) (now : ℤ) :
    (rows.logs bodies now).eventCursor = rows.eventCursor + bodies.length := by
  rw [eventCursor, logs, List.foldl_append]
  exact foldl_sequence_numbered bodies now rows.eventCursor

theorem numbered_append (first second : List EventBody) (now : ℤ) (cursor : ℕ) :
    numbered cursor (first ++ second) now =
      numbered cursor first now ++ numbered (cursor + first.length) second now := by
  induction first generalizing cursor with
  | nil => rfl
  | cons _ _ ih =>
    simp only [List.cons_append, numbered, ih, List.length_cons]
    rw [Nat.add_right_comm, Nat.add_assoc]

@[simp] theorem logs_nil (now : ℤ) : rows.logs [] now = rows := by
  simp [logs, numbered]

@[simp] theorem logs_logs (first second : List EventBody) (now : ℤ) :
    (rows.logs first now).logs second now = rows.logs (first ++ second) now := by
  rw [logs, eventCursor_logs]
  simp [logs, numbered_append]

theorem insertEvent_of_lt {sequence : ℕ} (h : rows.eventCursor < sequence) (body : EventBody)
    (now : ℤ) :
    rows.insertEvent sequence body now =
      .ok { rows with events := rows.events ++ [⟨sequence, body, now⟩] } := by
  have hzero : ¬ (sequence == 0) = true := by simp; omega
  have hfresh : ¬ (rows.events.any fun event ↦ event.sequence == sequence) = true := by
    rw [List.any_eq_true]
    rintro ⟨event, hevent, hsame⟩
    have hle := sequence_le_eventCursor hevent
    have heq : event.sequence = sequence := by simpa using hsame
    omega
  rw [insertEvent, if_neg hzero, if_neg hfresh]

/-- An insertion with the number after the cursor. -/
theorem insertEvent_cursor {before : TaskRows} (h : rows.events = before.events) (body : EventBody)
    (now : ℤ) : rows.insertEvent (before.eventCursor + 1) body now = .ok
    (rows.logs [body] now) := by
  have hcursor : before.eventCursor = rows.eventCursor := by rw [eventCursor, eventCursor, h]
  rw [hcursor]
  exact insertEvent_of_lt (Nat.lt_succ_self _) body now

@[simp] theorem insertEvent_next (body : EventBody) (now : ℤ) :
    rows.insertEvent rows.nextEventSequence body now = .ok (rows.logs [body] now) :=
  insertEvent_cursor rfl body now

@[simp] theorem appendExecutionEvent_eq (execution : ConnectorExecution)
    (state : ConnectorExecutionState) (now : ℤ) :
    rows.appendExecutionEvent execution state now =
      .ok (rows.logs [.execution execution.executionId execution.kind state] now) :=
  insertEvent_next _ now

theorem any_numbered (now : ℤ) (cursor : ℕ) (p : EventBody → Bool) :
    ((numbered cursor bodies now).any fun event ↦ p event.body) = bodies.any p := by
  induction bodies generalizing cursor with
  | nil => rfl
  | cons _ _ ih => simp [numbered, ih]

@[simp] theorem cancelled_logs (bodies : List EventBody) (now : ℤ) :
    (rows.logs bodies now).cancelled = (rows.cancelled || bodies.any EventBody.isCancellation) := by
  rw [cancelled, logs, List.any_append, any_numbered]
  rfl

/-- A task counts as cancelled when an event says so. -/
theorem taskStatus_eq_cancelled : rows.taskStatus = .cancelled ↔ rows.cancelled = true := by
  unfold taskStatus effectiveTaskState
  cases rows.cancelled with
  | true => simp
  | false =>
    simp only [Bool.false_eq_true, if_false, iff_false]
    split
    · simp
    · simp
    all_goals
      split_ifs
      · simp
      · split <;> simp

/-- What a task that runs looks like. -/
theorem running_of_requireRunning (h : rows.requireRunning = .ok ()) :
    rows.run.status = .running ∧ rows.cancelled = false ∧ rows.lifecycle = .active := by
  unfold requireRunning at h
  split_ifs at h with hstate
  simp only [bne_iff_ne, Bool.or_eq_true, not_or, not_not] at hstate
  obtain ⟨htask, hrun⟩ := hstate
  cases hcancelled : rows.cancelled with
  | true => simp [taskStatus, effectiveTaskState, hcancelled] at htask
  | false =>
    have hrunning : rows.run.status = .running := by
      simp only [runStatus, effectiveRunState, hcancelled] at hrun
      cases hstatus : rows.run.status <;> simp [hstatus] at hrun ⊢
    refine ⟨hrunning, rfl, ?_⟩
    simp only [taskStatus, effectiveTaskState, hcancelled, hrunning] at htask
    cases hlifecycle : rows.lifecycle <;> cases hresult : rows.result with
    | none => simp_all
    | some result => cases hdecision : result.decisionStatus <;> simp_all

theorem interrupted_of_runStatus (h : rows.runStatus = .interrupted) :
    rows.run.status = .interrupted := by
  unfold runStatus effectiveRunState at h
  split_ifs at h
  cases hstatus : rows.run.status <;> simp [hstatus] at h ⊢

def interruptedRun (now : ℤ) (run : RunRow) : RunRow :=
  if run.status == .running then { run with status := .interrupted, finishedAt := some now }
    else run

def interrupted (reason : String) (now : ℤ) (rows : TaskRows) : TaskRows :=
  { rows with
    run := interruptedRun now rows.run
    events := (rows.logs [.runInterrupted reason] now).events
    approvals := rows.expireApprovals.approvals
    updatedAt := now }

def cancelledBy (executionId reason : Option String) (now : ℤ) (rows : TaskRows) : TaskRows :=
  { rows with
    run := { rows.run with status := .interrupted, finishedAt := some now }
    events := (rows.logs [.taskCancelled executionId reason] now).events
    approvals := rows.expireApprovals.approvals
    updatedAt := now }

@[simp] theorem touch_interrupted (reason : String) (now : ℤ) :
    (rows.interrupted reason now).touch now = rows.interrupted reason now := rfl

@[simp] theorem touch_cancelledBy (executionId reason : Option String) (now : ℤ) :
    (rows.cancelledBy executionId reason now).touch now = rows.cancelledBy executionId reason now :=
  rfl

theorem events_interrupted_logs (reason : String) (now : ℤ) :
    ((rows.logs bodies now).interrupted reason now).events =
      rows.events ++ numbered rows.eventCursor (bodies ++ [.runInterrupted reason]) now := by
  show ((rows.logs bodies now).logs [.runInterrupted reason] now).events = _
  rw [logs_logs]
  rfl

theorem events_cancelledBy_logs (executionId reason : Option String) (now : ℤ) :
    ((rows.logs bodies now).cancelledBy executionId reason now).events =
      rows.events ++ numbered rows.eventCursor (bodies ++ [.taskCancelled executionId reason])
        now := by
  show ((rows.logs bodies now).logs [.taskCancelled executionId reason] now).events = _
  rw [logs_logs]
  rfl

@[simp] theorem interruptRun_eq (reason : String) (now : ℤ) :
    rows.interruptRun reason now = .ok (rows.interrupted reason now) := by
  rw [interruptRun, interrupted, interruptedRun]
  split_ifs <;> simp only [insertEvent_next] <;> rfl

@[simp] theorem finalizeTaskCancel_eq (executionId reason : Option String) (now : ℤ) :
    rows.finalizeTaskCancel executionId reason now = .ok
      (rows.cancelledBy executionId reason now) := by
  rw [finalizeTaskCancel]
  simp only [insertEvent_next]
  rfl

end TaskRows

end

/-- An update of an execution that keeps what it is found by. -/
structure KeepsIdentity (f : ConnectorExecution → ConnectorExecution) : Prop where
  executionId : ∀ execution, (f execution).executionId = execution.executionId
  submittedAt : ∀ execution, (f execution).submittedAt = execution.submittedAt

def updated (executionId : String) (f : ConnectorExecution → ConnectorExecution)
    (execution : ConnectorExecution) : ConnectorExecution :=
  if execution.executionId == executionId then f execution else execution

/-- An executor reference that an execution takes: it has none, or has this one. -/
def ConnectorExecution.takes (reference : String) (execution : ConnectorExecution) : Prop :=
  ∀ existing, execution.executorReference = some existing → existing = reference

/-- The ways in which a request updates the row of an execution. -/
inductive RowUpdate (asked : TaskRequest) (before : ConnectorExecution) : ConnectorExecution → Prop
  | started (hstate : before.state = .accepted) : RowUpdate asked before
    { before with state := .starting }
  | attachedEnded (reference : String) (htakes : before.takes reference)
      (hended : before.isTerminal = true) :
      RowUpdate asked before
        { before with executorReference := before.executorReference.or (some reference) }
  | attached (reference status : String) (recognized : Bool) (now : ℤ)
      (htakes : before.takes reference) (hopen : before.isActive = true) :
      RowUpdate asked before
        (before.attach reference (TaskRows.attachedState before status) recognized now)
  | statusFailed (code : String) (now : ℤ) (hopen : before.isActive = true) :
      RowUpdate asked before (before.recordStatusFailure code now)
  | observed (observation : ConnectorExecutionObservation)
      (hasked : asked = .execution before.executionId (.observe observation))
      (hopen : before.isActive = true)
      (hchecks : checkObservation before observation (observedState before observation) = .ok ()) :
      RowUpdate asked before
        (before.recordObservation observation (observedState before observation))
  | timedOut (now : ℤ) (hstate : before.state = .queued) :
      RowUpdate asked before (before.requestQueueTimeout now)
  | cancelled (immediate : Bool) (now : ℤ) (hopen : before.isActive = true) :
      RowUpdate asked before (TaskRows.cancelExecution immediate now before)
  | failed (failure : ConnectorExecutionFailure) (now : ℤ) (hopen : before.isActive = true) :
      RowUpdate asked before
        (TaskRows.failExecution failure (TaskRows.failureState before failure) now before)
  | interrupted (now : ℤ) (hopen : before.isActive = true) :
      RowUpdate asked before (TaskRows.interruptExecution now before)
  | materialized (now : ℤ) (hopen : before.isActive = true) :
      RowUpdate asked before
        { before with mcpTaskMaterializedAt := before.mcpTaskMaterializedAt.or (some now) }
  | outputTail (tail : String) (hopen : before.isActive = true) :
      RowUpdate asked before { before with mcpTaskOutputTail := some tail }
  | armed (now : ℤ) (hopen : before.isActive = true) :
      RowUpdate asked before { before with continuationArmedAt := some now }

/-- The executions of a task after a request. -/
inductive ExecutionsUpdate (asked : TaskRequest) (executions : List ConnectorExecution) :
    List ConnectorExecution → Prop
  | same : ExecutionsUpdate asked executions executions
  | reserved (request : NewExecution) (kind : ConnectorExecutionKind) :
      ExecutionsUpdate asked executions (executions ++ [request.row kind])
  | updated (execution : ConnectorExecution) (f : ConnectorExecution → ConnectorExecution)
      (hmem : execution ∈ executions) (hf : KeepsIdentity f)
      (hupdate : RowUpdate asked execution (f execution)) :
      ExecutionsUpdate asked executions (executions.map (updated execution.executionId f))

end WebCodex.TaskStore
