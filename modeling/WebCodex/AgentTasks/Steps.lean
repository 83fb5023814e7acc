import WebCodex.AgentTasks.Changes

/-!
A step leaves the rows of a task alone, changes them by a call for this task (`Change`), or lets the
wake of an attempt notice its expiry; tasks are created and never removed. From what a step does to
the rows of one task follows what a run does (`rows_run`).
-/

namespace WebCodex.AgentTasks

open Foundation

/-- What the checks before a call make of its request: they trim its texts. -/
inductive Checked : TaskRequest → TaskRequest → Prop
  | same {request} (hopen : ∀ asserted completion key attention,
      request ≠ .complete asserted completion key attention) : Checked request request
  | start {assigneeAgentId key trimmed new} :
      Checked (.start assigneeAgentId key new) (.start assigneeAgentId trimmed new)
  | complete {asserted outcome result reason key attention result' reason' trimmed}
      (houtcome : outcome.terminal = true) :
      Checked (.complete asserted ⟨outcome, result, reason⟩ key attention)
        (.complete asserted ⟨outcome, result', reason'⟩ trimmed attention)
  | terminalize {attemptId observation result reason attention result' reason'} :
      Checked (.terminalize attemptId observation result reason attention)
        (.terminalize attemptId observation result' reason' attention)

variable {request : TaskRequest}

theorem checked_of_validate {principal : CommunicationPrincipal} {taskId : String}
    {asked : TaskRequest} (h : asked.validate principal taskId = .ok request) :
    Checked asked request := by
  cases asked with
  | assign =>
    simp only [TaskRequest.validate, bind_eq_ok] at h
    obtain ⟨_, _, _, _, _, _, h⟩ := h
    cases h
    exact .same (by simp)
  | start =>
    simp only [TaskRequest.validate, bind_eq_ok] at h
    obtain ⟨_, _, _, _, _, _, _, _, h⟩ := h
    cases h
    exact .start
  | complete =>
    simp only [TaskRequest.validate, bind_eq_ok, ensure_eq_ok] at h
    obtain ⟨_, _, _, houtcome, _, _, _, _, _, _, h⟩ := h
    cases h
    exact .complete houtcome
  | terminalize =>
    simp only [TaskRequest.validate, bind_eq_ok] at h
    obtain ⟨_, _, _, _, _, _, h⟩ := h
    cases h
    exact .terminalize
  | continueEndpoint | heartbeat | replaceController | prepare | claim =>
    simp only [TaskRequest.validate, bind_eq_ok] at h
    obtain ⟨_, _, h⟩ := h
    cases h
    exact .same (by simp)
  | notStarted | observe | unavailable =>
    cases h
    exact .same (by simp)

/-- What a step has made of the rows of a task. -/
inductive RowsStep (database : Database) (operation : Operation) (taskId : String)
    (rows : AgentTaskRows) : AgentTaskRows → Prop
  | same : RowsStep database operation taskId rows rows
  | called {principal now asked request after answer}
      (hoperation : operation = .task principal taskId now asked)
      (hchecked : Checked asked request)
      (hanswer : (step database operation).answer = .ok answer)
      (hchange : Change database.keys now rows request after answer) :
      RowsStep database operation taskId rows after
  | expired {attemptId now} (hoperation : operation = .expireWake taskId attemptId now) :
      RowsStep database operation taskId rows (rows.materializeAgentTaskWakeExpiry attemptId now)

variable {rows : AgentTaskRows} {now : ℤ} {answer : Answer} {after : Database}

namespace Database

variable {database : Database} {principal : CommunicationPrincipal} {taskId : String}

theorem lookup_of_loadOwnedTask (h : database.loadOwnedTask principal taskId = .ok rows) :
    database.tasks.lookup taskId = some rows ∧ rows.owner = principal := by
  simp only [loadOwnedTask, bind_eq_ok, required_eq_ok, Option.filter_eq_some_iff, beq_iff_eq] at h
  obtain ⟨_, _, _, ⟨hrows, howner⟩, _, _, h⟩ := h
  cases h
  exact ⟨hrows, howner⟩

/-- An idempotent call that is not a replay hands out an attempt or the end of the task. -/
theorem grants_of_handle {after : AgentTaskRows} {keys : Keys} {owns : String → Bool}
    {pair : String × IdempotentRequest} (hidempotent : request.idempotent taskId = some pair)
    (h : rows.handle keys owns now request = .ok (after, answer)) : answer.grants = true := by
  cases request with
  | start | complete =>
    obtain ⟨_, _, h⟩ := bind_eq_ok.mp h
    cases h
    rfl
  | _ => cases hidempotent

/-- The task that a call is about, and what became of it. Either the call was the replay of an
earlier one, or it has changed the rows. -/
theorem callTask_cases {asked : TaskRequest}
    (h : database.callTask principal taskId now asked = .ok (after, answer)) :
    ∃ rows request, asked.validate principal taskId = .ok request ∧
      database.loadOwnedTask principal taskId = .ok rows ∧
      ((after = database ∧ ∃ key idempotent resource,
          request.idempotent taskId = some (key, idempotent) ∧
          database.lookupIdempotentResource principal idempotent key = .ok (some resource) ∧
          rows.replay resource now request = .ok answer) ∨
        ∃ changed, Change database.keys now rows request changed answer ∧
          ((request.idempotent taskId = none ∧ after = database.setTask taskId changed) ∨
            ∃ key idempotent, request.idempotent taskId = some (key, idempotent) ∧
              database.lookupIdempotentResource principal idempotent key = .ok none ∧
              answer.grants = true ∧
              after = (database.setTask taskId changed).recordIdempotentResource principal
                idempotent key answer.resource)) := by
  simp only [callTask, bind_eq_ok] at h
  obtain ⟨request, hvalid, rows, hload, h⟩ := h
  refine ⟨rows, request, hvalid, hload, ?_⟩
  cases hidempotent : request.idempotent taskId with
  | none =>
    rw [hidempotent] at h
    simp only [handle, bind_eq_ok] at h
    obtain ⟨⟨changed, _⟩, hhandle, h⟩ := h
    cases h
    exact Or.inr ⟨changed, AgentTaskRows.change_handle hhandle, Or.inl ⟨rfl, rfl⟩⟩
  | some pair =>
    obtain ⟨key, idempotent⟩ := pair
    rw [hidempotent] at h
    simp only [bind_eq_ok] at h
    obtain ⟨found, hlookup, h⟩ := h
    cases found with
    | some resource =>
      simp only [bind_eq_ok] at h
      obtain ⟨_, hreplay, h⟩ := h
      cases h
      exact Or.inl ⟨rfl, key, idempotent, resource, rfl, hlookup, hreplay⟩
    | none =>
      simp only [handle, bind_eq_ok] at h
      obtain ⟨⟨_, _⟩, ⟨⟨changed, _⟩, hhandle, hmade⟩, h⟩ := h
      cases hmade
      cases h
      exact Or.inr ⟨changed, AgentTaskRows.change_handle hhandle,
        Or.inr ⟨key, idempotent, rfl, hlookup, grants_of_handle hidempotent hhandle, rfl⟩⟩

/-- A task that was created, or the answer to a request for it that was seen before. -/
theorem createAgentTask_cases {new : NewAgentTask} {sources : Fallible Unit}
    (h : database.createAgentTask principal new sources taskId now = .ok (after, answer)) :
    ∃ task, validateNewAgentTask new = .ok task ∧
      ((after = database ∧ ∃ resource rows, answer = .created resource true ∧
          database.lookupIdempotentResource principal
            (.createAgentTask { task with idempotencyKey := "" }) task.idempotencyKey =
              .ok (some resource) ∧
          database.loadOwnedTask principal resource = .ok rows) ∨
        (answer = .created taskId false ∧ database.tasks.lookup taskId = none ∧
          validateAgentTaskId taskId = .ok () ∧
          database.lookupIdempotentResource principal
            (.createAgentTask { task with idempotencyKey := "" }) task.idempotencyKey = .ok none ∧
          after = (database.setTask taskId (task.rows principal now)).recordIdempotentResource
            principal (.createAgentTask { task with idempotencyKey := "" }) task.idempotencyKey
            taskId)) := by
  simp only [createAgentTask, bind_eq_ok] at h
  obtain ⟨_, _, task, htask, found, hlookup, h⟩ := h
  refine ⟨task, htask, ?_⟩
  cases found with
  | some resource =>
    simp only [bind_eq_ok] at h
    obtain ⟨rows, hload, h⟩ := h
    cases h
    exact Or.inl ⟨rfl, resource, rows, rfl, hlookup, hload⟩
  | none =>
    simp only [bind_eq_ok, ensure_eq_ok, Table.has, Bool.not_eq_true', Option.isSome_eq_false_iff,
      Option.isNone_iff_eq_none] at h
    obtain ⟨_, _, _, _, _, hfresh, _, hvalid, h⟩ := h
    cases h
    exact Or.inr ⟨rfl, hfresh, hvalid, hlookup, rfl⟩

end Database

theorem grants_of_replay {resource : String} (h : rows.replay resource now request = .ok answer) :
    answer.grants = false := by
  unfold AgentTaskRows.replay at h
  split at h
  · simp only [bind_eq_ok] at h
    obtain ⟨_, _, _, _, _, _, h⟩ := h
    cases h
    rfl
  · simp only [bind_eq_ok] at h
    obtain ⟨_, _, _, _, h⟩ := h
    cases h
    rfl

section Step

variable {database : Database} {operation : Operation} {taskId : String} {rows : AgentTaskRows}

theorem lookup_setTask (database : Database) (changed taskId : String) (after : AgentTaskRows) :
    (database.setTask changed after).tasks.lookup taskId =
      if taskId = changed then some after else database.tasks.lookup taskId :=
  Table.lookup_insert_eq changed after database.tasks taskId

/-- The rows of a task after a step that ended well. -/
theorem rowsStep_of_perform (hrows : database.tasks.lookup taskId = some rows)
    (h : database.perform operation = .ok (after, answer)) :
    ∃ changed, after.tasks.lookup taskId = some changed ∧
      RowsStep database operation taskId rows changed := by
  cases hoperation : operation with
  | register =>
    rw [hoperation] at h
    cases h
    exact ⟨rows, hrows, .same⟩
  | create _ _ _ created =>
    rw [hoperation] at h
    obtain ⟨task, _, ⟨rfl, _⟩ | ⟨_, hfresh, _, _, rfl⟩⟩ := Database.createAgentTask_cases h
    · exact ⟨rows, hrows, .same⟩
    · refine ⟨rows, ?_, .same⟩
      have hne : taskId ≠ created := by
        intro heq
        rw [heq, hfresh] at hrows
        cases hrows
      exact (lookup_setTask database created taskId _).trans ((if_neg hne).trans hrows)
  | task _ called =>
    have hstep := step_of_ok h
    rw [hoperation] at h
    obtain ⟨_, _, hvalid, hload, ⟨rfl, _⟩ | ⟨changed, hchange, hafter⟩⟩ :=
      Database.callTask_cases h
    · exact ⟨rows, hrows, .same⟩
    · have hlookup : after.tasks.lookup taskId =
          if taskId = called then some changed else database.tasks.lookup taskId := by
        rcases hafter with ⟨_, rfl⟩ | ⟨_, _, _, _, _, rfl⟩
        · exact lookup_setTask database called taskId changed
        · exact lookup_setTask database called taskId changed
      by_cases hsame : taskId = called
      · subst hsame
        rw [if_pos rfl] at hlookup
        obtain ⟨hloaded, _⟩ := Database.lookup_of_loadOwnedTask hload
        rw [hrows, Option.some.injEq] at hloaded
        subst hloaded
        refine ⟨changed, hlookup, .called rfl (checked_of_validate hvalid) ?_ hchange⟩
        rw [← hoperation, hstep]
      · rw [if_neg hsame] at hlookup
        exact ⟨rows, hlookup.trans hrows, .same⟩
  | expireWake expired attemptId now =>
    rw [hoperation] at h
    cases h
    have hlookup := Table.lookup_modify expired
      (fun rows : AgentTaskRows ↦ rows.materializeAgentTaskWakeExpiry attemptId now) database.tasks
      taskId
    by_cases hsame : taskId = expired
    · subst hsame
      rw [if_pos rfl, hrows] at hlookup
      exact ⟨_, hlookup, .expired rfl⟩
    · rw [if_neg hsame, hrows] at hlookup
      exact ⟨rows, hlookup, .same⟩

/-- The rows of a task after a step. -/
theorem rowsStep (hrows : database.tasks.lookup taskId = some rows) (operation : Operation) :
    ∃ changed, (next database operation).tasks.lookup taskId = some changed ∧
      RowsStep database operation taskId rows changed := by
  cases hperform : database.perform operation with
  | error =>
    refine ⟨rows, ?_, .same⟩
    unfold next
    rwa [step_of_error hperform]
  | ok outcome =>
    obtain ⟨_, _⟩ := outcome
    unfold next
    rw [step_of_ok hperform]
    exact rowsStep_of_perform hrows hperform

/-- A task that is not there before a step is there after it only when the step has created it. -/
theorem created_of_lookup {after : AgentTaskRows} (hnone : database.tasks.lookup taskId = none)
    (hafter : (next database operation).tasks.lookup taskId = some after) :
    ∃ owner now task, after = NewAgentTask.rows owner now task := by
  cases hperform : database.perform operation with
  | error =>
    unfold next at hafter
    rw [step_of_error hperform, hnone] at hafter
    cases hafter
  | ok outcome =>
    obtain ⟨made, _⟩ := outcome
    unfold next at hafter
    rw [step_of_ok hperform] at hafter
    cases operation with
    | register =>
      cases hperform
      rw [hnone] at hafter
      cases hafter
    | create principal _ _ created now =>
      obtain ⟨task, _, ⟨rfl, _⟩ | ⟨_, _, _, _, rfl⟩⟩ := Database.createAgentTask_cases hperform
      · rw [hnone] at hafter
        cases hafter
      · rw [show ((database.setTask created (task.rows principal now)).recordIdempotentResource
            principal (.createAgentTask { task with idempotencyKey := "" }) task.idempotencyKey
            created).tasks.lookup taskId = _ from lookup_setTask database created taskId
              _] at hafter
        by_cases hsame : taskId = created
        · rw [if_pos hsame, Option.some.injEq] at hafter
          exact ⟨principal, now, task, hafter.symm⟩
        · rw [if_neg hsame, hnone] at hafter
          cases hafter
    | task _ called =>
      obtain ⟨_, _, _, hload, ⟨rfl, _⟩ | ⟨changed, _, hmade⟩⟩ :=
        Database.callTask_cases hperform
      · rw [hnone] at hafter
        cases hafter
      · have hlookup : made.tasks.lookup taskId =
            if taskId = called then some changed else database.tasks.lookup taskId := by
          rcases hmade with ⟨_, rfl⟩ | ⟨_, _, _, _, _, rfl⟩
          · exact lookup_setTask database called taskId changed
          · exact lookup_setTask database called taskId changed
        have hne : taskId ≠ called := by
          intro heq
          rw [heq, (Database.lookup_of_loadOwnedTask hload).1] at hnone
          cases hnone
        rw [hlookup, if_neg hne, hnone] at hafter
        cases hafter
    | expireWake expired attemptId now =>
      cases hperform
      rw [show (database.expireWake expired attemptId now).tasks.lookup taskId = _ from
        Table.lookup_modify expired _ database.tasks taskId, hnone] at hafter
      simp at hafter

end Step

/-- What holds of the rows of a new task, and is kept by every step, holds of all rows in a run. -/
theorem rows_run {P : AgentTaskRows → Prop}
    (hcreated : ∀ owner now task, P (NewAgentTask.rows owner now task))
    (hstep : ∀ {database operation taskId rows after},
      database.tasks.lookup taskId = some rows → RowsStep database operation taskId rows after →
        P rows → P after)
    {database : Database}
    (hbefore : ∀ taskId rows, database.tasks.lookup taskId = some rows → P rows)
    (operations : List Operation) :
    ∀ taskId rows, (run database operations).tasks.lookup taskId = some rows → P rows := by
  induction operations generalizing database with
  | nil => exact hbefore
  | cons operation _ ih =>
    apply ih
    intro taskId after hafter
    cases hrows : database.tasks.lookup taskId with
    | none =>
      obtain ⟨owner, now, task, rfl⟩ := created_of_lookup hrows hafter
      exact hcreated owner now task
    | some rows =>
      obtain ⟨_, hchanged, hchange⟩ := rowsStep hrows operation
      rw [hafter, Option.some.injEq] at hchanged
      subst hchanged
      exact hstep hrows hchange (hbefore taskId rows hrows)

/-- What a step keeps of the rows of a task, as long as a condition holds, a run keeps. -/
theorem task_run {P : AgentTaskRows → Prop} {condition : Database → Operation → Prop}
    {taskId : String}
    (hstep : ∀ {database operation rows after}, database.tasks.lookup taskId = some rows →
      (next database operation).tasks.lookup taskId = some after →
      RowsStep database operation taskId rows after → condition database operation →
      P rows → P after)
    {database : Database} (hrows : database.tasks.lookup taskId = some rows) (hbefore : P rows)
    (operations : List Operation) (halong : Replay.Along next condition database operations) :
    ∃ after, (run database operations).tasks.lookup taskId = some after ∧ P after := by
  induction operations generalizing database rows with
  | nil => exact ⟨rows, hrows, hbefore⟩
  | cons operation _ ih =>
    obtain ⟨hcondition, hrest⟩ := halong
    obtain ⟨_, hchanged, hchange⟩ := rowsStep hrows operation
    exact ih hchanged (hstep hrows hchanged hchange hcondition hbefore) hrest

end WebCodex.AgentTasks
