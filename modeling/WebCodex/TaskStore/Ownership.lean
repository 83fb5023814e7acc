import WebCodex.TaskStore.SingleExecution

/-!
A task is never removed. It keeps its project, its subject and the ids of its executions, each of
which leads to this task and no other, and a request under another project or subject does not find
it.
-/

namespace WebCodex.TaskStore

variable {keys : Keys} {rows after : TaskRows} {asked : TaskRequest}

structure KeepsOwner (rows after : TaskRows) : Prop where
  projectId : after.projectId = rows.projectId
  ownerSubjectId : after.ownerSubjectId = rows.ownerSubjectId
  executionIds : rows.executions.map ConnectorExecution.executionId <+:
    after.executions.map ConnectorExecution.executionId

theorem keepsOwner_move (h : Move keys rows asked after) : KeepsOwner rows after := by
  have howner : after.projectId = rows.projectId ∧ after.ownerSubjectId = rows.ownerSubjectId := by
    cases h with
    | change h => cases h <;> exact ⟨rfl, rfl⟩
    | _ => exact ⟨rfl, rfl⟩
  refine ⟨howner.1, howner.2, ?_⟩
  rcases executionIds_move h with hsame | ⟨request, -, -, hids⟩
  · exact ⟨[], by rw [List.append_nil, hsame]⟩
  · exact ⟨[request.executionId], hids.symm⟩

/-- The operations on a task that name another project or another subject, with the refusal that
each of them gets. -/
inductive Trespasses (taskId : String) (rows : TaskRows) :
    Operation → ConnectorTaskStoreError → Prop
  | owner {projectId subjectId : String} (request : OwnerRequest)
      (hother : ¬ (rows.projectId = projectId ∧ rows.ownerSubjectId = subjectId)) :
      Trespasses taskId rows (.owner taskId projectId subjectId request) request.missing
  | host {projectId : String} (request : HostRequest) (hother : rows.projectId ≠ projectId) :
      Trespasses taskId rows (.host taskId projectId request) request.missing
  | materialize {projectId subjectId : String} (now : ℤ) {execution : ConnectorExecution}
      (hmem : execution ∈ rows.executions)
      (hother : ¬ (rows.projectId = projectId ∧ rows.ownerSubjectId = subjectId)) :
      Trespasses taskId rows
        (.execution execution.executionId (.materialize projectId subjectId now)) .notFound

variable {database : Database} {taskId : String}

theorem Trespasses.step_eq {operation : Operation} {error : ConnectorTaskStoreError}
    (h : Trespasses taskId rows operation error) (hrows : database.tasks.lookup taskId = some rows)
    (howner : ∀ execution ∈ rows.executions,
      database.ownerOfExecution execution.executionId = some taskId) :
    step database operation = ⟨database, .error error⟩ := by
  cases h with
  | owner request hother =>
    have hhidden := decide_eq_false hother
    rw [Bool.decide_and] at hhidden
    simp [step, Database.request, hrows, Option.filter, Bool.beq_eq_decide_eq, hhidden]
  | host request hother =>
    simp [step, Database.request, hrows, Option.filter, hother]
  | @materialize projectId subjectId now execution hmem hother =>
    have hhidden : (rows.projectId == projectId && rows.ownerSubjectId == subjectId) = false := by
      simpa using hother
    have hrefused : rows.materializeConnectorExecutionMcpTask execution.executionId projectId
        subjectId now = .error .notFound := by
      unfold TaskRows.materializeConnectorExecutionMcpTask TaskRows.loadExecution
      split <;> simp [hhidden, Foundation.ensure, bind, Except.bind]
    simp [step, howner execution hmem, Database.request, hrows, Option.filter, TaskRows.handle,
      TaskRows.handleExecution, hrefused, answered, Except.map]

/-- Whatever happens to a task later, it stays with its owner: it keeps its project, its subject and
its executions, an execution id leads back to it, and whoever names another project or another
subject is told that there is no such task and changes nothing. -/
theorem connector_task_stays_with_owner (earlier later : List Operation)
    (hrows : (run {} earlier).tasks.lookup taskId = some rows) :
    ∃ after, (run {} (earlier ++ later)).tasks.lookup taskId = some after ∧ KeepsOwner rows after ∧
      (∀ execution ∈ after.executions,
        (run {} (earlier ++ later)).ownerOfExecution execution.executionId = some taskId) ∧
      ∀ operation error, Trespasses taskId after operation error →
        step (run {} (earlier ++ later)) operation =
          ⟨run {} (earlier ++ later), .error error⟩ := by
  obtain ⟨after, hafter, hkeeps⟩ := lookup_run (P := KeepsOwner rows)
    (fun _ _ _ hkeeps hhandle ↦ by
      have hmove := keepsOwner_move (TaskRows.handle_move hhandle)
      exact ⟨hmove.projectId.trans hkeeps.projectId, hmove.ownerSubjectId.trans
        hkeeps.ownerSubjectId, hkeeps.executionIds.trans hmove.executionIds⟩)
    hrows ⟨rfl, rfl, List.prefix_rfl⟩ later (along_true later _)
  rw [← run_append] at hafter
  have howner : ∀ execution ∈ after.executions,
      (run {} (earlier ++ later)).ownerOfExecution execution.executionId = some taskId :=
    fun execution hmem ↦ ownerOfExecution_eq (separateIds_run _) hafter hmem
  exact ⟨after, hafter, hkeeps, howner, fun operation error htrespass ↦
    htrespass.step_eq hafter howner⟩

/-- The task of a survey, before and after a command is reserved for it. -/
theorem survey_stays_with_owner :
    ∃ rows after, (run {} surveyStarted).tasks.lookup "survey" = some rows ∧
    (run {} (surveyStarted ++ [surveyCommand "first" 2])).tasks.lookup "survey" = some after ∧
      KeepsOwner rows after := by
  obtain ⟨rows, hrows⟩ := Option.isSome_iff_exists.mp
    (show ((run {} surveyStarted).tasks.lookup "survey").isSome = true by decide +kernel)
  obtain ⟨after, hafter, hkeeps, -⟩ :=
    connector_task_stays_with_owner surveyStarted [surveyCommand "first" 2] hrows
  exact ⟨rows, after, hrows, hafter, hkeeps⟩

end WebCodex.TaskStore
