import WebCodex.TaskStore.Moves

/-!
What the owner and the host of a task asked in a run, with the answers that they got (`history`). A
property of rows and history holds in every run when it holds for a task that starts and every
request keeps it, whether somebody hears the answer or not (`history_run`).
-/

namespace WebCodex.TaskStore

/-- Requests of the owner and the host, who hear the answer. -/
def TaskRequest.isCall : TaskRequest → Bool
  | owner _ | host _ => true
  | _ => false

/-- What the owner or the host of a task asks with an operation. -/
def Operation.calls (taskId : String) : Operation → Option TaskRequest
  | owner otherId _ _ request => if otherId = taskId then some (.owner request) else none
  | host otherId _ request => if otherId = taskId then some (.host request) else none
  | _ => none

def Operation.heard (taskId : String) (operation : Operation) (answer : Fallible Answer) :
    Option (TaskRequest × Answer) :=
  match operation.calls taskId, answer with
  | some request, .ok answer => some (request, answer)
  | _, _ => none

variable {taskId : String} {operation : Operation}

theorem heard_of_calls_none (h : operation.calls taskId = none) (answer : Fallible Answer) :
    operation.heard taskId answer = none := by
  unfold Operation.heard
  rw [h]

theorem heard_of_error {answer : Fallible Answer} {error : ConnectorTaskStoreError}
    (h : answer = .error error) :
    operation.heard taskId answer = none := by
  unfold Operation.heard
  rw [h]
  cases operation.calls taskId <;> rfl

variable {request : TaskRequest}

theorem heard_of_ok {outcome : Fallible Answer} {answer : Answer}
    (hcalls : operation.calls taskId = some request) (h : outcome = .ok answer) :
    operation.heard taskId outcome = some (request, answer) := by
  unfold Operation.heard
  rw [hcalls, h]

/-- The calls for a task in a run, with their answers. -/
def history (taskId : String) : Database → List Operation → List (TaskRequest × Answer)
  | _, [] => []
  | database, operation :: rest =>
    (operation.heard taskId (step database operation).answer).toList ++
      history taskId (step database operation).database rest

section Steps

variable {database : Database} {taskId : String} {rows : TaskRows}

/-- The rows after a call, with its answer. -/
theorem lookup_request_cases {visible : TaskRows → Bool} {missing : ConnectorTaskStoreError}
    (hrows : database.tasks.lookup taskId = some rows) :
    (∃ error, (database.request taskId visible missing request).answer = .error error ∧
        (database.request taskId visible missing request).database.tasks.lookup taskId =
          some rows) ∨
      ∃ after answer, (database.request taskId visible missing request).answer = .ok answer ∧
        (database.request taskId visible missing request).database.tasks.lookup taskId =
          some after ∧ rows.handle database.keys request = .ok (after, answer) := by
  cases hanswer : (database.request taskId visible missing request).answer with
  | error error =>
    refine Or.inl ⟨error, rfl, ?_⟩
    rw [Database.request_of_error hanswer]
    exact hrows
  | ok answer =>
    obtain ⟨after, hhandle, hafter⟩ := Database.handle_of_answer hrows hanswer
    exact Or.inr ⟨after, answer, rfl, hafter, hhandle⟩

/-- What an operation does to the rows of a task and what is heard of it. -/
inductive Heard (database : Database) (rows : TaskRows) :
    TaskRows → Option (TaskRequest × Answer) → Prop
  | nothing : Heard database rows rows none
  | call {request : TaskRequest} {after : TaskRows} {answer : Answer}
      (h : rows.handle database.keys request = .ok (after, answer)) :
      Heard database rows after (some (request, answer))
  | silent {request : TaskRequest} {after : TaskRows} {answer : Answer}
      (hcall : request.isCall = false)
      (h : rows.handle database.keys request = .ok (after, answer)) : Heard database rows after none

/-- A request that nobody hears. -/
theorem heard_of_silent {request : Option TaskRequest}
    (hcall : ∀ asked, request = some asked → asked.isCall = false) :
    Heard database rows (rows.afterRequest database.keys request) none := by
  cases request with
  | none => exact .nothing
  | some asked =>
    rw [TaskRows.afterRequest]
    cases hhandle : rows.handle database.keys asked with
    | error => exact .nothing
    | ok => exact .silent (hcall asked rfl) hhandle

/-- A call reaches the rows of the task. -/
theorem heard_of_request {visible : TaskRows → Bool} {missing : ConnectorTaskStoreError}
    (hrows : database.tasks.lookup taskId = some rows)
    (hcalls : operation.calls taskId = some request)
    (hstep : step database operation = database.request taskId visible missing request) :
    ∃ after, (step database operation).database.tasks.lookup taskId = some after ∧
      Heard database rows after (operation.heard taskId (step database operation).answer) := by
  rw [hstep]
  rcases lookup_request_cases hrows with ⟨_, hanswer, hafter⟩ |
    ⟨after, answer, hanswer, hafter, hhandle⟩
  · refine ⟨rows, hafter, ?_⟩
    rw [heard_of_error hanswer]
    exact .nothing
  · refine ⟨after, hafter, ?_⟩
    rw [heard_of_ok hcalls hanswer]
    exact .call hhandle

theorem heard_step (hrows : database.tasks.lookup taskId = some rows) (operation : Operation) :
    ∃ after, (step database operation).database.tasks.lookup taskId = some after ∧
      Heard database rows after (operation.heard taskId (step database operation).answer) := by
  have hother : ∀ {operation : Operation}, operation.calls taskId = none →
      (∀ asked, operation.reaches database taskId rows = some asked → asked.isCall = false) →
      ∃ after, (step database operation).database.tasks.lookup taskId = some after ∧
        Heard database rows after (operation.heard taskId (step database operation).answer) := by
    intro operation hcalls hsilent
    refine ⟨_, lookup_step hrows operation, ?_⟩
    rw [heard_of_calls_none hcalls]
    exact heard_of_silent hsilent
  cases operation with
  | owner otherId =>
    by_cases hsame : otherId = taskId
    · subst hsame
      exact heard_of_request hrows (if_pos rfl) rfl
    · refine hother (if_neg hsame) fun asked hasked ↦ ?_
      rw [Operation.reaches, if_neg fun h ↦ hsame h.1] at hasked
      cases hasked
  | host otherId =>
    by_cases hsame : otherId = taskId
    · subst hsame
      exact heard_of_request hrows (if_pos rfl) rfl
    · refine hother (if_neg hsame) fun asked hasked ↦ ?_
      rw [Operation.reaches, if_neg fun h ↦ hsame h.1] at hasked
      cases hasked
  | bind | start => exact hother rfl fun _ hasked ↦ by cases hasked
  | execution | abort | restart =>
    refine hother rfl fun asked hasked ↦ ?_
    rw [Operation.reaches] at hasked
    split_ifs at hasked
    obtain rfl := Option.some.inj hasked
    rfl

/-- Nothing is heard of a task that is not there. -/
theorem heard_of_none (hrows : database.tasks.lookup taskId = none) (operation : Operation) :
    operation.heard taskId (step database operation).answer = none := by
  have hmissing : ∀ visible missing request,
      (database.request taskId visible missing request).answer = .error missing := by
    intro visible missing request
    rw [Database.request, hrows]
    rfl
  cases operation with
  | owner otherId =>
    by_cases hsame : otherId = taskId
    · subst hsame
      exact heard_of_error (hmissing _ _ _)
    · refine heard_of_calls_none ?_ _
      exact if_neg hsame
  | host otherId =>
    by_cases hsame : otherId = taskId
    · subst hsame
      exact heard_of_error (hmissing _ _ _)
    · refine heard_of_calls_none ?_ _
      exact if_neg hsame
  | _ => rfl

end Steps

section Runs

variable {P : List (TaskRequest × Answer) → TaskRows → Prop}
  (hstart : ∀ task mode, P [] (TaskRows.started task mode))
  (hcall : ∀ {keys past rows request after answer}, Covers keys rows → P past rows →
    rows.handle keys request = .ok (after, answer) → P (past ++ [(request, answer)]) after)
  (hsilent : ∀ {keys past rows request after answer}, Covers keys rows → P past rows →
    request.isCall = false → rows.handle keys request = .ok (after, answer) → P past after)

include hstart hcall hsilent

/-- What every request keeps of rows and history holds in every run. -/
theorem history_run_from {database : Database} {past : List (TaskRequest × Answer)}
    (operations : List Operation) (hnone : database.tasks.lookup taskId = none → past = [])
    (hinv : ∀ rows, database.tasks.lookup taskId = some rows → P past rows) :
    ((run database operations).tasks.lookup taskId = none →
        past ++ history taskId database operations = []) ∧
      ∀ rows, (run database operations).tasks.lookup taskId = some rows →
        P (past ++ history taskId database operations) rows := by
  induction operations generalizing database past with
  | nil =>
    rw [history, List.append_nil]
    exact ⟨hnone, hinv⟩
  | cons operation _ ih =>
    rw [run_cons, history, ← List.append_assoc]
    cases hrows : database.tasks.lookup taskId with
    | none =>
      rw [heard_of_none hrows, Option.toList_none, List.append_nil, hnone hrows]
      refine ih (fun _ ↦ rfl) fun rows hafter ↦ ?_
      rcases lookup_step_of_none hrows operation with habsent | ⟨task, mode, hnew⟩
      · rw [habsent] at hafter
        cases hafter
      · rw [hnew] at hafter
        obtain rfl := Option.some.inj hafter
        exact hstart task mode
    | some rows =>
      obtain ⟨_, hafter, hheard⟩ := heard_step hrows operation
      have hbefore := hinv rows hrows
      have hcovers := covers_of_lookup hrows
      generalize operation.heard taskId (step database operation).answer = heard at hheard ⊢
      refine ih (fun habsent ↦ ?_) fun _ hother ↦ ?_
      · rw [hafter] at habsent
        cases habsent
      · rw [hafter] at hother
        obtain rfl := Option.some.inj hother
        cases hheard with
        | nothing =>
          rw [Option.toList_none, List.append_nil]
          exact hbefore
        | call hhandle => exact hcall hcovers hbefore hhandle
        | silent hquiet hhandle =>
          rw [Option.toList_none, List.append_nil]
          exact hsilent hcovers hbefore hquiet hhandle

theorem history_run (operations : List Operation) {rows : TaskRows}
    (hrows : (run {} operations).tasks.lookup taskId = some rows) :
    P (history taskId {} operations) rows := by
  have hnone : ({} : Database).tasks.lookup taskId = none →
      ([] : List (TaskRequest × Answer)) = [] :=
    fun _ ↦ rfl
  refine (history_run_from hstart hcall hsilent operations hnone fun rows hrows ↦ ?_).2 rows hrows
  cases hrows

end Runs

/-- A task that has never started has no history. -/
theorem history_of_none {operations : List Operation}
    (hrows : (run {} operations).tasks.lookup taskId = none) :
    history taskId {} operations = [] := by
  have hnone : ({} : Database).tasks.lookup taskId = none →
      ([] : List (TaskRequest × Answer)) = [] :=
    fun _ ↦ rfl
  have hfrom := history_run_from (P := fun _ _ ↦ True) (fun _ _ ↦ trivial) (fun _ _ _ ↦ trivial)
    (fun _ _ _ _ ↦ trivial) operations hnone fun _ _ ↦ trivial
  exact hfrom.1 hrows

end WebCodex.TaskStore
