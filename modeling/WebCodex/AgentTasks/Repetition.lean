import WebCodex.AgentTasks.Fencing

/-!
An idempotency key is written once, with the request and the resource that it led to, and never
changed; the resource stays where it was made. So a call with the same key and request finds the
resource of the first one, and a call with the same key and another request is refused.
-/

namespace WebCodex.AgentTasks

open Foundation

/-- The principal, the key and the request of an operation that passes its checks and is
idempotent. -/
def Operation.idempotent : Operation → Option (CommunicationPrincipal × String × IdempotentRequest)
  | create principal new _ _ _ =>
    (validateCommunicationPrincipal principal >>= fun _ ↦ validateNewAgentTask new).toOption.map
      fun task ↦ (principal, task.idempotencyKey, .createAgentTask
        { task with idempotencyKey := "" })
  | task principal taskId _ asked =>
    ((asked.validate principal taskId).toOption.bind fun request ↦ request.idempotent taskId).map
      fun pair ↦ (principal, pair)
  | _ => none

def Answer.replayed : Answer → Bool
  | created _ replayed | started _ _ replayed | completed _ _ replayed => replayed
  | _ => false

/-- The task in which the resource of a request is found. -/
def IdempotentRequest.home (resource : String) : IdempotentRequest → String
  | createAgentTask _ => resource
  | startAgentTaskAttempt taskId _ | completeAgentTaskAttempt taskId _ _ => taskId

/-- The resource is among the rows of its task: it is the task itself, or one of its attempts. -/
def IdempotentRequest.found (resource : String) (rows : AgentTaskRows) : IdempotentRequest → Prop
  | createAgentTask _ => True
  | startAgentTaskAttempt _ _ => resource ∈ rows.attempts.map StoredAttempt.attemptId
  | completeAgentTaskAttempt _ asserted _ =>
    resource = asserted.attemptId ∧ resource ∈ rows.attempts.map StoredAttempt.attemptId

/-- A request was answered with a resource, which is there for its principal. -/
structure Answered (principal : CommunicationPrincipal) (key : String) (request : IdempotentRequest)
    (resource : String) (database : Database) : Prop where
  recorded : database.idempotency.lookup ⟨principal.digest, request.operation, key⟩ =
    some (request, resource)
  valid : validateAgentTaskId (request.home resource) = .ok ()
  there : ∃ rows, database.tasks.lookup (request.home resource) = some rows ∧
    rows.owner = principal ∧ request.found resource rows

variable {principal : CommunicationPrincipal} {taskId key attemptId resource : String} {now : ℤ}
  {request idempotent : IdempotentRequest}

theorem create_of_idempotent {owner : CommunicationPrincipal} {new : NewAgentTask}
    {sources : Fallible Unit}
    (h : (Operation.create owner new sources taskId now).idempotent =
      some (principal, key, request)) :
    validateCommunicationPrincipal owner = .ok () ∧ ∃ task, validateNewAgentTask new = .ok task ∧
      owner = principal ∧ task.idempotencyKey = key ∧
      IdempotentRequest.createAgentTask { task with idempotencyKey := "" } = request := by
  unfold Operation.idempotent at h
  rw [Option.map_eq_some_iff] at h
  obtain ⟨task, htask, h⟩ := h
  rw [toOption_eq_some, bind_eq_ok] at htask
  obtain ⟨_, howner, htask⟩ := htask
  rw [Prod.mk.injEq, Prod.mk.injEq] at h
  exact ⟨howner, task, htask, h⟩

variable {asked : TaskRequest}

theorem task_of_idempotent {owner : CommunicationPrincipal}
    (h : (Operation.task owner taskId now asked).idempotent = some (principal, key, request)) :
    ∃ checked, asked.validate owner taskId = .ok checked ∧
      checked.idempotent taskId = some (key, request) ∧ owner = principal := by
  unfold Operation.idempotent at h
  rw [Option.map_eq_some_iff] at h
  obtain ⟨_, hpair, h⟩ := h
  rw [Option.bind_eq_some_iff] at hpair
  obtain ⟨checked, hchecked, hpair⟩ := hpair
  obtain ⟨rfl, rfl⟩ := h
  exact ⟨checked, toOption_eq_some.mp hchecked, hpair, rfl⟩

/-! ### What stays -/

structure Grows (rows after : AgentTaskRows) : Prop where
  owner : after.owner = rows.owner
  attempts : rows.attempts.map StoredAttempt.attemptId ⊆ after.attempts.map StoredAttempt.attemptId

theorem Grows.refl (rows : AgentTaskRows) : Grows rows rows := ⟨rfl, fun _ h ↦ h⟩

variable {rows after : AgentTaskRows}

theorem Grows.of_aged (howner : after.owner = rows.owner) (haged : Aged rows after) :
    Grows rows after := by
  refine ⟨howner, ?_⟩
  obtain ⟨f, hf, hattempts⟩ := haged.attempts
  rw [hattempts, List.map_map, show StoredAttempt.attemptId ∘ f = StoredAttempt.attemptId from
    funext hf.attemptId]
  exact fun _ h ↦ h

theorem Grows.trans {first middle last : AgentTaskRows} (h : Grows first middle)
    (h' : Grows middle last) : Grows first last :=
  ⟨h'.owner.trans h.owner, fun _ hid ↦ h'.attempts (h.attempts hid)⟩

theorem owner_materialize (rows : AgentTaskRows) (now : ℤ) :
    (rows.materializeExpiredLatestAttempt now).owner = rows.owner := by
  unfold AgentTaskRows.materializeExpiredLatestAttempt
  split
  · rfl
  · split_ifs <;> rfl

theorem owner_wakeExpiry (rows : AgentTaskRows) (attemptId : String) (now : ℤ) :
    (rows.materializeAgentTaskWakeExpiry attemptId now).owner = rows.owner := by
  unfold AgentTaskRows.materializeAgentTaskWakeExpiry
  dsimp only
  split_ifs <;> rfl

theorem grows_materialize (rows : AgentTaskRows) (now : ℤ) :
    Grows rows (rows.materializeExpiredLatestAttempt now) :=
  .of_aged (owner_materialize rows now) (aged_materialize rows now)

/-- The attempts after an update of one of them. -/
theorem grows_setAttempt {f : StoredAttempt → StoredAttempt}
    (hf : ∀ attempt, (f attempt).attemptId = attempt.attemptId) :
    Grows rows (rows.setAttempt attemptId f) := by
  refine ⟨rfl, ?_⟩
  show _ ⊆ (rows.attempts.map (updateRow StoredAttempt.attemptId attemptId f)).map _
  rw [map_view_updateRow hf]
  exact fun _ h ↦ h

theorem grows_terminate (rows : AgentTaskRows) (attemptId : String) (outcome : AgentTaskState)
    (state : AgentTaskAttemptState) (result reason : Option String) (now : ℤ) :
    Grows rows (rows.terminate attemptId outcome state result reason now) := by
  refine ⟨rfl, ?_⟩
  exact (grows_setAttempt (f := fun attempt ↦ { attempt with
    storedState := state, terminalAt := some now, terminalResult := result,
    terminalReason := reason }) fun _ ↦ rfl).attempts

theorem grows_terminalizeWith (rows : AgentTaskRows) (attemptId : String) (outcome : AgentTaskState)
    (result reason : Option String) (now : ℤ) :
    Grows rows (rows.terminalizeWith attemptId outcome result reason now) :=
  ⟨rfl, (grows_terminate rows attemptId outcome outcome.attemptState result reason now).attempts⟩

variable {answer : Answer}

theorem grows_change {keys : Keys} {request : TaskRequest}
    (hchange : Change keys now rows request after answer) : Grows rows after := by
  cases hchange with
  | kept => exact Grows.refl rows
  | expired => exact grows_materialize rows now
  | assigned => exact (grows_materialize rows now).trans ⟨rfl, fun _ h ↦ h⟩
  | started =>
    refine (grows_materialize rows now).trans ⟨rfl, ?_⟩
    intro _ hid
    exact List.map_subset _ (List.subset_append_left _ _) hid
  | renewed _ _ hf => exact (grows_setAttempt hf.attemptId).trans ⟨rfl, fun _ h ↦ h⟩
  | continued | prepared | rebound | dispatched | notStarted | observed | unavailable =>
    exact ⟨rfl, fun _ h ↦ h⟩
  | completed => exact grows_terminate rows _ _ _ _ _ now
  | terminalized _ _ hmerged =>
    rcases hmerged with rfl | rfl
    · exact grows_terminalizeWith _ _ _ _ _ now
    · exact ⟨rfl, (grows_terminalizeWith _ _ _ _ _ now).attempts⟩

variable {database : Database} {operation : Operation}

theorem grows_step (h : RowsStep database operation taskId rows after) :
    Grows rows after := by
  cases h with
  | same => exact Grows.refl rows
  | called _ _ _ hchange => exact grows_change hchange
  | expired => exact .of_aged (owner_wakeExpiry rows _ _) (aged_wakeExpiry rows _ _)

theorem found_of_grows (h : request.found resource rows) (hgrows : Grows rows after) :
    request.found resource after := by
  cases request with
  | createAgentTask => trivial
  | startAgentTaskAttempt => exact hgrows.attempts h
  | completeAgentTaskAttempt => exact ⟨h.1, hgrows.attempts h.2⟩

/-- A key is recorded only when it was not there. -/
theorem lookup_recordIdempotentResource (database : Database) {other : IdempotencyKey}
    {entry : IdempotentRequest × String}
    (hnone : database.lookupIdempotentResource principal request key = .ok none)
    (hentry : database.idempotency.lookup other = some entry) :
    (database.recordIdempotentResource principal request key resource).idempotency.lookup other =
      some entry := by
  refine (Table.lookup_insert_eq _ _ _ _).trans ?_
  by_cases hsame : other = ⟨principal.digest, request.operation, key⟩
  · rw [hsame] at hentry
    unfold Database.lookupIdempotentResource at hnone
    rw [hentry] at hnone
    simp only [bind_eq_ok] at hnone
    obtain ⟨_, _, hnone⟩ := hnone
    cases hnone
  · rw [if_neg hsame]
    exact hentry

/-- What was recorded for a key stays. -/
theorem idempotency_next {key : IdempotencyKey} {entry : IdempotentRequest × String}
    (hentry : database.idempotency.lookup key = some entry) :
    (next database operation).idempotency.lookup key = some entry := by
  cases hperform : database.perform operation with
  | error =>
    unfold next
    rwa [step_of_error hperform]
  | ok outcome =>
    obtain ⟨_, _⟩ := outcome
    unfold next
    rw [step_of_ok hperform]
    cases operation with
    | register | expireWake =>
      cases hperform
      exact hentry
    | create _ _ _ taskId =>
      obtain ⟨task, _, ⟨rfl, _⟩ | ⟨_, _, _, hnone, rfl⟩⟩ := Database.createAgentTask_cases hperform
      · exact hentry
      · exact lookup_recordIdempotentResource (database.setTask taskId _) hnone hentry
    | task _ taskId =>
      obtain ⟨_, _, _, _, ⟨rfl, _⟩ | ⟨changed, _, ⟨_, rfl⟩ | ⟨_, _, _, hnone, _, rfl⟩⟩⟩ :=
        Database.callTask_cases hperform
      · exact hentry
      · exact hentry
      · exact lookup_recordIdempotentResource (database.setTask taskId changed) hnone hentry

namespace Answered

variable {principal : CommunicationPrincipal} {key resource : String} {request : IdempotentRequest}
  {database : Database}

theorem next (h : Answered principal key request resource database) (operation : Operation) :
    Answered principal key request resource (next database operation) := by
  obtain ⟨_, hrows, howner, hfound⟩ := h.there
  obtain ⟨after, hafter, hstep⟩ := rowsStep hrows operation
  have hgrows := grows_step hstep
  exact ⟨idempotency_next h.recorded, h.valid, after, hafter, hgrows.owner.trans howner,
    found_of_grows hfound hgrows⟩

theorem run (h : Answered principal key request resource database) (operations : List Operation) :
    Answered principal key request resource (run database operations) := by
  induction operations generalizing database with
  | nil => exact h
  | cons operation _ ih => exact ih (h.next operation)

end Answered

/-! ### Resources -/

theorem validateAgentTaskId_of_loadOwnedTask
    (h : database.loadOwnedTask principal taskId = .ok rows) :
    validateAgentTaskId taskId = .ok () := by
  simp only [Database.loadOwnedTask, bind_eq_ok] at h
  obtain ⟨_, hvalid, _⟩ := h
  exact hvalid

theorem mem_of_findAttempt {attempt : StoredAttempt}
    (h : rows.findAttempt attemptId = some attempt) :
    attemptId ∈ rows.attempts.map StoredAttempt.attemptId := by
  rw [← AgentTaskRows.attemptId_of_findAttempt h]
  exact List.mem_map_of_mem (List.mem_of_find?_eq_some h)

/-- The resource of a replay is the one that was recorded, and it is there. -/
theorem found_of_replay {request : TaskRequest}
    (hidempotent : request.idempotent taskId = some (key, idempotent))
    (h : rows.replay resource now request = .ok answer) :
    answer.resource = resource ∧ idempotent.home resource = taskId ∧
      idempotent.found resource rows := by
  cases request with
  | start =>
    cases hidempotent
    simp only [AgentTaskRows.replay, AgentTaskRows.loadAttemptForTask, bind_eq_ok,
      required_eq_ok] at h
    obtain ⟨_, ⟨_, _, hload⟩, attempt, hattempt, h⟩ := h
    cases hload
    cases h
    exact ⟨AgentTaskRows.attemptId_of_findAttempt hattempt, rfl, mem_of_findAttempt hattempt⟩
  | complete =>
    cases hidempotent
    simp only [AgentTaskRows.replay, AgentTaskRows.loadAttemptForTask, bind_eq_ok, required_eq_ok,
      ensure_eq_ok, beq_iff_eq] at h
    obtain ⟨_, rfl, _, ⟨_, _, hload⟩, attempt, hattempt, h⟩ := h
    cases hload
    cases h
    exact ⟨AgentTaskRows.attemptId_of_findAttempt hattempt, rfl, rfl, mem_of_findAttempt hattempt⟩
  | _ => cases hidempotent

/-- A new resource is there. -/
theorem found_of_change {keys : Keys} {request : TaskRequest}
    (hidempotent : request.idempotent taskId = some (key, idempotent))
    (hchange : Change keys now rows request after answer) (hgrants : answer.grants = true) :
    idempotent.home answer.resource = taskId ∧ idempotent.found answer.resource after := by
  cases request with
  | start =>
    cases hidempotent
    cases hchange with
    | kept hquiet => simp [hquiet] at hgrants
    | renewed hasked => cases hasked
    | observed hquiet => simp [hquiet] at hgrants
    | started =>
      refine ⟨rfl, ?_⟩
      exact List.mem_map_of_mem (List.mem_append_right _ (List.mem_singleton_self _))
  | complete asserted =>
    cases hidempotent
    cases hchange with
    | kept hquiet => simp [hquiet] at hgrants
    | renewed _ _ _ hquiet => simp [hquiet] at hgrants
    | observed hquiet => simp [hquiet] at hgrants
    | completed hcurrent hrecord =>
      obtain ⟨attempt, hattempt, _⟩ := hcurrent.attempt
      refine ⟨rfl, hrecord, ?_⟩
      rw [show (Answer.completed _ _ false).resource = asserted.attemptId from hrecord]
      exact (grows_terminate rows _ _ _ _ _ now).attempts (mem_of_findAttempt hattempt)
  | _ => cases hidempotent

/-! ### The first call and its repetition -/

/-- After a call that ended well, its request is answered. -/
theorem answered_of_step (hidempotent : operation.idempotent = some (principal, key, request))
    (h : (step database operation).answer = .ok answer) :
    Answered principal key request answer.resource (next database operation) := by
  cases hperform : database.perform operation with
  | error =>
    rw [step_of_error hperform] at h
    cases h
  | ok outcome =>
    obtain ⟨_, _⟩ := outcome
    unfold next
    rw [step_of_ok hperform] at h ⊢
    cases h
    cases operation with
    | register | expireWake => cases hidempotent
    | create owner _ _ taskId now =>
      obtain ⟨task, htask, hcase⟩ := Database.createAgentTask_cases hperform
      obtain ⟨_, made, hmade, rfl, rfl, rfl⟩ := create_of_idempotent hidempotent
      rw [htask, Except.ok.injEq] at hmade
      subst hmade
      rcases hcase with ⟨rfl, resource, rows, rfl, hlookup, hload⟩ | ⟨rfl, _, hvalid, _, rfl⟩
      · obtain ⟨hrows, howner⟩ := Database.lookup_of_loadOwnedTask hload
        exact ⟨entry_of_lookupIdempotentResource hlookup,
          validateAgentTaskId_of_loadOwnedTask hload, rows, hrows, howner, trivial⟩
      · refine ⟨(Table.lookup_insert_eq _ _ _ _).trans (if_pos rfl), hvalid,
          task.rows owner now, ?_, rfl, trivial⟩
        exact (lookup_setTask database taskId taskId _).trans (if_pos rfl)
    | task owner taskId =>
      obtain ⟨rows, _, hvalid, hload, hcase⟩ := Database.callTask_cases hperform
      obtain ⟨hrows, howner⟩ := Database.lookup_of_loadOwnedTask hload
      have htask := validateAgentTaskId_of_loadOwnedTask hload
      obtain ⟨made, hmade, hpair, rfl⟩ := task_of_idempotent hidempotent
      rw [hvalid, Except.ok.injEq] at hmade
      subst hmade
      rcases hcase with ⟨rfl, key', request', resource, hpair', hlookup, hreplay⟩ |
        ⟨changed, hchange, ⟨hnone, _⟩ | ⟨key', request', hpair', hlookup, hgrants, rfl⟩⟩
      · rw [hpair, Option.some.injEq, Prod.mk.injEq] at hpair'
        obtain ⟨rfl, rfl⟩ := hpair'
        obtain ⟨rfl, hhome, hfound⟩ := found_of_replay hpair hreplay
        refine ⟨entry_of_lookupIdempotentResource hlookup, ?_, rows, ?_, howner, hfound⟩
        · rwa [hhome]
        · rwa [hhome]
      · rw [hpair] at hnone
        cases hnone
      · rw [hpair, Option.some.injEq, Prod.mk.injEq] at hpair'
        obtain ⟨rfl, rfl⟩ := hpair'
        obtain ⟨hhome, hfound⟩ := found_of_change hpair hchange hgrants
        refine ⟨(Table.lookup_insert_eq _ _ _ _).trans (if_pos rfl), ?_, changed, ?_,
          (grows_change hchange).owner.trans howner, hfound⟩
        · rwa [hhome]
        · rw [hhome]
          exact (lookup_setTask database taskId taskId changed).trans (if_pos rfl)

/-- The latest attempt of rows that agree can be loaded. -/
theorem Consistent.loadLatestAttempt (h : Consistent rows) : rows.loadLatestAttempt = .ok () := by
  unfold AgentTaskRows.loadLatestAttempt
  split
  · rfl
  · rename_i attemptId hlatest
    have hlast := h.latest
    rw [hlatest, eq_comm, Option.map_eq_some_iff] at hlast
    obtain ⟨attempt, hattempt, rfl⟩ := hlast
    have hmem := List.mem_of_getLast? hattempt
    unfold AgentTaskRows.loadAttemptForTask
    rw [h.valid attempt hmem, h.findAttempt_of_mem hmem]
    rfl

theorem loadOwnedTask_of_lookup (hvalid : validateAgentTaskId taskId = .ok ())
    (hrows : database.tasks.lookup taskId = some rows) (hconsistent : Consistent rows) :
    database.loadOwnedTask rows.owner taskId = .ok rows := by
  unfold Database.loadOwnedTask
  simp only [hvalid, hrows, Option.filter, beq_self_eq_true, if_true, required,
    hconsistent.loadLatestAttempt, bind, Except.bind, pure, Except.pure]

theorem lookupIdempotentResource_of_entry
    (h : database.idempotency.lookup ⟨principal.digest, request.operation, key⟩ =
      some (request, resource)) :
    database.lookupIdempotentResource principal request key = .ok (some resource) := by
  unfold Database.lookupIdempotentResource
  rw [h]
  simp [ensure, bind, Except.bind, pure, Except.pure]

theorem lookupIdempotentResource_conflict {other : IdempotentRequest}
    (h : database.idempotency.lookup ⟨principal.digest, request.operation, key⟩ =
      some (other, resource))
    (hne : other ≠ request) :
    database.lookupIdempotentResource principal request key =
      .error Database.idempotencyConflict := by
  unfold Database.lookupIdempotentResource
  rw [h]
  simp [ensure, hne, bind, Except.bind]

/-- The replay finds a resource that is there. -/
theorem replay_of_found (now : ℤ) {request : TaskRequest} (hconsistent : Consistent rows)
    (hidempotent : request.idempotent taskId = some (key, idempotent))
    (hfound : idempotent.found resource rows) :
    ∃ answer, rows.replay resource now request = .ok answer ∧ answer.resource = resource ∧
      answer.replayed = true := by
  have hload : resource ∈ rows.attempts.map StoredAttempt.attemptId → ∃ attempt,
      rows.loadAttemptForTask resource = .ok (some attempt) ∧ attempt.attemptId = resource := by
    intro hmem
    obtain ⟨attempt, hattempt, rfl⟩ := List.mem_map.mp hmem
    refine ⟨attempt, ?_, rfl⟩
    unfold AgentTaskRows.loadAttemptForTask
    rw [hconsistent.valid attempt hattempt, hconsistent.findAttempt_of_mem hattempt]
    rfl
  cases request with
  | start =>
    cases hidempotent
    obtain ⟨attempt, hattempt, hid⟩ := hload hfound
    refine ⟨.started (attempt.record now) attempt.attemptFence true, ?_, hid, rfl⟩
    unfold AgentTaskRows.replay
    rw [hattempt]
    rfl
  | complete =>
    cases hidempotent
    obtain ⟨rfl, hmem⟩ := hfound
    obtain ⟨attempt, hattempt, hid⟩ := hload hmem
    refine ⟨.completed (attempt.record now) 0 true, ?_, hid, rfl⟩
    unfold AgentTaskRows.replay
    simp only [beq_self_eq_true, ensure, if_true, hattempt, required, bind, Except.bind, pure,
      Except.pure]
  | _ => cases hidempotent

theorem home_of_idempotent {request : TaskRequest} (resource : String)
    (h : request.idempotent taskId = some (key, idempotent)) :
    idempotent.home resource = taskId := by
  cases request with
  | start | complete =>
    cases h
    rfl
  | assign | continueEndpoint | heartbeat | replaceController | prepare | claim | notStarted
  | observe | unavailable | terminalize => cases h

/-- A repeated request gets the resource of the first one, and changes nothing. -/
theorem replayed_of_answered
    (hconsistent : ∀ taskId rows, database.tasks.lookup taskId = some rows → Consistent rows)
    (hanswered : Answered principal key request resource database)
    (hidempotent : operation.idempotent = some (principal, key, request)) :
    ∃ answer, step database operation = ⟨database, .ok answer⟩ ∧ answer.resource = resource ∧
      answer.replayed = true := by
  obtain ⟨rows, hrows, howner, hfound⟩ := hanswered.there
  have hload := loadOwnedTask_of_lookup hanswered.valid hrows (hconsistent _ _ hrows)
  have hlookup := lookupIdempotentResource_of_entry hanswered.recorded
  rw [howner] at hload
  cases operation with
  | register | expireWake => cases hidempotent
  | create owner =>
    obtain ⟨hprincipal, task, htask, rfl, rfl, rfl⟩ := create_of_idempotent hidempotent
    refine ⟨.created resource true, step_of_ok ?_, rfl, rfl⟩
    simp only [Database.perform, Database.createAgentTask, hprincipal, htask, hlookup, bind,
      Except.bind, pure, Except.pure]
    rw [show database.loadOwnedTask owner resource = .ok rows from hload]
  | task _ _ now =>
    obtain ⟨_, hchecked, hpair, rfl⟩ := task_of_idempotent hidempotent
    rw [home_of_idempotent resource hpair] at hload hrows
    obtain ⟨answer, hreplay, hresource, hreplayed⟩ :=
      replay_of_found now (hconsistent _ _ hrows) hpair hfound
    refine ⟨answer, step_of_ok ?_, hresource, hreplayed⟩
    simp only [Database.perform, Database.callTask, hchecked, hload, hpair, hlookup, hreplay, bind,
      Except.bind, pure, Except.pure]

/-- The checks of an idempotent call look at the id of its task. -/
theorem validateAgentTaskId_of_validate {checked : TaskRequest} {pair : String × IdempotentRequest}
    (h : asked.validate principal taskId = .ok checked)
    (hpair : checked.idempotent taskId = some pair) :
    validateAgentTaskId taskId = .ok () := by
  cases asked with
  | start =>
    simp only [TaskRequest.validate, bind_eq_ok] at h
    obtain ⟨_, _, _, hvalid, _⟩ := h
    exact hvalid
  | complete =>
    simp only [TaskRequest.validate, validateAttemptMutationInputs, bind_eq_ok] at h
    obtain ⟨_, ⟨_, _, _, hvalid, _⟩, _⟩ := h
    exact hvalid
  | assign | continueEndpoint | heartbeat | replaceController | prepare | claim | notStarted
  | observe | unavailable | terminalize =>
    cases checked_of_validate h <;> cases hpair

/-- A key that was used for another request is refused, and nothing changes. -/
theorem refused_of_answered {other : IdempotentRequest}
    (hconsistent : ∀ taskId rows, database.tasks.lookup taskId = some rows → Consistent rows)
    (hanswered : Answered principal key other resource database)
    (hidempotent : operation.idempotent = some (principal, key, request))
    (hoperation : request.operation = other.operation) (hne : request ≠ other) :
    step database operation = ⟨database, .error Database.idempotencyConflict⟩ ∨
      step database operation = ⟨database, .error Database.taskNotFound⟩ := by
  have hrecorded := hanswered.recorded
  rw [← hoperation] at hrecorded
  have hlookup := lookupIdempotentResource_conflict hrecorded hne.symm
  cases operation with
  | register | expireWake => cases hidempotent
  | create =>
    obtain ⟨hprincipal, task, htask, rfl, rfl, rfl⟩ := create_of_idempotent hidempotent
    refine Or.inl (step_of_error ?_)
    simp only [Database.perform, Database.createAgentTask, hprincipal, htask, hlookup, bind,
      Except.bind]
  | task owner taskId =>
    obtain ⟨_, hchecked, hpair, rfl⟩ := task_of_idempotent hidempotent
    have hvalid := validateAgentTaskId_of_validate hchecked hpair
    by_cases hhas : ∃ rows, database.tasks.lookup taskId = some rows ∧ rows.owner = owner
    · obtain ⟨rows, hrows, rfl⟩ := hhas
      have hload := loadOwnedTask_of_lookup hvalid hrows (hconsistent _ _ hrows)
      refine Or.inl (step_of_error ?_)
      simp only [Database.perform, Database.callTask, hchecked, hload, hpair, hlookup, bind,
        Except.bind]
    · have hload : database.loadOwnedTask owner taskId = .error Database.taskNotFound := by
        have hnone : (database.tasks.lookup taskId).filter (fun rows ↦ rows.owner == owner) =
            none := by
          rw [Option.filter_eq_none_iff]
          intro rows hrows howner
          exact hhas ⟨rows, hrows, by simpa using howner⟩
        unfold Database.loadOwnedTask
        simp only [hvalid, hnone, required, bind, Except.bind]
      refine Or.inr (step_of_error ?_)
      simp only [Database.perform, Database.callTask, hchecked, hload, bind, Except.bind]

/-! ### The guarantees of the store -/

/-- The rows of a task, as every state shows them: at most one attempt is active, the attempts are
numbered from one without gap, an attempt is bound to one backend at most, and a task that has ended
was ended by its latest attempt, whose state is that of the task. -/
structure Sound (rows : AgentTaskRows) : Prop where
  active : ∀ first ∈ rows.attempts, ∀ second ∈ rows.attempts,
    first.storedState = .active → second.storedState = .active → first = second
  numbers : rows.attempts.map StoredAttempt.attemptNumber = countUp rows.attempts.length
  backends : (rows.codingRuns.map CodingRunBinding.attemptId ++
    rows.endpointExecutions.map EndpointExecution.attemptId).Nodup
  ended : rows.storedState.terminal = true → ∃ attempt ∈ rows.attempts,
    rows.terminalAttemptId = some attempt.attemptId ∧ rows.latestAttemptId =
      some attempt.attemptId ∧
      attempt.storedState = rows.storedState.attemptState

theorem Consistent.sound (h : Consistent rows) : Sound rows := by
  refine ⟨?_, h.numbers, h.backends, h.ended⟩
  intro first hfirst second hsecond hfirstActive hsecondActive
  have hsame := (h.active first hfirst hfirstActive).symm.trans
    (h.active second hsecond hsecondActive)
  rw [Option.some.injEq] at hsame
  exact List.inj_on_of_nodup_map h.ids hfirst hsecond hsame

/-- What a call may do that was made for an attempt. One that asserts an attempt changes nothing
unless the attempt is current, and is refused or repeats an accepted call exactly; a report on a
coding run is accepted whatever has become of its attempt, and leaves attempts and outcome alone;
the run of an attempt that is not the latest ends no task. -/
structure Fenced (database : Database) : Prop where
  asserted : ∀ principal taskId now asked asserted, asked.asserted = some asserted →
    (∀ rows, database.tasks.lookup taskId = some rows → ¬ Current asserted now rows) →
    Unchanged database (next database (.task principal taskId now asked)) ∧
      ((∃ error, (step database (.task principal taskId now asked)).answer = .error error) ∨
        ∃ rows request answer, database.tasks.lookup taskId = some rows ∧ rows.owner = principal ∧
          asked.validate principal taskId = .ok request ∧
          Repeats database taskId now rows asserted request answer ∧
          (step database (.task principal taskId now asked)).answer = .ok answer)
  accepted : ∀ taskId now asked rows binding, validateAgentTaskId taskId = .ok () →
    database.tasks.lookup taskId = some rows →
    rows.loadCodingRunBindingForAttempt binding.attemptId = some binding →
      asked.isAbout binding = true →
    ∃ updated, (step database (.task rows.owner taskId now asked)).answer = .ok (.observed updated)
  reports : ∀ principal taskId now asked rows after, asked.reports = true →
    database.tasks.lookup taskId = some rows →
    (next database (.task principal taskId now asked)).tasks.lookup taskId = some after →
    Untouched rows after
  superseded : ∀ principal taskId now asked attemptId rows, asked.terminalizes = some attemptId →
    database.tasks.lookup taskId = some rows → rows.latestAttemptId ≠ some attemptId →
    ∃ error, step database (.task principal taskId now asked) = ⟨database, .error error⟩

/-- A report passes no checks of its own, and is not idempotent. -/
theorem report_validates {binding : CodingRunBinding} (h : asked.isAbout binding = true) :
    asked.validate principal taskId = .ok asked ∧ asked.idempotent taskId = none := by
  cases asked with
  | notStarted | observe | unavailable => exact ⟨rfl, rfl⟩
  | assign | start | continueEndpoint | heartbeat | replaceController | complete | prepare | claim
  | terminalize => cases h

theorem Checked.reports {request : TaskRequest} (h : Checked asked request) :
    request.reports = asked.reports := by
  cases h <;> rfl

theorem Checked.terminalizes {request : TaskRequest} (h : Checked asked request) :
    request.terminalizes = asked.terminalizes := by
  cases h <;> rfl

theorem idempotent_of_terminalizes {request : TaskRequest}
    (h : request.terminalizes = some attemptId) :
    request.idempotent taskId = none := by
  cases request <;> first | rfl | cases h

theorem fenced (hconsistent : ∀ taskId rows, database.tasks.lookup taskId = some rows →
      Consistent rows) :
    Fenced database := by
  refine ⟨fun _ _ _ _ _ ↦ call_is_fenced, ?_, ?_, ?_⟩
  · intro taskId now asked rows _ hvalid hrows hbinding habout
    obtain ⟨hchecked, hnone⟩ := @report_validates rows.owner taskId _ _ habout
    obtain ⟨after, updated, hhandle⟩ := @report_is_accepted _ _ database.keys now _ hbinding habout
      fun agentId ↦ database.owns rows.owner agentId
    have hperform : database.perform (.task rows.owner taskId now asked) =
        .ok (database.setTask taskId after, .observed updated) := by
      simp only [Database.perform, Database.callTask, hchecked,
        loadOwnedTask_of_lookup hvalid hrows (hconsistent _ _ hrows), hnone, Database.handle,
        hhandle, bind, Except.bind]
      rfl
    exact ⟨updated, congrArg Outcome.answer (step_of_ok hperform)⟩
  · intro principal taskId now asked rows after hreports hrows hafter
    obtain ⟨changed, hchanged, hstep⟩ := rowsStep hrows (.task principal taskId now asked)
    rw [hafter, Option.some.injEq] at hchanged
    subst hchanged
    cases hstep with
    | same => exact ⟨rfl, rfl, rfl, rfl⟩
    | called hoperation hchecked _ hchange =>
      cases hoperation
      exact untouched_of_reports (hchecked.reports.trans hreports) hchange
    | expired hoperation => cases hoperation
  · intro principal taskId now asked _ rows hends hrows hlatest
    cases hperform : database.perform (.task principal taskId now asked) with
    | error error => exact ⟨error, step_of_error hperform⟩
    | ok outcome =>
      exfalso
      obtain ⟨after, answer⟩ := outcome
      obtain ⟨_, _, hvalid, hload, hcase⟩ := Database.callTask_cases hperform
      obtain ⟨hloaded, _⟩ := Database.lookup_of_loadOwnedTask hload
      rw [hrows, Option.some.injEq] at hloaded
      subst hloaded
      have hrequest := (checked_of_validate hvalid).terminalizes.trans hends
      rcases hcase with ⟨_, _, _, _, hpair, _, _⟩ | ⟨changed, hchange, _⟩
      · rw [idempotent_of_terminalizes hrequest] at hpair
        cases hpair
      · exact hlatest (latest_of_terminalizes hrequest hchange)

/-- In every state that any sequence of calls with any arguments and clock values leads to: the rows
of every task are sound; calls are fenced; the outcome of a task that has ended stays, whatever is
called later; and a call that repeats an idempotency key, for the same operation and by the same
principal, is answered with the resource of the first call when it asks the same, and refused when
it asks something else, and changes nothing in both cases. -/
theorem attempts_are_fenced (operations : List Operation) :
    (∀ taskId rows, (run {} operations).tasks.lookup taskId = some rows → Sound rows) ∧
      Fenced (run {} operations) ∧
      (∀ taskId rows later, (run {} operations).tasks.lookup taskId = some rows →
        rows.storedState.terminal = true →
        ∃ after, (run {} (operations ++ later)).tasks.lookup taskId = some after ∧
          after.storedState = rows.storedState ∧
          after.terminalAttemptId = rows.terminalAttemptId) ∧
      ∀ (first : Operation) (between : List Operation) (second : Operation)
        (principal : CommunicationPrincipal) (key : String) (request other : IdempotentRequest)
        (answer : Answer),
        first.idempotent = some (principal, key, request) →
        (step (run {} operations) first).answer = .ok answer →
        second.idempotent = some (principal, key, other) → other.operation = request.operation →
        (other = request → ∃ again,
          step (run {} (operations ++ first :: between)) second =
            ⟨run {} (operations ++ first :: between), .ok again⟩ ∧
          again.resource = answer.resource ∧ again.replayed = true) ∧
        (other ≠ request →
          step (run {} (operations ++ first :: between)) second =
            ⟨run {} (operations ++ first :: between), .error Database.idempotencyConflict⟩ ∨
          step (run {} (operations ++ first :: between)) second =
            ⟨run {} (operations ++ first :: between), .error Database.taskNotFound⟩) := by
  refine ⟨fun taskId rows hrows ↦ (consistent_run operations taskId rows hrows).sound,
    fenced (consistent_run operations), ?_, ?_⟩
  · intro taskId rows later hrows hterminal
    rw [run_append]
    exact outcome_run hrows hterminal later
  · intro first between second principal key request other answer hfirst hanswer hsecond hoperation
    have hanswered := (answered_of_step hfirst hanswer).run between
    have hconsistent := consistent_run (operations ++ first :: between)
    rw [run_append, run_cons] at hconsistent ⊢
    constructor
    · rintro rfl
      exact replayed_of_answered hconsistent hanswered hsecond
    · intro hne
      exact refused_of_answered hconsistent hanswered hsecond hoperation hne

/-- The survey with its attempt continued at an endpoint. -/
def surveyContinued : List Operation :=
  surveyStart ++ [.task surveyOwner surveyTask 1 (.continueEndpoint surveyAssertion "wake")]

/-- The lease of its attempt has run out after a minute. -/
theorem not_current_surveyContinued :
    ∀ rows, (run {} surveyContinued).tasks.lookup surveyTask = some rows →
    ¬ Current surveyAssertion 60000 rows := by
  rintro rows hrows ⟨_, _, _, attempt, hattempt, _, _, _, _, _⟩
  have hexpired : (((run {} surveyContinued).tasks.lookup surveyTask).bind fun rows ↦
      rows.findAttempt surveyAttempt.attemptId).map StoredAttempt.leaseExpiresAt = some 60000 := by
    decide +kernel
  rw [hrows, Option.bind_some, show rows.findAttempt surveyAttempt.attemptId = some attempt from
    hattempt, Option.map_some, Option.some.injEq] at hexpired
  omega

/-- A call for an attempt whose lease has run out, with the right fence, assignee and generation,
that is answered all the same: it repeats the start of a continuation. -/
theorem expired_continuation_is_answered :
    (∀ rows, (run {} surveyContinued).tasks.lookup surveyTask = some rows →
      ¬ Current surveyAssertion 60000 rows) ∧
    (step (run {} surveyContinued)
        (.task surveyOwner surveyTask 60000 (.continueEndpoint surveyAssertion "again"))).answer =
      .ok (.continued ⟨surveyAttempt.attemptId, "wake", surveyAssertion, 1⟩ true) :=
  ⟨not_current_surveyContinued, by decide +kernel⟩

/-- The guarantees for the survey: its second start with the first key is answered with the first
attempt, a late repetition of its continuation changes nothing, and a late report on its coding run
is accepted. -/
theorem attempts_are_fenced_survey :
    (∃ again, step (run {} surveyStart)
        (.task surveyOwner surveyTask 9 (.start surveyAgent "first" ⟨"other", "other"⟩)) =
          ⟨run {} surveyStart, .ok again⟩ ∧ again.resource = surveyAttempt.attemptId) ∧
      Unchanged (run {} surveyContinued) (next (run {} surveyContinued)
        (.task surveyOwner surveyTask 60000 (.continueEndpoint surveyAssertion "again"))) ∧
      ∃ rows updated, (run {} surveyPrepared).tasks.lookup surveyTask = some rows ∧
        (step (run {} surveyPrepared) (.task rows.owner surveyTask 90000
          (.notStarted surveyAttempt.attemptId surveyIntent.runId))).answer =
            .ok (.observed updated) := by
  have hguarantee := (attempts_are_fenced surveyRegistered).2.2.2
    (.task surveyOwner surveyTask 0 (.start surveyAgent "first" surveyAttempt)) []
    (.task surveyOwner surveyTask 9 (.start surveyAgent "first" ⟨"other", "other"⟩))
      surveyOwner "first"
    (.startAgentTaskAttempt surveyTask surveyAgent) (.startAgentTaskAttempt surveyTask surveyAgent)
    (.started
      { attemptId := surveyAttempt.attemptId
        attemptNumber := 1
        assigneeAgentId := surveyAgent
        state := .active
        leaseExpiresAt := 60000
        leaseActive := true
        controllerGeneration := 1
        createdAt := 0
        terminalAt := none
        terminalResult := none
        terminalReason := none } surveyAttempt.attemptFence false)
    (by decide +kernel) (by decide +kernel) (by decide +kernel) rfl
  obtain ⟨again, hstep, hresource, _⟩ := hguarantee.1 rfl
  have hrun : ((run {} surveyPrepared).tasks.lookup surveyTask).bind (fun rows ↦
      rows.loadCodingRunBindingForAttempt surveyAttempt.attemptId) =
        some (surveyIntent.binding surveyAttempt.attemptId 1) := by
    decide +kernel
  obtain ⟨rows, hrows, hbinding⟩ := Option.bind_eq_some_iff.mp hrun
  obtain ⟨updated, hupdated⟩ := (attempts_are_fenced surveyPrepared).2.1.accepted surveyTask 90000
    (.notStarted surveyAttempt.attemptId surveyIntent.runId) rows
    (surveyIntent.binding surveyAttempt.attemptId 1) (by decide +kernel) hrows hbinding
      (by decide +kernel)
  exact ⟨⟨again, hstep, hresource⟩, ((attempts_are_fenced surveyContinued).2.1.asserted surveyOwner
    surveyTask 60000 (.continueEndpoint surveyAssertion "again") surveyAssertion rfl
    not_current_surveyContinued).1, rows, updated, hrows, hupdated⟩

/-- Whatever happens to a task later, it stays with its owner and keeps its attempts, and a call of
another principal is refused and changes nothing. -/
theorem agent_task_stays_with_owner (earlier later : List Operation)
    (hrows : (run {} earlier).tasks.lookup taskId = some rows) :
    ∃ after, (run {} (earlier ++ later)).tasks.lookup taskId = some after ∧ Grows rows after ∧
      ∀ principal now request, principal ≠ rows.owner →
        ∃ error, step (run {} (earlier ++ later)) (.task principal taskId now request) =
          ⟨run {} (earlier ++ later), .error error⟩ := by
  obtain ⟨after, hafter, hgrows⟩ := task_run (P := Grows rows)
    (fun _ _ hstep (_ : True) h ↦ h.trans (grows_step hstep)) hrows (.refl rows) later
    (along_true later _)
  rw [← run_append] at hafter
  refine ⟨after, hafter, hgrows, fun principal now request hother ↦ ?_⟩
  cases hperform : (run {} (earlier ++ later)).perform (.task principal taskId now request) with
  | error error => exact ⟨error, step_of_error hperform⟩
  | ok =>
    obtain ⟨_, _, _, hload, _⟩ := Database.callTask_cases hperform
    obtain ⟨hloaded, howner⟩ := Database.lookup_of_loadOwnedTask hload
    rw [hafter, Option.some.injEq] at hloaded
    subst hloaded
    exact absurd (howner.symm.trans hgrows.owner) hother

/-- The task of a survey, after its lease has expired. -/
theorem agent_survey_stays_with_owner : ∃ rows after,
    (run {} surveyStart).tasks.lookup surveyTask = some rows ∧
      (run {} (surveyStart ++ [.expireWake surveyTask surveyAttempt.attemptId 70000])).tasks.lookup
        surveyTask =
        some after ∧ Grows rows after := by
  obtain ⟨rows, hrows⟩ := Option.isSome_iff_exists.mp
    (show ((run {} surveyStart).tasks.lookup surveyTask).isSome = true by decide +kernel)
  obtain ⟨after, hafter, hgrows, -⟩ := agent_task_stays_with_owner surveyStart
    [.expireWake surveyTask surveyAttempt.attemptId 70000] hrows
  exact ⟨rows, after, hrows, hafter, hgrows⟩

end WebCodex.AgentTasks
