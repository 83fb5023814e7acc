import WebCodex.AgentTasks.Consistency

/-!
A call that says for which attempt it is made changes nothing when that attempt may not act
(`call_is_fenced`); it is refused, unless it repeats an accepted start of a continuation or an
accepted completion (`Repeats`). Reports on a coding run carry no fence: they reach the binding of
any attempt (`report_is_accepted`), but only the run of the latest attempt can end its task. A call
under a used idempotency key gets the first resource or a conflict.
-/

namespace WebCodex.AgentTasks

open Foundation

variable {database : Database} {asked : TaskRequest}

/-- Two states of the store with the same rows. -/
structure Unchanged (database after : Database) : Prop where
  agents : after.agents = database.agents
  idempotency : after.idempotency = database.idempotency
  tasks : ∀ taskId, after.tasks.lookup taskId = database.tasks.lookup taskId

theorem Unchanged.refl (database : Database) : Unchanged database database :=
    ⟨rfl, rfl, fun _ ↦ rfl⟩

variable {taskId : String} {rows after : AgentTaskRows}

theorem unchanged_setTask (hrows : database.tasks.lookup taskId = some rows) :
    Unchanged database (database.setTask taskId rows) := by
  refine ⟨rfl, rfl, fun other ↦ ?_⟩
  rw [lookup_setTask]
  by_cases hsame : other = taskId
  · rw [if_pos hsame, hsame, hrows]
  · rw [if_neg hsame]

variable {request : TaskRequest}

theorem Checked.asserted (h : Checked asked request) :
    request.asserted = asked.asserted := by
  cases h <;> rfl

variable {keys : Keys} {now : ℤ} {answer : Answer} {asserted : AttemptAssertion}

/-- The answers to calls that repeat an accepted one exactly: the continuation that is stored for
the attempt, started with the same assertion, and the attempt of a completion that is recorded under
the same key with the same request. -/
inductive Repeats (database : Database) (taskId : String) (now : ℤ) (rows : AgentTaskRows)
    (asserted : AttemptAssertion) : TaskRequest → Answer → Prop
  | continuation {wakeId : String} {execution : EndpointExecution}
      (hstored : rows.loadEndpointExecutionForAttempt asserted.attemptId = some execution)
      (hsame : execution.startIdentity = asserted) :
      Repeats database taskId now rows asserted (.continueEndpoint asserted wakeId)
        (.continued execution true)
  | completion {completion : Completion} {key : String} {attention : Fallible ℕ}
      {attempt : StoredAttempt}
      (hrecorded : database.idempotency.lookup
        ⟨rows.owner.digest, .completeAgentTaskAttempt, key⟩ =
          some (.completeAgentTaskAttempt taskId asserted completion, asserted.attemptId))
      (hattempt : rows.findAttempt asserted.attemptId = some attempt) :
      Repeats database taskId now rows asserted (.complete asserted completion key attention)
        (.completed (attempt.record now) 0 true)

/-- A call for an attempt that may not act leaves the rows alone, and only the repeated start of a
continuation ends well. -/
theorem kept_of_not_current (database : Database) (taskId : String)
    (hasked : request.asserted = some asserted) (hstale : ¬ Current asserted now rows)
    (hchange : Change keys now rows request after answer) :
    after = rows ∧ request.idempotent taskId = none ∧
      Repeats database taskId now rows asserted request answer := by
  have hsame : ∀ {other}, request.asserted = some other → Current other now rows → False := by
    intro other hother hcurrent
    rw [hasked, Option.some.injEq] at hother
    exact hstale (hother ▸ hcurrent)
  cases hchange with
  | kept _ hadmitted =>
    refine ⟨rfl, ?_⟩
    unfold Admitted at hadmitted
    split at hadmitted
    · cases hasked
    · cases hasked
      obtain ⟨_, hstored, hidentity, rfl⟩ := hadmitted.resolve_left hstale
      exact ⟨rfl, .continuation hstored hidentity⟩
    · exact absurd (hadmitted asserted hasked) hstale
  | expired | assigned | started | notStarted | unavailable | terminalized => cases hasked
  | renewed hother hcurrent => exact (hsame hother hcurrent).elim
  | continued hcurrent => exact (hsame rfl hcurrent).elim
  | completed hcurrent => exact (hsame rfl hcurrent).elim
  | prepared hcurrent => exact (hsame rfl hcurrent).elim
  | rebound hcurrent => exact (hsame rfl hcurrent).elim
  | dispatched hcurrent => exact (hsame rfl hcurrent).elim
  | observed _ hnone =>
    rw [hnone] at hasked
    cases hasked

/-- The resource that the store has recorded for a key and a request. -/
theorem entry_of_lookupIdempotentResource {principal : CommunicationPrincipal}
    {request : IdempotentRequest} {key resource : String}
    (h : database.lookupIdempotentResource principal request key = .ok (some resource)) :
    database.idempotency.lookup ⟨principal.digest, request.operation, key⟩ =
      some (request, resource) := by
  unfold Database.lookupIdempotentResource at h
  split at h
  · cases h
  · rename_i stored found hlookup
    simp only [bind_eq_ok, ensure_eq_ok, beq_iff_eq] at h
    obtain ⟨_, rfl, h⟩ := h
    cases h
    exact hlookup

/-- The replay of a call that asserts an attempt is the answer to a repeated completion. -/
theorem repeats_of_replay {resource key : String} {idempotent : IdempotentRequest}
    (hasked : request.asserted = some asserted)
    (hidempotent : request.idempotent taskId = some (key, idempotent))
    (hlookup : database.lookupIdempotentResource rows.owner idempotent key = .ok (some resource))
    (h : rows.replay resource now request = .ok answer) :
    Repeats database taskId now rows asserted request answer := by
  cases request with
  | complete _ completion =>
    cases hasked
    cases hidempotent
    simp only [AgentTaskRows.replay, AgentTaskRows.loadAttemptForTask, bind_eq_ok, required_eq_ok,
      ensure_eq_ok, beq_iff_eq] at h
    obtain ⟨_, rfl, _, ⟨_, _, hload⟩, _, hattempt, h⟩ := h
    cases hload
    cases h
    exact .completion (entry_of_lookupIdempotentResource hlookup) hattempt
  | start => cases hasked
  | _ => cases hidempotent

/-- A call for an attempt that may not act changes nothing. It is refused, unless it repeats an
accepted start of a continuation or an accepted completion. -/
theorem call_is_fenced {principal : CommunicationPrincipal}
    (hasked : asked.asserted = some asserted)
    (hstale : ∀ rows, database.tasks.lookup taskId = some rows → ¬ Current asserted now rows) :
    Unchanged database (next database (.task principal taskId now asked)) ∧
      ((∃ error, (step database (.task principal taskId now asked)).answer = .error error) ∨
        ∃ rows request answer, database.tasks.lookup taskId = some rows ∧ rows.owner = principal ∧
          asked.validate principal taskId = .ok request ∧
          Repeats database taskId now rows asserted request answer ∧
          (step database (.task principal taskId now asked)).answer = .ok answer) := by
  cases hperform : database.perform (.task principal taskId now asked) with
  | error error =>
    unfold next
    rw [step_of_error hperform]
    exact ⟨Unchanged.refl database, Or.inl ⟨error, rfl⟩⟩
  | ok outcome =>
    obtain ⟨_, answer⟩ := outcome
    unfold next
    rw [step_of_ok hperform]
    obtain ⟨rows, request, hvalid, hload, hcase⟩ := Database.callTask_cases hperform
    obtain ⟨hrows, rfl⟩ := Database.lookup_of_loadOwnedTask hload
    have hrequest : request.asserted = some asserted :=
      (checked_of_validate hvalid).asserted.trans hasked
    rcases hcase with ⟨rfl, key, idempotent, _, hidempotent, hlookup, hreplay⟩ |
      ⟨changed, hchange, hafter⟩
    · exact ⟨Unchanged.refl _, Or.inr ⟨rows, request, answer, hrows, rfl, hvalid,
        repeats_of_replay hrequest hidempotent hlookup hreplay, rfl⟩⟩
    · obtain ⟨rfl, hnone, hrepeats⟩ :=
        kept_of_not_current database taskId hrequest (hstale rows hrows) hchange
      refine ⟨?_, Or.inr ⟨changed, request, answer, hrows, rfl, hvalid, hrepeats, rfl⟩⟩
      rcases hafter with ⟨_, rfl⟩ | ⟨key, idempotent, hidempotent, _, _⟩
      · exact unchanged_setTask hrows
      · rw [hnone] at hidempotent
        cases hidempotent

/-- The attempts of a task and its outcome, as a report on a coding run leaves them. -/
structure Untouched (rows after : AgentTaskRows) : Prop where
  attempts : after.attempts = rows.attempts
  latest : after.latestAttemptId = rows.latestAttemptId
  storedState : after.storedState = rows.storedState
  terminalAttemptId : after.terminalAttemptId = rows.terminalAttemptId

/-- The calls that report on a coding run, for any attempt. -/
def TaskRequest.reports : TaskRequest → Bool
  | notStarted _ _ | observe _ _ | unavailable _ => true
  | _ => false

/-- The report is about the coding run of a binding, and an observation fits what the binding
retains. -/
def TaskRequest.isAbout (binding : CodingRunBinding) : TaskRequest → Bool
  | notStarted attemptId runId => attemptId == binding.attemptId && runId == binding.runId
  | observe attemptId observation =>
    attemptId == binding.attemptId && (observationDisposition binding observation).isOk
  | unavailable attemptId => attemptId == binding.attemptId
  | _ => false

/-- The binding of an attempt is there after a change of its dispatch state. -/
theorem exists_setDispatch {binding : CodingRunBinding} {attemptId : String}
    (hbinding : rows.loadCodingRunBindingForAttempt attemptId = some binding)
    (changes : Prop) [Decidable changes] (dispatchState : DispatchState) (now : ℤ) :
    ∃ updated, (if changes then rows.setDispatch attemptId dispatchState now
      else rows).loadCodingRunBindingForAttempt attemptId = some updated := by
  split_ifs
  · rw [AgentTaskRows.setDispatch, AgentTaskRows.loadCodingRunBindingForAttempt_setCodingRun (by
      exact fun _ ↦ rfl), hbinding]
    exact ⟨_, rfl⟩
  · exact ⟨binding, hbinding⟩

/-- A report on a coding run is accepted, whatever has become of the attempt. -/
theorem report_is_accepted {binding : CodingRunBinding}
    (hbinding : rows.loadCodingRunBindingForAttempt binding.attemptId = some binding)
    (habout : asked.isAbout binding = true) (owns : String → Bool) :
    ∃ after updated, rows.handle keys owns now asked = .ok (after, .observed updated) := by
  cases asked with
  | notStarted attemptId =>
    simp only [TaskRequest.isAbout, Bool.and_eq_true, beq_iff_eq] at habout
    obtain ⟨rfl, rfl⟩ := habout
    obtain ⟨updated, hupdated⟩ := exists_setDispatch hbinding
      (binding.dispatchState = .outcomeUnknown) .notStarted now
    refine ⟨if binding.dispatchState = .outcomeUnknown then
      rows.setDispatch binding.attemptId .notStarted now else rows, updated, ?_⟩
    simp only [AgentTaskRows.handle, AgentTaskRows.recordNotStarted, AgentTaskRows.requireCodingRun,
      hbinding, required, ensure, beq_self_eq_true, if_true, bind, Except.bind, hupdated]
    rfl
  | observe attemptId observation =>
    simp only [TaskRequest.isAbout, Bool.and_eq_true, beq_iff_eq] at habout
    obtain ⟨rfl, hfits⟩ := habout
    cases hdisposition : observationDisposition binding observation with
    | error =>
      rw [hdisposition] at hfits
      cases hfits
    | ok disposition =>
      by_cases hold : disposition = .stale ∨ disposition = .exactReplay
      · refine ⟨rows, binding, ?_⟩
        simp only [AgentTaskRows.handle, AgentTaskRows.recordObservation,
          AgentTaskRows.requireCodingRun, AgentTaskRows.mergeObservation, hbinding, required, bind,
          Except.bind, hdisposition,
          if_pos hold]
        rfl
      · have hupdated := @AgentTaskRows.loadCodingRunBindingForAttempt_setCodingRun rows
          (CodingRunBinding.observe observation now) (fun _ ↦ rfl) binding.attemptId
          binding.attemptId
        rw [hbinding, Option.map_some, updateRow_self] at hupdated
        refine ⟨rows.setCodingRun binding.attemptId (CodingRunBinding.observe observation now),
          binding.observe observation now, ?_⟩
        simp only [AgentTaskRows.handle, AgentTaskRows.recordObservation,
          AgentTaskRows.requireCodingRun, AgentTaskRows.mergeObservation, hbinding, required, bind,
          Except.bind, hdisposition,
          if_neg hold, hupdated]
        rfl
  | unavailable attemptId =>
    simp only [TaskRequest.isAbout, beq_iff_eq] at habout
    subst habout
    obtain ⟨updated, hupdated⟩ := exists_setDispatch hbinding
      (binding.dispatchState = .bound) .outcomeUnknown now
    refine ⟨if binding.dispatchState = .bound then
      rows.setDispatch binding.attemptId .outcomeUnknown now else rows, updated, ?_⟩
    simp only [AgentTaskRows.handle, AgentTaskRows.markReconcileUnavailable,
      AgentTaskRows.requireCodingRun, hbinding, required, bind, Except.bind, hupdated]
    rfl
  | assign | start | continueEndpoint | heartbeat | replaceController | complete | prepare | claim
  | terminalize => cases habout

def TaskRequest.terminalizes : TaskRequest → Option String
  | terminalize attemptId _ _ _ _ => some attemptId
  | _ => none

theorem asserted_of_reports (h : request.reports = true) : request.asserted = none := by
  cases request <;> first | rfl | cases h

theorem untouched_of_reports (hreports : request.reports = true)
    (hchange : Change keys now rows request after answer) : Untouched rows after := by
  cases hchange with
  | kept | notStarted | observed | unavailable => exact ⟨rfl, rfl, rfl, rfl⟩
  | renewed hasked =>
    rw [asserted_of_reports hreports] at hasked
    cases hasked
  | expired | assigned | started | continued | completed | prepared | rebound | dispatched
  | terminalized => cases hreports

/-- A run that ends a task is that of its latest attempt. -/
theorem latest_of_terminalizes {attemptId : String} (hends : request.terminalizes = some attemptId)
    (hchange : Change keys now rows request after answer) :
    rows.latestAttemptId = some attemptId := by
  cases request with
  | terminalize =>
    cases hends
    cases hchange with
    | kept _ hadmitted => exact hadmitted
    | observed _ _ hadmitted => exact hadmitted
    | terminalized hlatest => exact hlatest
    | renewed hasked => cases hasked
  | assign | start | continueEndpoint | heartbeat | replaceController | complete | prepare | claim
  | notStarted | observe | unavailable => cases hends

end WebCodex.AgentTasks
