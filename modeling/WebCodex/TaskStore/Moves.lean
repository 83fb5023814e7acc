import WebCodex.Foundation.Keyed
import WebCodex.Foundation.Replay
import WebCodex.TaskStore.Changes

/-!
An operation of the store reaches a task with one request or not at all (`Operation.reaches`), and
the rows of the task after a step are those that the request leaves (`lookup_step`). So what every
request keeps is kept in every run (`invariant_run`), also when the requests of a run meet a
condition.
-/

namespace WebCodex.TaskStore

open Foundation

/-! ### Approvals -/

/-- What a request for an approval changes, and its answer. -/
inductive ApprovalChange (keys : Keys) (request : ApprovalRequest) (rows : TaskRows) :
    TaskRows → ConnectorApprovalGate → Prop
  | requested (bodies : List EventBody)
      (hload : rows.loadApprovalByHash request.actionHash = none)
      (hnew : request.approvalId ∉ keys.approvalIds) (htime : request.now < request.expiresAt)
      (hbodies : bodies.all fun body ↦ !body.isCancellation && !body.isGuidance) :
      ApprovalChange keys request rows
        ((({ rows with approvals := rows.approvals ++ [request.row] } : TaskRows).logs bodies
          request.now).touch request.now) (.pending request.row)
  | unchanged (gate : ConnectorApprovalGate) (hgate : ∀ approval, gate ≠ .authorized approval)
      (hpending : ∀ approval, gate = .pending approval →
        rows.loadApprovalByHash request.actionHash = some approval ∧ approval.state = .pending) :
      ApprovalChange keys request rows rows gate
  | expired (approval : ConnectorApproval)
      (hload : rows.loadApprovalByHash request.actionHash = some approval) :
      ApprovalChange keys request rows
        (rows.setApproval approval.approvalId ConnectorApproval.expire) (.expired approval.expire)
  | consumed (approval : ConnectorApproval) (bodies : List EventBody)
      (hload : rows.loadApprovalByHash request.actionHash = some approval)
      (hstate : approval.state = .approved) (htime : request.now < approval.expiresAt)
      (hbodies : bodies.all fun body ↦ !body.isCancellation && !body.isGuidance) :
      ApprovalChange keys request rows
        (((rows.setApproval approval.approvalId (·.consume request.now)).logs bodies
          request.now).touch request.now) (.authorized (approval.consume request.now))
  | renewed (approval : ConnectorApproval) (bodies : List EventBody)
      (hload : rows.loadApprovalByHash request.actionHash = some approval)
      (hstate : approval.state = .expired) (htime : request.now < request.expiresAt)
      (hbodies : bodies.all fun body ↦ !body.isCancellation && !body.isGuidance) :
      ApprovalChange keys request rows (((rows.setApproval approval.approvalId
          (·.renew request.now request.expiresAt)).logs bodies request.now).touch request.now)
        (.pending (approval.renew request.now request.expiresAt))

/-- What a decision on an approval changes, and its answer. -/
inductive DecisionChange (approvalId : String) (approve : Bool) (now : ℤ) (rows : TaskRows) :
    TaskRows → Fallible ConnectorApproval → Prop
  | expired (approval : ConnectorApproval) (error : ConnectorTaskStoreError)
      (hload : rows.loadApproval approvalId = some approval) (hstate : approval.state = .pending)
      (htime : approval.expiresAt ≤ now) :
      DecisionChange approvalId approve now rows
        (rows.setApproval approvalId ConnectorApproval.expire) (.error error)
  | decided (approval : ConnectorApproval) (actor : String) (reason : Option String)
      (bodies : List EventBody) (hload : rows.loadApproval approvalId = some approval)
      (hstate : approval.state = .pending) (htime : now < approval.expiresAt)
      (hbodies : bodies.all fun body ↦ !body.isCancellation && !body.isGuidance) :
      DecisionChange approvalId approve now rows
        (((rows.setApproval approvalId (·.decide approve actor reason now)).logs bodies now).touch
          now) (.ok (approval.decide approve actor reason now))

namespace TaskRows

variable {keys : Keys} {rows after : TaskRows}

theorem requestOrConsumeConnectorApproval_change {request : ApprovalRequest}
    {gate : ConnectorApprovalGate}
    (h : rows.requestOrConsumeConnectorApproval keys.approvalIds request = .ok (after, gate)) :
    rows.requireRunning = .ok () ∧ ApprovalChange keys request rows after gate := by
  simp only [requestOrConsumeConnectorApproval, bind_eq_ok] at h
  obtain ⟨_, hrunning, h⟩ := h
  refine ⟨hrunning, ?_⟩
  cases hload : rows.loadApprovalByHash request.actionHash with
  | none =>
    simp only [hload, bind_eq_ok, ensure_eq_ok] at h
    obtain ⟨_, htime, _, hnew, logged, hlogged, h⟩ := h
    rw [insertEvent_cursor (by rfl), Except.ok.injEq] at hlogged
    subst hlogged
    have htime : request.now < request.expiresAt := by simpa using htime
    rw [answerApproval] at h
    simp only [ApprovalRequest.row, not_le.mpr htime, if_false] at h
    obtain ⟨rfl, rfl⟩ := Prod.mk.inj (Except.ok.inj h)
    exact .requested _ hload (by simpa using hnew) htime rfl
  | some approval =>
    simp only [hload, answerApproval] at h
    cases hstate : approval.state with
    | pending =>
      simp only [hstate] at h
      split_ifs at h
      · obtain ⟨rfl, rfl⟩ := Prod.mk.inj (Except.ok.inj h)
        exact .expired approval hload
      · obtain ⟨rfl, rfl⟩ := Prod.mk.inj (Except.ok.inj h)
        refine .unchanged _ (by simp) fun _ hother ↦ ?_
        obtain rfl := ConnectorApprovalGate.pending.inj hother
        exact ⟨hload, hstate⟩
    | approved =>
      simp only [hstate] at h
      split_ifs at h with htime
      · obtain ⟨rfl, rfl⟩ := Prod.mk.inj (Except.ok.inj h)
        exact .expired approval hload
      · simp only [bind_eq_ok] at h
        obtain ⟨logged, hlogged, h⟩ := h
        rw [insertEvent_cursor (by rfl), Except.ok.injEq] at hlogged
        subst hlogged
        obtain ⟨rfl, rfl⟩ := Prod.mk.inj (Except.ok.inj h)
        exact .consumed approval _ hload hstate (not_le.mp htime) rfl
    | denied | consumed =>
      simp only [hstate] at h
      obtain ⟨rfl, rfl⟩ := Prod.mk.inj (Except.ok.inj h)
      exact .unchanged _ (by simp) (by simp)
    | expired =>
      simp only [hstate, bind_eq_ok, ensure_eq_ok] at h
      obtain ⟨_, htime, logged, hlogged, h⟩ := h
      rw [insertEvent_cursor (by rfl), Except.ok.injEq] at hlogged
      subst hlogged
      obtain ⟨rfl, rfl⟩ := Prod.mk.inj (Except.ok.inj h)
      exact .renewed approval _ hload hstate (by simpa using htime) rfl

/-- The approval with the id after its update. -/
theorem loadApproval_setApproval {f : ConnectorApproval → ConnectorApproval}
    (hf : ∀ approval, (f approval).approvalId = approval.approvalId) (approvalId : String) :
    (rows.setApproval approvalId f).loadApproval approvalId =
    (rows.loadApproval approvalId).map f :=
  find?_updateRow hf rows.approvals

theorem decideConnectorApproval_change {approvalId actor : String} {approve : Bool}
    {reason : Option String} {now : ℤ} {answer : Fallible ConnectorApproval}
    (h : rows.decideConnectorApproval approvalId approve actor reason now = .ok (after, answer)) :
    rows.requireRunning = .ok () ∧ DecisionChange approvalId approve now rows after answer := by
  simp only [decideConnectorApproval, bind_eq_ok, required_eq_ok, ensure_eq_ok, beq_iff_eq] at h
  obtain ⟨_, hrunning, approval, hload, _, hstate, h⟩ := h
  refine ⟨hrunning, ?_⟩
  by_cases htime : approval.expiresAt ≤ now
  · rw [if_pos htime] at h
    obtain ⟨rfl, rfl⟩ := Prod.mk.inj (Except.ok.inj h)
    exact .expired approval _ hload hstate htime
  · rw [if_neg htime] at h
    simp only [insertEvent_next, bind_eq_ok, Except.ok.injEq, exists_eq_left', required_eq_ok] at h
    obtain ⟨answer, hanswer, h⟩ := h
    obtain ⟨rfl, rfl⟩ := Prod.mk.inj (Except.ok.inj h)
    have hdecided : (rows.setApproval approvalId
        (·.decide approve actor (trimmedReason reason) now)).loadApproval approvalId =
        (rows.loadApproval approvalId).map (·.decide approve actor (trimmedReason reason) now) := by
      apply loadApproval_setApproval
      intro approval
      rfl
    rw [hload] at hdecided
    obtain rfl := Option.some.inj (hdecided.symm.trans hanswer)
    refine .decided approval actor _ _ hload hstate (not_le.mp htime) ?_
    cases approve <;> rfl

end TaskRows

/-! ### Moves -/

/-- The ways in which any request changes the rows of its task, approvals taken together. -/
inductive Move (keys : Keys) (rows : TaskRows) (asked : TaskRequest) : TaskRows → Prop
  | change {after : TaskRows} (h : Change keys rows asked after) : Move keys rows asked after
  | approvals (approvals : List ConnectorApproval) (bodies : List EventBody) (now time : ℤ)
      (hrunning : rows.requireRunning = .ok ()) (hbodies : Uncancelling bodies) :
      Move keys rows asked
        ((({ rows with approvals := approvals } : TaskRows).logs bodies now).touch time)
  | claimed (seen : ℕ) : Move keys rows asked { rows with guidanceSeenSeq := seen }

theorem uncancelling_of_all {bodies : List EventBody}
    (h : bodies.all fun body ↦ !body.isCancellation && !body.isGuidance) : Uncancelling bodies := by
  rw [Uncancelling, List.any_eq_false]
  intro body hbody hcancels
  have hquiet := List.all_eq_true.mp h body hbody
  simp [hcancels] at hquiet

variable {request : TaskRequest} {answer : Answer}

namespace TaskRows

variable {keys : Keys} {rows after : TaskRows} {asked : TaskRequest}

/-- An approval that changes without an event. -/
theorem move_of_approvals (approvals : List ConnectorApproval)
    (hrunning : rows.requireRunning = .ok ()) :
    Move keys rows asked { rows with approvals := approvals } := by
  have hmove : Move keys rows asked
      ((({ rows with approvals := approvals } : TaskRows).logs [] 0).touch rows.updatedAt) :=
        .approvals approvals [] 0 rows.updatedAt hrunning rfl
  rwa [logs_nil] at hmove

/-- A request is one for an approval, a decision on one, or leaves the approvals to the course of
the task. -/
theorem handle_cases (h : rows.handle keys request = .ok (after, answer)) :
    (∃ wanted gate, request = .owner (.approval wanted) ∧ answer = .gate gate ∧
        rows.requireRunning = .ok () ∧ ApprovalChange keys wanted rows after gate) ∨
      (∃ approvalId approve actor reason now result,
        request = .host (.decideApproval approvalId approve actor reason now) ∧
        answer = .decision result ∧ rows.requireRunning = .ok () ∧
        DecisionChange approvalId approve now rows after result) ∨
      (request.isApproval = false ∧
        (Change keys rows request after ∨ ∃ seen, after =
          { rows with guidanceSeenSeq := seen })) := by
  by_cases happroval : request.isApproval = true
  · cases request with
    | owner request =>
      cases request with
      | approval wanted =>
        obtain ⟨gate, hgate, rfl⟩ := map_eq_ok h
        exact Or.inl ⟨wanted, gate, rfl, rfl, requestOrConsumeConnectorApproval_change hgate⟩
      | _ => cases happroval
    | host request =>
      cases request with
      | decideApproval approvalId approve actor reason now =>
        obtain ⟨result, hresult, rfl⟩ := map_eq_ok h
        exact Or.inr (Or.inl ⟨approvalId, approve, actor, reason, now, result, rfl, rfl,
          decideConnectorApproval_change hresult⟩)
      | _ => cases happroval
    | _ => cases happroval
  · refine Or.inr (Or.inr ⟨by simpa using happroval, ?_⟩)
    by_cases hclaim : request.isClaim = true
    · cases request with
      | owner request =>
        cases request with
        | claimGuidance =>
          obtain ⟨rfl, _⟩ := Prod.mk.inj (Except.ok.inj h)
          unfold claimPendingConnectorGuidance
          dsimp only
          split
          · exact Or.inr ⟨_, rfl⟩
          · exact Or.inl .unchanged
        | _ => cases hclaim
      | _ => cases hclaim
    · exact Or.inl (handle_effect ⟨by simpa using happroval, by simpa using hclaim⟩ h).change

/-- What any request does to the executions of its task. -/
theorem handle_executions (h : rows.handle keys request = .ok (after, answer)) :
    ExecutionsUpdate request rows.executions after.executions := by
  by_cases hquiet : request.isApproval = false ∧ request.isClaim = false
  · exact (handle_effect hquiet h).executions
  · have hsame : after.executions = rows.executions := by
      rcases handle_cases h with ⟨_, _, _, _, _, hchange⟩ | ⟨_, _, _, _, _, _, _, _, _, hchange⟩ |
        ⟨happroval, hchange⟩
      · cases hchange <;> rfl
      · cases hchange <;> rfl
      · have hclaim : request.isClaim = true := by simpa [happroval] using hquiet
        cases request with
        | owner request =>
          cases request with
          | claimGuidance =>
            obtain ⟨rfl, _⟩ := Prod.mk.inj (Except.ok.inj h)
            unfold claimPendingConnectorGuidance
            dsimp only
            split <;> rfl
          | _ => cases hclaim
        | _ => cases hclaim
    rw [hsame]
    exact .same

theorem handle_move (h : rows.handle keys request = .ok (after, answer)) :
    Move keys rows request after := by
  rcases handle_cases h with ⟨_, _, _, _, hrunning, hchange⟩ |
    ⟨approvalId, approve, actor, reason, now, result, _, _, hrunning, hchange⟩ |
    ⟨_, hchange | ⟨seen, rfl⟩⟩
  · cases hchange with
    | requested bodies _ _ _ hbodies =>
      exact .approvals _ bodies _ _ hrunning (uncancelling_of_all hbodies)
    | unchanged => exact .change .unchanged
    | expired => exact move_of_approvals _ hrunning
    | consumed _ bodies _ _ _ hbodies =>
      exact .approvals _ bodies _ _ hrunning (uncancelling_of_all hbodies)
    | renewed _ bodies _ _ _ hbodies =>
      exact .approvals _ bodies _ _ hrunning (uncancelling_of_all hbodies)
  · cases hchange with
    | expired => exact move_of_approvals _ hrunning
    | decided _ _ _ bodies _ _ _ hbodies =>
      exact .approvals _ bodies _ _ hrunning (uncancelling_of_all hbodies)
  · exact .change hchange
  · exact .claimed seen

end TaskRows

variable {rows : TaskRows}

/-- Every request adds events at the end of the timeline. -/
theorem events_move {keys : Keys} {after : TaskRows} {asked : TaskRequest}
    (h : Move keys rows asked after) :
    ∃ bodies now, after.events = rows.events ++ numbered rows.eventCursor bodies now := by
  have hnone : ∃ bodies now, rows.events = rows.events ++ numbered rows.eventCursor bodies now :=
    ⟨[], 0, (List.append_nil _).symm⟩
  cases h with
  | approvals _ bodies now => exact ⟨bodies, now, rfl⟩
  | claimed => exact hnone
  | change h =>
    cases h with
    | unchanged | begun | aborted => exact hnone
    | noted _ _ _ bodies now => exact ⟨bodies, now, rfl⟩
    | reserved request _ bodies =>
      exact ⟨bodies, request.now, rfl⟩
    | updated _ _ bodies now => exact ⟨bodies, now, rfl⟩
    | lost _ _ bodies reason now =>
      exact ⟨bodies ++ [.runInterrupted reason], now,
        TaskRows.events_interrupted_logs bodies reason now⟩
    | stopped execution _ bodies now =>
      exact ⟨bodies ++ [.taskCancelled (some execution.executionId) none], now,
        TaskRows.events_cancelledBy_logs bodies (some execution.executionId) none now⟩
    | cancelled reason now => exact ⟨[.taskCancelled none reason], now, rfl⟩
    | restartedIdle now => exact ⟨[.runInterrupted "runtime_restarted"], now, rfl⟩
    | restarted _ bodies now =>
      exact ⟨bodies ++ [.runInterrupted "runtime_restarted"], now,
        TaskRows.events_interrupted_logs bodies "runtime_restarted" now⟩
    | finished _ bodies now => exact ⟨bodies, now, rfl⟩
    | abandoned _ bodies now => exact ⟨bodies, now, rfl⟩
    | resumed bodies now => exact ⟨bodies, now, rfl⟩
    | quarantined _ _ _ bodies now =>
      exact ⟨bodies, now, rfl⟩
    | finalized intent result settled finishedAt bodies now hintent hstate hresult hpending
        hintentId hid hsettled hbodies => exact ⟨bodies, now, rfl⟩

/-- A cancelled task stays cancelled. -/
theorem cancelled_move {keys : Keys} {after : TaskRows} {asked : TaskRequest}
    (h : Move keys rows asked after) (hcancelled : rows.cancelled = true) :
    after.cancelled = true := by
  obtain ⟨_, _, hevents⟩ := events_move h
  rw [TaskRows.cancelled, hevents, List.any_append]
  exact Bool.or_eq_true_iff.mpr (Or.inl hcancelled)

/-! ### Operations and tasks -/

/-- The request with which an operation reaches a task. -/
def Operation.reaches (database : Database) (taskId : String) (rows : TaskRows) :
    Operation → Option TaskRequest
  | bind _ _ _ | start _ _ => none
  | owner otherId projectId subjectId request =>
    if otherId = taskId ∧ rows.projectId = projectId ∧ rows.ownerSubjectId = subjectId then
      some (.owner request)
    else none
  | host otherId projectId request =>
    if otherId = taskId ∧ rows.projectId = projectId then some (.host request) else none
  | execution executionId request =>
    if database.ownerOfExecution executionId = some taskId then some
      (.execution executionId request)
    else none
  | abort otherId resultId => if otherId = taskId then some (.abort resultId) else none
  | restart projectId now => if rows.projectId = projectId then some (.restart now) else none

variable {database : Database} {taskId : String} {operation : Operation}

/-- A request of the owner comes from an operation of the owner. -/
theorem owner_of_reaches {request : OwnerRequest}
    (h : operation.reaches database taskId rows = some (.owner request)) :
    ∃ projectId subjectId, operation = .owner taskId projectId subjectId request := by
  cases operation with
  | bind | start => cases h
  | owner _ projectId subjectId =>
    rw [Operation.reaches] at h
    split_ifs at h with hsame
    obtain ⟨rfl, _⟩ := hsame
    obtain rfl := TaskRequest.owner.inj (Option.some.inj h)
    exact ⟨projectId, subjectId, rfl⟩
  | _ =>
    rw [Operation.reaches] at h
    split_ifs at h
    cases h

/-- A request of the host comes from an operation of the host. -/
theorem host_of_reaches {request : HostRequest}
    (h : operation.reaches database taskId rows = some (.host request)) :
    ∃ projectId, operation = .host taskId projectId request := by
  cases operation with
  | bind | start => cases h
  | host _ projectId =>
    rw [Operation.reaches] at h
    split_ifs at h with hsame
    obtain ⟨rfl, _⟩ := hsame
    obtain rfl := TaskRequest.host.inj (Option.some.inj h)
    exact ⟨projectId, rfl⟩
  | _ =>
    rw [Operation.reaches] at h
    split_ifs at h
    cases h

theorem abort_of_reaches {resultId : String}
    (h : operation.reaches database taskId rows = some (.abort resultId)) :
    operation = .abort taskId resultId := by
  cases operation with
  | bind | start => cases h
  | abort =>
    rw [Operation.reaches] at h
    split_ifs at h with hsame
    obtain rfl := TaskRequest.abort.inj (Option.some.inj h)
    rw [hsame]
  | _ =>
    rw [Operation.reaches] at h
    split_ifs at h
    cases h

/-- The rows that a request leaves, whether it succeeds or fails. -/
def TaskRows.afterRequest (keys : Keys) (rows : TaskRows) : Option TaskRequest → TaskRows
  | none => rows
  | some request =>
    match rows.handle keys request with
    | .ok (after, _) => after
    | .error _ => rows

namespace Database

variable {database : Database} {taskId : String} {rows : TaskRows}

/-- A request to a task leaves the rows of the others alone. -/
theorem lookup_request_ne {otherId : String} (hother : taskId ≠ otherId) (visible : TaskRows → Bool)
    (missing : ConnectorTaskStoreError) (request : TaskRequest) :
    (database.request otherId visible missing request).database.tasks.lookup taskId =
      database.tasks.lookup taskId := by
  unfold Database.request
  split
  · rfl
  · split
    · rfl
    · exact AList.lookup_insert_ne hother

theorem lookup_request_self (hrows : database.tasks.lookup taskId = some rows)
    (visible : TaskRows → Bool) (missing : ConnectorTaskStoreError) (request : TaskRequest) :
    (database.request taskId visible missing request).database.tasks.lookup taskId =
      some (rows.afterRequest database.keys (if visible rows then some request else none)) := by
  unfold Database.request
  by_cases hvisible : visible rows = true
  · simp only [hrows, Option.filter_some, hvisible, if_true, TaskRows.afterRequest]
    cases rows.handle database.keys request with
    | error => exact hrows
    | ok => exact AList.lookup_insert _
  · simp only [hrows, Option.filter_some, hvisible, TaskRows.afterRequest]
    exact hrows

/-- A request that fails changes nothing. -/
theorem request_of_error {visible : TaskRows → Bool} {missing error : ConnectorTaskStoreError}
    (h : (database.request taskId visible missing request).answer = .error error) :
    (database.request taskId visible missing request).database = database := by
  unfold Database.request at h ⊢
  split
  · rfl
  · next rows hvisible =>
    split
    · rfl
    · next after answer hhandle => simp [hvisible, hhandle] at h

/-- A request that is answered was made of the rows. -/
theorem handle_of_answer (hrows : database.tasks.lookup taskId = some rows)
    {visible : TaskRows → Bool}
    {missing : ConnectorTaskStoreError}
    (h : (database.request taskId visible missing request).answer = .ok answer) :
    ∃ after, rows.handle database.keys request = .ok (after, answer) ∧
      (database.request taskId visible missing request).database.tasks.lookup taskId =
        some after := by
  unfold Database.request at h ⊢
  by_cases hvisible : visible rows = true
  · simp only [hrows, Option.filter_some, hvisible, if_true] at h ⊢
    cases hhandle : rows.handle database.keys request with
    | error => simp [hhandle] at h
    | ok outcome =>
      simp only [hhandle, Except.ok.injEq] at h
      subst h
      exact ⟨outcome.1, rfl, AList.lookup_insert _⟩
  · simp only [hrows, Option.filter_some, hvisible] at h
    cases h

/-- The rows of a task that is not there stay away. -/
theorem lookup_request_none (hrows : database.tasks.lookup taskId = none) (otherId : String)
    (visible : TaskRows → Bool) (missing : ConnectorTaskStoreError) (request : TaskRequest) :
    (database.request otherId visible missing request).database.tasks.lookup taskId = none := by
  by_cases hother : taskId = otherId
  · subst hother
    unfold Database.request
    simp [hrows]
  · rw [lookup_request_ne hother]
    exact hrows

/-- A restart reconciles every run of the project. -/
theorem reconcileConnectorStartup_eq (projectId : String) (now : ℤ) :
    database.reconcileConnectorStartup projectId now = ⟨{ database with
        tasks := Table.mapValues (fun _ rows ↦
          if rows.projectId == projectId then
            (rows.reconcileConnectorExecutions now).toOption.getD rows
          else rows) database.tasks }, .ok .done⟩ := by
  unfold reconcileConnectorStartup
  dsimp only
  split
  · next herror =>
    obtain ⟨rows, _, hrows⟩ := List.exists_of_findSome?_eq_some herror
    obtain ⟨_, hafter⟩ := rows.exists_reconcileConnectorExecutions now
    simp [hafter] at hrows
  · rfl

end Database

section Steps

variable {database : Database} {taskId : String} {rows : TaskRows}

/-- The rows of a task after a step. -/
theorem lookup_step (hrows : database.tasks.lookup taskId = some rows) (operation : Operation) :
    (step database operation).database.tasks.lookup taskId =
      some (rows.afterRequest database.keys (operation.reaches database taskId rows)) := by
  cases operation with
  | bind => exact hrows
  | start task binding =>
    rw [step]
    cases hstart : database.startConnectorTask task binding with
    | error => exact hrows
    | ok =>
      simp only [Database.startConnectorTask, bind_eq_ok, ensure_eq_ok] at hstart
      obtain ⟨_, _, _, _, _, _, _, hnew, _, _, _, _, _, _, hstart⟩ := hstart
      obtain rfl := (Except.ok.inj hstart).symm
      have hother : taskId ≠ task.taskId := by
        rintro rfl
        simp [Table.has, hrows] at hnew
      exact (AList.lookup_insert_ne hother).trans hrows
  | owner otherId =>
    rw [step, Operation.reaches]
    by_cases hother : taskId = otherId
    · subst hother
      rw [Database.lookup_request_self hrows]
      simp
    · rw [Database.lookup_request_ne hother, if_neg fun h ↦ hother h.1.symm]
      exact hrows
  | host otherId =>
    rw [step, Operation.reaches]
    by_cases hother : taskId = otherId
    · subst hother
      rw [Database.lookup_request_self hrows]
      simp
    · rw [Database.lookup_request_ne hother, if_neg fun h ↦ hother h.1.symm]
      exact hrows
  | execution executionId =>
    rw [step, Operation.reaches]
    cases howner : database.ownerOfExecution executionId with
    | none =>
      exact hrows
    | some otherId =>
      by_cases hother : taskId = otherId
      · subst hother
        rw [Database.lookup_request_self hrows]
        simp
      · rw [Database.lookup_request_ne hother, if_neg fun h ↦ hother (Option.some.inj h).symm]
        exact hrows
  | abort otherId =>
    rw [step, Operation.reaches]
    by_cases hother : taskId = otherId
    · subst hother
      simp only [hrows]
      rw [Database.lookup_request_self hrows]
      rfl
    · rw [if_neg fun h ↦ hother h.symm]
      split
      · exact hrows
      · rw [Database.lookup_request_ne hother]
        exact hrows
  | restart projectId now =>
    rw [step, Operation.reaches, Database.reconcileConnectorStartup_eq,
      Table.lookup_mapValues, hrows, Option.map_some]
    by_cases hproject : rows.projectId = projectId
    · rw [if_pos (by simpa using hproject), if_pos hproject]
      obtain ⟨_, hafter⟩ := rows.exists_reconcileConnectorExecutions now
      simp [TaskRows.afterRequest, TaskRows.handle, hafter, Except.map, Except.toOption]
    · rw [if_neg (by simpa using hproject), if_neg hproject]
      rfl

/-- A task that appears has just started. -/
theorem lookup_step_of_none (hrows : database.tasks.lookup taskId = none) (operation : Operation) :
    (step database operation).database.tasks.lookup taskId = none ∨
      ∃ task mode, (step database operation).database.tasks.lookup taskId =
        some (TaskRows.started task mode) := by
  cases operation with
  | bind => exact Or.inl hrows
  | start task binding =>
    rw [step]
    cases hstart : database.startConnectorTask task binding with
    | error => exact Or.inl hrows
    | ok =>
      simp only [Database.startConnectorTask, bind_eq_ok, ensure_eq_ok] at hstart
      obtain ⟨mode, _, _, _, _, _, _, _, _, _, _, _, _, _, hstart⟩ := hstart
      obtain rfl := (Except.ok.inj hstart).symm
      by_cases hother : taskId = task.taskId
      · subst hother
        exact Or.inr ⟨task, mode, AList.lookup_insert _⟩
      · exact Or.inl ((AList.lookup_insert_ne hother).trans hrows)
  | owner otherId =>
    exact Or.inl (Database.lookup_request_none hrows otherId _ _ _)
  | host otherId =>
    exact Or.inl (Database.lookup_request_none hrows otherId _ _ _)
  | execution | abort =>
    rw [step]
    split
    · exact Or.inl hrows
    · exact Or.inl (Database.lookup_request_none hrows _ _ _ _)
  | restart =>
    rw [step, Database.reconcileConnectorStartup_eq, Table.lookup_mapValues, hrows]
    exact Or.inl rfl

/-- The ids of the executions of a task are in use. -/
theorem mem_keys_executionIds (hrows : database.tasks.lookup taskId = some rows)
    {execution : ConnectorExecution} (hmem : execution ∈ rows.executions) :
    execution.executionId ∈ database.keys.executionIds := by
  refine List.mem_flatMap.mpr ⟨rows, Table.mem_values.mpr ⟨taskId, hrows⟩, ?_⟩
  exact List.mem_map_of_mem hmem

theorem mem_keys_approvalIds (hrows : database.tasks.lookup taskId = some rows)
    {approval : ConnectorApproval} (hmem : approval ∈ rows.approvals) :
    approval.approvalId ∈ database.keys.approvalIds := by
  refine List.mem_flatMap.mpr ⟨rows, Table.mem_values.mpr ⟨taskId, hrows⟩, ?_⟩
  exact List.mem_map_of_mem hmem

end Steps

/-! ### Runs -/

/-- A condition holds at each operation of a run, of the state before it and the operation. -/
def Along (condition : Database → Operation → Prop) (database : Database)
    (operations : List Operation) : Prop :=
  Replay.Along (fun state operation ↦ (step state operation).database) condition database operations

variable {condition : Database → Operation → Prop}

theorem along_append {first second : List Operation} : Along condition database (first ++ second) ↔
      Along condition database first ∧ Along condition (run database first) second := by
  induction first generalizing database with
  | nil => exact (and_iff_right trivial).symm
  | cons _ _ ih =>
    constructor
    · rintro ⟨hcondition, hrest⟩
      exact ⟨⟨hcondition, (ih.mp hrest).1⟩, (ih.mp hrest).2⟩
    · rintro ⟨⟨hcondition, hrest⟩, hsecond⟩
      exact ⟨hcondition, ih.mpr ⟨hrest, hsecond⟩⟩

theorem along_true (operations : List Operation) (database : Database) :
    Along (fun _ _ ↦ True) database operations := by
  induction operations generalizing database with
  | nil => trivial
  | cons _ _ ih => exact ⟨trivial, ih _⟩

/-- The first operation of a run that does not meet a condition. -/
theorem exists_of_not_along {operations : List Operation}
    (h : ¬ Along condition database operations) :
    ∃ first operation rest, operations = first ++ operation :: rest ∧
      ¬ condition (run database first) operation := by
  induction operations generalizing database with
  | nil => exact absurd trivial h
  | cons operation rest ih =>
    by_cases hcondition : condition database operation
    · obtain ⟨first, later, tail, rfl, hlater⟩ := ih fun hrest ↦ h ⟨hcondition, hrest⟩
      exact ⟨operation :: first, later, tail, rfl, hlater⟩
    · exact ⟨[], operation, rest, rfl, hcondition⟩

structure Covers (keys : Keys) (rows : TaskRows) : Prop where
  executions : ∀ execution ∈ rows.executions, execution.executionId ∈ keys.executionIds
  approvals : ∀ approval ∈ rows.approvals, approval.approvalId ∈ keys.approvalIds

theorem covers_of_lookup (hrows : database.tasks.lookup taskId = some rows) :
    Covers database.keys rows where
  executions _ hmem := mem_keys_executionIds hrows hmem
  approvals _ hmem := mem_keys_approvalIds hrows hmem

section Invariants

variable {P : TaskRows → Prop} {condition : Database → Operation → Prop}
  (hstart : ∀ task mode, P (TaskRows.started task mode))
  (hrequest : ∀ {database operation taskId rows request after answer},
    condition database operation → database.tasks.lookup taskId = some rows →
    operation.reaches database taskId rows = some request → P rows →
    rows.handle database.keys request = .ok (after, answer) → P after)

include hstart hrequest

/-- What each request keeps, a step keeps for every task. -/
theorem invariant_step (hcondition : condition database operation)
    (hinv : ∀ taskId rows, database.tasks.lookup taskId = some rows → P rows) (taskId : String)
    (rows : TaskRows) (hrows : (step database operation).database.tasks.lookup taskId = some rows) :
    P rows := by
  cases hbefore : database.tasks.lookup taskId with
  | none =>
    rcases lookup_step_of_none hbefore operation with hnone | ⟨task, mode, hnew⟩
    · rw [hnone] at hrows
      cases hrows
    · rw [hnew] at hrows
      obtain rfl := Option.some.inj hrows
      exact hstart task mode
  | some before =>
    rw [lookup_step hbefore operation] at hrows
    obtain rfl := Option.some.inj hrows
    cases hreaches : operation.reaches database taskId before with
    | none => exact hinv taskId before hbefore
    | some request =>
      rw [TaskRows.afterRequest]
      cases hhandle : before.handle database.keys request with
      | error => exact hinv taskId before hbefore
      | ok =>
        exact hrequest hcondition hbefore hreaches (hinv taskId before hbefore) hhandle

/-- What each request keeps holds in every state of a run. -/
theorem invariant_run (hinv : ∀ taskId rows, database.tasks.lookup taskId = some rows → P rows)
    (operations : List Operation) (halong : Along condition database operations) :
    ∀ taskId rows, (run database operations).tasks.lookup taskId = some rows → P rows := by
  induction operations generalizing database with
  | nil => exact hinv
  | cons _ _ ih =>
    obtain ⟨hcondition, hrest⟩ := halong
    exact ih (invariant_step hstart hrequest hcondition hinv) hrest

end Invariants

/-- A step leaves the rows of a task alone, or makes a request of them that succeeds. -/
theorem lookup_step_cases (hrows : database.tasks.lookup taskId = some rows)
    (operation : Operation) :
    (step database operation).database.tasks.lookup taskId = some rows ∨
      ∃ asked after answer, operation.reaches database taskId rows = some asked ∧
        rows.handle database.keys asked = .ok (after, answer) ∧
        (step database operation).database.tasks.lookup taskId = some after := by
  rw [lookup_step hrows operation]
  cases operation.reaches database taskId rows with
  | none => exact Or.inl rfl
  | some request =>
    rw [TaskRows.afterRequest]
    cases hhandle : rows.handle database.keys request with
    | error => exact Or.inl rfl
    | ok outcome => exact Or.inr ⟨request, outcome.1, outcome.2, rfl, hhandle, rfl⟩

/-- What each request keeps, a run keeps for a task that is there. -/
theorem lookup_run {P : TaskRows → Prop}
    (hrequest : ∀ {database operation taskId rows request after answer},
      condition database operation → database.tasks.lookup taskId = some rows →
        operation.reaches database taskId rows = some request → P rows →
          rows.handle database.keys request = .ok (after, answer) → P after)
    (hrows : database.tasks.lookup taskId = some rows) (hinv : P rows) (operations : List Operation)
    (halong : Along condition database operations) :
    ∃ after, (run database operations).tasks.lookup taskId = some after ∧ P after := by
  induction operations generalizing database rows with
  | nil => exact ⟨rows, hrows, hinv⟩
  | cons operation _ ih =>
    obtain ⟨hcondition, hrest⟩ := halong
    rcases lookup_step_cases hrows operation with hsame | ⟨asked, after, answer, hasked,
      hhandle, hafter⟩
    · exact ih hsame hinv hrest
    · exact ih hafter (hrequest hcondition hrows hasked hinv hhandle) hrest

end WebCodex.TaskStore
