import WebCodex.TaskStore.Approvals

/-!
The outcome of a task is spread over its result, its run, its timeline and a decision that is
under way. Once these settle it, it stays (`Kept`), if a task that gets its result has no active
execution. The store asks the newest execution only, so an active one can hide behind it and
cancel the task later. The other way to lose an outcome is an abort that removes an intent which
needs attention.
-/

namespace WebCodex.TaskStore

/-! ### Settled rows -/

/-- The rows of a task whose result is the end of it. -/
structure Settled (rows : TaskRows) : Prop where
  coherent : Coherent rows
  /-- Nothing runs once there is a result. -/
  idle : rows.result.isSome = true → ∀ execution ∈ rows.executions, execution.isActive = false
  stopped : rows.result.isSome = true → rows.run.status ≠ .running
  /-- The lifecycle follows the decision. -/
  decided : rows.lifecycle = .accepted ∨ rows.lifecycle = .rejected →
    ∃ result, rows.result = some result ∧ result.decisionStatus ≠ .pending

/-- A request closes a task only when nothing is active, and aborts only a decision that is under
way. -/
def TaskRequest.closesIdle (rows : TaskRows) (request : TaskRequest) : Bool :=
  (!request.closes || rows.executions.all fun execution ↦ !execution.isActive) &&
    match request with
    | .abort resultId => rows.intent.all fun intent ↦
        intent.resultId != resultId || intent.state == .pending
    | _ => true

namespace Settled

variable {keys : Keys} {rows after : TaskRows} {asked : TaskRequest}

theorem started (task : NewConnectorTask) (mode : ConnectorTaskMode) :
    Settled (TaskRows.started task mode) where
  coherent := ⟨by simp [TaskRows.started], by simp [TaskRows.started]⟩
  idle := by simp [TaskRows.started]
  stopped := by simp [TaskRows.started]
  decided := by simp [TaskRows.started]

/-- Rows whose result is there as before. -/
theorem of_frame (h : Settled rows) (hcoherent : Coherent after)
    (hresult : after.result.map ConnectorTaskResult.core = rows.result.map ConnectorTaskResult.core)
    (hlifecycle : after.lifecycle = rows.lifecycle)
    (hexecutions : rows.result.isSome = true →
      ∀ execution ∈ after.executions, execution.isActive = true →
        ∃ before ∈ rows.executions, before.isActive = true)
    (hrun : rows.result.isSome = true → rows.run.status ≠ .running →
      after.run.status ≠ .running) : Settled after := by
  have hsome : after.result.isSome = rows.result.isSome := by
    rw [← Option.isSome_map (f := ConnectorTaskResult.core), hresult, Option.isSome_map]
  refine ⟨hcoherent, ?_, ?_, ?_⟩
  · intro hafter execution hmem
    rw [hsome] at hafter
    by_contra hactive
    obtain ⟨before, hbefore, hlive⟩ := hexecutions hafter execution hmem (by simpa using hactive)
    rw [h.idle hafter before hbefore] at hlive
    cases hlive
  · intro hafter
    rw [hsome] at hafter
    exact hrun hafter (h.stopped hafter)
  · intro hdecided
    rw [hlifecycle] at hdecided
    obtain ⟨result, hbefore, hstatus⟩ := h.decided hdecided
    rw [hbefore] at hresult
    cases hlater : after.result with
    | none => simp [hlater] at hresult
    | some later =>
      simp only [hlater, Option.map_some, Option.some.injEq, ConnectorTaskResult.core,
        Prod.mk.injEq] at hresult
      exact ⟨later, rfl, by rw [hresult.2]; exact hstatus⟩

/-- Rows whose executions and result are those before. -/
theorem of_still (h : Settled rows) (hcoherent : Coherent after)
    (hresult : after.result.map ConnectorTaskResult.core = rows.result.map ConnectorTaskResult.core)
    (hlifecycle : after.lifecycle = rows.lifecycle)
    (hexecutions : after.executions = rows.executions)
    (hrun : rows.result.isSome = true → rows.run.status ≠ .running →
      after.run.status ≠ .running) : Settled after := by
  refine h.of_frame hcoherent hresult hlifecycle (fun _ execution hmem hactive ↦ ?_) hrun
  rw [hexecutions] at hmem
  exact ⟨execution, hmem, hactive⟩

/-- Rows after the update of an execution that does not make it active. -/
theorem of_update (h : Settled rows) (hids : DistinctIds rows.executions)
    (hcoherent : Coherent after)
    {execution : ConnectorExecution} {f : ConnectorExecution → ConnectorExecution}
    (hmem : execution ∈ rows.executions)
    (hexecutions : after.executions = rows.executions.map (updated execution.executionId f))
    (hf : (f execution).isActive = true → execution.isActive = true)
    (hresult : after.result = rows.result) (hlifecycle : after.lifecycle = rows.lifecycle)
    (hrun : rows.result.isSome = true → rows.run.status ≠ .running →
      after.run.status ≠ .running) : Settled after := by
  refine h.of_frame hcoherent (by rw [hresult]) hlifecycle (fun _ other hother hactive ↦ ?_) hrun
  rw [hexecutions] at hother
  rcases hids.mem_update hmem hother with rfl | ⟨hold, _⟩
  · exact ⟨execution, hmem, hf hactive⟩
  · exact ⟨other, hold, hactive⟩

theorem idle_of_closes (h : asked.closesIdle rows = true) (hcloses : asked.closes = true) :
    ∀ execution ∈ rows.executions, execution.isActive = false := by
  unfold TaskRequest.closesIdle at h
  rw [Bool.and_eq_true, hcloses] at h
  simpa using h.1

theorem move (h : Settled rows) (hids : DistinctIds rows.executions)
    (hidle : asked.closesIdle rows = true) (hmove : Move keys rows asked after) :
    Settled after := by
  have hcoherent : Coherent after := h.coherent.move hmove
  have hsame : ∀ {status}, status = rows.run.status →
      rows.result.isSome = true → rows.run.status ≠ .running → status ≠ .running :=
    fun heq _ hrun ↦ heq ▸ hrun
  cases hmove with
  | approvals =>
    exact h.of_still hcoherent rfl rfl rfl (hsame rfl)
  | claimed => exact h.of_still hcoherent rfl rfl rfl (hsame rfl)
  | change hchange =>
    cases hchange with
    | unchanged => exact h
    | noted _ _ _ _ _ _ hrun hresult =>
      exact h.of_still hcoherent hresult rfl rfl (hsame hrun)
    | reserved _ _ _ _ _ hrunning =>
      refine h.of_frame hcoherent rfl rfl (fun hsome ↦ ?_) (hsame rfl)
      have hnone := h.coherent.lifecycle.mp (TaskRows.running_of_requireRunning hrunning).2.2
      rw [hnone] at hsome
      cases hsome
    | updated _ _ _ _ _ hmem _ hadvances =>
      exact h.of_update hids hcoherent hmem rfl hadvances.blocks.2 rfl rfl (hsame rfl)
    | lost _ _ _ _ now hmem _ hactive =>
      exact h.of_update hids hcoherent hmem rfl (fun _ ↦ hactive) rfl rfl
        fun _ _ ↦ Orderly.interruptedRun_ne_running now _
    | stopped _ _ _ _ hmem _ hactive =>
      exact h.of_update hids hcoherent hmem rfl (fun _ ↦ hactive) rfl rfl fun _ _ ↦ by
        simp [TaskRows.cancelledBy]
    | cancelled =>
      exact h.of_still hcoherent rfl rfl rfl fun _ _ ↦ by simp [TaskRows.cancelledBy]
    | restartedIdle now =>
      exact h.of_still hcoherent rfl rfl rfl fun _ _ ↦ Orderly.interruptedRun_ne_running now _
    | restarted _ _ now _ hactive =>
      obtain ⟨hmem, hlive⟩ := TaskRows.mem_of_newest_filter hactive
      exact h.of_update (f := TaskRows.interruptExecution now) hids hcoherent hmem rfl
        (fun _ ↦ hlive) rfl rfl fun _ _ ↦ Orderly.interruptedRun_ne_running now _
    | finished _ _ _ _ _ _ _ _ hasked =>
      refine ⟨hcoherent, fun _ ↦ idle_of_closes hidle hasked, fun _ ↦ ?_, fun hdecided ↦ ?_⟩
      · simp [TaskRows.expireApprovals]
      · simp [TaskRows.expireApprovals] at hdecided
    | abandoned _ _ _ _ _ _ _ hasked =>
      refine ⟨hcoherent, fun _ ↦ idle_of_closes hidle hasked, fun _ ↦ ?_, fun hdecided ↦ ?_⟩
      · simp [TaskRows.expireApprovals]
      · simp [TaskRows.expireApprovals] at hdecided
    | resumed _ _ _ _ hnone =>
      refine h.of_still hcoherent rfl rfl rfl fun hsome ↦ ?_
      rw [hnone] at hsome
      cases hsome
    | begun =>
      exact h.of_still hcoherent rfl rfl rfl (hsame rfl)
    | aborted => exact h.of_still hcoherent rfl rfl rfl (hsame rfl)
    | quarantined =>
      exact h.of_still hcoherent rfl rfl rfl fun _ _ ↦ by simp [TaskRows.logs, TaskRows.touch]
    | finalized intent result settled finishedAt bodies now hintent hstate hresult hpending
        hintentId hid hsettled hbodies =>
      refine ⟨hcoherent, fun _ ↦ h.idle (by simp [hresult]), fun _ ↦ ?_, fun _ ↦ ?_⟩
      · simp [TaskRows.logs]
      · refine ⟨settled, rfl, ?_⟩
        rw [hsettled]
        cases intent.decision <;> simp [ConnectorResultDecision.status]

end Settled

/-! ### Outcomes -/

/-- The outcomes of a task that nothing comes after. -/
def ConnectorTaskState.isFinal : ConnectorTaskState → Bool
  | accepted | rejected | cancelled => true
  | _ => false

/-- What stays of a task from one state to a later one. -/
structure Kept (before after : TaskRows) : Prop where
  /-- The result is never replaced. -/
  result : ∀ result, before.result = some result →
    ∃ later, after.result = some later ∧ later.resultId = result.resultId
  /-- A decision is never changed. -/
  decision : ∀ result later, before.result = some result → after.result = some later →
    result.decisionStatus ≠ .pending → later.decisionStatus = result.decisionStatus
  /-- A final outcome stays, and the run is over. -/
  outcome : before.taskStatus.isFinal = true →
    after.taskStatus = before.taskStatus ∧ after.runStatus ≠ .running

/-- What one step does to the decision of a task. -/
structure Decides (before after : TaskRows) : Prop where
  /-- A decision changes once, to what the intent says. -/
  decision : ∀ result later, before.result = some result → after.result = some later →
    later.decisionStatus ≠ result.decisionStatus →
      result.decisionStatus = .pending ∧ ∃ intent, before.intent = some intent ∧
        intent.state = .pending ∧ intent.resultId = result.resultId ∧
        later.decisionStatus = intent.decision.status
  /-- An acceptance that needs attention gives way to a rejection only. -/
  attention : ∀ intent, before.intent = some intent → intent.state = .needsAttention →
    intent.decision = .accepted →
      after.intent = some intent ∨ ∃ other, after.intent = some other ∧ other.decision = .rejected

namespace Settled

variable {keys : Keys} {rows after : TaskRows} {asked : TaskRequest}

/-- The outcome of a task that is not cancelled is its decision, once there is one. -/
theorem taskStatus_of_decided {result : ConnectorTaskResult} (hopen : rows.cancelled = false)
    (hresult : rows.result = some result) (hdecided : result.decisionStatus ≠ .pending) :
    rows.taskStatus = if result.decisionStatus = .accepted then .accepted else .rejected := by
  unfold TaskRows.taskStatus effectiveTaskState
  rw [hopen, hresult]
  cases hdecision : result.decisionStatus with
  | pending => exact absurd hdecision hdecided
  | accepted | rejected => simp [hdecision]

/-- Only a decision makes the outcome of such a task final. -/
theorem decided_of_final (h : Settled rows) (hopen : rows.cancelled = false)
    (hfinal : rows.taskStatus.isFinal = true) :
    ∃ result, rows.result = some result ∧ result.decisionStatus ≠ .pending := by
  by_contra hundecided
  have hlifecycle : rows.lifecycle ≠ .accepted ∧ rows.lifecycle ≠ .rejected :=
    ⟨fun haccepted ↦ hundecided (h.decided (Or.inl haccepted)),
      fun hrejected ↦ hundecided (h.decided (Or.inr hrejected))⟩
  have hdecision : rows.result.map (fun result ↦ result.decisionStatus) = none ∨
      rows.result.map (fun result ↦ result.decisionStatus) = some .pending := by
    cases hresult : rows.result with
    | none => exact Or.inl rfl
    | some result =>
      right
      by_contra hother
      exact hundecided ⟨result, hresult, fun hpending ↦ hother (congrArg some hpending)⟩
  unfold TaskRows.taskStatus effectiveTaskState at hfinal
  rw [hopen] at hfinal
  cases hstate : rows.lifecycle with
  | accepted => exact hlifecycle.1 hstate
  | rejected => exact hlifecycle.2 hstate
  | _ =>
    rcases hdecision with hdecision | hdecision <;>
      simp only [hdecision, hstate, Bool.false_eq_true, if_false] at hfinal <;>
      split_ifs at hfinal <;> cases hfinal

/-- A result stays, and its decision changes only to what the intent says. -/
theorem result_move {result : ConnectorTaskResult} (hresult : rows.result = some result)
    (hmove : Move keys rows asked after) :
    ∃ later, after.result = some later ∧ later.resultId = result.resultId ∧
      (later.decisionStatus = result.decisionStatus ∨
        result.decisionStatus = .pending ∧ ∃ intent, rows.intent = some intent ∧
          intent.state = .pending ∧ intent.resultId = result.resultId ∧
          later.decisionStatus = intent.decision.status) := by
  have hframe : after.result = rows.result → ∃ later, after.result = some later ∧
      later.resultId = result.resultId ∧ (later.decisionStatus = result.decisionStatus ∨
        result.decisionStatus = .pending ∧ ∃ intent, rows.intent = some intent ∧
          intent.state = .pending ∧ intent.resultId = result.resultId ∧
          later.decisionStatus = intent.decision.status) :=
    fun hsame ↦ ⟨result, hsame.trans hresult, rfl, Or.inl rfl⟩
  have hnot : rows.result ≠ none := by
    rw [hresult]
    exact Option.some_ne_none result
  cases hmove with
  | approvals | claimed => exact hframe rfl
  | change hchange =>
    cases hchange with
    | noted _ _ notes _ _ _ _ hnotes =>
      rw [hresult] at hnotes
      cases hlater : notes with
      | none => simp [hlater] at hnotes
      | some later =>
        simp only [hlater, Option.map_some, Option.some.injEq, ConnectorTaskResult.core,
          Prod.mk.injEq] at hnotes
        exact ⟨later, rfl, hnotes.1, Or.inl hnotes.2⟩
    | finished _ _ _ _ _ hnone =>
      exact absurd hnone hnot
    | abandoned _ _ _ _ hnone => exact absurd hnone hnot
    | finalized intent other settled finishedAt bodies now hintent hstate hother hpending hintentId
        hid hsettled hbodies =>
      obtain rfl := Option.some.inj (hresult.symm.trans hother)
      exact ⟨settled, rfl, hid, Or.inr ⟨hpending, intent, hintent, hstate, hintentId, hsettled⟩⟩
    | _ => exact hframe rfl

/-- A request cancels a task that runs, or one of its active executions. -/
theorem cancelled_move_cases (hmove : Move keys rows asked after) :
    after.cancelled = rows.cancelled ∨ rows.requireRunning = .ok () ∨
      ∃ execution ∈ rows.executions, execution.isActive = true := by
  cases hmove with
  | approvals _ _ _ _ hrunning => exact Or.inr (Or.inl hrunning)
  | claimed => exact Or.inl rfl
  | change hchange =>
    cases hchange with
    | noted _ _ _ _ now _ _ _ hbodies =>
      exact Or.inl (cancelled_of_uncancelling rfl hbodies now)
    | reserved _ _ _ _ _ hrunning =>
      exact Or.inr (Or.inl hrunning)
    | updated _ _ _ now _ _ _ _ hbodies =>
      exact Or.inl (cancelled_of_uncancelling rfl hbodies now)
    | lost execution _ _ _ _ hmem _ hactive =>
      exact Or.inr (Or.inr ⟨execution, hmem, hactive⟩)
    | stopped execution _ _ _ hmem _ hactive =>
      exact Or.inr (Or.inr ⟨execution, hmem, hactive⟩)
    | cancelled _ _ hrunning => exact Or.inr (Or.inl hrunning)
    | restartedIdle now =>
      have hquiet : Uncancelling [.runInterrupted "runtime_restarted"] := rfl
      exact Or.inl (cancelled_of_uncancelling rfl hquiet now)
    | restarted execution _ _ _ hactive =>
      exact Or.inr (Or.inr ⟨execution, TaskRows.mem_of_newest_filter hactive⟩)
    | finished _ _ _ hrunning =>
      exact Or.inr (Or.inl hrunning)
    | abandoned _ _ now _ _ _ hbodies =>
      exact Or.inl (cancelled_of_uncancelling rfl hbodies now)
    | resumed _ now _ _ _ hbodies =>
      exact Or.inl (cancelled_of_uncancelling rfl hbodies now)
    | quarantined _ _ _ _ now _ _ _ _ _ hbodies =>
      exact Or.inl (cancelled_of_uncancelling rfl hbodies now)
    | finalized intent result settled finishedAt bodies now hintent hstate hresult hpending
        hintentId hid hsettled hbodies =>
      exact Or.inl (cancelled_of_uncancelling rfl hbodies now)
    | _ => exact Or.inl rfl

/-- A task with a result is not cancelled any more. -/
theorem cancelled_of_result (h : Settled rows) (hsome : rows.result.isSome = true)
    (hmove : Move keys rows asked after) : after.cancelled = rows.cancelled := by
  rcases cancelled_move_cases hmove with hsame | hrunning | ⟨execution, hmem, hactive⟩
  · exact hsame
  · have hnone := h.coherent.lifecycle.mp (TaskRows.running_of_requireRunning hrunning).2.2
    rw [hnone] at hsome
    cases hsome
  · rw [h.idle hsome execution hmem] at hactive
    cases hactive

theorem runStatus_ne_running (h : rows.run.status ≠ .running) : rows.runStatus ≠ .running := by
  unfold TaskRows.runStatus effectiveRunState
  split_ifs
  · simp
  · cases hstatus : rows.run.status with
    | running => exact absurd hstatus h
    | _ => simp

/-- A step keeps what is settled. -/
theorem kept (h : Settled rows) (hafter : Settled after) (hmove : Move keys rows asked after) :
    Kept rows after where
  result := by
    intro result hresult
    obtain ⟨later, hlater, hid, _⟩ := result_move hresult hmove
    exact ⟨later, hlater, hid⟩
  decision := by
    intro result later hresult hlater hdecided
    obtain ⟨_, hother, _, hsame | ⟨hpending, _⟩⟩ := result_move hresult hmove
    · rw [hother] at hlater
      exact Option.some.inj hlater ▸ hsame
    · exact absurd hpending hdecided
  outcome := by
    intro hfinal
    by_cases hcancelled : rows.cancelled = true
    · have hstill := cancelled_move hmove hcancelled
      refine ⟨(TaskRows.taskStatus_eq_cancelled.mpr hstill).trans
        (TaskRows.taskStatus_eq_cancelled.mpr hcancelled).symm, ?_⟩
      simp [TaskRows.runStatus, effectiveRunState, hstill]
    · have hopen : rows.cancelled = false := by simpa using hcancelled
      obtain ⟨result, hresult, hdecided⟩ := h.decided_of_final hopen hfinal
      have hsome : rows.result.isSome = true := by simp [hresult]
      obtain ⟨later, hlater, _, hsame | ⟨hpending, _⟩⟩ := result_move hresult hmove
      · have hstill := (h.cancelled_of_result hsome hmove).trans hopen
        refine ⟨?_, runStatus_ne_running (hafter.stopped (by simp [hlater]))⟩
        rw [taskStatus_of_decided hopen hresult hdecided,
          taskStatus_of_decided hstill hlater (hsame ▸ hdecided), hsame]
      · exact absurd hpending hdecided

/-- What a step does to a decision. -/
theorem decides (hidle : asked.closesIdle rows = true) (hmove : Move keys rows asked after) :
    Decides rows after where
  decision := by
    intro result _ hresult hlater hchanged
    obtain ⟨other, hother, _, hsame | hdecided⟩ := result_move hresult hmove
    · rw [hother] at hlater
      exact absurd (Option.some.inj hlater ▸ hsame) hchanged
    · rw [hother] at hlater
      exact Option.some.inj hlater ▸ hdecided
  attention := by
    intro intent hintent hattention _
    cases hmove with
    | approvals | claimed => exact Or.inl hintent
    | change hchange =>
      cases hchange with
      | begun new _ _ _ _ _ hold =>
        rcases hold with hnone | ⟨old, _, _, hrejected⟩
        · rw [hintent] at hnone
          cases hnone
        · exact Or.inr ⟨new, rfl, hrejected⟩
      | aborted resultId hasked =>
        -- An abort of an intent that needs attention is excluded.
        left
        subst hasked
        have hother : intent.resultId ≠ resultId := by
          simpa [TaskRequest.closesIdle, TaskRequest.closes, hintent, hattention] using hidle
        simp [TaskRows.abortConnectorResultDecision, hintent, hother]
      | quarantined _ _ _ _ _ hother hpending =>
        rw [hintent] at hother
        obtain rfl := Option.some.inj hother
        rw [hattention] at hpending
        cases hpending
      | finalized other result settled finishedAt bodies now hother hstate hresult hpending
          hintentId hid hsettled hbodies =>
        rw [hintent] at hother
        obtain rfl := Option.some.inj hother
        rw [hattention] at hstate
        cases hstate
      | _ => exact Or.inl hintent

end Settled

/-! ### Runs -/

namespace Kept

variable {before middle after : TaskRows}

theorem trans (hfirst : Kept before middle) (hsecond : Kept middle after) : Kept before after where
  result := by
    intro result hresult
    obtain ⟨later, hlater, hid⟩ := hfirst.result result hresult
    obtain ⟨last, hlast, hlastId⟩ := hsecond.result later hlater
    exact ⟨last, hlast, hlastId.trans hid⟩
  decision := by
    intro result last hresult hlast hdecided
    obtain ⟨later, hlater, _⟩ := hfirst.result result hresult
    have hsame := hfirst.decision result later hresult hlater hdecided
    exact (hsecond.decision later last hlater hlast (hsame ▸ hdecided)).trans hsame
  outcome := by
    intro hfinal
    have hmiddle := (hfirst.outcome hfinal).1
    obtain ⟨hafter, hrun⟩ := hsecond.outcome (hmiddle ▸ hfinal)
    exact ⟨hafter.trans hmiddle, hrun⟩

theorem refl {rows : TaskRows} (h : Settled rows) : Kept rows rows where
  result result hresult := ⟨result, hresult, rfl⟩
  decision result later hresult hlater _ := by
    rw [hresult] at hlater
    exact Option.some.inj hlater ▸ rfl
  outcome hfinal := by
    refine ⟨rfl, ?_⟩
    by_cases hcancelled : rows.cancelled = true
    · simp [TaskRows.runStatus, effectiveRunState, hcancelled]
    · obtain ⟨result, hresult, _⟩ := h.decided_of_final (by simpa using hcancelled) hfinal
      exact Settled.runStatus_ne_running (h.stopped (by simp [hresult]))

end Kept

/-- The operation closes a task only when nothing is active, and aborts only a decision that is
under way. -/
def closesIdle (database : Database) : Operation → Bool
  | .owner taskId _ _ request =>
    (database.tasks.lookup taskId).all fun rows ↦ TaskRequest.closesIdle rows (.owner request)
  | .host taskId _ request =>
    (database.tasks.lookup taskId).all fun rows ↦ TaskRequest.closesIdle rows (.host request)
  | .abort taskId resultId =>
    (database.tasks.lookup taskId).all fun rows ↦ TaskRequest.closesIdle rows (.abort resultId)
  | _ => true

theorem closesIdle_of_reaches {database : Database} {operation : Operation} {taskId : String}
    {rows : TaskRows} {request : TaskRequest} (hidle : closesIdle database operation = true)
    (hrows : database.tasks.lookup taskId = some rows)
    (hreaches : operation.reaches database taskId rows = some request) :
    request.closesIdle rows = true := by
  cases request with
  | owner =>
    obtain ⟨projectId, _, rfl⟩ := owner_of_reaches hreaches
    simpa [closesIdle, hrows] using hidle
  | host =>
    obtain ⟨projectId, rfl⟩ := host_of_reaches hreaches
    simpa [closesIdle, hrows] using hidle
  | abort =>
    obtain rfl := abort_of_reaches hreaches
    simpa [closesIdle, hrows] using hidle
  | execution | restart => rfl

/-- In a run that closes tasks only when nothing is active every task is settled by its result. -/
theorem settled_run {operations : List Operation}
    (h : Along (fun database operation ↦ closesIdle database operation = true) {} operations) :
    ∀ taskId rows, (run {} operations).tasks.lookup taskId = some rows →
      DistinctIds rows.executions ∧ Settled rows := by
  refine invariant_run ?_ ?_ (fun _ _ hnone ↦ ?_) operations h
  · intro task mode
    exact ⟨List.nodup_nil, Settled.started task mode⟩
  · intro database operation taskId rows _ _ _ hidle hrows hreaches hinv hhandle
    have hmove := TaskRows.handle_move hhandle
    exact ⟨distinctIds_move hinv.1 (covers_of_lookup hrows) hmove,
      hinv.2.move hinv.1 (closesIdle_of_reaches hidle hrows hreaches) hmove⟩
  · simp at hnone

/-- The outcome of every task is decided once and for all. -/
structure OutcomeFinal (operations : List Operation) : Prop where
  kept : ∀ earlier later taskId before, operations = earlier ++ later →
    (run {} earlier).tasks.lookup taskId = some before →
      ∃ after, (run {} operations).tasks.lookup taskId = some after ∧ Kept before after
  decides : ∀ earlier operation later taskId before, operations = earlier ++ operation :: later →
    (run {} earlier).tasks.lookup taskId = some before →
      ∃ after, (run {} (earlier ++ [operation])).tasks.lookup taskId = some after ∧
        Decides before after

/-- As long as tasks get their result only when no execution of theirs is active, and no abort meets
an intent that needs attention, the outcome of a task is final and decided once. -/
theorem outcome_is_final (operations : List Operation)
    (hidle : Along (fun database operation ↦ closesIdle database operation = true) {} operations) :
    OutcomeFinal operations where
  kept := by
    rintro earlier later taskId before rfl hbefore
    obtain ⟨hearlier, hlater⟩ := along_append.mp hidle
    obtain ⟨hids, hsettled⟩ := settled_run hearlier taskId before hbefore
    rw [run_append]
    obtain ⟨after, hafter, _, _, hkept⟩ := lookup_run
      (P := fun rows ↦ DistinctIds rows.executions ∧ Settled rows ∧ Kept before rows) (by
        intro database operation taskId rows _ after answer hidle hrows hreaches hinv hhandle
        have hmove := TaskRows.handle_move hhandle
        have hafter := hinv.2.1.move hinv.1 (closesIdle_of_reaches hidle hrows hreaches) hmove
        exact ⟨distinctIds_move hinv.1 (covers_of_lookup hrows) hmove, hafter,
          hinv.2.2.trans (hinv.2.1.kept hafter hmove)⟩)
      hbefore ⟨hids, hsettled, Kept.refl hsettled⟩ later hlater
    exact ⟨after, hafter, hkept⟩
  decides := by
    rintro earlier operation later taskId before rfl hbefore
    obtain ⟨_, hoperation, _⟩ := along_append.mp hidle
    rw [run_append, run_cons, run_nil]
    rcases lookup_step_cases hbefore operation with hsame |
      ⟨asked, after, answer, hasked, hhandle, hafter⟩
    · refine ⟨before, hsame, ?_, fun _ hintent _ _ ↦ Or.inl hintent⟩
      intro _ later hresult hlater hchanged
      rw [hresult] at hlater
      exact absurd (Option.some.inj hlater ▸ rfl) hchanged
    · exact ⟨after, hafter, Settled.decides (closesIdle_of_reaches hoperation hbefore hasked)
        (TaskRows.handle_move hhandle)⟩

def surveyFinish (now : ℤ) : Operation := .owner "survey" "atlas" "client" (.finish
    { resultId := "report", summary := "done", validation := "none" } now)

def surveyDecision (decision : String) (now : ℤ) : Operation :=
  .host "survey" "atlas" (.beginDecision "report" decision "host" now)

def surveyDecided (now : ℤ) : Operation := .host "survey" "atlas"
    (.finalizeDecision "report" none now)

/-- A task that is finished, and accepted in two steps, keeps this outcome. -/
theorem outcome_is_final_survey :
    OutcomeFinal
      (surveyStarted ++ [surveyFinish 20, surveyDecision "accepted" 21, surveyDecided 22]) :=
  outcome_is_final _ ⟨rfl, rfl, by decide +kernel, by decide +kernel, by decide +kernel, trivial⟩

/-- A command hides behind a later one that has failed, waits too long, and is never submitted. The
result of the task is accepted before. -/
def hiddenCommand : List Operation := surveyStarted ++
    [surveyCommand "first" 10, .execution "first" (.finish (.submission "executor_rejected") 11),
      surveyCommand "second" 5, .execution "second" (.attach "job" "queued" 12),
      .execution "second" (.queueTimeout 200), surveyFinish 201, surveyDecision "accepted" 202,
      surveyDecided 203]

/-- The end of the hidden command cancels the accepted task. -/
def hiddenCommandEnds : List Operation :=
  [.execution "second" (.finish (.submission "executor_rejected") 300)]

/-- The executor rejects the hidden command when the result is accepted already, and the task turns
into a cancelled one. -/
theorem accepted_task_is_cancelled : ¬ OutcomeFinal (hiddenCommand ++ hiddenCommandEnds) := by
  intro h
  have haccepted : ((run {} hiddenCommand).tasks.lookup "survey").map TaskRows.taskStatus =
      some .accepted := by
    decide +kernel
  have hcancelled : ((run {} (hiddenCommand ++ hiddenCommandEnds)).tasks.lookup "survey").map
      TaskRows.taskStatus = some .cancelled := by
    decide +kernel
  obtain ⟨before, hbefore, hstatus⟩ := Option.map_eq_some_iff.mp haccepted
  obtain ⟨_, hafter, hkept⟩ := h.kept _ _ "survey" before rfl hbefore
  rw [hafter, Option.map_some] at hcancelled
  have hsame := (hkept.outcome (by rw [hstatus]; rfl)).1
  rw [hstatus, Option.some.inj hcancelled] at hsame
  cases hsame

end WebCodex.TaskStore
