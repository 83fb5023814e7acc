import WebCodex.TaskStore.ExecutionIds

/-!
An execution that is active, or whose end is unknown, blocks the finish of its task and the
reservation of another one. The store looks for it only at the newest execution by `submitted_at`.
So the guard works as long as the one that blocks is the newest (`Exclusive`), which the clock of
the caller decides.
-/

namespace WebCodex.TaskStore

open Foundation

theorem argmax_map {A B O : Type} [LinearOrder O] {f : A → B} {key : B → O} {other : A → O}
    (hkey : ∀ item, key (f item) = other item) (items : List A) :
    (items.map f).argmax key = (items.argmax other).map f := by
  induction items with
  | nil => rfl
  | cons _ rest ih =>
    rw [List.map_cons, List.argmax_cons, List.argmax_cons, ih]
    cases List.argmax other rest with
    | none => rfl
    | some =>
      simp only [Option.map_some, hkey]
      split_ifs <;> rfl

variable {f : ConnectorExecution → ConnectorExecution}

theorem newest_map (hf : ∀ execution, (f execution).submittedAt = execution.submittedAt)
    (executions : List ConnectorExecution) :
    newest (executions.map f) = (newest executions).map f := by
  rw [newest, ← List.map_reverse]
  exact argmax_map hf executions.reverse

variable {execution : ConnectorExecution}

/-- A later execution is the newest. -/
theorem newest_append {executions : List ConnectorExecution}
    (h : ∀ latest, newest executions = some latest → latest.submittedAt ≤ execution.submittedAt) :
    newest (executions ++ [execution]) = some execution := by
  rw [newest, List.reverse_append]
  show List.argmax _ (execution :: executions.reverse) = _
  rw [List.argmax_cons]
  cases hlatest : newest executions with
  | none => rw [show List.argmax _ executions.reverse = none from hlatest]
  | some latest =>
    rw [show List.argmax _ executions.reverse = some latest from hlatest]
    exact if_neg (not_lt.mpr (h latest hlatest))

theorem newest_eq_none {executions : List ConnectorExecution} (h : newest executions = none) :
    executions = [] := by
  rw [newest, List.argmax_eq_none] at h
  exact List.reverse_eq_nil_iff.mp h

/-! ### Exclusive executions -/

/-- The executions have ids of their own, and only the newest can block. -/
structure Exclusive (executions : List ConnectorExecution) : Prop where
  ids : DistinctIds executions
  newest : ∀ execution ∈ executions, execution.blocksFinish = true →
    newest executions = some execution

theorem blocksFinish_of_isActive (h : execution.isActive = true) :
    execution.blocksFinish = true := by
  rw [ConnectorExecution.blocksFinish, ConnectorExecutionState.blocksFinish,
    show execution.state.isActive = true from h, Bool.true_or]

namespace Exclusive

variable {executions : List ConnectorExecution} {execution : ConnectorExecution}
  {f : ConnectorExecution → ConnectorExecution}

theorem eq_of_blocks (h : Exclusive executions) {other : ConnectorExecution}
    (hmem : execution ∈ executions) (hblocks : execution.blocksFinish = true)
    (hother : other ∈ executions) (hotherBlocks : other.blocksFinish = true) :
    other = execution := by
  have hnewest := h.newest execution hmem hblocks
  rw [h.newest other hother hotherBlocks] at hnewest
  exact Option.some.inj hnewest

/-- An update that does not make an execution block. -/
theorem update (h : Exclusive executions) (hmem : execution ∈ executions) (hf : KeepsIdentity f)
    (hblocks : (f execution).blocksFinish = true → execution.blocksFinish = true) :
    Exclusive (executions.map (updated execution.executionId f)) where
  ids := by
    rw [DistinctIds, map_executionId_update hf]
    exact h.ids
  newest := by
    intro after hafter hafterBlocks
    have hkeeps : ∀ before, (updated execution.executionId f before).submittedAt =
        before.submittedAt := view_updateRow hf.submittedAt
    rw [newest_map hkeeps]
    rcases h.ids.mem_update hmem hafter with rfl | ⟨hold, hother⟩
    · rw [h.newest execution hmem (hblocks hafterBlocks)]
      simp [updated]
    · rw [h.newest after hold hafterBlocks]
      have hid : after.executionId ≠ execution.executionId :=
        fun hsame ↦ hother (h.ids.eq_of_executionId hmem hold hsame)
      simp [updated, hid]

/-- A new execution when none blocks, with a time that is not before that of the newest. -/
theorem append (h : Exclusive executions) (hfree : ∀ other ∈ executions, other.blocksFinish = false)
    (hnew : execution.executionId ∉ executions.map fun other ↦ other.executionId)
    (htime : ∀ latest, WebCodex.TaskStore.newest executions = some latest →
      latest.submittedAt ≤ execution.submittedAt) : Exclusive (executions ++ [execution]) where
  ids := nodup_map_concat h.ids hnew
  newest := by
    intro other hother hblocks
    rcases List.mem_append.mp hother with hold | hnew
    · rw [hfree other hold] at hblocks
      cases hblocks
    · rw [List.mem_singleton.mp hnew]
      exact newest_append htime

/-- Nothing blocks when the newest does not. -/
theorem free (h : Exclusive executions)
    (hfree : ∀ latest, WebCodex.TaskStore.newest executions = some latest →
      latest.blocksFinish = false) : ∀ other ∈ executions, other.blocksFinish = false := by
  intro other hother
  by_contra hblocks
  have hblocks : other.blocksFinish = true := by simpa using hblocks
  rw [hfree other (h.newest other hother hblocks)] at hblocks
  cases hblocks

end Exclusive

/-! ### Orderly tasks -/

structure Orderly (rows : TaskRows) : Prop where
  executions : Exclusive rows.executions
  /-- An active execution belongs to a running run without a result. -/
  active : ∀ execution ∈ rows.executions, execution.isActive = true →
    rows.run.status = .running ∧ rows.result = none ∧ rows.cancelled = false
  /-- Nothing blocks a result that waits for its review. -/
  reviewed : ∀ result, rows.result = some result → result.decisionStatus = .pending →
    ∀ execution ∈ rows.executions, execution.blocksFinish = false
  lifecycle : rows.lifecycle = .active ↔ rows.result = none
  intent : rows.intent.isSome = true → rows.result.isSome = true

namespace Orderly

variable {keys : Keys} {rows after : TaskRows} {asked : TaskRequest}

theorem started (task : NewConnectorTask) (mode : ConnectorTaskMode) :
    Orderly (TaskRows.started task mode) where
  executions := ⟨List.nodup_nil, by simp [TaskRows.started]⟩
  active := by simp [TaskRows.started]
  reviewed := by simp [TaskRows.started]
  lifecycle := by simp [TaskRows.started]
  intent := by simp [TaskRows.started]

/-- No execution is active once there is a result. -/
theorem inactive_of_result (h : Orderly rows) {result : ConnectorTaskResult}
    (hresult : rows.result = some result) (hmem : execution ∈ rows.executions) :
    execution.isActive = false := by
  by_contra hactive
  have hnone := (h.active execution hmem (by simpa using hactive)).2.1
  rw [hresult] at hnone
  cases hnone

/-- A change that keeps executions, result, lifecycle and intent, and stops the run only when
nothing is active. -/
theorem of_frame (h : Orderly rows) (hexecutions : after.executions = rows.executions)
    (hresult : after.result.map ConnectorTaskResult.core = rows.result.map ConnectorTaskResult.core)
    (hlifecycle : after.lifecycle = rows.lifecycle) (hintent : after.intent = rows.intent)
    (hactive : ∀ execution ∈ rows.executions, execution.isActive = true →
      after.run.status = rows.run.status ∧ after.cancelled = rows.cancelled) : Orderly after where
  executions := hexecutions ▸ h.executions
  active := by
    intro execution hmem hlive
    rw [hexecutions] at hmem
    obtain ⟨hrun, hnone, hcancelled⟩ := h.active execution hmem hlive
    obtain ⟨hsameRun, hsameCancelled⟩ := hactive execution hmem hlive
    refine ⟨hsameRun.trans hrun, ?_, hsameCancelled.trans hcancelled⟩
    rw [hnone] at hresult
    simpa using hresult
  reviewed := by
    intro result hafter hpending
    rw [hexecutions]
    rw [hafter] at hresult
    cases hbefore : rows.result with
    | none => simp [hbefore] at hresult
    | some before =>
      simp only [hbefore, Option.map_some, Option.some.injEq, ConnectorTaskResult.core,
        Prod.mk.injEq] at hresult
      exact h.reviewed before hbefore (hresult.2.symm.trans hpending)
  lifecycle := by
    rw [hlifecycle, h.lifecycle]
    cases hafter : after.result <;> cases hbefore : rows.result <;> simp_all
  intent := by
    intro hsome
    have hbefore := h.intent (hintent ▸ hsome)
    cases hafter : after.result <;> cases hbefore : rows.result <;> simp_all

/-- A change of one execution. -/
theorem of_update (h : Orderly rows) (hmem : execution ∈ rows.executions) (hf : KeepsIdentity f)
    (hexecutions : after.executions = rows.executions.map (updated execution.executionId f))
    (hresult : after.result = rows.result) (hlifecycle : after.lifecycle = rows.lifecycle)
    (hintent : after.intent = rows.intent)
    (hblocks : (f execution).blocksFinish = true → execution.blocksFinish = true)
    (hlive : (f execution).isActive = true → execution.isActive = true)
    (hactive : ∀ other ∈ after.executions, other.isActive = true →
      after.run.status = rows.run.status ∧ after.cancelled = rows.cancelled) :
    Orderly after where
  executions := hexecutions ▸ h.executions.update hmem hf hblocks
  active := by
    intro other hother hothersLive
    obtain ⟨hsameRun, hsameCancelled⟩ := hactive other hother hothersLive
    rw [hexecutions] at hother
    rw [hsameRun, hsameCancelled, hresult]
    rcases h.executions.ids.mem_update hmem hother with rfl | ⟨hold, _⟩
    · exact h.active execution hmem (hlive hothersLive)
    · exact h.active other hold hothersLive
  reviewed := by
    intro result hafter hpending other hother
    rw [hexecutions] at hother
    have hfree := h.reviewed result (hresult ▸ hafter) hpending
    rcases h.executions.ids.mem_update hmem hother with rfl | ⟨hold, _⟩
    · by_contra hstill
      have hbefore := hblocks (by simpa using hstill)
      rw [hfree execution hmem] at hbefore
      cases hbefore
    · exact hfree other hold
  lifecycle := by
    rw [hlifecycle, hresult]
    exact h.lifecycle
  intent := by
    rw [hintent, hresult]
    exact h.intent

/-- Once an active execution has ended, none is active. -/
theorem inactive_of_ended (h : Orderly rows) {other : ConnectorExecution}
    (hmem : execution ∈ rows.executions) (hactive : execution.isActive = true)
    (hended : (f execution).isActive = false)
    (hother : other ∈ rows.executions.map (updated execution.executionId f)) :
    other.isActive = false := by
  by_contra hlive
  have hlive : other.isActive = true := by simpa using hlive
  rcases h.executions.ids.mem_update hmem hother with rfl | ⟨hold, hne⟩
  · rw [hended] at hlive
    cases hlive
  · exact hne (h.executions.eq_of_blocks hmem (blocksFinish_of_isActive hactive) hold
      (blocksFinish_of_isActive hlive))

/-- An active execution ends, whatever becomes of its run. -/
theorem of_ended (h : Orderly rows) (hmem : execution ∈ rows.executions) (hf : KeepsIdentity f)
    (hactive : execution.isActive = true) (hended : (f execution).isActive = false)
    (hexecutions : after.executions = rows.executions.map (updated execution.executionId f))
    (hresult : after.result = rows.result) (hlifecycle : after.lifecycle = rows.lifecycle)
    (hintent : after.intent = rows.intent) : Orderly after := by
  refine h.of_update hmem hf hexecutions hresult hlifecycle hintent
    (fun _ ↦ blocksFinish_of_isActive hactive) (fun _ ↦ hactive) fun _ hother hlive ↦ ?_
  rw [hexecutions] at hother
  rw [h.inactive_of_ended hmem hactive hended hother] at hlive
  cases hlive

end Orderly

/-- The course of an execution makes it neither active nor blocking. -/
theorem Advances.blocks {before after : ConnectorExecution} (h : Advances before after) :
    (after.blocksFinish = true → before.blocksFinish = true) ∧
      (after.isActive = true → before.isActive = true) := by
  by_cases hended : before.isTerminal = true
  · have hstate := h.ended hended
    simp [ConnectorExecution.blocksFinish, ConnectorExecution.isActive, hstate]
  · have hactive := TaskRows.isActive_of_not_isTerminal hended
    exact ⟨fun _ ↦ blocksFinish_of_isActive hactive, fun _ ↦ hactive⟩

/-! ### Requests -/

/-- A reservation comes with a time that is not before that of the newest execution, unless it
repeats an operation. -/
def TaskRequest.timely (rows : TaskRows) : TaskRequest → Bool
  | owner (.reserve request) =>
    rows.executions.any (fun execution ↦ execution.operationId == request.operationId) ||
      rows.latestExecution.all fun latest ↦ latest.submittedAt ≤ request.now
  | _ => true

variable {rows after : TaskRows}

theorem hfree_of_blocker (h : rows.connectorFinishBlocker = none) :
    ∀ latest, newest rows.executions = some latest → latest.blocksFinish = false := by
  intro latest hlatest
  rw [TaskRows.connectorFinishBlocker, show rows.latestExecution = some latest from hlatest] at h
  simpa using h

/-- A timely request keeps a task orderly. -/
theorem Orderly.change {keys : Keys} {asked : TaskRequest} (h : Orderly rows)
    (hcovers : Covers keys rows) (htimely : asked.timely rows = true)
    (hchange : Change keys rows asked after) : Orderly after := by
  cases hchange with
  | unchanged => exact h
  | noted _ _ _ bodies now _ hrun hresult hbodies =>
    refine h.of_frame rfl hresult rfl rfl fun _ _ _ ↦ ⟨hrun, ?_⟩
    show (TaskRows.logs bodies now _).cancelled = _
    rw [TaskRows.cancelled_logs, hbodies, Bool.or_false]
    rfl
  | reserved request _ bodies hasked hoperation hrunning hfree hnew hbodies =>
    obtain ⟨hrun, hcancelled, hlifecycle⟩ := TaskRows.running_of_requireRunning hrunning
    have hnone : rows.result = none := h.lifecycle.mp hlifecycle
    have hidle := h.executions.free (hfree_of_blocker hfree)
    subst hasked
    refine ⟨h.executions.append hidle ?_ ?_, ?_, ?_, h.lifecycle, h.intent⟩
    · rintro hid
      obtain ⟨other, hother, hsame⟩ := List.mem_map.mp hid
      rw [← show other.executionId = request.executionId from hsame] at hnew
      exact hnew (hcovers.executions other hother)
    · intro latest hlatest
      have hnone : (rows.executions.any fun execution ↦
          execution.operationId == request.operationId) = false := by
        simpa using hoperation
      simp only [TaskRequest.timely, hnone, Bool.false_or,
        show rows.latestExecution = some latest from hlatest, Option.all_some] at htimely
      exact of_decide_eq_true htimely
    · intro _ _ _
      refine ⟨hrun, hnone, ?_⟩
      show (TaskRows.logs bodies _ _).cancelled = _
      rw [TaskRows.cancelled_logs, hbodies, Bool.or_false]
      exact hcancelled
    · intro result hresult
      rw [show rows.result = some result from hresult] at hnone
      cases hnone
  | updated _ _ bodies now _ hmem hf hadvances hbodies =>
    refine h.of_update hmem hf rfl rfl rfl rfl hadvances.blocks.1 hadvances.blocks.2
      fun _ _ _ ↦ ⟨rfl, ?_⟩
    show (TaskRows.logs bodies now _).cancelled = _
    rw [TaskRows.cancelled_logs, hbodies, Bool.or_false]
    rfl
  | lost _ _ _ _ _ hmem hf hactive hstate =>
    refine h.of_ended hmem hf hactive ?_ rfl rfl rfl rfl
    simp [ConnectorExecution.isActive, hstate, ConnectorExecutionState.isActive]
  | stopped _ _ _ _ hmem hf hactive hstate =>
    refine h.of_ended hmem hf hactive ?_ rfl rfl rfl rfl
    simp [ConnectorExecution.isActive, hstate, ConnectorExecutionState.isActive]
  | cancelled _ _ _ hidle =>
    refine h.of_frame rfl rfl rfl rfl fun execution hmem hlive ↦ ?_
    have hended :=
      hidle execution (h.executions.newest execution hmem (blocksFinish_of_isActive hlive))
    simp [ConnectorExecution.isTerminal, ConnectorExecutionState.isTerminal,
      show execution.state.isActive = true from hlive] at hended
  | restartedIdle _ _ hidle =>
    refine h.of_frame rfl rfl rfl rfl fun execution hmem hlive ↦ ?_
    have hnone := newest_eq_none hidle
    exact absurd (List.mem_filter.mpr ⟨hmem, hlive⟩) (by simp [hnone])
  | restarted _ _ now _ hactive =>
    obtain ⟨hmem, hlive⟩ := TaskRows.mem_of_newest_filter hactive
    exact h.of_ended (f := TaskRows.interruptExecution now) hmem
      ⟨fun _ ↦ rfl, fun _ ↦ rfl⟩ hlive rfl rfl rfl rfl rfl
  | finished _ _ _ _ hfree =>
    have hidle := h.executions.free (hfree_of_blocker hfree)
    refine ⟨h.executions, ?_, fun _ _ _ ↦ hidle, ?_, fun _ ↦ rfl⟩
    · intro execution hmem hlive
      have hblocks := blocksFinish_of_isActive hlive
      rw [hidle execution hmem] at hblocks
      cases hblocks
    · simp [TaskRows.expireApprovals]
  | abandoned result _ _ hrun _ hrejected =>
    refine ⟨h.executions, ?_, ?_, ?_, fun _ ↦ rfl⟩
    · intro execution hmem hlive
      have hrunning := (h.active execution hmem hlive).1
      rw [hrun] at hrunning
      cases hrunning
    · intro other hother hpending
      obtain rfl := Option.some.inj (show some result = some other from hother)
      rw [hrejected] at hpending
      cases hpending
    · simp [TaskRows.expireApprovals]
  | resumed _ _ hrun =>
    refine h.of_frame rfl rfl rfl rfl fun execution hmem hlive ↦ ?_
    have hrunning := (h.active execution hmem hlive).1
    rw [TaskRows.interrupted_of_runStatus hrun] at hrunning
    cases hrunning
  | begun _ _ hresult =>
    exact ⟨h.executions, h.active, h.reviewed, h.lifecycle, fun _ ↦ by simp [hresult]⟩
  | aborted =>
    refine ⟨h.executions, h.active, h.reviewed, h.lifecycle, fun hsome ↦ h.intent ?_⟩
    cases hintent : rows.intent <;> simp_all [TaskRows.abortConnectorResultDecision]
  | quarantined intent _ _ _ _ hintent =>
    have hsome : rows.result.isSome = true := h.intent (by simp [hintent])
    obtain ⟨result, hresult⟩ := Option.isSome_iff_exists.mp hsome
    refine ⟨h.executions, ?_, h.reviewed, h.lifecycle, fun _ ↦ hsome⟩
    intro execution hmem hlive
    rw [h.inactive_of_result hresult hmem] at hlive
    cases hlive
  | finalized intent result settled finishedAt bodies now hintent hstate hresult hpending hintentId
      hid hsettled hbodies =>
    refine ⟨h.executions, ?_, ?_, ?_, ?_⟩
    · intro execution hmem hlive
      rw [h.inactive_of_result hresult hmem] at hlive
      cases hlive
    · intro other hother hwaits
      obtain rfl := Option.some.inj (show some settled = some other from hother)
      rw [hsettled] at hwaits
      cases hdecision :
        intent.decision <;> simp [hdecision, ConnectorResultDecision.status] at hwaits
    · show intent.decision.lifecycle = .active ↔ some settled = none
      cases intent.decision <;> simp [ConnectorResultDecision.lifecycle]
    · intro hsome
      cases hsome

theorem Orderly.move {keys : Keys} {asked : TaskRequest} (h : Orderly rows)
    (hcovers : Covers keys rows) (htimely : asked.timely rows = true)
    (hmove : Move keys rows asked after) : Orderly after := by
  cases hmove with
  | change hchange => exact h.change hcovers htimely hchange
  | approvals _ bodies now _ _ hbodies =>
    refine h.of_frame rfl rfl rfl rfl fun _ _ _ ↦ ⟨rfl, ?_⟩
    show (TaskRows.logs bodies now _).cancelled = _
    rw [TaskRows.cancelled_logs, hbodies, Bool.or_false]
    rfl
  | claimed => exact ⟨h.executions, h.active, h.reviewed, h.lifecycle, h.intent⟩

/-! ### Runs -/

/-- The reservation that an operation makes is timely. -/
def timely (database : Database) : Operation → Bool
  | .owner taskId _ _ request =>
    (database.tasks.lookup taskId).all fun rows ↦ TaskRequest.timely rows (.owner request)
  | _ => true

theorem timely_of_reaches {database : Database} {operation : Operation} {taskId : String}
    {request : TaskRequest} (htimely : timely database operation = true)
    (hrows : database.tasks.lookup taskId = some rows)
    (hreaches : operation.reaches database taskId rows = some request) :
    request.timely rows = true := by
  cases request with
  | owner =>
    obtain ⟨_, _, rfl⟩ := owner_of_reaches hreaches
    simpa [timely, hrows] using htimely
  | _ => rfl

/-- In a run with timely reservations every task is orderly. -/
theorem orderly_run {operations : List Operation}
    (h : Along (fun database operation ↦ timely database operation = true) {} operations) :
    ∀ taskId rows, (run {} operations).tasks.lookup taskId = some rows → Orderly rows := by
  refine invariant_run Orderly.started ?_ (fun _ _ hnone ↦ ?_) operations h
  · intro database operation taskId rows _ _ _ htimely hrows hreaches horderly hhandle
    exact horderly.move (covers_of_lookup hrows) (timely_of_reaches htimely hrows hreaches)
      (TaskRows.handle_move hhandle)
  · simp at hnone

/-- One live execution for each task, which blocks its finish and does not survive a restart. -/
structure OneLiveExecution (database : Database) : Prop where
  single : ∀ taskId rows, database.tasks.lookup taskId = some rows →
    (rows.executions.filter ConnectorExecution.isActive).length ≤ 1
  ready : ∀ taskId rows, database.tasks.lookup taskId = some rows →
    rows.taskStatus = .readyForReview →
      ∀ execution ∈ rows.executions, execution.isActive = false ∧ execution.state ≠ .unknown
  restarted : ∀ projectId now taskId rows,
    (step database (.restart projectId now)).database.tasks.lookup taskId = some rows →
      rows.projectId = projectId → rows.run.status ≠ .running ∧
        ∀ execution ∈ rows.executions, execution.isActive = false

namespace Orderly

variable {rows : TaskRows}

theorem length_active_le (h : Orderly rows) :
    (rows.executions.filter ConnectorExecution.isActive).length ≤ 1 := by
  have hnodup : (rows.executions.filter ConnectorExecution.isActive).Nodup :=
    (h.executions.ids.of_map _).filter _
  cases hactive : rows.executions.filter ConnectorExecution.isActive with
  | nil => simp
  | cons first rest =>
    cases rest with
    | nil => simp
    | cons second =>
      have hmem : ∀ execution ∈ [first, second],
          execution ∈ rows.executions ∧ execution.isActive = true := by
        intro execution hexecution
        refine List.mem_filter.mp (hactive ▸ ?_)
        simp only [List.mem_cons, List.not_mem_nil, or_false] at hexecution ⊢
        rcases hexecution with rfl | rfl <;> simp
      obtain ⟨hfirst, hfirstLive⟩ := hmem first (by simp)
      obtain ⟨hsecond, hsecondLive⟩ := hmem second (by simp)
      have hsame : second = first := h.executions.eq_of_blocks hfirst
        (blocksFinish_of_isActive hfirstLive) hsecond (blocksFinish_of_isActive hsecondLive)
      rw [hactive, hsame] at hnodup
      simp at hnodup

/-- Nothing blocks a task that is ready for review. -/
theorem ready (h : Orderly rows) (hready : rows.taskStatus = .readyForReview)
    (hmem : execution ∈ rows.executions) :
    execution.blocksFinish = false := by
  cases hcancelled : rows.cancelled with
  | true => simp [TaskRows.taskStatus, effectiveTaskState, hcancelled] at hready
  | false =>
    cases hresult : rows.result with
    | none =>
      have hlifecycle := h.lifecycle.mpr hresult
      by_cases hrun : rows.run.status = .interrupted <;>
        simp [TaskRows.taskStatus, effectiveTaskState, hcancelled, hresult, hlifecycle,
          hrun] at hready
    | some result =>
      refine h.reviewed result hresult ?_ execution hmem
      cases hdecision : result.decisionStatus with
      | pending => rfl
      | accepted | rejected =>
        simp [TaskRows.taskStatus, effectiveTaskState, hcancelled, hresult, hdecision] at hready

theorem interruptedRun_ne_running (now : ℤ) (run : RunRow) :
    (TaskRows.interruptedRun now run).status ≠ .running := by
  unfold TaskRows.interruptedRun
  split_ifs with hrunning
  · simp
  · simpa using hrunning

/-- A restart leaves nothing that runs. -/
theorem reconciled (h : Orderly rows) {now : ℤ}
    (hafter : rows.reconcileConnectorExecutions now = .ok after) :
    after.run.status ≠ .running ∧ ∀ execution ∈ after.executions, execution.isActive = false := by
  unfold TaskRows.reconcileConnectorExecutions at hafter
  by_cases hrun : rows.run.status = .running
  · simp only [hrun, bne_self_eq_false, Bool.false_eq_true, if_false] at hafter
    cases hactive : newest (rows.executions.filter ConnectorExecution.isActive) with
    | none =>
      simp only [hactive, TaskRows.interruptRun_eq, Except.ok.injEq] at hafter
      subst hafter
      refine ⟨interruptedRun_ne_running now _, fun execution hmem ↦ ?_⟩
      by_contra hlive
      have hfound : execution ∈ rows.executions.filter ConnectorExecution.isActive :=
        List.mem_filter.mpr ⟨hmem, by simpa using hlive⟩
      rw [newest_eq_none hactive] at hfound
      cases hfound
    | some =>
      simp only [hactive, TaskRows.appendExecutionEvent_eq, bind_eq_ok, Except.ok.injEq,
        exists_eq_left', TaskRows.interruptRun_eq] at hafter
      subst hafter
      obtain ⟨hmem, hlive⟩ := TaskRows.mem_of_newest_filter hactive
      refine ⟨interruptedRun_ne_running now _, fun _ hother ↦ ?_⟩
      exact h.inactive_of_ended (f := TaskRows.interruptExecution now) hmem hlive rfl hother
  · rw [if_pos (by simpa using hrun)] at hafter
    obtain rfl := Except.ok.inj hafter
    refine ⟨hrun, fun execution hmem ↦ ?_⟩
    by_contra hlive
    exact hrun (h.active execution hmem (by simpa using hlive)).1

end Orderly

/-- As long as no reservation comes with a time before that of the newest execution of its task, at
most one execution of a task is active, nothing blocks a task that is ready for review, and a
restart leaves nothing that runs. -/
theorem one_live_execution (operations : List Operation)
    (htimely : Along (fun database operation ↦ timely database operation = true) {} operations) :
    OneLiveExecution (run {} operations) where
  single taskId rows hrows := (orderly_run htimely taskId rows hrows).length_active_le
  ready taskId rows hrows hready execution hmem := by
    have hfree := (orderly_run htimely taskId rows hrows).ready hready hmem
    simpa [ConnectorExecution.blocksFinish, ConnectorExecutionState.blocksFinish,
      ConnectorExecution.isActive] using hfree
  restarted projectId now taskId rows hrows hproject := by
    cases hbefore : (run {} operations).tasks.lookup taskId with
    | none =>
      rw [step, Database.reconcileConnectorStartup_eq, Table.lookup_mapValues, hbefore] at hrows
      cases hrows
    | some before =>
      have horderly := orderly_run htimely taskId before hbefore
      obtain ⟨_, hafter⟩ := before.exists_reconcileConnectorExecutions now
      rw [step, Database.reconcileConnectorStartup_eq, Table.lookup_mapValues, hbefore,
        Option.map_some, Option.some.injEq] at hrows
      by_cases hsame : before.projectId = projectId
      · simp only [hsame, beq_self_eq_true, if_true, hafter, Except.toOption,
          Option.getD_some] at hrows
        subst hrows
        exact horderly.reconciled hafter
      · rw [if_neg (by simpa using hsame)] at hrows
        subst hrows
        exact absurd hproject hsame

def surveyTask : NewConnectorTask where
  taskId := "survey"
  runId := "survey-run"
  projectId := "atlas"
  workspaceId := "atlas-main"
  subjectId := "client"
  goal := "survey"
  mode := "read_only"
  targetExecutorRef := "local"
  executionExecutorRef := "local"
  targetRoot := "/atlas"
  executionRoot := "/atlas"
  isolated := false
  now := 1

def surveyStarted : List Operation := [.bind "atlas" "client" "atlas-main", .start surveyTask none]

def surveyCommand (executionId : String) (now : ℤ) : Operation :=
  .owner "survey" "atlas" "client" (.reserve
    { executionId := executionId
      kind := "command"
      operationId := executionId
      requestSha256 := executionId
      queueDeadline := 100
      now := now })

/-- A command is reserved, and the executor rejects it. -/
def surveyRejected : List Operation := surveyStarted ++
    [surveyCommand "first" 10, .execution "first" (.finish (.submission "executor_rejected") 11)]

/-- A command that is reserved after the rejected one is the one live execution. -/
theorem one_live_execution_survey :
    OneLiveExecution (run {} (surveyRejected ++ [surveyCommand "second" 12])) ∧
      ((run {} (surveyRejected ++ [surveyCommand "second" 12])).tasks.lookup "survey").map
        (fun rows ↦ (rows.executions.filter ConnectorExecution.isActive).map
          ConnectorExecution.executionId) = some ["second"] :=
  ⟨one_live_execution _ ⟨rfl, rfl, by decide +kernel, rfl, by decide +kernel, trivial⟩,
    by decide +kernel⟩

/-- Two commands are reserved with times before that of the rejected one. -/
def overtakenReservations : List Operation :=
  surveyRejected ++ [surveyCommand "second" 5, surveyCommand "third" 7]

/-- Both are active. -/
theorem overtaken_reservations_are_both_live :
    ¬ OneLiveExecution (run {} overtakenReservations) := by
  intro h
  have hcount : ((run {} overtakenReservations).tasks.lookup "survey").map
      (fun rows ↦ (rows.executions.filter ConnectorExecution.isActive).length) = some 2 := by
    decide +kernel
  obtain ⟨rows, hrows, _⟩ := Option.map_eq_some_iff.mp hcount
  have hsingle := h.single "survey" rows hrows
  omega

end WebCodex.TaskStore
