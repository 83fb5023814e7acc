import WebCodex.AgentTasks.Steps

/-!
A dispatch of an agent task is claimed before anything is sent to a runner. From then on its
binding blocks another attempt until the dispatch is recorded as not started or the task ends.
Only the latest attempt of a task that goes on can claim one, so it is alone
(`dispatch_is_exclusive`). An expired lease does not let the binding go.
-/

namespace WebCodex.AgentTasks

open Foundation

/-! ### The hold of a dispatch on its task -/

/-- The attempt is the latest of its task, and either the task has ended or the coding run of the
attempt stands in the way of another. -/
structure Holds (attemptId : String) (rows : AgentTaskRows) : Prop where
  latest : rows.latestAttemptId = some attemptId
  blocks : rows.storedState.terminal = true ∨
    ∃ binding, rows.loadCodingRunBindingForAttempt attemptId = some binding ∧
      binding.dispatchState.blocksReplacement = true

/-- The dispatch of an attempt is recorded as not started. -/
def AgentTaskRows.NotStarted (attemptId : String) (rows : AgentTaskRows) : Prop :=
  ∃ binding, rows.loadCodingRunBindingForAttempt attemptId = some binding ∧
    binding.dispatchState = .notStarted

namespace AgentTaskRows

variable {rows : AgentTaskRows}

theorem latestAttemptId_materialize (now : ℤ) :
    (rows.materializeExpiredLatestAttempt now).latestAttemptId = rows.latestAttemptId := by
  unfold materializeExpiredLatestAttempt
  split
  · rfl
  · split_ifs <;> rfl

theorem codingRuns_materialize (now : ℤ) :
    (rows.materializeExpiredLatestAttempt now).codingRuns = rows.codingRuns := by
  unfold materializeExpiredLatestAttempt
  split
  · rfl
  · split_ifs <;> rfl

theorem terminal_materialize (now : ℤ) :
    (rows.materializeExpiredLatestAttempt now).storedState.terminal =
      rows.storedState.terminal := by
  unfold materializeExpiredLatestAttempt
  split
  · rfl
  · split_ifs with _ hready
    · simp [hready.2, AgentTaskState.terminal]
    · rfl
    · rfl

theorem loadCodingRun_materialize (now : ℤ) (attemptId : String) :
    (rows.materializeExpiredLatestAttempt now).loadCodingRunBindingForAttempt attemptId =
      rows.loadCodingRunBindingForAttempt attemptId := by
  unfold loadCodingRunBindingForAttempt
  rw [codingRuns_materialize]

theorem blocked_materialize (now : ℤ) :
    (rows.materializeExpiredLatestAttempt now).blocked = rows.blocked := by
  unfold blocked latestCodingRun
  rw [latestAttemptId_materialize]
  simp [loadCodingRun_materialize]

end AgentTaskRows

variable {after rows : AgentTaskRows} {now : ℤ}

namespace Holds

variable {attemptId : String} {rows : AgentTaskRows}

/-- A task that goes on is blocked. -/
theorem blocked (h : Holds attemptId rows) (hopen : rows.storedState.terminal = false) :
    rows.blocked = true := by
  rcases h.blocks with hterminal | ⟨binding, hbinding, hblocks⟩
  · rw [hopen] at hterminal
    cases hterminal
  · unfold AgentTaskRows.blocked AgentTaskRows.latestCodingRun
    rw [h.latest]
    simp [hbinding, hblocks]

/-- The rows of a task that differ in other respects only. -/
theorem congr (h : Holds attemptId rows) (hlatest : after.latestAttemptId = rows.latestAttemptId)
    (hterminal : rows.storedState.terminal = true → after.storedState.terminal = true)
    (hruns : after.codingRuns = rows.codingRuns) : Holds attemptId after := by
  refine ⟨hlatest.trans h.latest, h.blocks.imp hterminal ?_⟩
  unfold AgentTaskRows.loadCodingRunBindingForAttempt
  rw [hruns]
  exact id

/-- An update of a coding run that leaves a blocking one blocking. -/
theorem setCodingRun {other : String} {f : CodingRunBinding → CodingRunBinding}
    (h : Holds attemptId rows) (hid : ∀ binding, (f binding).attemptId = binding.attemptId)
    (hf : other = attemptId → ∀ binding, binding.dispatchState.blocksReplacement = true →
      (f binding).dispatchState.blocksReplacement = true) :
    Holds attemptId (rows.setCodingRun other f) := by
  refine ⟨h.latest, h.blocks.imp id ?_⟩
  rintro ⟨binding, hbinding, hblocks⟩
  refine ⟨updateRow CodingRunBinding.attemptId other f binding, ?_, ?_⟩
  · rw [AgentTaskRows.loadCodingRunBindingForAttempt_setCodingRun hid, hbinding]
    rfl
  · have hbound := AgentTaskRows.attemptId_of_loadCodingRun hbinding
    by_cases hsame : other = attemptId
    · subst hsame
      rw [← hbound, updateRow_self]
      exact hf rfl binding hblocks
    · rw [updateRow_ne]
      · exact hblocks
      · intro heq
        exact hsame (heq.symm.trans hbound)

/-- An attempt that may act on a held task is the one that holds it, and its coding run blocks. -/
theorem of_current {asserted : AttemptAssertion} (h : Holds attemptId rows)
    (hcurrent : Current asserted now rows) :
    asserted.attemptId = attemptId ∧
      ∃ binding, rows.loadCodingRunBindingForAttempt attemptId = some binding ∧
        binding.dispatchState.blocksReplacement = true := by
  constructor
  · have hlatest := hcurrent.latest
    rw [h.latest, Option.some.injEq] at hlatest
    exact hlatest.symm
  · rcases h.blocks with hterminal | hbinding
    · rw [hcurrent.goes_on] at hterminal
      cases hterminal
    · exact hbinding

/-- The end of a task keeps its latest attempt and its coding runs. -/
theorem terminate {other : String} {outcome : AgentTaskState} {state : AgentTaskAttemptState}
    {result reason : Option String} (h : Holds attemptId rows)
    (houtcome : outcome.terminal = true) :
    Holds attemptId (rows.terminate other outcome state result reason now) :=
  ⟨h.latest, Or.inl houtcome⟩

end Holds

/-- A dispatch that blocks another attempt cannot be claimed again. -/
theorem mayDispatch_of_blocksReplacement {state : DispatchState}
    (h : state.blocksReplacement = true) : state.mayDispatch = false := by
  cases state <;> first | rfl | cases h

theorem blocksReplacement_dispatchState (observation : Observation) :
    observation.dispatchState.blocksReplacement = true := by
  unfold Observation.dispatchState
  split_ifs <;> rfl

variable {attemptId taskId : String}

theorem loadCodingRun_setDispatch {binding : CodingRunBinding} (state : DispatchState)
    (hbinding : rows.loadCodingRunBindingForAttempt attemptId = some binding) :
    (rows.setDispatch attemptId state now).loadCodingRunBindingForAttempt attemptId =
      some (binding.setDispatch state now) := by
  unfold AgentTaskRows.setDispatch
  rw [AgentTaskRows.loadCodingRunBindingForAttempt_setCodingRun
    (f := CodingRunBinding.setDispatch state now) (fun _ ↦ rfl), hbinding, Option.map_some,
    ← AgentTaskRows.attemptId_of_loadCodingRun hbinding, updateRow_self]

/-- A call on a held task hands nothing out, and the task stays held unless the dispatch is recorded
as not started afterwards. -/
theorem Holds.change {keys : Keys} {asked request : TaskRequest} {answer : Answer}
    (h : Holds attemptId rows) (hchecked : Checked asked request)
    (hchange : Change keys now rows request after answer) :
    (∀ attempt fence, answer ≠ .started attempt fence false) ∧
      (∀ binding, answer ≠ .claimed binding true) ∧
      (¬ after.NotStarted attemptId → Holds attemptId after) := by
  cases hchange with
  | kept hquiet =>
    refine ⟨?_, ?_, fun _ ↦ h⟩
    · rintro attempt fence rfl
      cases hquiet
    · rintro binding rfl
      cases hquiet
  | expired =>
    refine ⟨by simp, by simp, fun _ ↦ ?_⟩
    refine h.congr (rows.latestAttemptId_materialize now) ?_ (rows.codingRuns_materialize now)
    rw [rows.terminal_materialize now]
    exact id
  | assigned hopen hfree =>
    rw [rows.blocked_materialize now, h.blocked hopen] at hfree
    cases hfree
  | started hopen hfree =>
    rw [rows.blocked_materialize now, h.blocked hopen] at hfree
    cases hfree
  | renewed _ _ _ hquiet =>
    refine ⟨?_, ?_, fun _ ↦ h.congr rfl id rfl⟩
    · rintro attempt fence rfl
      cases hquiet
    · rintro binding rfl
      cases hquiet
  | continued => exact ⟨by simp, by simp, fun _ ↦ h.congr rfl id rfl⟩
  | completed =>
    refine ⟨by simp, by simp, fun _ ↦ ?_⟩
    cases hchecked with
    | same hopen => exact absurd rfl (hopen _ _ _ _)
    | complete houtcome => exact h.terminate houtcome
  | prepared hcurrent _ hfree =>
    obtain ⟨hsame, binding, hbinding, _⟩ := h.of_current hcurrent
    rw [hsame, hbinding] at hfree
    cases hfree
  | rebound _ hf =>
    refine ⟨by simp, by simp, fun _ ↦ h.setCodingRun hf.attemptId fun _ binding hblocks ↦ ?_⟩
    rwa [hf.dispatchState]
  | dispatched hcurrent hbinding hmay =>
    obtain ⟨hsame, binding, hheld, hblocks⟩ := h.of_current hcurrent
    rw [hsame, hheld, Option.some.injEq] at hbinding
    subst hbinding
    rw [mayDispatch_of_blocksReplacement hblocks] at hmay
    cases hmay
  | notStarted hbinding =>
    refine ⟨by simp, by simp, fun hstarted ↦ h.setCodingRun (fun _ ↦ rfl) fun hsame ↦ ?_⟩
    subst hsame
    exact absurd ⟨_, loadCodingRun_setDispatch .notStarted hbinding, rfl⟩ hstarted
  | observed hquiet =>
    refine ⟨?_, ?_, fun _ ↦ h.setCodingRun (fun _ ↦ rfl) fun _ binding _ ↦ ?_⟩
    · rintro attempt fence rfl
      cases hquiet
    · rintro binding rfl
      cases hquiet
    · exact blocksReplacement_dispatchState _
  | unavailable =>
    exact ⟨by simp, by simp, fun _ ↦ h.setCodingRun (fun _ ↦ rfl) fun _ _ _ ↦ rfl⟩
  | terminalized _ _ hmerged _ houtcome =>
    refine ⟨by simp, by simp, fun _ ↦ ⟨?_, Or.inl houtcome⟩⟩
    rcases hmerged with rfl | rfl
    · exact h.latest
    · exact h.latest

theorem Holds.materializeWakeExpiry (h : Holds attemptId rows) (expired : String) (now : ℤ) :
    Holds attemptId (rows.materializeAgentTaskWakeExpiry expired now) := by
  unfold AgentTaskRows.materializeAgentTaskWakeExpiry
  dsimp only
  split_ifs with hready
  · refine h.congr rfl (fun hterminal ↦ ?_) rfl
    rw [hready.1] at hterminal
    cases hterminal
  · exact h.congr rfl id rfl

/-! ### Runs -/

/-- The operation starts a new attempt of the task. -/
def startsAttempt (taskId : String) (database : Database) : Operation → Prop
  | .task principal called now request => called = taskId ∧ ∃ attempt fence,
      (step database (.task principal called now request)).answer = .ok
        (.started attempt fence false)
  | _ => False

/-- The operation is the claim of a dispatch, for some attempt of the task, that may be sent. -/
def dispatches (taskId : String) (database : Database) : Operation → Prop
  | .task principal called now request => called = taskId ∧ ∃ binding,
      (step database (.task principal called now request)).answer = .ok (.claimed binding true)
  | _ => False

def notStarted (taskId attemptId : String) (database : Database) : Prop :=
  ∃ rows, database.tasks.lookup taskId = some rows ∧ rows.NotStarted attemptId

/-- The run of an attempt was observed to have ended, one way or the other. -/
def definitivelyObserved (taskId attemptId : String) (database : Database) : Prop :=
  ∃ rows binding state, database.tasks.lookup taskId = some rows ∧
    rows.loadCodingRunBindingForAttempt attemptId = some binding ∧
    binding.lastObservedRunState = some state ∧ state.definitive = true

/-- A dispatch is under way: the operation leads neither to a state in which it is recorded as not
started nor to one in which its run has ended. -/
def underWay (taskId attemptId : String) (database : Database) (operation : Operation) : Prop :=
  ¬ notStarted taskId attemptId (next database operation) ∧
    ¬ definitivelyObserved taskId attemptId (next database operation)

variable {database : Database}

/-- A step keeps a task held unless the dispatch is recorded as not started afterwards. -/
theorem Holds.step {operation : Operation} (hstep : RowsStep database operation taskId rows after)
    (hstarted : ¬ after.NotStarted attemptId) (h : Holds attemptId rows) :
    Holds attemptId after := by
  cases hstep with
  | same => exact h
  | expired => exact h.materializeWakeExpiry _ _
  | called _ hchecked _ hchange => exact (h.change hchecked hchange).2.2 hstarted

/-- A held task gives out no attempt and no dispatch. -/
theorem Holds.exclusive (hrows : database.tasks.lookup taskId = some rows)
    (h : Holds attemptId rows) (operation : Operation) :
    ¬ startsAttempt taskId database operation ∧ ¬ dispatches taskId database operation := by
  cases operation with
  | register | create | expireWake => exact ⟨id, id⟩
  | task principal called now asked =>
    by_cases hsame : called = taskId
    · subst hsame
      have hquiet : ∀ answer,
          (AgentTasks.step database (.task principal called now asked)).answer = .ok answer →
          (∀ attempt fence, answer ≠ .started attempt fence false) ∧
            ∀ binding, answer ≠ .claimed binding true := by
        intro answer hanswer
        cases hperform : database.perform (.task principal called now asked) with
        | error =>
          rw [step_of_error hperform] at hanswer
          cases hanswer
        | ok outcome =>
          obtain ⟨_, _⟩ := outcome
          rw [step_of_ok hperform] at hanswer
          cases hanswer
          obtain ⟨_, _, hvalid, hload, ⟨_, _, _, _, _, _, hreplay⟩ | ⟨_, hchange, _⟩⟩ :=
            Database.callTask_cases hperform
          · have hgrants := grants_of_replay hreplay
            constructor
            · rintro attempt fence rfl
              cases hgrants
            · rintro binding rfl
              cases hgrants
          · obtain ⟨hloaded, _⟩ := Database.lookup_of_loadOwnedTask hload
            rw [hrows, Option.some.injEq] at hloaded
            subst hloaded
            have hheld := h.change (checked_of_validate hvalid) hchange
            exact ⟨hheld.1, hheld.2.1⟩
      constructor
      · rintro ⟨_, attempt, fence, hanswer⟩
        exact (hquiet _ hanswer).1 attempt fence rfl
      · rintro ⟨_, binding, hanswer⟩
        exact (hquiet _ hanswer).2 binding rfl
    · exact ⟨fun hstart ↦ hsame hstart.1, fun hdispatch ↦ hsame hdispatch.1⟩

theorem Holds.of_setDispatch {binding : CodingRunBinding}
    (hlatest : rows.latestAttemptId = some attemptId)
    (hbinding : rows.loadCodingRunBindingForAttempt attemptId = some binding) :
    Holds attemptId (rows.setDispatch attemptId .outcomeUnknown now) :=
  ⟨hlatest, Or.inr ⟨_, loadCodingRun_setDispatch .outcomeUnknown hbinding, rfl⟩⟩

/-- A claim that may be sent leaves its task held. -/
theorem holds_of_claim {principal : CommunicationPrincipal} {asserted : AttemptAssertion}
    {fingerprint : String} {binding : CodingRunBinding}
    (h : (step database (.task principal taskId now (.claim asserted fingerprint))).answer =
      .ok (.claimed binding true)) :
    ∃ rows, (next database
        (.task principal taskId now (.claim asserted fingerprint))).tasks.lookup taskId =
          some rows ∧
      Holds asserted.attemptId rows := by
  cases hperform : database.perform (.task principal taskId now (.claim asserted fingerprint)) with
  | error =>
    rw [step_of_error hperform] at h
    cases h
  | ok outcome =>
    obtain ⟨after, _⟩ := outcome
    unfold next
    rw [step_of_ok hperform] at h ⊢
    cases h
    obtain ⟨rows, _, hvalid, _, ⟨_, _, _, _, _, _, hreplay⟩ | ⟨changed, hchange, hafter⟩⟩ :=
      Database.callTask_cases hperform
    · cases grants_of_replay hreplay
    · have hlookup : after.tasks.lookup taskId = some changed := by
        rcases hafter with ⟨_, rfl⟩ | ⟨_, _, _, _, _, rfl⟩
        · exact (lookup_setTask database taskId taskId changed).trans (if_pos rfl)
        · exact (lookup_setTask database taskId taskId changed).trans (if_pos rfl)
      refine ⟨changed, hlookup, ?_⟩
      cases checked_of_validate hvalid
      cases hchange with
      | kept hquiet => cases hquiet
      | renewed _ _ _ hquiet => cases hquiet
      | observed hquiet => cases hquiet
      | dispatched hcurrent hbinding =>
        exact Holds.of_setDispatch hcurrent.latest hbinding

/-- After a claim that may be sent, no other dispatch of the task can be claimed and no new attempt
of it is started, in any order of calls and with any clock values, until its binding stands as not
started or its run was observed to have ended. (The second end alone gives nothing out either: it
lasts until the task is reconciled with it, and then the task is terminal.) -/
theorem dispatch_is_exclusive (before later : List Operation) (principal : CommunicationPrincipal)
    (taskId : String) (now : ℤ) (asserted : AttemptAssertion) (fingerprint : String)
    (binding : CodingRunBinding) (operation : Operation)
    (hclaim : (step (run {} before)
      (.task principal taskId now (.claim asserted fingerprint))).answer =
        .ok (.claimed binding true))
    (hunderWay : Replay.Along next (underWay taskId asserted.attemptId)
      (next (run {} before) (.task principal taskId now (.claim asserted fingerprint))) later) :
    ¬ startsAttempt taskId
        (run {} (before ++ .task principal taskId now (.claim asserted fingerprint) :: later))
          operation ∧
      ¬ dispatches taskId
        (run {} (before ++ .task principal taskId now (.claim asserted fingerprint) :: later))
        operation := by
  obtain ⟨_, hrows, hholds⟩ := holds_of_claim hclaim
  obtain ⟨_, hafter, hheld⟩ := task_run (P := Holds asserted.attemptId)
    (fun _ hafter hstep hcondition h ↦
      Holds.step hstep (fun hstarted ↦ hcondition.1 ⟨_, hafter, hstarted⟩) h)
    hrows hholds later hunderWay
  rw [run_append, run_cons]
  exact hheld.exclusive hafter operation

/-! ### A survey of the code -/

/-- A principal, its agent, and a task with one attempt that has prepared a coding run. -/
def surveyOwner : CommunicationPrincipal :=
  ⟨"user", "wc_commprincipal_0000000000000000000000000000000000000000000000000000000000000001"⟩

def surveyAgent : String := "wc_dagent_00000000000000000000000000000001"

def surveyTask : String := "wc_agent_task_00000000000000000000000000000001"

def surveyAttempt : NewAttempt := ⟨"wc_agent_task_attempt_00000000000000000000000000000001",
    "wc_agent_task_fence_00000000000000000000000000000001"⟩

def surveyAssertion : AttemptAssertion :=
  ⟨surveyAttempt.attemptId, surveyAgent, surveyAttempt.attemptFence, 1⟩

def surveyIntent : BindingIntent :=
  ⟨"wc_agent_run_1", "demo", "codex", "codex_1", "auth_1", "intent_1", "binding_1"⟩

def surveyRegistered : List Operation := [.register surveyAgent surveyOwner, .create surveyOwner
      { title := "Survey"
        instruction := "Read the code."
        assigneeAgentId := some surveyAgent
        referencedProjectId := some "demo"
        idempotencyKey := "create" } (.ok ()) surveyTask 0]

def surveyStart : List Operation :=
  surveyRegistered ++ [.task surveyOwner surveyTask 0 (.start surveyAgent "first" surveyAttempt)]

def surveyPrepared : List Operation :=
  surveyStart ++ [.task surveyOwner surveyTask 1 (.prepare surveyAssertion "demo" surveyIntent)]

/-- The run of the survey with its lease expired: neither a new attempt nor another dispatch. -/
theorem dispatch_is_exclusive_survey :
    (step (run {} surveyPrepared)
        (.task surveyOwner surveyTask 2 (.claim surveyAssertion "binding_1"))).answer =
      .ok (.claimed ((surveyIntent.binding surveyAttempt.attemptId 1).setDispatch .outcomeUnknown 2)
        true) ∧
    ¬ startsAttempt surveyTask
      (run {} (surveyPrepared ++
        .task surveyOwner surveyTask 2 (.claim surveyAssertion "binding_1") ::
          [.expireWake surveyTask surveyAttempt.attemptId 70000]))
      (.task surveyOwner surveyTask 70000 (.start surveyAgent "second"
        ⟨"wc_agent_task_attempt_00000000000000000000000000000002",
          "wc_agent_task_fence_00000000000000000000000000000002"⟩)) := by
  have hclaim : (step (run {} surveyPrepared)
      (.task surveyOwner surveyTask 2 (.claim surveyAssertion "binding_1"))).answer =
      .ok (.claimed ((surveyIntent.binding surveyAttempt.attemptId 1).setDispatch .outcomeUnknown 2)
        true) := by
    decide +kernel
  have hobserved : ((next (next (run {} surveyPrepared)
      (.task surveyOwner surveyTask 2 (.claim surveyAssertion "binding_1")))
      (.expireWake surveyTask surveyAttempt.attemptId 70000)).tasks.lookup surveyTask).bind
        (fun rows ↦ (rows.loadCodingRunBindingForAttempt surveyAttempt.attemptId).map
          fun binding ↦ (binding.dispatchState, binding.lastObservedRunState)) =
      some (.outcomeUnknown, none) := by
    decide +kernel
  have hbound : ∀ {rows binding}, (next (next (run {} surveyPrepared)
      (.task surveyOwner surveyTask 2 (.claim surveyAssertion "binding_1")))
      (.expireWake surveyTask surveyAttempt.attemptId 70000)).tasks.lookup surveyTask = some rows →
      rows.loadCodingRunBindingForAttempt surveyAttempt.attemptId = some binding →
      binding.dispatchState = .outcomeUnknown ∧ binding.lastObservedRunState = none := by
    intro rows binding hrows hbinding
    rw [hrows, Option.bind_some, hbinding] at hobserved
    exact Prod.mk.inj (Option.some.inj hobserved)
  refine ⟨hclaim, (dispatch_is_exclusive surveyPrepared
    [.expireWake surveyTask surveyAttempt.attemptId 70000] surveyOwner surveyTask 2 surveyAssertion
    "binding_1" _ _ hclaim ⟨⟨?_, ?_⟩, trivial⟩).1⟩
  · rintro ⟨rows, hrows, binding, hbinding, hstate⟩
    rw [(hbound hrows hbinding).1] at hstate
    cases hstate
  · rintro ⟨rows, binding, _, hrows, hbinding, hstate, -⟩
    rw [(hbound hrows hbinding).2] at hstate
    cases hstate

end WebCodex.AgentTasks
