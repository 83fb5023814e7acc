import WebCodex.Goals.Consistency

/-!
A request key that has taken effect stays recorded with its request, and the goal that it named
stays with its owner (`Settled`). A later call under the key therefore changes nothing: the same
request of the same principal is answered with that goal, and another request is refused
(`Settled.replays`, `Settled.refuses`).
-/

namespace WebCodex.Goals

open Foundation
open AgentTasks (CommunicationPrincipal)

variable {principal : CommunicationPrincipal} {store : GoalStore} {goalId newId : String}
  {row : GoalRow} {call : Call} {mutation : GoalMutation} {submission : Submission} {now : ℤ}

/-! ### Repetitions -/

theorem lookupIdempotentGoal_of_conflict {entry : IdempotencyRow}
    (hentry : store.recorded submission.key = some entry)
    (hrequest : entry.request ≠ submission.request) :
    store.lookupIdempotentGoal submission.key submission.request = .error (.idempotencyConflict
        "Idempotency key was already used with a different Goal request") := by
  unfold GoalStore.recorded at hentry
  simp [GoalStore.lookupIdempotentGoal, hentry, if_neg hrequest]

/-- A transaction that is refused by the lookup of its key. -/
theorem transact_of_lookup_error {error : GoalStoreError}
    (hlookup : store.lookupIdempotentGoal submission.key submission.request = .error error) :
    store.transact principal submission now newId = .error error := by
  obtain ⟨key, request⟩ := submission
  cases request with
  | create =>
    simp [GoalStore.transact, GoalStore.createGoal, hlookup, error_bind]
  | update =>
    simp [GoalStore.transact, GoalStore.updateGoal, hlookup, error_bind]
  | associate =>
    simp [GoalStore.transact, GoalStore.associateGoal, hlookup, error_bind]

/-- A transaction that finds its request recorded. -/
theorem transact_of_lookup_some (principal : CommunicationPrincipal) (now : ℤ) (newId : String)
    (hlookup : store.lookupIdempotentGoal submission.key submission.request = .ok (some goalId))
    (hnamed : ∀ named, submission.request.goalId? = some named → named = goalId) :
    store.transact principal submission now newId = store.replay principal goalId := by
  obtain ⟨key, request⟩ := submission
  cases request with
  | create =>
    simp [GoalStore.transact, GoalStore.createGoal, hlookup, ok_bind]
  | update named =>
    obtain rfl := hnamed named rfl
    simp [GoalStore.transact, GoalStore.updateGoal, hlookup, ok_bind, ensure_true]
  | associate named =>
    obtain rfl := hnamed named rfl
    simp [GoalStore.transact, GoalStore.associateGoal, hlookup, ok_bind, ensure_true]

/-- A request has taken effect on a goal of the principal. -/
structure Settled (principal : CommunicationPrincipal) (submission : Submission) (goalId : String)
    (store : GoalStore) : Prop where
  recorded : ∃ entry, store.recorded submission.key = some entry ∧
    entry.request = submission.request ∧ entry.goalId = goalId
  owned : ∃ row, store.goal? goalId = some row ∧ row.owner = principal

theorem recorded_record {key other : RequestKey} {request : GoalRequest} {entry : IdempotencyRow}
    (hentry : store.recorded key = some entry) :
    (store.record other request goalId now).recorded key = some entry := by
  unfold GoalStore.recorded at hentry ⊢
  rw [GoalStore.record, List.find?_append, hentry]
  rfl

theorem recorded_record_self {key : RequestKey} {request : GoalRequest}
    (hnone : store.recorded key = none) :
    (store.record key request goalId now).recorded key = some ⟨key, request, goalId, now⟩ := by
  unfold GoalStore.recorded at hnone ⊢
  rw [GoalStore.record, List.find?_append, hnone]
  simp

/-- A call that succeeds has settled its request. -/
theorem settled_of_answer (hsubmit : call.submit = .ok submission)
    (h : call.answer store = .ok mutation) :
    Settled call.principal submission mutation.goal.summary.goalId (call.next store) := by
  obtain ⟨_, hsubmitted, hcases⟩ := answer_cases h
  obtain rfl := Except.ok.inj (hsubmit.symm.trans hsubmitted)
  obtain hreplayed | ⟨goalId, heffective⟩ := hcases
  · obtain ⟨entry, hentry, hrequest, hloads⟩ := hreplayed.recorded
    obtain ⟨row, hrow, howner, -, hgoal⟩ := loadOwnedGoal_eq_ok.mp hloads
    have hid : mutation.goal.summary.goalId = entry.goalId := by
      rw [hgoal]
      exact (goal?_mem hrow).2
    rw [hreplayed.next, hid]
    exact ⟨⟨entry, hentry, hrequest, rfl⟩, row, hrow, howner⟩
  · obtain ⟨row, hrow, howner, -, hgoal⟩ := heffective.answered
    have hid : mutation.goal.summary.goalId = goalId := by
      rw [hgoal]
      exact (goal?_mem hrow).2
    obtain ⟨after, hchange, hnext⟩ := heffective.changed
    have hunrecorded : after.recorded submission.key = none := by
      rw [recorded_eq_none, hchange.idempotency]
      exact recorded_eq_none.mp heffective.unrecorded
    rw [hid]
    refine ⟨⟨⟨submission.key, submission.request, goalId, call.now⟩, ?_, rfl, rfl⟩, row,
      hrow, howner⟩
    rw [hnext]
    exact recorded_record_self hunrecorded

/-- Whatever a call does to a goal, what was under its id is kept, or it was an active goal of the
principal. -/
theorem next_protected (call : Call) (hrow : store.goal? goalId = some row) :
    (call.next store).goal? goalId = some row ∨
      ((∃ after, (call.next store).goal? goalId = some after ∧ after.owner = call.principal) ∧
        row.owner = call.principal ∧ row.lifecycle.terminal = false) := by
  cases hanswer : call.answer store with
  | error => exact .inl (by rw [next_of_error hanswer]; exact hrow)
  | ok =>
    obtain ⟨_, -, hreplayed | ⟨_, heffective⟩⟩ := answer_cases hanswer
    · exact .inl (by rw [hreplayed.next]; exact hrow)
    · obtain ⟨after, hchange, hnext⟩ := heffective.changed
      rw [hnext]
      obtain hkept | ⟨rfl, howner, hactive⟩ := hchange.protected hrow
      · exact .inl hkept
      · exact .inr ⟨hchange.owned, howner, hactive⟩

/-- A submission that was settled stays settled. -/
theorem Settled.next (h : Settled principal submission goalId store) (call : Call) :
    Settled principal submission goalId (call.next store) := by
  obtain ⟨entry, hentry, hrequest, hgoal⟩ := h.recorded
  obtain ⟨row, hrow, howner⟩ := h.owned
  refine ⟨⟨entry, ?_, hrequest, hgoal⟩, ?_⟩
  · cases hanswer : call.answer store with
    | error => rw [next_of_error hanswer]; exact hentry
    | ok =>
      obtain ⟨_, -, hreplayed | ⟨_, heffective⟩⟩ := answer_cases hanswer
      · rw [hreplayed.next]; exact hentry
      · obtain ⟨after, hchange, hnext⟩ := heffective.changed
        rw [hnext]
        refine recorded_record ?_
        unfold GoalStore.recorded at hentry ⊢
        rw [hchange.idempotency]
        exact hentry
  · obtain hkept | ⟨⟨after, hafter, hsame⟩, hbefore, -⟩ := next_protected call hrow
    · exact ⟨row, hkept, howner⟩
    · exact ⟨after, hafter, hsame.trans (hbefore.symm.trans howner)⟩

theorem Settled.foldl (h : Settled principal submission goalId store) (calls : List Call) :
    Settled principal submission goalId (calls.foldl (fun store call ↦ call.next store) store) := by
  induction calls generalizing store with
  | nil => exact h
  | cons call _ ih => exact ih (h.next call)

/-- A later call under the key changes nothing. -/
theorem Settled.silent (h : Settled principal submission goalId store) {repeated : Submission}
    (hsubmit : call.submit = .ok repeated) (hkey : repeated.key = submission.key) :
    call.next store = store ∧ ∀ mutation, call.answer store = .ok mutation →
      mutation.replayed = true := by
  obtain ⟨_, hentry, -⟩ := h.recorded
  cases hanswer : call.answer store with
  | error => exact ⟨next_of_error hanswer, by simp⟩
  | ok =>
    obtain ⟨_, hsubmitted, hcases⟩ := answer_cases hanswer
    obtain rfl := Except.ok.inj (hsubmit.symm.trans hsubmitted)
    obtain hreplayed | ⟨named, heffective⟩ := hcases
    · refine ⟨hreplayed.next, ?_⟩
      rintro _ ⟨⟩
      rw [hreplayed.answer]
    · have hunrecorded := heffective.unrecorded
      rw [hkey, hentry] at hunrecorded
      cases hunrecorded

/-- A later call under the key with another request is refused. -/
theorem Settled.refuses (h : Settled principal submission goalId store) {repeated : Submission}
    (hsubmit : call.submit = .ok repeated) (hkey : repeated.key = submission.key)
    (hrequest : repeated.request ≠ submission.request) :
    call.answer store = .error (.idempotencyConflict
      "Idempotency key was already used with a different Goal request") := by
  obtain ⟨_, hentry, hsame, -⟩ := h.recorded
  have hlookup : store.lookupIdempotentGoal repeated.key repeated.request = .error
      (.idempotencyConflict "Idempotency key was already used with a different Goal request") :=
    lookupIdempotentGoal_of_conflict (hkey ▸ hentry) fun heq ↦ hrequest (heq.symm.trans hsame)
  rw [Call.answer, Call.perform, hsubmit, ok_bind, transact_of_lookup_error hlookup]
  rfl

/-- A later call of the principal with the same request is answered with the goal. -/
theorem Settled.replays (h : Settled principal submission goalId store)
    (hconsistent : Consistent store) (hsubmit : call.submit = .ok submission)
    (hprincipal : call.principal = principal) :
    ∃ row, store.goal? goalId = some row ∧ call.answer store = .ok
      ⟨row.detail, false, true, false⟩ := by
  obtain ⟨entry, hentry, hrequest, rfl⟩ := h.recorded
  obtain ⟨row, hrow, rfl⟩ := h.owned
  have hmem : entry ∈ store.idempotency := List.mem_of_find?_eq_some hentry
  have hlookup := lookupIdempotentGoal_eq_some.mpr ⟨entry, hentry, hrequest, rfl⟩
  have hloads := loadOwnedGoal_eq_ok.mpr
    ⟨row, hrow, rfl, hconsistent.readable row (goal?_mem hrow).1, rfl⟩
  have hreplay := transact_of_lookup_some row.owner call.now call.newId hlookup
    fun named hnamed ↦ hconsistent.named entry hmem named (hrequest ▸ hnamed)
  refine ⟨row, hrow, ?_⟩
  rw [Call.answer, Call.perform, hsubmit, ok_bind, hprincipal, hreplay, GoalStore.replay, hloads]
  rfl

/-! ### Runs -/

theorem run_append (calls more : List Call) :
    run (calls ++ more) = more.foldl (fun store call ↦ call.next store) (run calls) :=
  List.foldl_append

/-- The call reports that it changed the goal. -/
def Call.changes (call : Call) (goalId : String) (store : GoalStore) : Bool :=
  match call.answer store with
  | .ok mutation => mutation.stateChanged && mutation.goal.summary.goalId == goalId
  | .error _ => false

/-- A call counts the revision of a goal up by one when it changes it, and leaves it alone else. -/
theorem next_revision (call : Call) (goalId : String) : (call.next store).revision goalId =
    store.revision goalId + if call.changes goalId store then 1 else 0 := by
  cases hanswer : call.answer store with
  | error => simp [next_of_error hanswer, Call.changes, hanswer]
  | ok mutation =>
    have hchanges : call.changes goalId store =
        (mutation.stateChanged && mutation.goal.summary.goalId == goalId) := by
      rw [Call.changes, hanswer]
    obtain ⟨_, -, hreplayed | ⟨named, heffective⟩⟩ := answer_cases hanswer
    · have hunchanged : mutation.stateChanged = false := by rw [hreplayed.answer]
      simp [hreplayed.next, hchanges, hunchanged]
    · obtain ⟨_, hrow, -, -, hgoal⟩ := heffective.answered
      have hid : mutation.goal.summary.goalId = named := by
        rw [hgoal]
        exact (goal?_mem hrow).2
      obtain ⟨after, hchange, hnext⟩ := heffective.changed
      rw [hchanges, hid, hnext]
      by_cases hnamed : named = goalId
      · subst hnamed
        rw [beq_self_eq_true, Bool.and_true]
        exact hchange.revision
      · have hsame : after.goal? goalId = store.goal? goalId := hchange.others (Ne.symm hnamed)
        have hfalse : (named == goalId) = false := by simpa using hnamed
        rw [hfalse, Bool.and_false]
        simp only [Bool.false_eq_true, if_false, add_zero]
        exact congrArg (Option.elim · 0 GoalRow.revision) hsame

/-- An update that is not a replay was made against the revision that it names. -/
theorem revision_of_update {expected : ℤ} {patch : GoalPatch} {idempotencyKey : String}
    (h : (Call.updateGoalAt principal goalId expected patch idempotencyKey now).answer store =
      .ok mutation)
    (hnew : mutation.replayed = false) :
    store.revision goalId = expected ∧ mutation.goal.summary.goalId = goalId := by
  obtain ⟨_, hsubmit, hreplayed | ⟨named, heffective⟩⟩ := answer_cases h
  · rw [hreplayed.answer] at hnew
    cases hnew
  · simp only [Call.submit, submitUpdate, bind_eq_ok, pure_eq_ok] at hsubmit
    obtain ⟨_, -, _, -, _, -, _, -, _, -, _, -, _, -, _, -, _, -, rfl⟩ := hsubmit
    obtain rfl := heffective.named goalId rfl
    obtain ⟨_, hbefore, hexpected⟩ := heffective.revision rfl
    obtain ⟨_, hrow, -, -, hgoal⟩ := heffective.answered
    refine ⟨?_, ?_⟩
    · rw [GoalStore.revision, hbefore]
      exact hexpected
    · rw [hgoal]
      exact (goal?_mem hrow).2

/-- The goal in an answer belongs to the caller. -/
theorem owner_of_answer (h : call.answer store = .ok mutation) :
    ∃ row, (call.next store).goal? mutation.goal.summary.goalId = some row ∧
      row.owner = call.principal ∧ mutation.goal = row.detail := by
  obtain ⟨_, -, hcases⟩ := answer_cases h
  have hloads : ∃ goalId, (call.next store).loadOwnedGoal call.principal goalId =
      .ok mutation.goal := by
    obtain hreplayed | ⟨named, heffective⟩ := hcases
    · obtain ⟨entry, -, -, hloads⟩ := hreplayed.recorded
      exact ⟨entry.goalId, by rw [hreplayed.next]; exact hloads⟩
    · exact ⟨named, heffective.loads⟩
  obtain ⟨goalId, hloads⟩ := hloads
  obtain ⟨row, hrow, howner, -, hgoal⟩ := loadOwnedGoal_eq_ok.mp hloads
  refine ⟨row, ?_, howner, hgoal⟩
  have hid : mutation.goal.summary.goalId = goalId := by
    rw [hgoal]
    exact (goal?_mem hrow).2
  rw [hid]
  exact hrow

/-- A goal that has ended stays as it is. -/
theorem terminal_foldl (calls : List Call) (hterminal : row.lifecycle.terminal = true)
    (hrow : store.goal? goalId = some row) :
    (calls.foldl (fun store call ↦ call.next store) store).goal? goalId = some row := by
  induction calls generalizing store with
  | nil => exact hrow
  | cons call _ ih =>
    obtain hkept | ⟨-, -, hactive⟩ := next_protected call hrow
    · exact ih hkept
    · rw [hterminal] at hactive
      cases hactive

/-- The goals that an agent task is correlated with are at most as many as the correlations. -/
theorem countP_le_activeGoalFanout (owner : CommunicationPrincipal) (taskId : String) :
    (store.goals.countP fun row ↦ row.lifecycle == .active && row.owner == owner &&
      row.correlations.any fun correlation ↦
        correlation.kind == .agentTask && correlation.referenceId == taskId) ≤
      store.activeGoalFanout owner taskId := by
  rw [activeGoalFanout_eq_sum]
  induction store.goals with
  | nil => exact le_rfl
  | cons _ _ ih =>
    rw [List.countP_cons, List.map_cons, List.sum_cons, add_comm]
    refine Nat.add_le_add ?_ ih
    split_ifs with hcounted
    · rw [Bool.and_eq_true] at hcounted
      obtain ⟨hactive, hcorrelated⟩ := hcounted
      rw [GoalRow.fanout, if_pos hactive]
      obtain ⟨correlation, hmem, hreference⟩ := List.any_eq_true.mp hcorrelated
      exact List.countP_pos_iff.mpr ⟨correlation, hmem, hreference⟩
    · exact Nat.zero_le _

/-- What the goal operations promise after a sequence of calls. -/
structure GoalContract (calls : List Call) : Prop where
  /-- A later call under a key that has taken effect changes nothing: it is a replay of the goal, or
  it is refused. -/
  once : ∀ (between : List Call) (first second : Call) (submission repeated : Submission)
    (mutation : GoalMutation), first.submit = .ok submission →
    first.answer (run calls) = .ok mutation → second.submit = .ok repeated →
    repeated.key = submission.key →
    ∃ store, store = run (calls ++ first :: between) ∧ second.next store = store ∧
      (∀ again, second.answer store = .ok again → again.replayed = true) ∧
      (repeated.request ≠ submission.request → second.answer store = .error (.idempotencyConflict
        "Idempotency key was already used with a different Goal request")) ∧
      (repeated.request = submission.request → second.principal = first.principal →
        ∃ row, store.goal? mutation.goal.summary.goalId = some row ∧
          second.answer store = .ok ⟨row.detail, false, true, false⟩)
  /-- The revision of a goal grows by one with each call that reports a change of it. -/
  revision : ∀ (call : Call) (goalId : String), (call.next (run calls)).revision goalId =
    (run calls).revision goalId + if call.changes goalId (run calls) then 1 else 0
  /-- An update that is not a replay was made against the revision that it names. -/
  compared : ∀ (principal : CommunicationPrincipal) (goalId : String) (expected : ℤ)
    (patch : GoalPatch) (idempotencyKey : String) (now : ℤ) (mutation : GoalMutation),
    (Call.updateGoalAt principal goalId expected patch idempotencyKey now).answer (run calls) =
      .ok mutation → mutation.replayed = false →
    (run calls).revision goalId = expected ∧ mutation.goal.summary.goalId = goalId
  /-- What takes effect is what was asked for. -/
  stored : ∀ (call : Call) (submission : Submission) (mutation : GoalMutation),
    call.submit = .ok submission → call.answer (run calls) = .ok mutation →
      mutation.replayed = false →
    ∃ row, (call.next (run calls)).goal? mutation.goal.summary.goalId = some row ∧
      submission.request.Stored (run calls) row
  /-- A terminal goal and its correlations stay. -/
  terminal : ∀ (more : List Call) (goalId : String) (row : GoalRow),
    (run calls).goal? goalId = some row → row.lifecycle.terminal = true →
    (run (calls ++ more)).goal? goalId = some row
  /-- The goal in an answer is one of the caller. -/
  answered : ∀ (call : Call) (mutation : GoalMutation), call.answer (run calls) = .ok mutation →
    ∃ row, (call.next (run calls)).goal? mutation.goal.summary.goalId = some row ∧
      row.owner = call.principal ∧ mutation.goal = row.detail
  /-- So is the goal that is read. -/
  read : ∀ (principal : CommunicationPrincipal) (goalId : String) (detail : GoalDetail),
    (run calls).readGoal principal goalId = .ok detail →
    ∃ row, (run calls).goal? goalId = some row ∧ row.owner = principal ∧ detail = row.detail
  /-- The goals of other principals stay. -/
  isolated : ∀ (call : Call) (goalId : String) (row : GoalRow),
    (run calls).goal? goalId = some row → row.owner ≠ call.principal →
    (call.next (run calls)).goal? goalId = some row
  correlations : ∀ row ∈ (run calls).goals, row.correlations.length ≤ maxGoalCorrelations
  fanout : ∀ (owner : CommunicationPrincipal) (taskId : String),
    ((run calls).goals.countP fun row ↦ row.lifecycle == .active && row.owner == owner &&
      row.correlations.any fun correlation ↦
        correlation.kind == .agentTask && correlation.referenceId == taskId) ≤ maxGoalCorrelations
  readable : ∀ row ∈ (run calls).goals,
    (run calls).loadOwnedGoal row.owner row.goalId = .ok row.detail ∧
      validateLoadedGoalDetail row.detail = .ok ()

/-- Goals are updated by compare-and-swap and end once, whatever calls are made: a call goes through
at the revision that it names only, and every change counts the revision up by one. -/
theorem goal_calls_compare_and_swap (calls : List Call) : GoalContract calls := by
  have hconsistent := run_consistent calls
  constructor
  case once =>
    intro between first _ submission repeated mutation hsubmit hanswer hrepeated hkey
    have hsettled := (settled_of_answer hsubmit hanswer).foldl between
    have hreached : run (calls ++ first :: between) =
        between.foldl (fun store call ↦ call.next store) (first.next (run calls)) := run_append _ _
    have hlater := run_consistent (calls ++ first :: between)
    rw [← hreached] at hsettled
    obtain ⟨hnext, hreplayed⟩ := hsettled.silent hrepeated hkey
    refine ⟨_, rfl, hnext, hreplayed, hsettled.refuses hrepeated hkey, ?_⟩
    intro hrequest hprincipal
    have hsame : repeated = submission := by
      cases repeated
      cases submission
      exact congr (congrArg Submission.mk hkey) hrequest
    exact hsettled.replays hlater (hsame ▸ hrepeated) hprincipal
  case revision => exact fun call goalId ↦ next_revision call goalId
  case compared => exact fun _ _ _ _ _ _ _ hanswer hnew ↦ revision_of_update hanswer hnew
  case stored =>
    intro call submission mutation hsubmit hanswer hnew
    obtain ⟨_, hfound, hreplayed | ⟨goalId, heffective⟩⟩ := answer_cases hanswer
    · rw [hreplayed.answer] at hnew
      cases hnew
    · obtain rfl := Except.ok.inj (hsubmit.symm.trans hfound)
      obtain ⟨row, hrow, hstored⟩ := heffective.stored
      obtain ⟨loaded, hloaded, -, -, hgoal⟩ := heffective.answered
      refine ⟨row, ?_, hstored⟩
      rw [hgoal]
      change (call.next (run calls)).goal? loaded.goalId = some row
      rw [(goal?_mem hloaded).2]
      exact hrow
  case terminal =>
    intro more goalId row hrow hterminal
    rw [run_append]
    exact terminal_foldl more hterminal hrow
  case answered => exact fun call mutation hanswer ↦ owner_of_answer hanswer
  case read =>
    intro _ goalId _ hread
    simp only [GoalStore.readGoal, bind_eq_ok] at hread
    obtain ⟨_, -, _, -, hloads⟩ := hread
    obtain ⟨row, hrow, howner, -, hdetail⟩ := loadOwnedGoal_eq_ok.mp hloads
    exact ⟨row, hrow, howner, hdetail⟩
  case isolated =>
    intro call goalId row hrow howner
    exact (next_protected call hrow).resolve_right fun hchanged ↦ howner hchanged.2.1
  case correlations => exact fun row hrow ↦ (hconsistent.readable row hrow).checked.2
  case fanout =>
    exact fun owner taskId ↦ (countP_le_activeGoalFanout owner taskId).trans
      (hconsistent.fanout owner taskId)
  case readable =>
    intro row hrow
    have hreadable := hconsistent.readable row hrow
    exact ⟨loadOwnedGoal_eq_ok.mpr ⟨row, goal?_of_mem hconsistent.ids hrow, rfl, hreadable, rfl⟩,
      hreadable.checked.1⟩

def shipOwner : CommunicationPrincipal :=
  ⟨"user", "wc_commprincipal_0000000000000000000000000000000000000000000000000000000000000001"⟩

def shipGoal : String := "wc_goal_00000000000000000000000000000001"

/-- A goal is correlated with a task and completed, and then updated again. -/
def shipCalls : List Call :=
  [.createGoalAt shipOwner ⟨"Ship", "Ship it.", "first"⟩ 1 shipGoal,
    .associateGoalReference shipOwner shipGoal .agentTask
      "wc_agent_task_00000000000000000000000000000001" "second" 2,
    .updateGoalAt shipOwner shipGoal 2
      { lifecycle := some .completed, terminalReason := some "shipped" } "third" 3,
    .updateGoalAt shipOwner shipGoal 3 { title := some "Again" } "fourth" 4]

example : (run shipCalls).goals.map
    (fun row ↦ (row.title, row.revision, row.lifecycle, row.terminalReason)) =
      [("Ship", 3, .completed, some "shipped")] := by decide +kernel

end WebCodex.Goals
