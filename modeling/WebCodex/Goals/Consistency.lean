import Mathlib.Algebra.Order.BigOperators.Group.List
import WebCodex.Goals.Changes

/-!
A change keeps the other goals, and of the goal that it names it keeps the id and the owner
(`Change.others`, `Change.owned`). It keeps terminal goals, and the goals of other principals
(`Change.protected`), and it raises a revision by one exactly when it reports that it changed
something (`Change.revision`).
-/

namespace WebCodex.Goals

open Foundation
open AgentTasks (CommunicationPrincipal)

variable {principal : CommunicationPrincipal} {store after next : GoalStore}
  {goalId other : String} {row : GoalRow} {stateChanged : Bool}

@[simp] theorem GoalRow.withUpdate_goalId (title objective : String) (lifecycle : GoalLifecycle)
    (reason : Option String) (now : ℤ) (row : GoalRow) :
    (row.withUpdate title objective lifecycle reason now).goalId = row.goalId := rfl

@[simp] theorem GoalRow.withCorrelation_goalId (kind : GoalCorrelationKind) (referenceId : String)
    (now : ℤ) (row : GoalRow) : (row.withCorrelation kind referenceId now).goalId = row.goalId :=
      rfl

/-- Every goal but the one that is named is kept. -/
theorem Change.others (h : Change principal goalId store stateChanged after)
    (hne : other ≠ goalId) :
    after.goal? other = store.goal? other := by
  cases h with
  | created _ _ _ hfree =>
    rw [goal?_concat hfree rfl, if_neg hne]
  | kept => rfl
  | updated => exact goal?_setGoal_ne (GoalRow.withUpdate_goalId _ _ _ _ _) hne
  | associated => exact goal?_setGoal_ne (GoalRow.withCorrelation_goalId _ _ _) hne

/-- The goal that is named belongs to the principal afterwards. -/
theorem Change.owned (h : Change principal goalId store stateChanged after) :
    ∃ row, after.goal? goalId = some row ∧ row.owner = principal := by
  cases h with
  | created _ _ _ hfree => exact ⟨_, by rw [goal?_concat hfree rfl, if_pos rfl], rfl⟩
  | kept row hrow howner => exact ⟨row, hrow, howner⟩
  | updated _ hrow howner =>
    exact ⟨_, goal?_setGoal_self (GoalRow.withUpdate_goalId _ _ _ _ _) hrow, howner⟩
  | associated _ hrow howner =>
    exact ⟨_, goal?_setGoal_self (GoalRow.withCorrelation_goalId _ _ _) hrow, howner⟩

/-- What stood under the id that is named belonged to the principal, and was active or is kept. -/
theorem Change.protected (h : Change principal goalId store stateChanged after)
    (hrow : store.goal? other = some row) :
    after.goal? other = some row ∨
      (other = goalId ∧ row.owner = principal ∧ row.lifecycle.terminal = false) := by
  by_cases hne : other = goalId
  · subst hne
    cases h with
    | created _ _ _ hfree => rw [goal?_eq_none.mpr hfree] at hrow; cases hrow
    | kept => exact .inl hrow
    | updated _ hcurrent howner hactive =>
      obtain rfl := Option.some.inj (hcurrent.symm.trans hrow)
      exact .inr ⟨rfl, howner, hactive⟩
    | associated _ hcurrent howner hactive =>
      obtain rfl := Option.some.inj (hcurrent.symm.trans hrow)
      exact .inr ⟨rfl, howner, hactive⟩
  · exact .inl ((h.others hne).trans hrow)

/-- The revision of a goal, and nought before there is one. -/
def GoalStore.revision (goalId : String) (store : GoalStore) : ℤ :=
  (store.goal? goalId).elim 0 GoalRow.revision

theorem Change.revision (h : Change principal goalId store stateChanged after) :
    after.revision goalId = store.revision goalId + if stateChanged then 1 else 0 := by
  unfold GoalStore.revision
  cases h with
  | created _ _ _ hfree =>
    rw [goal?_concat hfree rfl, if_pos rfl, goal?_eq_none.mpr hfree]
    rfl
  | kept => simp
  | updated _ hrow =>
    rw [goal?_setGoal_self (GoalRow.withUpdate_goalId _ _ _ _ _) hrow, hrow]
    rfl
  | associated _ hrow =>
    rw [goal?_setGoal_self (GoalRow.withCorrelation_goalId _ _ _) hrow, hrow]
    rfl

theorem Change.idempotency (h : Change principal goalId store stateChanged after) :
    after.idempotency = store.idempotency := by
  cases h <;> rfl

theorem Change.ids (h : Change principal goalId store stateChanged after)
    (hids : (store.goals.map GoalRow.goalId).Nodup) : (after.goals.map GoalRow.goalId).Nodup := by
  cases h with
  | created _ _ _ hfree => exact nodup_map_concat hids hfree
  | kept => exact hids
  | updated =>
    rw [GoalStore.setGoal, map_view_updateRow (GoalRow.withUpdate_goalId _ _ _ _ _)]
    exact hids
  | associated =>
    rw [GoalStore.setGoal, map_view_updateRow (GoalRow.withCorrelation_goalId _ _ _)]
    exact hids

/-- What a goal adds to the fan-out of an agent task. -/
def GoalRow.fanout (owner : CommunicationPrincipal) (taskId : String) (row : GoalRow) : ℕ :=
  if row.lifecycle == .active && row.owner == owner then
    row.correlations.countP fun correlation ↦
      correlation.kind == .agentTask && correlation.referenceId == taskId
  else 0

theorem activeGoalFanout_eq_sum (owner : CommunicationPrincipal) (taskId : String) :
    store.activeGoalFanout owner taskId = (store.goals.map (GoalRow.fanout owner taskId)).sum := by
  unfold GoalStore.activeGoalFanout
  induction store.goals with
  | nil => rfl
  | cons _ _ ih =>
    rw [List.map_cons, List.sum_cons, ← ih, List.filter_cons, GoalRow.fanout]
    split_ifs
    · rw [List.flatMap_cons, List.countP_append]
    · rw [Nat.zero_add]

/-- The fan-out after the change of one goal. -/
theorem activeGoalFanout_setGoal (hids : (store.goals.map GoalRow.goalId).Nodup)
    (hrow : store.goal? goalId = some row) (f : GoalRow → GoalRow)
    (owner : CommunicationPrincipal) (taskId : String) :
    (store.setGoal goalId f).activeGoalFanout owner taskId + row.fanout owner taskId =
      store.activeGoalFanout owner taskId + (f row).fanout owner taskId := by
  obtain ⟨hmem, rfl⟩ := goal?_mem hrow
  rw [activeGoalFanout_eq_sum, activeGoalFanout_eq_sum]
  exact sum_map_updateRow (GoalRow.fanout owner taskId) hids hmem

theorem fanout_withUpdate_le (hactive : row.lifecycle.terminal = false) (title objective : String)
    (lifecycle : GoalLifecycle) (reason : Option String) (now : ℤ) (owner : CommunicationPrincipal)
    (taskId : String) :
    (row.withUpdate title objective lifecycle reason now).fanout owner taskId ≤
      row.fanout owner taskId := by
  have hlifecycle : row.lifecycle = .active := by
    cases hrow : row.lifecycle <;> simp_all [GoalLifecycle.terminal]
  simp only [GoalRow.fanout, GoalRow.withUpdate, hlifecycle, Bool.and_eq_true, beq_iff_eq, true_and]
  split_ifs with hafter hbefore
  · exact le_rfl
  · exact absurd hafter.2 hbefore
  · exact Nat.zero_le _
  · exact Nat.zero_le _

theorem GoalRow.fanout_withCorrelation_le (row : GoalRow) (kind : GoalCorrelationKind)
    (referenceId : String) (now : ℤ) (owner : CommunicationPrincipal) (taskId : String) :
    (row.withCorrelation kind referenceId now).fanout owner taskId ≤ row.fanout owner taskId +
      if row.owner = owner ∧ kind = .agentTask ∧ referenceId = taskId then 1 else 0 := by
  simp only [GoalRow.fanout, GoalRow.withCorrelation, List.countP_append, List.countP_singleton,
    Bool.and_eq_true, beq_iff_eq]
  split_ifs with hcounted hreference hsame hsame
  · exact le_rfl
  · exact absurd ⟨hcounted.2, hreference⟩ hsame
  · omega
  · omega
  · exact Nat.zero_le _
  · exact Nat.zero_le _

/-- A change keeps the number of active goals that a task is correlated with within its limit. -/
theorem Change.fanout (h : Change principal goalId store stateChanged after)
    (hids : (store.goals.map GoalRow.goalId).Nodup)
    (hbound : ∀ owner taskId, store.activeGoalFanout owner taskId ≤ maxGoalCorrelations)
    (owner : CommunicationPrincipal) (taskId : String) :
    after.activeGoalFanout owner taskId ≤ maxGoalCorrelations := by
  cases h with
  | created title objective now =>
    rw [activeGoalFanout_eq_sum, List.map_append, List.sum_append, ← activeGoalFanout_eq_sum]
    have hnew : (newRow principal goalId title objective now).fanout owner taskId = 0 := by
      simp [GoalRow.fanout, newRow]
    simpa [hnew] using hbound owner taskId
  | kept => exact hbound owner taskId
  | updated _ hrow _ hactive title objective lifecycle reason now =>
    have hsum := activeGoalFanout_setGoal hids hrow
      (GoalRow.withUpdate title objective lifecycle reason now) owner taskId
    have hle := fanout_withUpdate_le hactive title objective lifecycle reason now owner taskId
    have hbefore := hbound owner taskId
    omega
  | associated row hrow howner _ kind referenceId now hfanout =>
    have hsum := activeGoalFanout_setGoal hids hrow
      (GoalRow.withCorrelation kind referenceId now) owner taskId
    have hle := row.fanout_withCorrelation_le kind referenceId now owner taskId
    have hbefore := hbound owner taskId
    split_ifs at hle with hsame
    · obtain ⟨rfl, hkind, rfl⟩ := hsame
      have hless := hfanout hkind
      rw [← howner] at hless
      omega
    · omega

structure Consistent (store : GoalStore) : Prop where
  ids : (store.goals.map GoalRow.goalId).Nodup
  keys : (store.idempotency.map IdempotencyRow.key).Nodup
  readable : ∀ row ∈ store.goals, row.Readable
  fanout : ∀ owner taskId, store.activeGoalFanout owner taskId ≤ maxGoalCorrelations
  named : ∀ row ∈ store.idempotency, ∀ goalId, row.request.goalId? = some goalId →
    goalId = row.goalId

theorem consistent_empty : Consistent {} where
  ids := List.nodup_nil
  keys := List.nodup_nil
  readable := by simp
  fanout owner taskId := by simp [activeGoalFanout_eq_sum]
  named := by simp

theorem recorded_eq_none {key : RequestKey} :
    store.recorded key = none ↔ key ∉ store.idempotency.map IdempotencyRow.key := by
  simp [GoalStore.recorded, List.find?_eq_none]

section Effects

variable {submission : Submission} {now : ℤ} {mutation : GoalMutation} {newId : String}

/-- The goal that a transaction answers with is the one that it names. -/
theorem Effective.answered (h : Effective principal submission goalId now store next mutation) :
    ∃ row, next.goal? goalId = some row ∧ row.owner = principal ∧ row.Readable ∧
      mutation.goal = row.detail :=
  loadOwnedGoal_eq_ok.mp h.loads

/-- A call that takes effect keeps the store consistent. -/
theorem Effective.consistent (h : Effective principal submission goalId now store next mutation)
    (hconsistent : Consistent store) : Consistent next := by
  obtain ⟨_, hrow, -, hreadable, -⟩ := h.answered
  obtain ⟨after, hchange, rfl⟩ := h.changed
  have hids := hchange.ids hconsistent.ids
  have hidempotency := hchange.idempotency
  refine ⟨hids, ?_, ?_, fun owner taskId ↦ hchange.fanout hconsistent.ids hconsistent.fanout
    owner taskId, ?_⟩
  · rw [GoalStore.record, hidempotency]
    exact nodup_map_concat hconsistent.keys (recorded_eq_none.mp h.unrecorded)
  · intro other hother
    have hfound : after.goal? other.goalId = some other := goal?_of_mem hids hother
    by_cases hid : other.goalId = goalId
    · -- The goal that was written has been read back.
      rw [hid] at hfound
      obtain rfl := Option.some.inj (hrow.symm.trans hfound)
      exact hreadable
    · rw [hchange.others hid] at hfound
      exact hconsistent.readable other (goal?_mem hfound).1
  · intro entry hentry named hnamed
    rw [GoalStore.record, hidempotency] at hentry
    obtain hentry | hentry := List.mem_append.mp hentry
    · exact hconsistent.named entry hentry named hnamed
    · obtain rfl := List.mem_singleton.mp hentry
      exact h.named named hnamed

end Effects

section Calls

variable {call : Call} {mutation : GoalMutation}

theorem perform_eq_ok {result : GoalMutation × GoalStore} : call.perform store = .ok result ↔
    ∃ submission, call.submit = .ok submission ∧
      store.transact call.principal submission call.now call.newId = .ok result := by
  rw [Call.perform, bind_eq_ok]

theorem answer_eq_ok : call.answer store = .ok mutation ↔
    call.perform store = .ok (mutation, call.next store) := by
  unfold Call.answer Call.next
  cases call.perform store with
  | error => simp [Functor.map, Except.map]
  | ok result =>
    obtain ⟨_, _⟩ := result
    simp [Functor.map, Except.map]

/-- A call that succeeds is a replay, or it takes effect on one goal. -/
theorem answer_cases (h : call.answer store = .ok mutation) : ∃ submission,
    call.submit = .ok submission ∧
      (Replayed call.principal submission store (call.next store) mutation ∨
        ∃ goalId, Effective call.principal submission goalId call.now store
          (call.next store) mutation) := by
  obtain ⟨submission, hsubmit, htransact⟩ := perform_eq_ok.mp (answer_eq_ok.mp h)
  exact ⟨submission, hsubmit, transact_eq_ok htransact⟩

/-- A call that fails changes nothing. -/
theorem next_of_error {error : GoalStoreError} (h : call.answer store = .error error) :
    call.next store = store := by
  unfold Call.answer at h
  unfold Call.next
  cases hperform : call.perform store with
  | error => rfl
  | ok =>
    rw [hperform] at h
    cases h

theorem Call.consistent (call : Call) (hconsistent : Consistent store) :
    Consistent (call.next store) := by
  cases hanswer : call.answer store with
  | error =>
    rw [next_of_error hanswer]
    exact hconsistent
  | ok =>
    obtain ⟨_, -, hreplayed | ⟨_, heffective⟩⟩ := answer_cases hanswer
    · rw [hreplayed.next]
      exact hconsistent
    · exact heffective.consistent hconsistent

theorem run_concat (calls : List Call) (call : Call) :
    run (calls ++ [call]) = call.next (run calls) := by
  simp [run]

theorem run_consistent (calls : List Call) : Consistent (run calls) := by
  induction calls using List.reverseRecOn with
  | nil => exact consistent_empty
  | append_singleton _ call ih =>
    rw [run_concat]
    exact call.consistent ih

end Calls

end WebCodex.Goals
