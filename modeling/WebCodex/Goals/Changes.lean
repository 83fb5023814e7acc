import WebCodex.Goals.Store

/-!
A transaction that succeeds replays a goal and leaves the store as it was, or it records its key and
does one thing to the goals (`transact_eq_ok`): it adds a goal, keeps them, updates one or
correlates one (`Change`). Whatever it does, the goal that it names belongs to the principal, was
active before, and can be read afterwards, and every other goal is kept.
-/

namespace WebCodex.Goals

open Foundation
open AgentTasks (CommunicationPrincipal)

variable {principal : CommunicationPrincipal} {store next : GoalStore} {goalId : String}
  {row : GoalRow} {mutation : GoalMutation} {key : RequestKey} {request : GoalRequest} {now : ℤ}

structure GoalRow.Readable (row : GoalRow) : Prop where
  id : validateGoalId row.goalId = .ok ()
  loads : row.load = .ok row.detail

theorem GoalRow.load_eq_ok {detail : GoalDetail} (h : row.load = .ok detail) :
    detail = row.detail := by
  simp only [GoalRow.load, bind_eq_ok, pure_eq_ok] at h
  obtain ⟨-, -, -, -, -, -, rfl⟩ := h
  rfl

/-- What the checks of a row that was found imply. -/
theorem GoalRow.Readable.checked (h : row.Readable) :
    validateLoadedGoalDetail row.detail = .ok () ∧ row.correlations.length ≤
      maxGoalCorrelations := by
  have hloads := h.loads
  simp only [GoalRow.load, bind_eq_ok, pure, Except.pure, ensure_eq_ok, decide_eq_true_eq] at hloads
  obtain ⟨-, -, -, -, _, hdetail, -⟩ := hloads
  refine ⟨hdetail, ?_⟩
  simp only [validateLoadedGoalDetail, bind_eq_ok, ensure_eq_ok, decide_eq_true_eq] at hdetail
  obtain ⟨-, -, -, -, -, -, -, -, -, hlength, -⟩ := hdetail
  -- One correlation too many would show behind the limit of the query.
  rw [GoalRow.detail, List.length_take, List.length_insertionSort] at hlength
  omega

theorem goal?_mem (h : store.goal? goalId = some row) : row ∈ store.goals ∧ row.goalId = goalId :=
  mem_of_find?_key h

theorem goal?_of_mem (hids : (store.goals.map GoalRow.goalId).Nodup) (hrow : row ∈ store.goals) :
    store.goal? row.goalId = some row := find?_key_of_mem hids hrow

/-- A goal is loaded for its owner only, and when its row is readable. -/
theorem loadOwnedGoal_eq_ok {detail : GoalDetail} :
    store.loadOwnedGoal principal goalId = .ok detail ↔
      ∃ row, store.goal? goalId = some row ∧ row.owner = principal ∧ row.Readable ∧
        detail = row.detail := by
  simp only [GoalStore.loadOwnedGoal, bind_eq_ok, required_eq_ok, Option.filter_eq_some_iff,
    beq_iff_eq]
  constructor
  · rintro ⟨_, hid, row, ⟨hrow, howner⟩, hloads⟩
    obtain rfl := GoalRow.load_eq_ok hloads
    obtain ⟨-, rfl⟩ := goal?_mem hrow
    exact ⟨row, hrow, howner, ⟨hid, hloads⟩, rfl⟩
  · rintro ⟨row, hrow, howner, hreadable, rfl⟩
    refine ⟨(), ?_, row, ⟨hrow, howner⟩, hreadable.loads⟩
    rw [← (goal?_mem hrow).2]
    exact hreadable.id

theorem goal?_eq_none : store.goal? goalId = none ↔ goalId ∉ store.goals.map GoalRow.goalId := by
  simp [GoalStore.goal?, List.find?_eq_none]

/-- The goals after a new one was added. -/
theorem goal?_concat (hfree : goalId ∉ store.goals.map GoalRow.goalId) (hid : row.goalId = goalId)
    (other : String) : GoalStore.goal? other { store with goals := store.goals ++ [row] } =
      if other = goalId then some row else store.goal? other := by
  subst hid
  exact find?_key_concat (goal?_eq_none.mpr hfree) other

theorem goal?_setGoal {f : GoalRow → GoalRow} (hf : ∀ row, (f row).goalId = row.goalId)
    (other : String) : (store.setGoal goalId f).goal? other =
      (store.goal? other).map (updateRow GoalRow.goalId goalId f) :=
  find?_map_updateRow hf other store.goals

theorem goal?_setGoal_self {f : GoalRow → GoalRow} (hf : ∀ row, (f row).goalId = row.goalId)
    (hrow : store.goal? goalId = some row) : (store.setGoal goalId f).goal? goalId = some
    (f row) := by
  rw [goal?_setGoal hf, hrow, Option.map_some, ← (goal?_mem hrow).2, updateRow_self]

theorem goal?_setGoal_ne {f : GoalRow → GoalRow} (hf : ∀ row, (f row).goalId = row.goalId)
    {other : String} (hne : other ≠ goalId) :
    (store.setGoal goalId f).goal? other = store.goal? other := by
  rw [goal?_setGoal hf]
  cases hother : store.goal? other with
  | none => rfl
  | some =>
    rw [Option.map_some, updateRow_ne]
    rw [(goal?_mem hother).2]
    exact hne

theorem insertRow_eq_ok {A K : Type} [DecidableEq K] {key : A → K} {item : A}
    {rows after : List A} :
    insertRow key item rows = .ok after ↔ key item ∉ rows.map key ∧ after = rows ++ [item] := by
  unfold insertRow
  split_ifs with htaken
  · simp [htaken]
  · simp [htaken, eq_comm]

def GoalStore.recorded (key : RequestKey) (store : GoalStore) : Option IdempotencyRow :=
  store.idempotency.find? fun row ↦ row.key == key

theorem lookupIdempotentGoal_eq_none :
    store.lookupIdempotentGoal key request = .ok none ↔ store.recorded key = none := by
  unfold GoalStore.lookupIdempotentGoal GoalStore.recorded
  cases store.idempotency.find? fun row ↦ row.key == key with
  | none => simp
  | some =>
    simp only [reduceCtorEq, iff_false]
    split_ifs <;> simp

theorem lookupIdempotentGoal_eq_some : store.lookupIdempotentGoal key request = .ok (some goalId) ↔
      ∃ row, store.recorded key = some row ∧ row.request = request ∧ row.goalId = goalId := by
  unfold GoalStore.lookupIdempotentGoal GoalStore.recorded
  cases store.idempotency.find? fun row ↦ row.key == key with
  | none => simp
  | some =>
    simp only [Option.some.injEq, exists_eq_left']
    split_ifs with hrequest
    · simp [hrequest]
    · simp [hrequest]

/-- The store with the row of a key that has taken effect. -/
def GoalStore.record (key : RequestKey) (request : GoalRequest) (goalId : String) (now : ℤ)
    (store : GoalStore) : GoalStore :=
  { store with idempotency := store.idempotency ++ [⟨key, request, goalId, now⟩] }

theorem replay_eq_ok {goalId : String} : store.replay principal goalId = .ok (mutation, next) ↔
      store.loadOwnedGoal principal goalId = .ok mutation.goal ∧ next = store ∧
        mutation = ⟨mutation.goal, false, true, false⟩ := by
  simp only [GoalStore.replay, bind_eq_ok, pure_eq_ok, Prod.mk.injEq]
  constructor
  · rintro ⟨goal, hgoal, rfl, rfl⟩
    exact ⟨hgoal, rfl, rfl⟩
  · rintro ⟨hgoal, rfl, hmutation⟩
    exact ⟨mutation.goal, hgoal, hmutation.symm, rfl⟩

theorem finish_eq_ok {created stateChanged : Bool} :
    store.finish principal key request goalId now created stateChanged = .ok (mutation, next) ↔
      key ∉ store.idempotency.map IdempotencyRow.key ∧
        next = store.record key request goalId now ∧
        next.loadOwnedGoal principal goalId = .ok mutation.goal ∧
        mutation = ⟨mutation.goal, created, false, stateChanged⟩ := by
  simp only [GoalStore.finish, GoalStore.recordIdempotentGoal, bind_eq_ok, insertRow_eq_ok,
    pure_eq_ok, Prod.mk.injEq]
  constructor
  · rintro ⟨_, ⟨_, ⟨hfree, rfl⟩, rfl⟩, goal, hgoal, rfl, rfl⟩
    exact ⟨hfree, rfl, hgoal, rfl⟩
  · rintro ⟨hfree, rfl, hgoal, hmutation⟩
    exact ⟨_, ⟨_, ⟨hfree, rfl⟩, rfl⟩, mutation.goal, hgoal, hmutation.symm, rfl⟩

def newRow (principal : CommunicationPrincipal) (goalId title objective : String) (now : ℤ) :
    GoalRow :=
  { goalId := goalId, owner := principal, title := title, objective := objective,
    createdAtUnixMs := now, updatedAtUnixMs := now }

/-- What a transaction that is not a replay does to the goals, and whether it reports a change. -/
inductive Change (principal : CommunicationPrincipal) (goalId : String) (store : GoalStore) :
    Bool → GoalStore → Prop
  | created (title objective : String) (now : ℤ) (hfree : goalId ∉ store.goals.map GoalRow.goalId) :
      Change principal goalId store true
        { store with goals := store.goals ++ [newRow principal goalId title objective now] }
  | kept (row : GoalRow) (hrow : store.goal? goalId = some row) (howner : row.owner = principal) :
      Change principal goalId store false store
  | updated (row : GoalRow) (hrow : store.goal? goalId = some row) (howner : row.owner = principal)
      (hactive : row.lifecycle.terminal = false) (title objective : String)
      (lifecycle : GoalLifecycle) (terminalReason : Option String) (now : ℤ) :
      Change principal goalId store true
        (store.setGoal goalId (GoalRow.withUpdate title objective lifecycle terminalReason now))
  | associated (row : GoalRow) (hrow : store.goal? goalId = some row)
      (howner : row.owner = principal) (hactive : row.lifecycle.terminal = false)
        (kind : GoalCorrelationKind) (referenceId : String)
      (now : ℤ)
      (hfanout : kind = .agentTask →
        store.activeGoalFanout principal referenceId < maxGoalCorrelations) :
      Change principal goalId store true
        (store.setGoal goalId (GoalRow.withCorrelation kind referenceId now))

/-- The goal that a request names, for all but a new one. -/
def GoalRequest.goalId? : GoalRequest → Option String
  | .create .. => none
  | .update goalId .. | .associate goalId .. => some goalId

/-- A transaction replays the goal that is recorded for its key. -/
structure Replayed (principal : CommunicationPrincipal) (submission : Submission)
    (store next : GoalStore) (mutation : GoalMutation) : Prop where
  recorded : ∃ row, store.recorded submission.key = some row ∧ row.request = submission.request ∧
    store.loadOwnedGoal principal row.goalId = .ok mutation.goal
  next : next = store
  answer : mutation = ⟨mutation.goal, false, true, false⟩

/-- What a request leaves in the row of its goal. -/
def GoalRequest.Stored (store : GoalStore) (row : GoalRow) : GoalRequest → Prop
  | .create title objective =>
    row.title = title ∧ row.objective = objective ∧ row.lifecycle = .active ∧ row.correlations = []
  | .update goalId _ title objective lifecycle reason =>
    ∃ before, store.goal? goalId = some before ∧
    row.title = title.getD before.title ∧ row.objective = objective.getD before.objective ∧
    row.lifecycle = lifecycle.getD .active ∧
    (row.lifecycle.terminal = true → row.terminalReason = reason) ∧
    row.correlations = before.correlations
  | .associate _ kind referenceId => ∃ correlation ∈ row.correlations,
    correlation.kind = kind ∧ correlation.referenceId = referenceId

/-- A transaction takes effect, and records its key. -/
structure Effective (principal : CommunicationPrincipal) (submission : Submission) (goalId : String)
    (now : ℤ) (store next : GoalStore) (mutation : GoalMutation) : Prop where
  unrecorded : store.recorded submission.key = none
  named : ∀ named, submission.request.goalId? = some named → named = goalId
  revision : ∀ {expected title objective lifecycle reason},
    submission.request = .update goalId expected title objective lifecycle reason →
      ∃ row, store.goal? goalId = some row ∧ row.revision = expected
  changed : ∃ after, Change principal goalId store mutation.stateChanged after ∧
    next = after.record submission.key submission.request goalId now
  stored : ∃ row, next.goal? goalId = some row ∧ submission.request.Stored store row
  loads : next.loadOwnedGoal principal goalId = .ok mutation.goal
  answer : mutation.replayed = false

section Transactions

variable {submission : Submission} {newId : String}

theorem replayed_of_recorded {recorded : String}
    (hlookup : store.lookupIdempotentGoal submission.key submission.request = .ok (some recorded))
    (h : store.replay principal recorded = .ok (mutation, next)) :
    Replayed principal submission store next mutation := by
  obtain ⟨row, hrow, hrequest, rfl⟩ := lookupIdempotentGoal_eq_some.mp hlookup
  obtain ⟨hloads, hnext, hanswer⟩ := replay_eq_ok.mp h
  exact ⟨⟨row, hrow, hrequest, hloads⟩, hnext, hanswer⟩

/-- The second half of a transaction: a change of the goals is recorded and read back. -/
theorem effective_of_finish {created stateChanged : Bool} {after : GoalStore}
    (hlookup : store.lookupIdempotentGoal submission.key submission.request = .ok none)
    (hnamed : ∀ named, submission.request.goalId? = some named → named = goalId)
    (hrevision : ∀ {expected title objective lifecycle reason},
      submission.request = .update goalId expected title objective lifecycle reason →
        ∃ row, store.goal? goalId = some row ∧ row.revision = expected)
    (hchange : Change principal goalId store stateChanged after)
    (hstored : ∃ row, after.goal? goalId = some row ∧ submission.request.Stored store row)
    (h : after.finish principal submission.key submission.request goalId now created stateChanged =
      .ok (mutation, next)) : Effective principal submission goalId now store next mutation := by
  obtain ⟨-, rfl, hloads, hanswer⟩ := finish_eq_ok.mp h
  refine ⟨lookupIdempotentGoal_eq_none.mp hlookup, hnamed, hrevision, ⟨after, ?_, rfl⟩,
    hstored, hloads, ?_⟩
  · rw [hanswer]
    exact hchange
  · rw [hanswer]

/-- A creation that is answered was answered before, or makes a goal under the new id. -/
theorem createGoal_eq_ok {title objective : String}
    (hrequest : submission.request = .create title objective)
    (h : store.createGoal principal submission.key title objective now newId =
      .ok (mutation, next)) :
    Replayed principal submission store next mutation ∨
      Effective principal submission newId now store next mutation := by
  simp only [GoalStore.createGoal, ← hrequest, bind_eq_ok] at h
  obtain ⟨found, hlookup, h⟩ := h
  cases found with
  | some => exact .inl (replayed_of_recorded hlookup h)
  | none =>
    simp only [bind_eq_ok, insertRow_eq_ok] at h
    obtain ⟨_, ⟨hfree, rfl⟩, h⟩ := h
    refine .inr (effective_of_finish hlookup ?_ ?_ (Change.created title objective now hfree)
      ⟨_, (goal?_concat hfree rfl newId).trans (if_pos rfl), ?_⟩ h)
    · simp [hrequest, GoalRequest.goalId?]
    · simp [hrequest]
    · rw [hrequest]
      exact ⟨rfl, rfl, rfl, rfl⟩

/-- An update that is answered was answered before, or takes effect at the revision that it expects.
-/
theorem updateGoal_eq_ok {expected : ℤ} {title objective reason : Option String}
    {lifecycle : Option GoalLifecycle}
    (hrequest : submission.request = .update goalId expected title objective lifecycle reason)
    (h : store.updateGoal principal submission.key goalId expected title objective lifecycle
      reason now =
      .ok (mutation, next)) :
    Replayed principal submission store next mutation ∨
      Effective principal submission goalId now store next mutation := by
  simp only [GoalStore.updateGoal, ← hrequest, bind_eq_ok] at h
  obtain ⟨found, hlookup, h⟩ := h
  cases found with
  | some =>
    simp only [bind_eq_ok, ensure_eq_ok, beq_iff_eq] at h
    obtain ⟨_, rfl, h⟩ := h
    exact .inl (replayed_of_recorded hlookup h)
  | none =>
    simp only [bind_eq_ok, ensure_eq_ok, beq_iff_eq, loadOwnedGoal_eq_ok, Bool.not_eq_true'] at h
    obtain ⟨_, ⟨row, hrow, howner, -, rfl⟩, _, hexpected, _, hactive, h⟩ := h
    refine .inr (effective_of_finish hlookup ?_ ?_ ?_ ?_ h)
    · simp [hrequest, GoalRequest.goalId?]
    · intro _ _ _ _ _ hsame
      rw [hrequest] at hsame
      injection hsame with _ hsame
      exact ⟨row, hrow, hexpected.trans hsame⟩
    · split_ifs with hchanged
      · rw [hchanged]
        exact Change.updated row hrow howner hactive _ _ _ _ _
      · rw [Bool.eq_false_iff.mpr hchanged]
        exact Change.kept row hrow howner
    · rw [hrequest]
      split_ifs with hchanged
      · exact ⟨_, goal?_setGoal_self (fun _ ↦ rfl) hrow, row, hrow, rfl, rfl, rfl,
          fun hterminal ↦ if_pos hterminal, rfl⟩
      · simp only [Bool.or_eq_true, bne_iff_ne, not_or, not_not] at hchanged
        obtain ⟨⟨⟨htitle, hobjective⟩, hlifecycle⟩, hreason⟩ := hchanged
        exact ⟨row, hrow, row, hrow, htitle.symm, hobjective.symm, hlifecycle.symm,
          fun _ ↦ hreason.symm, rfl⟩

/-- An association that is answered was answered before, or takes effect. -/
theorem associateGoal_eq_ok {kind : GoalCorrelationKind} {referenceId : String}
    (hrequest : submission.request = .associate goalId kind referenceId)
    (h : store.associateGoal principal submission.key goalId kind referenceId now =
      .ok (mutation, next)) :
    Replayed principal submission store next mutation ∨
      Effective principal submission goalId now store next mutation := by
  simp only [GoalStore.associateGoal, ← hrequest, bind_eq_ok] at h
  obtain ⟨found, hlookup, h⟩ := h
  have hnamed : ∀ named, submission.request.goalId? = some named → named = goalId := by
    simp [hrequest, GoalRequest.goalId?]
  cases found with
  | some =>
    simp only [bind_eq_ok, ensure_eq_ok, beq_iff_eq] at h
    obtain ⟨_, rfl, h⟩ := h
    exact .inl (replayed_of_recorded hlookup h)
  | none =>
    simp only [bind_eq_ok, ensure_eq_ok, loadOwnedGoal_eq_ok, Bool.not_eq_true'] at h
    obtain ⟨_, ⟨row, hrow, howner, -, rfl⟩, _, hactive, h⟩ := h
    split_ifs at h with hexists
    · have hstored : submission.request.Stored store row := by
        simpa [hrequest, GoalRequest.Stored, GoalStore.hasCorrelation, hrow] using hexists
      exact .inr (effective_of_finish hlookup hnamed (by simp [hrequest])
        (Change.kept row hrow howner) ⟨row, hrow, hstored⟩ h)
    · simp only [bind_eq_ok, GoalStore.checkCapacity, ensure_eq_ok, Bool.or_eq_true, bne_iff_ne,
        decide_eq_true_eq] at h
      obtain ⟨_, ⟨_, -, hfanout⟩, h⟩ := h
      refine .inr (effective_of_finish hlookup hnamed (by simp [hrequest])
        (Change.associated row hrow howner hactive kind referenceId now fun hkind ↦ ?_)
        ⟨_, goal?_setGoal_self (fun _ ↦ rfl) hrow, ?_⟩ h)
      · exact hfanout.resolve_left (not_not_intro hkind)
      · rw [hrequest]
        exact ⟨_, List.mem_concat_self, rfl, rfl⟩

/-- A transaction that succeeds is a replay, or it takes effect on one goal. -/
theorem transact_eq_ok (h : store.transact principal submission now newId = .ok (mutation, next)) :
    Replayed principal submission store next mutation ∨
      ∃ goalId, Effective principal submission goalId now store next mutation := by
  unfold GoalStore.transact at h
  split at h
  · next title objective hrequest =>
    exact (createGoal_eq_ok hrequest h).imp_right fun heffective ↦ ⟨_, heffective⟩
  · next hrequest =>
    exact (updateGoal_eq_ok hrequest h).imp_right fun heffective ↦ ⟨_, heffective⟩
  · next hrequest =>
    exact (associateGoal_eq_ok hrequest h).imp_right fun heffective ↦ ⟨_, heffective⟩

end Transactions

end WebCodex.Goals
