import WebCodex.TaskStore.Moves

/-!
The id of an execution is drawn when the execution is reserved and never changes, and an id that is
in use is refused. So the executions of a task have different ids, an update reaches one execution
(`mem_update`), and the id of an execution leads to its task (`ownerOfExecution_eq`).
-/

namespace WebCodex.TaskStore

open Foundation

def DistinctIds (executions : List ConnectorExecution) : Prop :=
  (executions.map fun execution ↦ execution.executionId).Nodup

section Updates

variable {executions : List ConnectorExecution} {execution : ConnectorExecution}
  {f : ConnectorExecution → ConnectorExecution}

theorem DistinctIds.eq_of_executionId (h : DistinctIds executions) {other : ConnectorExecution}
    (hmem : execution ∈ executions) (hother : other ∈ executions)
    (hsame : other.executionId = execution.executionId) : other = execution :=
  List.inj_on_of_nodup_map h hother hmem hsame

/-- The executions after an update of one of them. -/
theorem DistinctIds.mem_update (h : DistinctIds executions) (hmem : execution ∈ executions)
    {after : ConnectorExecution}
    (hafter : after ∈ executions.map (updated execution.executionId f)) :
    after = f execution ∨ (after ∈ executions ∧ after ≠ execution) :=
  mem_updateRow h hmem hafter

theorem map_executionId_update (hf : KeepsIdentity f) (executionId : String) :
    (executions.map (updated executionId f)).map (fun execution ↦ execution.executionId) =
      executions.map fun execution ↦ execution.executionId :=
  map_view_updateRow hf.executionId executions

theorem mem_map_updated (hmem : execution ∈ executions) :
    f execution ∈ executions.map (updated execution.executionId f) :=
  mem_map_updateRow hmem

end Updates

variable {rows : TaskRows}

/-- A request keeps the ids of a task, and a reservation adds one that was not in use. -/
theorem executionIds_move {keys : Keys} {after : TaskRows} {asked : TaskRequest}
    (h : Move keys rows asked after) :
    (after.executions.map fun execution ↦ execution.executionId) =
        (rows.executions.map fun execution ↦ execution.executionId) ∨
      ∃ request : NewExecution, asked = .owner (.reserve request) ∧
        request.executionId ∉ keys.executionIds ∧
        (after.executions.map fun execution ↦ execution.executionId) =
          (rows.executions.map fun execution ↦ execution.executionId) ++ [request.executionId] := by
  cases h with
  | approvals | claimed => exact Or.inl rfl
  | change h =>
    cases h with
    | reserved request _ _ hasked _ _ _ hnew =>
      exact Or.inr ⟨request, hasked, hnew, List.map_append⟩
    | updated execution _ _ _ _ _ hf =>
      exact Or.inl (map_executionId_update hf execution.executionId)
    | lost execution _ _ _ _ _ hf =>
      exact Or.inl (map_executionId_update hf execution.executionId)
    | stopped execution _ _ _ _ hf =>
      exact Or.inl (map_executionId_update hf execution.executionId)
    | restarted execution _ now =>
      have hf : KeepsIdentity (TaskRows.interruptExecution now) := ⟨fun _ ↦ rfl, fun _ ↦ rfl⟩
      exact Or.inl (map_executionId_update hf execution.executionId)
    | _ => exact Or.inl rfl

theorem distinctIds_move {keys : Keys} {after : TaskRows} {asked : TaskRequest}
    (hids : DistinctIds rows.executions) (hcovers : Covers keys rows)
    (h : Move keys rows asked after) :
    DistinctIds after.executions := by
  unfold DistinctIds at hids ⊢
  rcases executionIds_move h with hsame | ⟨request, _, hnew, hids'⟩
  · rw [hsame]
    exact hids
  · rw [hids', List.nodup_append]
    refine ⟨hids, List.nodup_singleton _, ?_⟩
    intro _ hfirst _ hsecond hsame
    rw [List.mem_singleton.mp hsecond] at hsame
    obtain ⟨execution, hexecution, hid⟩ := List.mem_map.mp hfirst
    rw [← hsame, ← hid] at hnew
    exact hnew (hcovers.executions execution hexecution)

/-- Invariants of requests that hold in every run. -/
theorem invariant_of_moves {P : TaskRows → Prop}
    (hstart : ∀ task mode, P (TaskRows.started task mode))
    (hmove : ∀ {keys rows asked after}, Covers keys rows → P rows → Move keys rows asked after →
      P after) (operations : List Operation) :
    ∀ taskId rows, (run {} operations).tasks.lookup taskId = some rows → P rows := by
  refine invariant_run hstart ?_ (fun _ _ hnone ↦ by simp at hnone) operations
    (along_true operations {})
  intro _ _ taskId rows _ after _ _ hrows _ hinv hhandle
  exact hmove (covers_of_lookup hrows) hinv (TaskRows.handle_move hhandle)

/-- In every run the executions of a task have different ids. -/
theorem distinctIds_run (operations : List Operation) :
    ∀ taskId rows, (run {} operations).tasks.lookup taskId = some rows →
      DistinctIds rows.executions :=
  invariant_of_moves (fun _ _ ↦ List.nodup_nil) (fun hcovers hinv ↦ distinctIds_move hinv hcovers)
    operations

/-- No two tasks have executions with the same id. -/
def SeparateIds (database : Database) : Prop :=
  ∀ taskId otherId rows others execution other, database.tasks.lookup taskId = some rows →
    database.tasks.lookup otherId = some others → execution ∈ rows.executions →
    other ∈ others.executions → other.executionId = execution.executionId → otherId = taskId

variable {database : Database}

/-- Where the executions of a task come from: they were there, or a reservation for this task has
just added one under an id that was not in use. -/
theorem executionId_origin {operation : Operation} {taskId : String}
    {execution : ConnectorExecution}
    (hrows : (step database operation).database.tasks.lookup taskId = some rows)
    (hmem : execution ∈ rows.executions) :
    (∃ before old, database.tasks.lookup taskId = some before ∧ old ∈ before.executions ∧
        old.executionId = execution.executionId) ∨
      (execution.executionId ∉ database.keys.executionIds ∧
        ∃ projectId subjectId request, operation = .owner taskId projectId subjectId request) := by
  cases hbefore : database.tasks.lookup taskId with
  | none =>
    rcases lookup_step_of_none hbefore operation with hnone | ⟨task, mode, hnew⟩
    · rw [hnone] at hrows
      cases hrows
    · rw [hnew] at hrows
      obtain rfl := Option.some.inj hrows
      cases hmem
  | some before =>
    rw [lookup_step hbefore operation] at hrows
    obtain rfl := Option.some.inj hrows
    have hold : ∀ {request : Option TaskRequest}, before.afterRequest database.keys request =
      before →
        execution ∈ (before.afterRequest database.keys request).executions →
        ∃ rows old, some before = some rows ∧ old ∈ rows.executions ∧
          old.executionId = execution.executionId := by
      intro request hsame hmem
      rw [hsame] at hmem
      exact ⟨before, execution, rfl, hmem, rfl⟩
    cases hreaches : operation.reaches database taskId before with
    | none =>
      rw [hreaches] at hmem
      exact Or.inl (hold rfl hmem)
    | some request =>
      rw [hreaches] at hmem
      cases hhandle : before.handle database.keys request with
      | error => exact Or.inl (hold (by rw [TaskRows.afterRequest, hhandle]) hmem)
      | ok outcome =>
        obtain ⟨_, _⟩ := outcome
        rw [TaskRows.afterRequest, hhandle] at hmem
        have hid := List.mem_map_of_mem (f := fun row : ConnectorExecution ↦ row.executionId) hmem
        rcases executionIds_move (TaskRows.handle_move hhandle) with hsame | ⟨new, hasked,
          hnew, hids⟩
        · rw [hsame] at hid
          obtain ⟨old, hmem, hsame⟩ := List.mem_map.mp hid
          exact Or.inl ⟨before, old, rfl, hmem, hsame⟩
        · rw [hids, List.mem_append] at hid
          rcases hid with hid | hid
          · obtain ⟨old, hmem, hsame⟩ := List.mem_map.mp hid
            exact Or.inl ⟨before, old, rfl, hmem, hsame⟩
          · rw [List.mem_singleton.mp hid]
            refine Or.inr ⟨hnew, ?_⟩
            subst hasked
            obtain ⟨projectId, subjectId, rfl⟩ := owner_of_reaches hreaches
            exact ⟨projectId, subjectId, _, rfl⟩

theorem separateIds_step (h : SeparateIds database) (operation : Operation) :
    SeparateIds (step database operation).database := by
  intro taskId otherId _ _ _ _ hrows hothers hmem hother hsame
  rcases executionId_origin hrows hmem with ⟨before, old, hbefore, hold, hid⟩ | ⟨hnew, _, _, _, hop⟩
  · rcases executionId_origin hothers hother with ⟨before', old', hbefore', hold', hid'⟩ | ⟨hnew, _⟩
    · exact h taskId otherId before before' old old' hbefore hbefore' hold hold'
        (hid'.trans (hsame.trans hid.symm))
    · rw [hsame, ← hid] at hnew
      exact absurd (mem_keys_executionIds hbefore hold) hnew
  · rcases executionId_origin hothers hother with ⟨before', old', hbefore', hold', hid'⟩ |
      ⟨_, p', s', r', hop'⟩
    · rw [← hsame, ← hid'] at hnew
      exact absurd (mem_keys_executionIds hbefore' hold') hnew
    · rw [hop] at hop'
      cases hop'
      rfl

theorem separateIds_run (operations : List Operation) : SeparateIds (run {} operations) := by
  have hstart : SeparateIds ({} : Database) := by
    intro _ _ _ _ _ _ hrows
    simp at hrows
  generalize ({} : Database) = database at hstart
  induction operations generalizing database with
  | nil => exact hstart
  | cons operation _ ih => exact ih _ (separateIds_step hstart operation)

/-- The id of an execution leads to its task. -/
theorem ownerOfExecution_eq (h : SeparateIds database) {taskId : String}
    {execution : ConnectorExecution} (hrows : database.tasks.lookup taskId = some rows)
    (hmem : execution ∈ rows.executions) :
    database.ownerOfExecution execution.executionId = some taskId := by
  unfold Database.ownerOfExecution
  cases hfind : database.tasks.entries.find? fun entry ↦ entry.2.executions.any fun other ↦
      other.executionId == execution.executionId with
  | none =>
    rw [List.find?_eq_none] at hfind
    have hentry := hfind ⟨taskId, rows⟩ (Table.mem_entries.mpr hrows)
    simp only [List.any_eq_true, beq_iff_eq, not_exists, not_and] at hentry
    exact absurd rfl (hentry execution hmem)
  | some entry =>
    obtain ⟨otherId, others⟩ := entry
    have hothers := Table.mem_entries.mp (List.mem_of_find?_eq_some hfind)
    have hany := List.find?_some hfind
    simp only [List.any_eq_true, beq_iff_eq] at hany
    obtain ⟨other, hother, hsame⟩ := hany
    rw [Option.map_some, h taskId otherId rows others execution other hrows hothers hmem
      hother hsame]

end WebCodex.TaskStore
