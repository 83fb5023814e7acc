import WebCodex.TaskStore.EditOperations

/-!
Of an operation id a call records that it was started, completed or failed (`EditEvent`), and it
moves the row of that id alone (`step_row`). A completed row stays, a pending row stays until an
outcome is recorded, and no row changes its request (`Moves`). So an operation that was started is
held by one caller until then, and is started again only after a failure
(`edit_operations_are_idempotent`).
-/

namespace WebCodex.TaskStore

open Foundation

variable {Value : Type} {json : JsonText Value} {task after : EditTask} {call : EditCall Value}
  {operationId other requestSha256 : String} {row : EditOperationRow}

inductive EditEvent (Value : Type)
  | started (requestSha256 : String)
  | completed (requestSha256 : String) (result : Value)
  | failed (requestSha256 : String)
  deriving DecidableEq

/-- What a gate records of the id that it was asked for. -/
def ConnectorEditOperationGate.event (operationId requestSha256 : String) :
    ConnectorEditOperationGate Value → Option (String × EditEvent Value)
  | started => some (operationId, .started requestSha256)
  | _ => none

/-- The id that a call with an answer records something of, and what. -/
def editEvent : EditCall Value → EditAnswer Value → Option (String × EditEvent Value)
  | .begin _ _ operationId requestSha256 _, .gate gate => gate.event operationId requestSha256
  | .retry operationId requestSha256 _, .gate gate => gate.event operationId requestSha256
  | .complete _ _ operationId requestSha256 result _, .recorded =>
    some (operationId, .completed requestSha256 result)
  | .fail operationId requestSha256 _, .recorded => some (operationId, .failed requestSha256)
  | _, _ => none

variable (json) in
def EditCall.log (call : EditCall Value) (task : EditTask) : List (String × EditEvent Value) :=
  match call.answer json task with
  | .ok answer => (editEvent call answer).toList
  | .error _ => []

variable (json) in
def editLog : EditTask → List (EditCall Value) → List (String × EditEvent Value)
  | _, [] => []
  | task, call :: rest => call.log json task ++ editLog (call.next json task) rest

inductive Moves (json : JsonText Value) :
    EditEvent Value → Option EditOperationRow → Option EditOperationRow → Prop
  | begun {row : EditOperationRow} (hstate : row.state = .pending)
    (hresult : row.resultJson = none) :
      Moves json (.started row.requestSha256) none (some row)
  | restarted {row : EditOperationRow} (now : ℤ) (hstate : row.state = .failed) :
      Moves json (.started row.requestSha256) (some row)
        (some { row with state := .pending, updatedAt := now })
  | completed {row : EditOperationRow} (now : ℤ) (result : Value) (hstate : row.state = .pending) :
      Moves json (.completed row.requestSha256 result) (some row)
        (some
          { row with
            state := .completed, resultJson := some (json.toString result), updatedAt := now })
  | failed {row : EditOperationRow} (now : ℤ) (hstate : row.state = .pending) :
      Moves json (.failed row.requestSha256) (some row)
        (some { row with state := .failed, updatedAt := now })

/-! ### The row of an id -/

theorem edit?_mem (h : task.edit? operationId = some row) :
    row ∈ task.edits ∧ row.operationId = operationId := mem_of_find?_key h

theorem edit?_of_mem (hids : (task.edits.map EditOperationRow.operationId).Nodup)
    (hrow : row ∈ task.edits) : task.edit? row.operationId = some row := find?_key_of_mem hids hrow

/-- An update reaches the row of its id, and no other. -/
theorem updateEdit_eq_some (hids : (task.edits.map EditOperationRow.operationId).Nodup)
    {state : ConnectorEditOperationState} {f : EditOperationRow → EditOperationRow}
    (hf : ∀ row, (f row).operationId = row.operationId)
    (h : task.updateEdit operationId requestSha256 state f = some after) :
    ∃ row, task.edit? operationId = some row ∧ row.requestSha256 = requestSha256 ∧
      row.state = state ∧
      after = { task with
        edits := task.edits.map (updateRow EditOperationRow.operationId operationId f) } ∧
      after.edit? operationId = some (f row) ∧
      ∀ other ≠ operationId, after.edit? other = task.edit? other := by
  unfold EditTask.updateEdit at h
  split_ifs at h with hany
  obtain ⟨row, hrow, hisIn⟩ := List.any_eq_true.mp hany
  simp only [EditOperationRow.isIn, Bool.and_eq_true, beq_iff_eq] at hisIn
  obtain ⟨⟨rfl, rfl⟩, rfl⟩ := hisIn
  have hedits : (task.edits.map fun other ↦
      if other.isIn row.operationId row.requestSha256 row.state then f other else other) =
        task.edits.map (updateRow EditOperationRow.operationId row.operationId f) := by
    refine List.map_congr_left fun other hother ↦ ?_
    by_cases hid : other.operationId = row.operationId
    · obtain rfl := List.inj_on_of_nodup_map hids hother hrow hid
      rw [updateRow_self, if_pos]
      simp [EditOperationRow.isIn]
    · rw [updateRow_ne hid, if_neg]
      simp [EditOperationRow.isIn, hid]
  rw [hedits] at h
  obtain rfl := Option.some.inj h
  have hfound : ∀ other, EditTask.edit? other
      { task with edits := task.edits.map (updateRow EditOperationRow.operationId
        row.operationId f) } =
        (task.edit? other).map (updateRow EditOperationRow.operationId row.operationId f) :=
    fun other ↦ find?_map_updateRow hf other task.edits
  refine ⟨row, edit?_of_mem hids hrow, rfl, rfl, rfl, ?_, ?_⟩
  · rw [hfound, edit?_of_mem hids hrow, Option.map_some, updateRow_self]
  · intro other hne
    rw [hfound]
    cases hother : task.edit? other with
    | none => rfl
    | some =>
      rw [Option.map_some, updateRow_ne]
      rw [(edit?_mem hother).2]
      exact hne

/-- The rows after one was inserted. -/
theorem edit?_concat (hfree : task.edit? row.operationId = none) (other : String) :
    EditTask.edit? other { task with edits := task.edits ++ [row] } =
      if other = row.operationId then some row else task.edit? other :=
  find?_key_concat hfree other

/-! ### Calls -/

/-- A call keeps the rows of all ids, or it records something of one id and moves its row. -/
inductive Effect (json : JsonText Value) (task after : EditTask) :
    Option (String × EditEvent Value) → Prop
  | kept (hedits : after.edits = task.edits) : Effect json task after none
  | inserted (row : EditOperationRow) (hstate : row.state = .pending)
      (hresult : row.resultJson = none) (hfree : task.edit? row.operationId = none)
        (hafter : after.edits = task.edits ++ [row]) :
      Effect json task after (some (row.operationId, .started row.requestSha256))
  | updated (row : EditOperationRow) (event : EditEvent Value)
      (f : EditOperationRow → EditOperationRow) (hf : ∀ row, (f row).operationId = row.operationId)
      (hrow : task.edit? row.operationId = some row)
        (hmoves : Moves json event (some row) (some (f row)))
      (hafter : after.edits =
        task.edits.map (updateRow EditOperationRow.operationId row.operationId f)) :
      Effect json task after (some (row.operationId, event))

theorem effect_of_updateEdit (hids : (task.edits.map EditOperationRow.operationId).Nodup)
    {state : ConnectorEditOperationState} {f : EditOperationRow → EditOperationRow}
    (hf : ∀ row, (f row).operationId = row.operationId)
    (h : task.updateEdit operationId requestSha256 state f = some after) {event : EditEvent Value}
    (hmoves : ∀ row : EditOperationRow, row.requestSha256 = requestSha256 → row.state = state →
      Moves json event (some row) (some (f row))) :
    Effect json task after (some (operationId, event)) := by
  obtain ⟨row, hrow, hhash, hstate, rfl, -, -⟩ := updateEdit_eq_some hids hf h
  obtain ⟨-, rfl⟩ := edit?_mem hrow
  exact Effect.updated row event f hf hrow (hmoves row hhash hstate) rfl

theorem effect_of_retry (json : JsonText Value)
    (hids : (task.edits.map EditOperationRow.operationId).Nodup)
    (operationId requestSha256 : String)
    {now : ℤ} {gate : ConnectorEditOperationGate Value}
    (h : retryConnectorEditOperation operationId requestSha256 now task = (after, gate)) :
    Effect json task after (gate.event operationId requestSha256) := by
  unfold retryConnectorEditOperation at h
  split at h
  · next updated hupdate =>
    obtain ⟨rfl, rfl⟩ := Prod.mk.inj h
    refine effect_of_updateEdit hids ?_ hupdate ?_
    · exact fun _ ↦ rfl
    · rintro _ rfl hstate
      exact Moves.restarted now hstate
  · obtain ⟨rfl, rfl⟩ := Prod.mk.inj h
    exact Effect.kept rfl

theorem effect_of_begin {projectId subjectId : String} {now : ℤ}
    {gate : ConnectorEditOperationGate Value}
    (hids : (task.edits.map EditOperationRow.operationId).Nodup)
    (h : beginConnectorEditOperation json projectId subjectId operationId requestSha256 now task =
      .ok (after, gate)) : Effect json task after (gate.event operationId requestSha256) := by
  simp only [beginConnectorEditOperation, bind_eq_ok] at h
  obtain ⟨_, -, h⟩ := h
  cases hedit : task.edit? operationId with
  | none =>
    simp only [hedit, Except.ok.injEq, Prod.mk.injEq] at h
    obtain ⟨rfl, rfl⟩ := h
    exact Effect.inserted
      { operationId := operationId, requestSha256 := requestSha256, createdAt := now,
        updatedAt := now }
      rfl rfl hedit rfl
  | some =>
    simp only [hedit] at h
    split_ifs at h with hhash
    · obtain ⟨rfl, rfl⟩ := Prod.mk.inj (Except.ok.inj h)
      exact Effect.kept rfl
    · split at h
      · obtain ⟨rfl, rfl⟩ := Prod.mk.inj (Except.ok.inj h)
        exact Effect.kept rfl
      · split at h
        · obtain ⟨rfl, rfl⟩ := Prod.mk.inj (Except.ok.inj h)
          exact Effect.kept rfl
        · cases h
      · exact effect_of_retry json hids operationId requestSha256 (Except.ok.inj h)
      · cases h

/-- What a call that succeeds does to the edit operations. -/
theorem effect_of_perform {answer : EditAnswer Value}
    (hids : (task.edits.map EditOperationRow.operationId).Nodup)
    (h : call.perform json task = .ok (after, answer)) :
    Effect json task after (editEvent call answer) := by
  cases call with
  | begin =>
    obtain ⟨⟨_, _⟩, hbegin, hresult⟩ := map_eq_ok.mp h
    obtain ⟨rfl, rfl⟩ := Prod.mk.inj hresult
    exact effect_of_begin hids hbegin
  | retry operationId requestSha256 =>
    obtain ⟨rfl, rfl⟩ := Prod.mk.inj (Except.ok.inj h)
    exact effect_of_retry json hids operationId requestSha256 rfl
  | complete _ _ _ _ result now =>
    obtain ⟨_, hcomplete, hresult⟩ := map_eq_ok.mp h
    obtain ⟨rfl, rfl⟩ := Prod.mk.inj hresult
    simp only [completeConnectorEditOperation, bind_eq_ok, required_eq_ok] at hcomplete
    obtain ⟨_, -, hupdate⟩ := hcomplete
    refine effect_of_updateEdit hids ?_ hupdate ?_
    · exact fun _ ↦ rfl
    · rintro row rfl hstate
      exact Moves.completed now result hstate
  | fail _ _ now =>
    obtain ⟨_, hfail, hresult⟩ := map_eq_ok.mp h
    obtain ⟨rfl, rfl⟩ := Prod.mk.inj hresult
    rw [failConnectorEditOperation, required_eq_ok] at hfail
    refine effect_of_updateEdit hids ?_ hfail ?_
    · exact fun _ ↦ rfl
    · rintro row rfl hstate
      exact Moves.failed now hstate
  | other =>
    obtain ⟨rfl, rfl⟩ := Prod.mk.inj (Except.ok.inj h)
    exact Effect.kept rfl

/-! ### Steps -/

/-- What a call records, and what that does to the rows of all ids. -/
inductive Step (json : JsonText Value) (task after : EditTask) :
    List (String × EditEvent Value) → Prop
  | kept (hedits : after.edits = task.edits) : Step json task after []
  | moved (operationId : String) (event : EditEvent Value)
      (hmoves : Moves json event (task.edit? operationId) (after.edit? operationId))
      (hothers : ∀ other ≠ operationId, after.edit? other = task.edit? other) :
      Step json task after [(operationId, event)]

theorem step_of_effect {event : Option (String × EditEvent Value)}
    (h : Effect json task after event) :
    Step json task after event.toList := by
  cases h with
  | kept hedits => exact Step.kept hedits
  | inserted row hstate hresult hfree hafter =>
    have hfound : ∀ other, after.edit? other =
        if other = row.operationId then some row else task.edit? other := by
      intro other
      rw [← edit?_concat hfree other]
      simp [EditTask.edit?, hafter]
    refine Step.moved row.operationId _ ?_ fun other hne ↦ by rw [hfound, if_neg hne]
    rw [hfound, if_pos rfl, hfree]
    exact Moves.begun hstate hresult
  | updated row event f hf hrow hmoves hafter =>
    have hfound : ∀ other, after.edit? other =
        (task.edit? other).map (updateRow EditOperationRow.operationId row.operationId f) := by
      intro other
      simp only [EditTask.edit?, hafter]
      exact find?_map_updateRow hf other task.edits
    refine Step.moved row.operationId event ?_ fun other hne ↦ ?_
    · rw [hfound, hrow, Option.map_some, updateRow_self]
      exact hmoves
    · rw [hfound]
      cases hother : task.edit? other with
      | none => rfl
      | some =>
        rw [Option.map_some, updateRow_ne]
        rw [(edit?_mem hother).2]
        exact hne

theorem step_next (hids : (task.edits.map EditOperationRow.operationId).Nodup)
    (call : EditCall Value) :
    Step json task (call.next json task) (call.log json task) := by
  unfold EditCall.next EditCall.log EditCall.answer
  cases hperform : call.perform json task with
  | error => exact Step.kept rfl
  | ok => exact step_of_effect (effect_of_perform hids hperform)

theorem ids_of_effect {event : Option (String × EditEvent Value)}
    (hids : (task.edits.map EditOperationRow.operationId).Nodup)
    (h : Effect json task after event) :
    (after.edits.map EditOperationRow.operationId).Nodup := by
  cases h with
  | kept hedits =>
    rw [hedits]
    exact hids
  | inserted _ _ _ hfree hafter =>
    rw [hafter]
    refine nodup_map_concat hids fun htaken ↦ ?_
    obtain ⟨_, htaken, hsame⟩ := List.mem_map.mp htaken
    rw [← hsame, edit?_of_mem hids htaken] at hfree
    cases hfree
  | updated _ _ _ hf _ _ hafter =>
    rw [hafter, map_view_updateRow hf]
    exact hids

theorem ids_next (hids : (task.edits.map EditOperationRow.operationId).Nodup)
    (call : EditCall Value) :
    ((call.next json task).edits.map EditOperationRow.operationId).Nodup := by
  unfold EditCall.next
  cases hperform : call.perform json task with
  | error => exact hids
  | ok => exact ids_of_effect hids (effect_of_perform hids hperform)

/-! ### Rows along a run -/

/-- The row of an id after its events: its request, its state, and its result. -/
def Sound (json : JsonText Value) (row : EditOperationRow) : Prop :=
  (row.state ≠ .completed ∧ row.resultJson = none) ∨
    (row.state = .completed ∧ ∃ result, row.resultJson = some (json.toString result))

theorem sound_of_moves {event : EditEvent Value} {before : Option EditOperationRow}
    (hbefore : ∀ row, before = some row → Sound json row) (h : Moves json event before (some row)) :
    Sound json row := by
  cases h with
  | begun hstate hresult => exact .inl ⟨by simp [hstate], hresult⟩
  | restarted _ hstate =>
    obtain ⟨-, hresult⟩ | ⟨hcompleted, -⟩ := hbefore _ rfl
    · exact .inl ⟨by simp, hresult⟩
    · rw [hstate] at hcompleted
      cases hcompleted
  | completed _ result => exact .inr ⟨rfl, result, rfl⟩
  | failed _ hstate =>
    obtain ⟨-, hresult⟩ | ⟨hcompleted, -⟩ := hbefore _ rfl
    · exact .inl ⟨by simp, hresult⟩
    · rw [hstate] at hcompleted
      cases hcompleted

/-- The ids are distinct, and a row has a result exactly when it is completed. -/
structure Consistent (json : JsonText Value) (task : EditTask) : Prop where
  ids : (task.edits.map EditOperationRow.operationId).Nodup
  sound : ∀ operationId row, task.edit? operationId = some row → Sound json row

/-- The row of an id after a call: it was kept, or the call recorded something of the id. -/
theorem step_row {log : List (String × EditEvent Value)} (h : Step json task after log)
    (operationId : String) :
    ((∀ event, (operationId, event) ∉ log) ∧ after.edit? operationId = task.edit? operationId) ∨
      ∃ event, log = [(operationId, event)] ∧
        Moves json event (task.edit? operationId) (after.edit? operationId) := by
  cases h with
  | kept hedits => exact .inl ⟨fun event ↦ List.not_mem_nil, by rw [EditTask.edit?, hedits]; rfl⟩
  | moved moved event hmoves hothers =>
    by_cases hid : operationId = moved
    · subst hid
      exact .inr ⟨event, rfl, hmoves⟩
    · refine .inl ⟨fun event hevent ↦ hid ?_, hothers operationId hid⟩
      exact congrArg Prod.fst (List.mem_singleton.mp hevent)

theorem Consistent.next (h : Consistent json task) (call : EditCall Value) :
    Consistent json (call.next json task) := by
  refine ⟨ids_next h.ids call, fun operationId row hrow ↦ ?_⟩
  obtain ⟨-, hkept⟩ | ⟨_, -, hmoves⟩ := step_row (step_next h.ids call) operationId
  · exact h.sound operationId row (hkept.symm.trans hrow)
  · rw [hrow] at hmoves
    exact sound_of_moves (h.sound operationId) hmoves

abbrev afterEdits (json : JsonText Value) (task : EditTask) (calls : List (EditCall Value)) :
    EditTask :=
  calls.foldl (fun task call ↦ call.next json task) task

theorem Consistent.afterEdits (h : Consistent json task) (calls : List (EditCall Value)) :
    Consistent json (afterEdits json task calls) := by
  induction calls generalizing task with
  | nil => exact h
  | cons call _ ih => exact ih (h.next call)

/-- A property of the row of an id that its events keep is kept by a run. -/
theorem kept_along (P : Option EditOperationRow → Prop) (allowed : EditEvent Value → Prop)
    (hkeeps : ∀ event before after, allowed event → Moves json event before after → P before →
      P after)
    (hconsistent : Consistent json task) (calls : List (EditCall Value))
    (hstart : P (task.edit? operationId))
    (hallowed : ∀ event, (operationId, event) ∈ editLog json task calls → allowed event) :
    P ((afterEdits json task calls).edit? operationId) := by
  induction calls generalizing task with
  | nil => exact hstart
  | cons call _ ih =>
    refine ih (hconsistent.next call) ?_ fun event hevent ↦
      hallowed event (List.mem_append_right _ hevent)
    obtain ⟨-, hkept⟩ | ⟨event, hlog, hmoves⟩ := step_row
      (step_next hconsistent.ids call) operationId
    · rw [hkept]
      exact hstart
    · refine hkeeps event _ _ (hallowed event (List.mem_append_left _ ?_)) hmoves hstart
      rw [hlog]
      exact List.mem_singleton_self _

/-! ### Who holds an operation -/

def EditEvent.isStart : EditEvent Value → Bool
  | started _ => true
  | _ => false

def starts (operationId : String) (log : List (String × EditEvent Value)) : ℕ :=
  log.countP fun entry ↦ entry.1 == operationId && entry.2.isStart

/-- How often an outcome of an operation was recorded. -/
def outcomes (operationId : String) (log : List (String × EditEvent Value)) : ℕ :=
  log.countP fun entry ↦ entry.1 == operationId && !entry.2.isStart

def isPending (row : Option EditOperationRow) : Bool := row.any fun row ↦ row.state == .pending

theorem holders_of_moves {event : EditEvent Value} {before after : Option EditOperationRow}
    (h : Moves json event before after) :
    isPending before = !event.isStart ∧ isPending after = event.isStart := by
  cases h with
  | begun hstate => exact ⟨rfl, by simp [isPending, hstate, EditEvent.isStart]⟩
  | restarted _ hstate => exact ⟨by simp [isPending, hstate, EditEvent.isStart], rfl⟩
  | completed _ _ hstate => exact ⟨by simp [isPending, hstate, EditEvent.isStart], rfl⟩
  | failed _ hstate => exact ⟨by simp [isPending, hstate, EditEvent.isStart], rfl⟩

/-- The starts and the outcomes along a run differ by who holds the operation before and after
it. -/
theorem holders_along (hconsistent : Consistent json task) (operationId : String)
    (calls : List (EditCall Value)) :
    starts operationId (editLog json task calls) + (isPending (task.edit? operationId)).toNat =
      outcomes operationId (editLog json task calls) +
        (isPending ((afterEdits json task calls).edit? operationId)).toNat := by
  induction calls generalizing task with
  | nil => rfl
  | cons call _ ih =>
    have hrest := ih (hconsistent.next call)
    simp only [editLog, starts, outcomes, List.countP_append, afterEdits,
      List.foldl_cons] at hrest ⊢
    obtain ⟨hnone, hkept⟩ | ⟨event, hlog, hmoves⟩ :=
      step_row (step_next hconsistent.ids call) operationId
    · have hfree : ∀ p : EditEvent Value → Bool, (call.log json task).countP
          (fun entry ↦ entry.1 == operationId && p entry.2) = 0 := by
        refine fun p ↦ List.countP_eq_zero.mpr fun entry hentry hsame ↦ ?_
        rw [Bool.and_eq_true, beq_iff_eq] at hsame
        obtain ⟨rfl, -⟩ := hsame
        exact hnone entry.2 hentry
      have hstarts := hfree EditEvent.isStart
      have houtcomes := hfree fun event ↦ !event.isStart
      rw [hkept] at hrest
      omega
    · obtain ⟨hbefore, hafter⟩ := holders_of_moves hmoves
      rw [hlog, List.countP_singleton, List.countP_singleton, hbefore]
      rw [hafter] at hrest
      cases hstart : event.isStart <;> simp [hstart] at hrest ⊢ <;> omega

/-- While a row is there and not failed, its operation is not started. -/
theorem not_started (hconsistent : Consistent json task) (hrow : task.edit? operationId = some row)
    (hstate : row.state ≠ .failed) (call : EditCall Value) (requestSha256 : String) :
    (operationId, .started requestSha256) ∉ call.log json task := by
  intro hstarted
  obtain ⟨hnone, -⟩ | ⟨_, hlog, hmoves⟩ := step_row (step_next hconsistent.ids call) operationId
  · exact hnone _ hstarted
  · rw [hlog, List.mem_singleton, Prod.mk.injEq] at hstarted
    obtain ⟨-, rfl⟩ := hstarted
    rw [hrow] at hmoves
    generalize call.next json task = after at hmoves
    cases hafter : after.edit? operationId with
    | none => rw [hafter] at hmoves; cases hmoves
    | some =>
      rw [hafter] at hmoves
      cases hmoves with
      | restarted _ hfailed => exact hstate hfailed

/-! ### Idempotence -/

def EditEvent.request : EditEvent Value → String
  | started requestSha256 | completed requestSha256 _ | failed requestSha256 => requestSha256

def EditEvent.state : EditEvent Value → ConnectorEditOperationState
  | started _ => .pending
  | completed _ _ => .completed
  | failed _ => .failed

def EditEvent.resultJson (json : JsonText Value) : EditEvent Value → Option String
  | completed _ result => some (json.toString result)
  | _ => none

def IsAt (json : JsonText Value) (event : EditEvent Value) (row : Option EditOperationRow) : Prop :=
  ∃ found, row = some found ∧ found.requestSha256 = event.request ∧ found.state = event.state ∧
    found.resultJson = event.resultJson json

theorem isAt_of_moves {event : EditEvent Value} {before after : Option EditOperationRow}
    (hsound : ∀ row, after = some row → Sound json row) (h : Moves json event before after) :
    IsAt json event after := by
  cases h with
  | begun hstate hresult => exact ⟨_, rfl, rfl, hstate, hresult⟩
  | restarted | failed =>
    obtain ⟨-, hresult⟩ | ⟨hcompleted, -⟩ := hsound _ rfl
    · exact ⟨_, rfl, rfl, rfl, hresult⟩
    · cases hcompleted
  | completed => exact ⟨_, rfl, rfl, rfl, rfl⟩

theorem isAt_of_log (hconsistent : Consistent json task) {event : EditEvent Value}
    (hlog : (operationId, event) ∈ call.log json task) :
    IsAt json event ((call.next json task).edit? operationId) := by
  obtain ⟨hnone, -⟩ | ⟨_, hrecorded, hmoves⟩ :=
    step_row (step_next hconsistent.ids call) operationId
  · exact absurd hlog (hnone event)
  · rw [hrecorded, List.mem_singleton, Prod.mk.injEq] at hlog
    obtain ⟨-, rfl⟩ := hlog
    exact isAt_of_moves ((hconsistent.next call).sound operationId) hmoves

/-- The request of a row stays. -/
theorem request_of_moves {event : EditEvent Value} {before after : Option EditOperationRow}
    (h : Moves json event before after) (hbefore : ∃ row, before = some row ∧
      row.requestSha256 = requestSha256) :
    ∃ row, after = some row ∧ row.requestSha256 = requestSha256 := by
  obtain ⟨row, rfl, hhash⟩ := hbefore
  cases h <;> exact ⟨_, rfl, hhash⟩

/-- The gate of a row that is there. -/
theorem begin_of_edit? {event : EditEvent Value} (h : IsAt json event (task.edit? operationId))
    (projectId subjectId : String) (now : ℤ) {gate : ConnectorEditOperationGate Value}
    (hgate : (event.state = .pending ∧ gate = .pending) ∨
      ∃ result, event = .completed requestSha256 result ∧ gate = .replay result)
    (hhash : event.request = requestSha256) :
    beginConnectorEditOperation json projectId subjectId operationId requestSha256 now task =
      (fun _ ↦ (task, gate)) <$> task.requireRunning projectId subjectId := by
  obtain ⟨_, hrow, hsame, hstate, hresult⟩ := h
  unfold beginConnectorEditOperation
  cases hguard : task.requireRunning projectId subjectId with
  | error => rfl
  | ok =>
    simp only [ok_bind, hrow, hsame, hhash, ne_eq, not_true_eq_false, if_false]
    obtain ⟨hpending, rfl⟩ | ⟨result, rfl, rfl⟩ := hgate
    · have hnone : event.resultJson json = none := by
        cases event <;> first | rfl | cases hpending
      rw [hstate, hresult, hpending, hnone]
      rfl
    · rw [hstate, hresult]
      simp only [EditEvent.state, EditEvent.resultJson, json.fromStr_toString]
      rfl

/-- Another request under the id of a row is a conflict. -/
theorem begin_of_conflict (hrow : task.edit? operationId = some row)
    (hhash : row.requestSha256 ≠ requestSha256) (projectId subjectId : String) (now : ℤ) :
    beginConnectorEditOperation json projectId subjectId operationId requestSha256 now task =
      (fun _ ↦ (task, .conflict)) <$> task.requireRunning projectId subjectId := by
  unfold beginConnectorEditOperation
  cases hguard : task.requireRunning projectId subjectId with
  | error => rfl
  | ok =>
    simp only [ok_bind, hrow, ne_eq, hhash, not_false_eq_true, if_true]
    rfl

/-- On a running task an id without a row is started. -/
theorem answer_of_free {projectId subjectId : String}
    (hrunning : task.requireRunning projectId subjectId = .ok ())
    (hfree : task.edit? operationId = none) (now : ℤ) :
    (EditCall.begin projectId subjectId operationId requestSha256 now).answer json task =
      .ok (.gate .started) := by
  simp only [EditCall.answer, EditCall.perform, beginConnectorEditOperation, hrunning,
    ok_bind, hfree]
  rfl

/-- On a running task a failed operation is started again by its request. -/
theorem answer_of_failed {projectId subjectId : String}
    (hrunning : task.requireRunning projectId subjectId = .ok ())
    (h : IsAt json (.failed requestSha256) (task.edit? operationId)) (now : ℤ) :
    (EditCall.begin projectId subjectId operationId requestSha256 now).answer json task =
      .ok (.gate .started) := by
  obtain ⟨row, hrow, hhash, hstate, hresult⟩ := h
  obtain ⟨hmem, hid⟩ := edit?_mem hrow
  have hfailed : task.edits.any (EditOperationRow.isIn operationId requestSha256 .failed) =
      true := by
    refine List.any_eq_true.mpr ⟨row, hmem, ?_⟩
    simp [EditOperationRow.isIn, hid, hhash, hstate, EditEvent.request, EditEvent.state]
  simp only [EditCall.answer, EditCall.perform, beginConnectorEditOperation, hrunning,
    ok_bind, hrow, hhash, hstate, hresult, EditEvent.request, EditEvent.state,
    EditEvent.resultJson, ne_eq,
    not_true_eq_false, if_false, retryConnectorEditOperation, EditTask.updateEdit, if_pos hfailed]
  rfl

theorem rows_updateEdit {state : ConnectorEditOperationState}
    {f : EditOperationRow → EditOperationRow}
    (h : task.updateEdit operationId requestSha256 state f = some after) :
        after.rows = task.rows := by
  unfold EditTask.updateEdit at h
  split_ifs at h
  obtain rfl := Option.some.inj h
  rfl

theorem rows_retry {operationId requestSha256 : String} {now : ℤ}
    {gate : ConnectorEditOperationGate Value}
    (h : retryConnectorEditOperation operationId requestSha256 now task = (after, gate)) :
    after.rows = task.rows := by
  unfold retryConnectorEditOperation at h
  split at h
  · next hupdate =>
    obtain ⟨rfl, -⟩ := Prod.mk.inj h
    exact rows_updateEdit hupdate
  · obtain ⟨rfl, -⟩ := Prod.mk.inj h
    rfl

theorem rows_begin {projectId subjectId : String} {now : ℤ}
    {gate : ConnectorEditOperationGate Value}
    (h : beginConnectorEditOperation json projectId subjectId operationId requestSha256 now task =
      .ok (after, gate)) : after.rows = task.rows := by
  simp only [beginConnectorEditOperation, bind_eq_ok] at h
  obtain ⟨_, -, h⟩ := h
  split at h
  · split_ifs at h
    · obtain ⟨rfl, -⟩ := Prod.mk.inj (Except.ok.inj h)
      rfl
    · split at h
      · obtain ⟨rfl, -⟩ := Prod.mk.inj (Except.ok.inj h)
        rfl
      · split at h
        · obtain ⟨rfl, -⟩ := Prod.mk.inj (Except.ok.inj h)
          rfl
        · cases h
      · exact rows_retry (Except.ok.inj h)
      · cases h
  · obtain ⟨rfl, -⟩ := Prod.mk.inj (Except.ok.inj h)
    rfl

/-- A call leaves the other rows of the task alone. -/
theorem rows_next (hcall : ∀ rows, call ≠ .other rows) :
    (call.next json task).rows = task.rows := by
  unfold EditCall.next
  cases hperform : call.perform json task with
  | error => rfl
  | ok =>
    cases call with
    | begin =>
      obtain ⟨⟨_, _⟩, hbegin, rfl⟩ := map_eq_ok.mp hperform
      exact rows_begin hbegin
    | retry =>
      obtain rfl := Except.ok.inj hperform
      exact rows_retry rfl
    | complete =>
      obtain ⟨_, hcomplete, rfl⟩ := map_eq_ok.mp hperform
      simp only [completeConnectorEditOperation, bind_eq_ok, required_eq_ok] at hcomplete
      obtain ⟨_, -, hupdate⟩ := hcomplete
      exact rows_updateEdit hupdate
    | fail =>
      obtain ⟨_, hfail, rfl⟩ := map_eq_ok.mp hperform
      rw [failConnectorEditOperation, required_eq_ok] at hfail
      exact rows_updateEdit hfail
    | other rows => exact absurd rfl (hcall rows)

/-! ### What stays -/

/-- A completed row stays. -/
theorem completed_along (hconsistent : Consistent json task) {result : Value}
    (h : IsAt json (.completed requestSha256 result) (task.edit? operationId))
    (calls : List (EditCall Value)) :
    IsAt json (.completed requestSha256 result)
      ((afterEdits json task calls).edit? operationId) := by
  refine kept_along (IsAt json (.completed requestSha256 result))
    (fun _ ↦ True) ?_ hconsistent calls h fun _ _ ↦ trivial
  rintro _ _ _ - hmoves ⟨_, rfl, -, hstate, -⟩
  cases hmoves with
  | restarted _ hfailed => rw [hfailed] at hstate; cases hstate
  | completed _ _ hpending => rw [hpending] at hstate; cases hstate
  | failed _ hpending => rw [hpending] at hstate; cases hstate

/-- The row of an id stays as it is while nothing is recorded of the id. -/
theorem quiet_along (P : Option EditOperationRow → Prop) (hconsistent : Consistent json task)
    (h : P (task.edit? operationId)) (calls : List (EditCall Value))
    (hnone : ∀ event, (operationId, event) ∉ editLog json task calls) :
    P ((afterEdits json task calls).edit? operationId) :=
  kept_along P (fun _ ↦ False) (fun _ _ _ hnever ↦ hnever.elim) hconsistent calls h hnone

/-- A pending row stays while no outcome is recorded. -/
theorem pending_along (hconsistent : Consistent json task)
    (h : IsAt json (.started requestSha256) (task.edit? operationId))
    (calls : List (EditCall Value))
    (hopen : ∀ event, (operationId, event) ∈ editLog json task calls → event.isStart = true) :
    IsAt json (.started requestSha256) ((afterEdits json task calls).edit? operationId) := by
  refine kept_along (IsAt json (.started requestSha256)) (fun event ↦ event.isStart = true) ?_
    hconsistent calls h hopen
  rintro event _ _ hstart hmoves ⟨_, rfl, -, hstate, -⟩
  cases hmoves with
  | restarted _ hfailed => rw [hfailed] at hstate; cases hstate
  | completed | failed => cases hstart

/-- A row that is not failed stays so until a failure is recorded. -/
theorem unfailed_along (hconsistent : Consistent json task)
    (h : ∃ row, task.edit? operationId = some row ∧ row.state ≠ .failed)
    (calls : List (EditCall Value))
    (hnone : ∀ failed, (operationId, .failed failed) ∉ editLog json task calls) :
    ∃ row, (afterEdits json task calls).edit? operationId = some row ∧ row.state ≠ .failed := by
  refine kept_along (fun row ↦ ∃ found, row = some found ∧ found.state ≠ .failed)
    (fun event ↦ ∀ failed, event ≠ .failed failed) ?_ hconsistent calls h ?_
  · intro event _ _ hallowed hmoves _
    cases hmoves with
    | begun hstate => exact ⟨_, rfl, by simp [hstate]⟩
    | restarted | completed => exact ⟨_, rfl, by simp⟩
    | failed => exact absurd rfl (hallowed _)
  · rintro event hevent failed rfl
    exact hnone failed hevent

/-- The request of a row stays. -/
theorem request_along (hconsistent : Consistent json task)
    (h : ∃ row, task.edit? operationId = some row ∧ row.requestSha256 = requestSha256)
    (calls : List (EditCall Value)) :
    ∃ row, (afterEdits json task calls).edit? operationId = some row ∧
      row.requestSha256 = requestSha256 :=
  kept_along (fun row ↦ ∃ found, row = some found ∧ found.requestSha256 = requestSha256)
    (fun _ ↦ True) (fun _ _ _ _ hmoves hrow ↦ request_of_moves hmoves hrow) hconsistent calls h
    fun _ _ ↦ trivial

/-! ### Runs -/

theorem runEdits_append (rows : TaskRows) (calls more : List (EditCall Value)) :
    runEdits json rows (calls ++ more) = afterEdits json (runEdits json rows calls) more :=
  List.foldl_append

theorem runEdits_consistent (rows : TaskRows) (calls : List (EditCall Value)) :
    Consistent json (runEdits json rows calls) := by
  have hempty : Consistent json { rows := rows } := by
    refine ⟨List.nodup_nil, fun _ _ hrow ↦ ?_⟩
    cases hrow
  exact hempty.afterEdits calls

/-- What the edit operations of a task promise after a sequence of calls. -/
structure EditContract (json : JsonText Value) (rows : TaskRows) (calls : List (EditCall Value)) :
    Prop where
  /-- While the task is running, an id of which nothing was recorded is started. -/
  begun : ∀ (operationId requestSha256 projectId subjectId : String) (now : ℤ),
    (runEdits json rows calls).requireRunning projectId subjectId = .ok () →
    (∀ event, (operationId, event) ∉ editLog json { rows := rows } calls) →
    (EditCall.begin projectId subjectId operationId requestSha256 now).answer json
      (runEdits json rows calls) = .ok (.gate .started)
  /-- After a failure the same request is started again. -/
  retried : ∀ (operationId requestSha256 projectId subjectId : String) (now : ℤ)
    (call : EditCall Value) (more : List (EditCall Value)),
    (operationId, .failed requestSha256) ∈ call.log json (runEdits json rows calls) →
    (∀ event, (operationId, event) ∉ editLog json (runEdits json rows (calls ++ [call])) more) →
    (runEdits json rows (calls ++ call :: more)).requireRunning projectId subjectId = .ok () →
    (EditCall.begin projectId subjectId operationId requestSha256 now).answer json
      (runEdits json rows (calls ++ call :: more)) = .ok (.gate .started)
  /-- An operation is held by the one caller that has started it and recorded no outcome, or by
  none. -/
  held : ∀ operationId, starts operationId (editLog json { rows := rows } calls) =
    outcomes operationId (editLog json { rows := rows } calls) +
      (isPending ((runEdits json rows calls).edit? operationId)).toNat
  /-- Between two starts of an operation a failure was recorded. -/
  restarted : ∀ (operationId first second : String) (start restart : EditCall Value)
    (between : List (EditCall Value)),
    (operationId, .started first) ∈ start.log json (runEdits json rows calls) →
    (operationId, .started second) ∈ restart.log json
      (runEdits json rows (calls ++ start :: between)) →
    ∃ failed, (operationId, .failed failed) ∈
      editLog json (runEdits json rows (calls ++ [start])) between
  /-- A completed operation is replayed with its result, and never started. -/
  replayed : ∀ (operationId requestSha256 : String) (result : Value) (call : EditCall Value)
    (more : List (EditCall Value)),
    (operationId, .completed requestSha256 result) ∈ call.log json (runEdits json rows calls) →
    ∃ task, task = runEdits json rows (calls ++ call :: more) ∧ (∀ projectId subjectId now,
        beginConnectorEditOperation json projectId subjectId operationId requestSha256 now task =
          (fun _ ↦ (task, .replay result)) <$> task.requireRunning projectId subjectId) ∧
      ∀ (later : EditCall Value) (hash : String), (operationId, .started hash) ∉ later.log json task
  /-- Another request under an id that was begun is a conflict. -/
  conflict : ∀ (operationId requestSha256 : String) (event : EditEvent Value)
    (call : EditCall Value) (more : List (EditCall Value)), (operationId, event) ∈ call.log json
      (runEdits json rows calls) →
    event.request ≠ requestSha256 →
    ∃ task, task = runEdits json rows (calls ++ call :: more) ∧ ∀ projectId subjectId now,
      beginConnectorEditOperation json projectId subjectId operationId requestSha256 now task =
        (fun _ ↦ (task, .conflict)) <$> task.requireRunning projectId subjectId
  /-- An operation without a recorded outcome stays pending, and is not started again. -/
  pending : ∀ (operationId requestSha256 : String) (call : EditCall Value)
    (more : List (EditCall Value)),
    (operationId, .started requestSha256) ∈ call.log json (runEdits json rows calls) →
    (∀ event, (operationId, event) ∈ editLog json (runEdits json rows (calls ++ [call])) more →
      event.isStart = true) →
    ∃ task, task = runEdits json rows (calls ++ call :: more) ∧ (∀ projectId subjectId now,
        beginConnectorEditOperation json projectId subjectId operationId requestSha256 now task =
          (fun _ ↦ (task, .pending)) <$> task.requireRunning projectId subjectId) ∧
      ∀ (later : EditCall Value) (hash : String), (operationId, .started hash) ∉ later.log json task
  /-- The calls leave the other rows of the task alone, and with them whether it is running. -/
  unmoved : ∀ call : EditCall Value, (∀ after, call ≠ .other after) →
    (call.next json (runEdits json rows calls)).rows = (runEdits json rows calls).rows

/-- Edit operations are idempotent by id, whatever calls are made and however the task changes: an
operation that was completed is replayed, and one that failed can be begun again. -/
theorem edit_operations_are_idempotent (json : JsonText Value) (rows : TaskRows)
    (calls : List (EditCall Value)) : EditContract json rows calls := by
  have hconsistent := @runEdits_consistent Value json rows calls
  have hafter : ∀ (call : EditCall Value) (more : List (EditCall Value)),
      runEdits json rows (calls ++ call :: more) =
        afterEdits json (call.next json (runEdits json rows calls)) more :=
    fun call more ↦ runEdits_append rows calls (call :: more)
  have hnext : ∀ call : EditCall Value,
      runEdits json rows (calls ++ [call]) = call.next json (runEdits json rows calls) :=
    fun call ↦ runEdits_append rows calls [call]
  have hempty : Consistent json { rows := rows } := runEdits_consistent rows []
  constructor
  case begun =>
    intro operationId requestSha256 projectId subjectId now hrunning hnone
    exact answer_of_free hrunning (quiet_along (· = none) hempty rfl calls hnone) now
  case retried =>
    intro operationId requestSha256 projectId subjectId now call more hfailed hnone hrunning
    rw [hnext] at hnone
    have hkept := quiet_along _ (hconsistent.next call) (isAt_of_log hconsistent hfailed) more hnone
    rw [← hafter] at hkept
    exact answer_of_failed hrunning hkept now
  case held =>
    intro operationId
    exact holders_along hempty operationId calls
  case restarted =>
    intro operationId _ second start restart between hstart hrestart
    by_contra hnone
    push Not at hnone
    rw [hnext] at hnone
    -- Without a failure the row is there and not failed when the second start is made.
    obtain ⟨row, hrow, -, hstate, -⟩ := isAt_of_log hconsistent hstart
    obtain ⟨later, hlater, hunfailed⟩ := unfailed_along (hconsistent.next start)
      ⟨row, hrow, by simp [hstate, EditEvent.state]⟩ between hnone
    rw [← hafter] at hlater
    exact not_started (runEdits_consistent rows _) hlater hunfailed restart second hrestart
  case replayed =>
    intro operationId requestSha256 result call more hcall
    have hkept := completed_along (hconsistent.next call) (isAt_of_log hconsistent hcall) more
    rw [← hafter] at hkept
    refine ⟨_, rfl, fun projectId subjectId now ↦ ?_, fun later hash ↦ ?_⟩
    · exact begin_of_edit? hkept projectId subjectId now (.inr ⟨result, rfl, rfl⟩) rfl
    · obtain ⟨row, hrow, -, hstate, -⟩ := hkept
      exact not_started (runEdits_consistent rows _) hrow
        (by simp [hstate, EditEvent.state]) later hash
  case conflict =>
    intro operationId requestSha256 _ call more hcall hother
    obtain ⟨row, hrow, hsame, -⟩ := isAt_of_log hconsistent hcall
    obtain ⟨later, hlater, hrequest⟩ := request_along (hconsistent.next call)
      ⟨row, hrow, hsame⟩ more
    rw [← hafter] at hlater
    exact ⟨_, rfl, begin_of_conflict hlater (hrequest.trans_ne hother)⟩
  case pending =>
    intro operationId requestSha256 call more hcall hopen
    rw [hnext] at hopen
    have hkept := pending_along (hconsistent.next call) (isAt_of_log hconsistent hcall) more hopen
    rw [← hafter] at hkept
    refine ⟨_, rfl, fun projectId subjectId now ↦ ?_, fun later hash ↦ ?_⟩
    · exact begin_of_edit? hkept projectId subjectId now (.inl ⟨rfl, rfl⟩) rfl
    · obtain ⟨row, hrow, -, hstate, -⟩ := hkept
      exact not_started (runEdits_consistent rows _) hrow
        (by simp [hstate, EditEvent.state]) later hash
  case unmoved => exact fun call hcall ↦ rows_next hcall

/-! ### An edit that fails once -/

/-- The three literals of JSON, written and read. -/
def literalText : JsonText (Option Bool) where
  toString
    | none => "null"
    | some true => "true"
    | some false => "false"
  fromStr text :=
    if text = "null" then some none
    else if text = "true" then some (some true)
    else if text = "false" then some (some false)
    else none
  fromStr_toString
    | none => rfl
    | some true => rfl
    | some false => rfl

def editedTask : TaskRows where
  taskId := "survey"
  projectId := "atlas"
  ownerSubjectId := "client"
  goal := "survey"
  mode := .normal
  lifecycle := .active
  createdAt := 1
  updatedAt := 1
  run :=
    { runId := "survey-run"
      workspaceId := "atlas-main"
      status := .running
      startedAt := 1
      finishedAt := none
      targetExecutorRef := "local"
      executionExecutorRef := "local"
      targetRoot := "/atlas"
      executionRoot := "/atlas-survey"
      baselineCommit := some "commit"
      baselineTree := some "tree"
      isolated := true }

def beginEdit (now : ℤ) : EditCall (Option Bool) := .begin "atlas" "client" "edit" "sha" now

def failEdit : EditCall (Option Bool) := .fail "edit" "sha" 3

def completeEdit : EditCall (Option Bool) := .complete "atlas" "client" "edit" "sha" (some true) 5

/-- An edit is started, fails, is started again and is completed; from then on it is replayed, also
after an edit under another id. -/
theorem failed_edit_is_completed_and_replayed :
    (beginEdit 2).answer literalText (runEdits literalText editedTask []) = .ok (.gate .started) ∧
    (beginEdit 4).answer literalText (runEdits literalText editedTask [beginEdit 2, failEdit]) =
      .ok (.gate .started) ∧
    starts "edit"
      (editLog literalText { rows := editedTask } [beginEdit 2, failEdit, beginEdit 4]) =
      outcomes "edit" (editLog literalText { rows := editedTask }
        [beginEdit 2, failEdit, beginEdit 4]) + 1 ∧
    ∃ task, task = runEdits literalText editedTask ([beginEdit 2, failEdit, beginEdit 4] ++
        completeEdit :: [.begin "atlas" "client" "other" "sha" 6]) ∧
      beginConnectorEditOperation literalText "atlas" "client" "edit" "sha" 7 task =
        .ok (task, .replay (some true)) := by
  refine ⟨?_, ?_, ?_, ?_⟩
  · exact (edit_operations_are_idempotent literalText editedTask []).begun "edit" "sha" "atlas"
      "client" 2 rfl fun _ ↦ List.not_mem_nil
  · exact (edit_operations_are_idempotent literalText editedTask [beginEdit 2]).retried "edit" "sha"
      "atlas" "client" 4 failEdit [] (by decide) (fun _ ↦ List.not_mem_nil) rfl
  · exact (edit_operations_are_idempotent literalText editedTask
      [beginEdit 2, failEdit, beginEdit 4]).held "edit"
  · obtain ⟨task, htask, hreplay, -⟩ := (edit_operations_are_idempotent literalText editedTask
      [beginEdit 2, failEdit, beginEdit 4]).replayed "edit" "sha" (some true) completeEdit
      [.begin "atlas" "client" "other" "sha" 6] (by decide)
    refine ⟨task, htask, (hreplay "atlas" "client" 7).trans ?_⟩
    rw [htask]
    rfl

end WebCodex.TaskStore
