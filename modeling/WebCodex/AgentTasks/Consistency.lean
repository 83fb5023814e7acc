import WebCodex.AgentTasks.SingleDispatch

/-!
The row of a task, its attempts and their backends are written by different statements, and they
agree in every state (`Consistent`): attempts are numbered without gap, only the latest can be
active, an attempt has at most one backend, and a task that has ended was ended by its latest
attempt. Then its outcome stays (`outcome_run`).
-/

namespace WebCodex.AgentTasks

open Foundation

def countUp (n : ℕ) : List ℤ := (List.range n).map fun i : ℕ ↦ (i : ℤ) + 1

theorem countUp_succ (n : ℕ) : countUp (n + 1) = countUp n ++ [(n : ℤ) + 1] := by
  simp [countUp, List.range_succ]

theorem mem_countUp {n : ℕ} {number : ℤ} : number ∈ countUp n ↔ 1 ≤ number ∧ number ≤ n := by
  simp only [countUp, List.mem_map, List.mem_range]
  constructor
  · rintro ⟨_, _, rfl⟩
    omega
  · intro _
    exact ⟨(number - 1).toNat, by omega, by omega⟩

/-- The rows of a task agree with each other. -/
structure Consistent (rows : AgentTaskRows) : Prop where
  ids : (rows.attempts.map StoredAttempt.attemptId).Nodup
  valid : ∀ attempt ∈ rows.attempts, validateAttemptId attempt.attemptId = .ok ()
  numbers : rows.attempts.map StoredAttempt.attemptNumber = countUp rows.attempts.length
  latest : rows.latestAttemptId = rows.attempts.getLast?.map StoredAttempt.attemptId
  active : ∀ attempt ∈ rows.attempts, attempt.storedState = .active →
    rows.latestAttemptId = some attempt.attemptId
  backends : (rows.codingRuns.map CodingRunBinding.attemptId ++
    rows.endpointExecutions.map EndpointExecution.attemptId).Nodup
  ended : rows.storedState.terminal = true → ∃ attempt ∈ rows.attempts,
    rows.terminalAttemptId = some attempt.attemptId ∧ rows.latestAttemptId =
      some attempt.attemptId ∧
      attempt.storedState = rows.storedState.attemptState

/-- An update that keeps what identifies an attempt, and at most lets an active one expire. -/
structure Ages (f : StoredAttempt → StoredAttempt) : Prop where
  attemptId : ∀ attempt, (f attempt).attemptId = attempt.attemptId
  attemptNumber : ∀ attempt, (f attempt).attemptNumber = attempt.attemptNumber
  storedState : ∀ attempt, (f attempt).storedState = attempt.storedState ∨
    (attempt.storedState = .active ∧ (f attempt).storedState = .expired)

theorem ages_id : Ages id := ⟨fun _ ↦ rfl, fun _ ↦ rfl, fun _ ↦ Or.inl rfl⟩

theorem KeepsAttempt.ages {f : StoredAttempt → StoredAttempt} (h : KeepsAttempt f) : Ages f :=
  ⟨h.attemptId, h.attemptNumber, fun attempt ↦ Or.inl (h.storedState attempt)⟩

theorem Ages.updateRow {f : StoredAttempt → StoredAttempt} (h : Ages f) (attemptId : String) :
    Ages (updateRow StoredAttempt.attemptId attemptId f) where
  attemptId := view_updateRow h.attemptId
  attemptNumber := view_updateRow h.attemptNumber
  storedState := by
    intro attempt
    by_cases hsame : attempt.attemptId = attemptId
    · rw [← hsame, updateRow_self]
      exact h.storedState attempt
    · rw [updateRow_ne hsame]
      exact Or.inl rfl

/-- Rows whose attempts have aged. What else may differ does not matter to their agreement, as long
as the task has ended with the same outcome or goes on in both. -/
structure Aged (rows after : AgentTaskRows) : Prop where
  attempts : ∃ f, Ages f ∧ after.attempts = rows.attempts.map f
  latest : after.latestAttemptId = rows.latestAttemptId
  outcome : (after.storedState = rows.storedState ∧ after.terminalAttemptId =
    rows.terminalAttemptId) ∨
    (rows.storedState.terminal = false ∧ after.storedState.terminal = false)
  codingRuns : after.codingRuns.map CodingRunBinding.attemptId =
    rows.codingRuns.map CodingRunBinding.attemptId
  endpointExecutions : after.endpointExecutions = rows.endpointExecutions

theorem Aged.refl (rows : AgentTaskRows) : Aged rows rows :=
  ⟨⟨id, ages_id, (List.map_id _).symm⟩, rfl, Or.inl ⟨rfl, rfl⟩, rfl, rfl⟩

variable {rows : AgentTaskRows} {attemptId : String}

/-- An update of a coding run. -/
theorem aged_setCodingRun {f : CodingRunBinding → CodingRunBinding}
    (hf : ∀ binding, (f binding).attemptId = binding.attemptId) :
    Aged rows (rows.setCodingRun attemptId f) :=
  ⟨⟨id, ages_id, (List.map_id _).symm⟩, rfl, Or.inl ⟨rfl, rfl⟩,
    map_view_updateRow hf rows.codingRuns, rfl⟩

theorem aged_materialize (rows : AgentTaskRows) (now : ℤ) :
    Aged rows (rows.materializeExpiredLatestAttempt now) := by
  unfold AgentTaskRows.materializeExpiredLatestAttempt
  split
  · exact Aged.refl rows
  · rename_i attempt hlatest
    have hages : Ages fun attempt : StoredAttempt ↦
        if attempt.storedState = .active then
          { attempt with storedState := .expired, terminalAt := some now }
        else attempt := by
      constructor
      · intro attempt
        split_ifs <;> rfl
      · intro attempt
        split_ifs <;> rfl
      · intro attempt
        split_ifs with hactive
        · exact Or.inr ⟨hactive, rfl⟩
        · exact Or.inl rfl
    split_ifs with hexpired hready
    · refine ⟨⟨_, hages.updateRow attempt.attemptId, rfl⟩, rfl, Or.inr ⟨?_, rfl⟩, rfl, rfl⟩
      rw [hready.2]
      rfl
    · exact ⟨⟨_, hages.updateRow attempt.attemptId, rfl⟩, rfl, Or.inl ⟨rfl, rfl⟩, rfl, rfl⟩
    · exact Aged.refl rows

theorem aged_wakeExpiry (rows : AgentTaskRows) (attemptId : String) (now : ℤ) :
    Aged rows (rows.materializeAgentTaskWakeExpiry attemptId now) := by
  unfold AgentTaskRows.materializeAgentTaskWakeExpiry
  have hages : Ages fun attempt : StoredAttempt ↦
      if attempt.storedState = .active ∧ attempt.leaseExpiresAt ≤ now then
        { attempt with storedState := .expired, terminalAt := some (attempt.terminalAt.getD now) }
      else attempt := by
    constructor
    · intro attempt
      split_ifs <;> rfl
    · intro attempt
      split_ifs <;> rfl
    · intro attempt
      split_ifs with hactive
      · exact Or.inr ⟨hactive.1, rfl⟩
      · exact Or.inl rfl
  dsimp only
  split_ifs with hready
  · refine ⟨⟨_, hages.updateRow attemptId, rfl⟩, rfl, Or.inr ⟨?_, rfl⟩, rfl, rfl⟩
    rw [hready.1]
    rfl
  · exact ⟨⟨_, hages.updateRow attemptId, rfl⟩, rfl, Or.inl ⟨rfl, rfl⟩, rfl, rfl⟩

theorem attemptState_ne_active (outcome : AgentTaskState) : outcome.attemptState ≠ .active := by
  cases outcome <;> simp [AgentTaskState.attemptState]

variable {attempt : StoredAttempt} {keys : Keys} {now : ℤ}

namespace Consistent

variable {rows after : AgentTaskRows}

/-- A new task. -/
theorem created (owner : CommunicationPrincipal) (now : ℤ) (task : NewAgentTask) :
    Consistent (task.rows owner now) where
  ids := List.nodup_nil
  valid := by simp [NewAgentTask.rows]
  numbers := rfl
  latest := rfl
  active := by simp [NewAgentTask.rows]
  backends := List.nodup_nil
  ended h := by cases h

theorem aged (h : Consistent rows) (haged : Aged rows after) : Consistent after := by
  obtain ⟨f, hf, hattempts⟩ := haged.attempts
  have hmem : ∀ attempt ∈ after.attempts, ∃ old ∈ rows.attempts, f old = attempt := by
    intro attempt hattempt
    rw [hattempts] at hattempt
    exact List.mem_map.mp hattempt
  constructor
  · rw [hattempts, List.map_map, show StoredAttempt.attemptId ∘ f = StoredAttempt.attemptId from
      funext hf.attemptId]
    exact h.ids
  · intro attempt hattempt
    obtain ⟨old, hold, rfl⟩ := hmem attempt hattempt
    rw [hf.attemptId]
    exact h.valid old hold
  · rw [hattempts, List.map_map, show StoredAttempt.attemptNumber ∘ f = StoredAttempt.attemptNumber
      from funext hf.attemptNumber, List.length_map]
    exact h.numbers
  · rw [haged.latest, h.latest, hattempts, List.getLast?_map, Option.map_map]
    congr 1
    funext attempt
    exact (hf.attemptId attempt).symm
  · intro attempt hattempt hactive
    obtain ⟨old, hold, rfl⟩ := hmem attempt hattempt
    rw [haged.latest, hf.attemptId]
    rcases hf.storedState old with hsame | ⟨_, hexpired⟩
    · exact h.active old hold (hsame.symm.trans hactive)
    · rw [hactive] at hexpired
      cases hexpired
  · rw [haged.codingRuns, haged.endpointExecutions]
    exact h.backends
  · intro hterminal
    rcases haged.outcome with ⟨hstate, hid⟩ | ⟨_, hopen⟩
    · rw [hstate] at hterminal
      obtain ⟨attempt, hattempt, hended, hlatest, hmatch⟩ := h.ended hterminal
      refine ⟨f attempt, ?_, ?_, ?_, ?_⟩
      · rw [hattempts]
        exact List.mem_map_of_mem hattempt
      · rw [hid, hf.attemptId]
        exact hended
      · rw [haged.latest, hf.attemptId]
        exact hlatest
      · rw [hstate]
        rcases hf.storedState attempt with hsame | ⟨hactive, _⟩
        · exact hsame.trans hmatch
        · exact absurd (hmatch.symm.trans hactive) (attemptState_ne_active _)
    · rw [hopen] at hterminal
      cases hterminal

/-- The attempt that an id finds. -/
theorem findAttempt_of_mem (h : Consistent rows) (hmem : attempt ∈ rows.attempts) :
    rows.findAttempt attempt.attemptId = some attempt := by
  unfold AgentTaskRows.findAttempt
  rw [List.find?_eq_some_iff_append]
  obtain ⟨before, rest, hsplit⟩ := List.append_of_mem hmem
  refine ⟨by simp, before, rest, hsplit, fun _ hother ↦ ?_⟩
  have hids := h.ids
  rw [hsplit, List.map_append, List.nodup_append] at hids
  have hne := hids.2.2 _ (List.mem_map_of_mem hother) attempt.attemptId (by simp)
  simpa using hne

/-- The number of the next attempt is one more than there are, unless the numbers have run out. -/
theorem nextAttemptNumber_eq (h : Consistent rows) :
    rows.nextAttemptNumber = saturatingAdd rows.attempts.length 1 := by
  unfold AgentTaskRows.nextAttemptNumber AgentTaskRows.latestAttempt
  rw [h.latest]
  cases hattempts : rows.attempts using List.reverseRecOn with
  | nil =>
    simp [saturatingAdd]
  | append_singleton _ last =>
    have hmem : last ∈ rows.attempts := by simp [hattempts]
    have hnumbers := h.numbers
    rw [hattempts, List.length_append, List.length_singleton, countUp_succ, List.map_append,
      List.map_singleton] at hnumbers
    have hlast := (List.append_inj' hnumbers rfl).2
    rw [List.cons.injEq] at hlast
    simp [h.findAttempt_of_mem hmem, hlast.1]

/-- A number that is in use is refused, so the next number is never one that the counter is stuck
at. -/
theorem nextAttemptNumber_of_admits (h : Consistent rows)
    (hnumber : attempt.attemptNumber = rows.nextAttemptNumber)
    (hadmits : rows.admitsAttempt keys attempt = true) :
    attempt.attemptNumber = (rows.attempts.length : ℤ) + 1 := by
  rw [h.nextAttemptNumber_eq] at hnumber
  by_contra hne
  have hused : attempt.attemptNumber ∈ countUp rows.attempts.length := by
    rw [mem_countUp]
    unfold saturatingAdd at hnumber
    omega
  rw [← h.numbers] at hused
  obtain ⟨other, hother, hsame⟩ := List.mem_map.mp hused
  simp only [AgentTaskRows.admitsAttempt, Bool.and_eq_true, List.all_eq_true, bne_iff_ne] at hadmits
  exact (hadmits.2 other hother).1 hsame

/-- A new attempt. -/
theorem addAttempt (h : Consistent rows)
    (hcovers : ∀ attempt ∈ rows.attempts, attempt.attemptId ∈ keys.attemptIds)
    (hnumber : attempt.attemptNumber = rows.nextAttemptNumber)
    (hadmits : rows.admitsAttempt keys attempt = true)
    (hvalid : validateAttemptId attempt.attemptId = .ok ()) :
    Consistent (rows.addAttempt attempt now) := by
  have hnext := h.nextAttemptNumber_of_admits hnumber hadmits
  simp only [AgentTaskRows.admitsAttempt, Bool.and_eq_true, List.all_eq_true, bne_iff_ne,
    Bool.not_eq_true', List.contains_eq_mem, decide_eq_false_iff_not] at hadmits
  obtain ⟨⟨hfresh, _⟩, hothers⟩ := hadmits
  constructor
  · refine nodup_map_concat h.ids ?_
    rintro hmem
    obtain ⟨other, hother, hsame⟩ := List.mem_map.mp hmem
    exact hfresh (hsame ▸ hcovers other hother)
  · intro other hother
    rcases List.mem_append.mp hother with hold | hnew
    · exact h.valid other hold
    · rw [List.mem_singleton.mp hnew]
      exact hvalid
  · show (rows.attempts ++ [attempt]).map StoredAttempt.attemptNumber =
      countUp (rows.attempts ++ [attempt]).length
    rw [List.length_append, List.length_singleton, countUp_succ, List.map_append, h.numbers,
      List.map_singleton, hnext]
  · simp [AgentTaskRows.addAttempt]
  · intro other hother hactive
    rcases List.mem_append.mp hother with hold | hnew
    · exact absurd hactive (hothers other hold).2
    · rw [List.mem_singleton.mp hnew]
      rfl
  · exact h.backends
  · intro hterminal
    cases hterminal

theorem notMem_of_loadCodingRun (hnone : rows.loadCodingRunBindingForAttempt attemptId = none) :
    attemptId ∉ rows.codingRuns.map CodingRunBinding.attemptId := by
  rintro hmem
  obtain ⟨binding, hbinding, hsame⟩ := List.mem_map.mp hmem
  have hother := List.find?_eq_none.mp hnone binding hbinding
  simp [hsame] at hother

theorem notMem_of_loadEndpointExecution
    (hnone : rows.loadEndpointExecutionForAttempt attemptId = none) :
    attemptId ∉ rows.endpointExecutions.map EndpointExecution.attemptId := by
  rintro hmem
  obtain ⟨execution, hexecution, hsame⟩ := List.mem_map.mp hmem
  have hother := List.find?_eq_none.mp hnone execution hexecution
  simp [hsame] at hother

/-- A backend for an attempt that has none. -/
theorem backend (h : Consistent rows) (hruns : rows.loadCodingRunBindingForAttempt attemptId = none)
    (hends : rows.loadEndpointExecutionForAttempt attemptId = none) :
    (attemptId :: (rows.codingRuns.map CodingRunBinding.attemptId ++
      rows.endpointExecutions.map EndpointExecution.attemptId)).Nodup := by
  refine List.nodup_cons.mpr ⟨?_, h.backends⟩
  rw [List.mem_append, not_or]
  exact ⟨notMem_of_loadCodingRun hruns, notMem_of_loadEndpointExecution hends⟩

theorem addCodingRun (h : Consistent rows) {binding : CodingRunBinding}
    (hruns : rows.loadCodingRunBindingForAttempt binding.attemptId = none)
    (hends : rows.loadEndpointExecutionForAttempt binding.attemptId = none) :
    Consistent { rows with codingRuns := rows.codingRuns ++ [binding] } := by
  refine ⟨h.ids, h.valid, h.numbers, h.latest, h.active, ?_, h.ended⟩
  rw [List.map_append, List.map_singleton, List.append_assoc, List.singleton_append]
  exact (List.perm_middle.nodup_iff).mpr (h.backend hruns hends)

theorem addEndpointExecution (h : Consistent rows) {execution : EndpointExecution}
    (hruns : rows.loadCodingRunBindingForAttempt execution.attemptId = none)
    (hends : rows.loadEndpointExecutionForAttempt execution.attemptId = none) :
    Consistent { rows with endpointExecutions := rows.endpointExecutions ++ [execution] } := by
  refine ⟨h.ids, h.valid, h.numbers, h.latest, h.active, ?_, h.ended⟩
  rw [List.map_append, List.map_singleton, ← List.append_assoc]
  exact ((List.perm_append_singleton _ _).nodup_iff).mpr (h.backend hruns hends)

/-- The end of a task by its latest attempt. -/
theorem terminate (h : Consistent rows) {outcome : AgentTaskState} {result reason : Option String}
    (hlatest : rows.latestAttemptId = some attemptId)
    (hfound : (rows.findAttempt attemptId).isSome = true) :
    Consistent (rows.terminate attemptId outcome outcome.attemptState result reason now) := by
  obtain ⟨attempt, hattempt⟩ := Option.isSome_iff_exists.mp hfound
  have hmem := List.mem_of_find?_eq_some hattempt
  have hid := AgentTaskRows.attemptId_of_findAttempt hattempt
  let f : StoredAttempt → StoredAttempt := fun attempt ↦
    { attempt with storedState := outcome.attemptState, terminalAt := some now,
                   terminalResult := result, terminalReason := reason }
  have hids : ∀ attempt, (updateRow StoredAttempt.attemptId attemptId f attempt).attemptId =
      attempt.attemptId := view_updateRow fun _ ↦ rfl
  constructor
  · show ((rows.attempts.map (updateRow StoredAttempt.attemptId attemptId f)).map _).Nodup
    rw [map_view_updateRow (f := f) fun _ ↦ rfl]
    exact h.ids
  · intro changed hchanged
    obtain ⟨old, hold, rfl⟩ := List.mem_map.mp hchanged
    rw [hids]
    exact h.valid old hold
  · show (rows.attempts.map (updateRow StoredAttempt.attemptId attemptId f)).map _ =
      countUp (rows.attempts.map _).length
    rw [map_view_updateRow (f := f) fun _ ↦ rfl, List.length_map]
    exact h.numbers
  · show rows.latestAttemptId =
      (rows.attempts.map (updateRow StoredAttempt.attemptId attemptId f)).getLast?.map _
    rw [h.latest, List.getLast?_map, Option.map_map]
    congr 1
    funext attempt
    exact (hids attempt).symm
  · intro changed hchanged hactive
    obtain ⟨old, hold, rfl⟩ := List.mem_map.mp hchanged
    rw [hids]
    by_cases hsame : old.attemptId = attemptId
    · rw [hsame]
      exact hlatest
    · rw [updateRow_ne hsame] at hactive
      exact h.active old hold hactive
  · exact h.backends
  · intro _
    refine ⟨f attempt, ?_, ?_, ?_, rfl⟩
    · rw [← hid]
      exact mem_map_updateRow hmem
    · exact congrArg some hid.symm
    · exact hlatest.trans (congrArg some hid.symm)

theorem terminalizeWith (h : Consistent rows) {outcome : AgentTaskState}
    {result reason : Option String} (hlatest : rows.latestAttemptId = some attemptId)
    (hfound : (rows.findAttempt attemptId).isSome = true) :
    Consistent (rows.terminalizeWith attemptId outcome result reason now) :=
  (h.terminate hlatest hfound).aged (aged_setCodingRun fun _ ↦ rfl)

/-- A call keeps the agreement. -/
theorem change {request : TaskRequest} {answer : Answer} (h : Consistent rows)
    (hcovers : ∀ attempt ∈ rows.attempts, attempt.attemptId ∈ keys.attemptIds)
    (hchange : Change keys now rows request after answer) : Consistent after := by
  have hmaterialized := aged_materialize rows now
  cases hchange with
  | kept => exact h
  | expired => exact h.aged hmaterialized
  | assigned hopen =>
    refine (h.aged hmaterialized).aged ⟨⟨id, ages_id, (List.map_id _).symm⟩, rfl,
      Or.inr ⟨?_, rfl⟩, rfl, rfl⟩
    rw [rows.terminal_materialize now]
    exact hopen
  | started _ _ _ hnumber _ hadmits hvalid =>
    refine (h.aged hmaterialized).addAttempt ?_ hnumber hadmits hvalid
    obtain ⟨_, hf, hattempts⟩ := hmaterialized.attempts
    intro attempt hattempt
    rw [hattempts] at hattempt
    obtain ⟨old, hold, rfl⟩ := List.mem_map.mp hattempt
    rw [hf.attemptId]
    exact hcovers old hold
  | renewed _ _ hf =>
    exact h.aged ⟨⟨_, hf.ages.updateRow _, rfl⟩, rfl, Or.inl ⟨rfl, rfl⟩, rfl, rfl⟩
  | continued _ hends hruns => exact h.addEndpointExecution hruns hends
  | completed hcurrent =>
    refine h.terminate hcurrent.latest ?_
    obtain ⟨attempt, hattempt, _⟩ := hcurrent.attempt
    rw [hattempt]
    rfl
  | prepared _ hends hruns => exact h.addCodingRun hruns hends
  | rebound _ hf => exact h.aged (aged_setCodingRun hf.attemptId)
  | dispatched | notStarted | observed | unavailable => exact h.aged (aged_setCodingRun fun _ ↦ rfl)
  | terminalized hlatest _ hmerged hattempt =>
    rcases hmerged with rfl | rfl
    · exact h.terminalizeWith hlatest hattempt
    · apply Consistent.terminalizeWith
      · exact h.aged (aged_setCodingRun fun _ ↦ rfl)
      · exact hlatest
      · exact hattempt

end Consistent

theorem mem_keys {database : Database} {taskId : String}
    (hrows : database.tasks.lookup taskId = some rows) :
    ∀ attempt ∈ rows.attempts, attempt.attemptId ∈ database.keys.attemptIds := by
  intro attempt hattempt
  refine List.mem_flatMap.mpr ⟨rows, ?_, List.mem_map_of_mem hattempt⟩
  exact Table.mem_values.mpr ⟨taskId, hrows⟩

/-- In every state the rows of every task agree. -/
theorem consistent_run (operations : List Operation) :
    ∀ taskId rows, (run {} operations).tasks.lookup taskId = some rows → Consistent rows := by
  apply rows_run
  · exact Consistent.created
  · intro _ _ taskId rows _ hrows hstep h
    cases hstep with
    | same => exact h
    | called _ _ _ hchange => exact h.change (mem_keys hrows) hchange
    | expired => exact h.aged (aged_wakeExpiry _ _ _)
  · intro taskId rows hrows
    cases hrows

/-! ### Outcomes -/

/-- The task has ended, with a state and by an attempt. -/
structure Ended (state : AgentTaskState) (attemptId : Option String) (rows : AgentTaskRows) :
    Prop where
  terminal : state.terminal = true
  storedState : rows.storedState = state
  terminalAttemptId : rows.terminalAttemptId = attemptId

namespace Ended

variable {state : AgentTaskState} {attemptId : Option String} {rows after : AgentTaskRows}

theorem aged (h : Ended state attemptId rows) (haged : Aged rows after) :
    Ended state attemptId after := by
  rcases haged.outcome with ⟨hstate, hid⟩ | ⟨hopen, _⟩
  · exact ⟨h.terminal, hstate.trans h.storedState, hid.trans h.terminalAttemptId⟩
  · rw [h.storedState, h.terminal] at hopen
    cases hopen

theorem not_open (h : Ended state attemptId rows) (hopen : rows.storedState.terminal = false) :
    False := by
  rw [h.storedState, h.terminal] at hopen
  cases hopen

/-- No call changes the outcome of a task that has ended. -/
theorem change {request : TaskRequest} {answer : Answer} (h : Ended state attemptId rows)
    (hchange : Change keys now rows request after answer) :
    Ended state attemptId after := by
  cases hchange with
  | kept => exact h
  | expired hopen => exact (h.not_open hopen).elim
  | assigned hopen => exact (h.not_open hopen).elim
  | started hopen => exact (h.not_open hopen).elim
  | renewed _ hcurrent => exact (h.not_open hcurrent.goes_on).elim
  | continued hcurrent => exact (h.not_open hcurrent.goes_on).elim
  | completed hcurrent => exact (h.not_open hcurrent.goes_on).elim
  | prepared hcurrent => exact (h.not_open hcurrent.goes_on).elim
  | rebound hcurrent => exact (h.not_open hcurrent.goes_on).elim
  | dispatched hcurrent => exact (h.not_open hcurrent.goes_on).elim
  | notStarted | observed | unavailable => exact h.aged (aged_setCodingRun fun _ ↦ rfl)
  | terminalized _ hopen => exact (h.not_open hopen).elim

end Ended

/-- A condition that always holds. -/
theorem along_true (operations : List Operation) (database : Database) :
    Replay.Along next (fun _ _ ↦ True) database operations := by
  induction operations generalizing database with
  | nil => trivial
  | cons _ _ ih => exact ⟨trivial, ih _⟩

/-- The outcome of a task stays, whatever is called after its end. -/
theorem outcome_run {database : Database} {taskId : String}
    (hrows : database.tasks.lookup taskId = some rows)
    (hterminal : rows.storedState.terminal = true)
    (operations : List Operation) :
    ∃ after, (run database operations).tasks.lookup taskId = some after ∧
      after.storedState = rows.storedState ∧ after.terminalAttemptId = rows.terminalAttemptId := by
  obtain ⟨after, hafter, hended⟩ := task_run (P := Ended rows.storedState rows.terminalAttemptId)
    (fun _ _ hstep (_ : True) h ↦ by
      cases hstep with
      | same => exact h
      | called _ _ _ hchange => exact h.change hchange
      | expired => exact h.aged (aged_wakeExpiry _ _ _))
    hrows ⟨hterminal, rfl, rfl⟩ operations (along_true operations database)
  exact ⟨after, hafter, hended.storedState, hended.terminalAttemptId⟩

end WebCodex.AgentTasks
