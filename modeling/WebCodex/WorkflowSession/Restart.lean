import WebCodex.WorkflowSession.BoardRuns

/-!
A board in use is written to the ledger and read back as it was, but for the time of its last
update, which is not before that of its creation (`intoRecord_fromRecord`).
-/

namespace WebCodex.WorkflowSession

open Foundation Foundation.Text

variable {fences : Fences} {board : MessageBoard}

def MessageBoard.restarted (board : MessageBoard) : MessageBoard :=
  board.setUpdatedAt (max board.updatedAt board.createdAt)

theorem foldl_max_le {values : List ℕ} {start bound : ℕ} (hstart : start ≤ bound)
    (h : ∀ value ∈ values, value ≤ bound) : values.foldl max start ≤ bound := by
  induction values generalizing start with
  | nil => exact hstart
  | cons value _ ih =>
    refine ih (max_le hstart (h value (by simp))) fun other hother ↦ ?_
    exact h other (by simp [hother])

theorem le_foldl_max {values : List ℕ} {start : ℕ} :
    start ≤ values.foldl max start ∧ ∀ value ∈ values, value ≤ values.foldl max start := by
  induction values generalizing start with
  | nil => exact ⟨le_rfl, by simp⟩
  | cons value _ ih =>
    obtain ⟨hfirst, hrest⟩ := @ih (max start value)
    refine ⟨le_trans (le_max_left _ _) hfirst, fun other hother ↦ ?_⟩
    rcases List.mem_cons.mp hother with rfl | hother
    · exact le_trans (le_max_right _ _) hfirst
    · exact hrest other hother

/-- The revisions of a board in use are read back as they are. -/
theorem ObservationInvariant.restoreObservation (h : ObservationInvariant board)
    {persisted : PersistedBoard}
    (hrevision : persisted.messageObservationRevision = board.messageObservationRevision)
    (hfloor : persisted.messageObservationFloor = board.messageObservationFloor)
    (hrevisions : persisted.messageObservationRevisions = board.messageObservationRevisions) :
    restoreObservation persisted (board.messages.map SessionMessage.messageId) false =
      ⟨board.messageObservationFloor, board.messageObservationRevisions, true⟩ := by
  have hids : ∀ id revision, board.messageObservationRevisions.lookup id = some revision →
      revision ≤ board.messageObservationRevision ∧
        (board.messages.map SessionMessage.messageId).contains id = true := by
    intro id revision hlookup
    obtain ⟨⟨message, hmem, rfl⟩, -, hle⟩ := h.retained id revision hlookup
    refine ⟨hle, ?_⟩
    rw [List.contains_iff_mem]
    exact List.mem_map.mpr ⟨message, hmem, rfl⟩
  have hkept : board.messageObservationRevisions.keep (fun id revision ↦
      decide (revision ≤ board.messageObservationRevision) &&
        (board.messages.map SessionMessage.messageId).contains id) =
          board.messageObservationRevisions := by
    refine Table.keep_eq_self fun id revision hlookup ↦ ?_
    obtain ⟨hle, hmem⟩ := hids id revision hlookup
    rw [hmem, decide_eq_true hle]
    rfl
  have hlost : board.messageObservationRevisions.keep (fun id revision ↦
      decide (revision ≤ board.messageObservationRevision) &&
        !(board.messages.map SessionMessage.messageId).contains id) = ∅ := by
    refine Table.keep_eq_empty fun id revision hlookup ↦ ?_
    rw [(hids id revision hlookup).2]
    simp
  have hmissing : ((board.messages.map SessionMessage.messageId).filter fun id ↦
      !board.messageObservationRevisions.has id) = [] := by
    refine List.filter_eq_nil_iff.mpr fun id hid ↦ ?_
    obtain ⟨message, hmem, rfl⟩ := List.mem_map.mp hid
    obtain ⟨revision, hlookup⟩ := h.known message hmem
    simp [Table.has, hlookup]
  have hfloorMin : min board.messageObservationFloor board.messageObservationRevision =
      board.messageObservationFloor := min_eq_left h.floor
  have hbounded : (Table.values board.messageObservationRevisions).all (fun revision ↦
      decide (revision ≤ board.messageObservationRevision)) = true := by
    refine List.all_eq_true.mpr fun revision hvalue ↦ decide_eq_true ?_
    obtain ⟨id, hlookup⟩ := Table.mem_values.mp hvalue
    exact (hids id revision hlookup).1
  have hhighest : (Table.values board.messageObservationRevisions).foldl max
      board.messageObservationFloor = board.messageObservationRevision := by
    refine le_antisymm (foldl_max_le h.floor ?_) ?_
    · intro revision hvalue
      obtain ⟨id, hlookup⟩ := Table.mem_values.mp hvalue
      exact (hids id revision hlookup).1
    · rcases h.represented with heq | ⟨id, hlookup⟩
      · rw [heq]
        exact le_foldl_max.1
      · exact le_foldl_max.2 _ (Table.mem_values.mpr ⟨id, hlookup⟩)
  have hdistinct : ((Table.values board.messageObservationRevisions).filter (0 < ·)).Nodup := by
    refine List.Nodup.filter _ ?_
    refine List.Nodup.map_on ?_ board.messageObservationRevisions.nodupKeys.nodup
    intro _ hfirst _ hsecond hsame
    have hone := Table.mem_entries.mp hfirst
    have htwo := Table.mem_entries.mp hsecond
    rw [← hsame] at htwo
    exact Sigma.ext (h.distinct _ _ _ hone htwo) (heq_of_eq hsame)
  have hnone : Table.values (∅ : Table Str ℕ) = [] := rfl
  unfold WorkflowSession.restoreObservation
  rw [hrevision, hfloor, hrevisions]
  simp only [hkept, hlost, hmissing, hfloorMin, hnone, List.foldl_nil, zeroRevisions]
  rw [hhighest, hbounded, decide_eq_true hdistinct]
  simp

/-- The revisions of a board on which nothing has happened yet. -/
theorem ObservationInvariant.eq_empty (h : ObservationInvariant board)
    (hzero : board.messageObservationRevision = 0) :
    board.messageObservationRevisions = ∅ ∧ board.messages = [] ∧
      board.messageObservationFloor = 0 := by
  have hnone : ∀ id revision, board.messageObservationRevisions.lookup id ≠ some revision := by
    intro id revision hlookup
    obtain ⟨-, _, _⟩ := h.retained id revision hlookup
    omega
  refine ⟨Table.eq_empty_of_lookup hnone, ?_, by have := h.floor; omega⟩
  refine List.eq_nil_iff_forall_not_mem.mpr fun message hmem ↦ ?_
  obtain ⟨revision, hlookup⟩ := h.known message hmem
  exact hnone _ _ hlookup

/-- The ids of the todos of a board, as reading back collects them. -/
def MessageBoard.todoIds (board : MessageBoard) : List Str :=
  (board.messages.filter fun message ↦ decide (message.kind = .todo)).map SessionMessage.messageId

/-- The ids of the completed todos of a board. -/
def MessageBoard.completedIds (board : MessageBoard) : List Str :=
  (board.messages.filter fun message ↦ decide (message.kind = .todo) &&
    decide (message.status = .resolved) && message.completionId.isSome &&
    message.resolvedByMessageId.isSome).map SessionMessage.messageId

theorem mem_todoIds {todoId : Str} :
    todoId ∈ board.todoIds ↔ ∃ todo ∈ board.messages, todo.messageId = todoId ∧
      todo.kind = .todo := by
  simp only [MessageBoard.todoIds, List.mem_map, List.mem_filter, decide_eq_true_eq]
  constructor
  · rintro ⟨todo, ⟨hmem, hkind⟩, hid⟩
    exact ⟨todo, hmem, hid, hkind⟩
  · rintro ⟨todo, hmem, hid, hkind⟩
    exact ⟨todo, ⟨hmem, hkind⟩, hid⟩

theorem mem_completedIds {todoId : Str} : todoId ∈ board.completedIds ↔
      ∃ todo ∈ board.messages, todo.messageId = todoId ∧ todo.IsCompleted := by
  simp only [MessageBoard.completedIds, List.mem_map, List.mem_filter, Bool.and_eq_true,
    decide_eq_true_eq]
  constructor
  · rintro ⟨todo, ⟨hmem, ⟨⟨hkind, hstatus⟩, hid⟩, hanswer⟩, rfl⟩
    exact ⟨todo, hmem, rfl, hkind, hstatus, hid, hanswer⟩
  · rintro ⟨todo, hmem, rfl, hkind, hstatus, hid, hanswer⟩
    exact ⟨todo, ⟨hmem, ⟨⟨hkind, hstatus⟩, hid⟩, hanswer⟩, rfl⟩

/-- Every floor of a board in use is one that reading back keeps. -/
theorem AssignmentInvariant.isKnownFloor (h : AssignmentInvariant fences board) {todoId : Str}
    {revision : ℕ} (hfloor : board.assignmentHistoryFloors.lookup todoId = some revision) :
    (decide (0 < revision) && decide (revision ≤ board.messageObservationRevision) &&
      board.todoIds.contains todoId) = true := by
  obtain ⟨hpositive, hle, htodo⟩ := h.floors todoId revision hfloor
  simp only [Bool.and_eq_true, decide_eq_true_eq, List.contains_iff_mem]
  exact ⟨⟨hpositive, hle⟩, mem_todoIds.mpr htodo⟩

theorem AssignmentInvariant.isKnownFence (h : AssignmentInvariant fences board) {todoId : Str}
    {stored : Option Str}
    (hstored : board.completionAssignmentFenceFingerprints.lookup todoId = some stored) :
    (board.completedIds.contains todoId && stored.any fences.isValidFingerprint) = true := by
  obtain ⟨⟨_, rfl, hvalid⟩, hdone⟩ := h.fences todoId stored hstored
  simp only [Bool.and_eq_true, List.contains_iff_mem, Option.any_some]
  exact ⟨mem_completedIds.mpr hdone, hvalid⟩

/-- Every completed todo of a board in use has its fence. -/
theorem AssignmentInvariant.completedIds_fenced (h : AssignmentInvariant fences board) :
    (board.completedIds.any fun todoId ↦
      !board.completionAssignmentFenceFingerprints.has todoId) = false := by
  refine List.any_eq_false.mpr fun todoId hid ↦ ?_
  obtain ⟨todo, hmem, rfl, hdone⟩ := mem_completedIds.mp hid
  obtain ⟨_, hstored⟩ := h.fenced todo hmem hdone
  simp [Table.has, hstored]

/-- Reading a board back from what was written gives the board. -/
theorem intoRecord_fromRecord (h : BoardInvariant fences board) :
    (PersistedBoard.fromRecord board).intoRecord fences = some board.restarted := by
  have hdrop : board.messages.drop (board.messages.length - defaultMaxMessagesPerSession) =
      board.messages := by
    rw [Nat.sub_eq_zero_of_le h.bounded, List.drop_zero]
  have hsanitized : board.messages.filterMap (sanitizePersistedMessage board.sessionId) =
      board.messages := by
    rw [List.filterMap_congr fun message hmem ↦ sanitizePersistedMessage_eq_self
      (h.valid message hmem)]
    exact List.filterMap_some
  have hunique : board.messages.filter (fun message ↦ decide
      ((board.messages.map SessionMessage.messageId).count message.messageId = 1)) =
          board.messages := by
    refine List.filter_eq_self.mpr fun message hmem ↦ decide_eq_true ?_
    exact List.count_eq_one_of_mem h.observation.ids (List.mem_map.mpr ⟨message, hmem, rfl⟩)
  have hnodup : decide (board.messages.map SessionMessage.messageId).Nodup = true :=
    decide_eq_true h.observation.ids
  have hwritten : board.completionAssignmentFenceFingerprints.keep
      (fun _ fingerprint ↦ fingerprint.isSome) = board.completionAssignmentFenceFingerprints := by
    refine Table.keep_eq_self fun todoId stored hstored ↦ ?_
    obtain ⟨⟨fingerprint, rfl, -⟩, -⟩ := h.assignment.fences todoId stored hstored
    rfl
  -- what is read back of revisions and floors, whether anything has happened yet or not
  have hobservation : (if 0 < board.messageObservationRevision then
      restoreObservation (PersistedBoard.fromRecord board)
        (board.messages.map SessionMessage.messageId) false
      else ⟨0, zeroRevisions (board.messages.map SessionMessage.messageId) ∅, true⟩) =
        ⟨board.messageObservationFloor, board.messageObservationRevisions, true⟩ := by
    by_cases hpositive : 0 < board.messageObservationRevision
    · rw [if_pos hpositive]
      exact h.observation.restoreObservation rfl rfl rfl
    · obtain ⟨hrevisions, hmessages, hfloor⟩ := h.observation.eq_empty (by omega)
      rw [if_neg hpositive, hrevisions, hmessages, hfloor]
      rfl
  have hfloors : (if 0 < board.messageObservationRevision then
      board.assignmentHistoryFloors.keep (fun todoId revision ↦ decide (0 < revision) &&
        decide (revision ≤ board.messageObservationRevision) && board.todoIds.contains todoId)
      else ∅) = board.assignmentHistoryFloors := by
    by_cases hpositive : 0 < board.messageObservationRevision
    · rw [if_pos hpositive]
      exact Table.keep_eq_self fun todoId revision hfloor ↦ h.assignment.isKnownFloor hfloor
    · rw [if_neg hpositive]
      refine (Table.eq_empty_of_lookup fun todoId revision hfloor ↦ ?_).symm
      obtain ⟨_, _, -⟩ := h.assignment.floors todoId revision hfloor
      omega
  have hfloorsComplete : (board.assignmentHistoryFloors.entries.all fun entry ↦
      decide (0 < entry.2) && decide (entry.2 ≤ board.messageObservationRevision) &&
        board.todoIds.contains entry.1) = true :=
    List.all_eq_true.mpr fun entry hentry ↦ h.assignment.isKnownFloor (Table.mem_entries.mp hentry)
  have hfences : board.completionAssignmentFenceFingerprints.keep (fun todoId stored ↦
      board.completedIds.contains todoId && stored.any fences.isValidFingerprint) =
        board.completionAssignmentFenceFingerprints :=
    Table.keep_eq_self fun todoId stored hstored ↦ h.assignment.isKnownFence hstored
  have hfencesAll : (board.completionAssignmentFenceFingerprints.entries.all fun entry ↦
      board.completedIds.contains entry.1 && entry.2.any fences.isValidFingerprint) = true :=
    List.all_eq_true.mpr fun entry hentry ↦ h.assignment.isKnownFence (Table.mem_entries.mp hentry)
  unfold MessageBoard.todoIds at hfloors hfloorsComplete
  have hfenced := h.assignment.completedIds_fenced
  unfold MessageBoard.completedIds at hfences hfencesAll hfenced
  unfold PersistedBoard.fromRecord at hobservation ⊢
  rw [hdrop, hwritten] at hobservation ⊢
  unfold PersistedBoard.intoRecord
  simp only [trim_of_isValidSessionId h.session, h.session, hsanitized, hdrop, hunique, hnodup,
    Bool.not_true, hobservation, hfloors, hfloorsComplete, hfences, hfencesAll, hfenced]
  simp [MessageBoard.restarted, MessageBoard.setUpdatedAt, h.assignment.tracked,
    h.assignment.fencesTracked]

end WebCodex.WorkflowSession
