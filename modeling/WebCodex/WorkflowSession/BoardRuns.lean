import WebCodex.WorkflowSession.BoardChanges

/-!
The changes of a board keep `BoardInvariant`, and so does every operation (`BoardInvariant.run`). A
failed operation leaves the board as it is, because there is always a message to evict. Reading back
what was written gives the board again (`intoRecord_fromRecord`).
-/

namespace WebCodex.WorkflowSession

open Foundation Foundation.Text

variable {fences : Fences} {draw : Draw} {board next : MessageBoard}

/-! ### Messages stay valid -/

theorem BoardInvariant.setUpdatedAt (h : BoardInvariant fences board) (time : ℤ) :
    BoardInvariant fences (board.setUpdatedAt time) where
  session := h.session
  valid := h.valid
  bounded := h.bounded
  observation :=
    { ids := h.observation.ids
      known := h.observation.known
      retained := h.observation.retained
      distinct := h.observation.distinct
      floor := h.observation.floor
      represented := h.observation.represented }
  assignment :=
    { floors := h.assignment.floors
      tracked := h.assignment.tracked
      fences := h.assignment.fences
      fenced := h.assignment.fenced
      fencesTracked := h.assignment.fencesTracked }

variable {message original todo : SessionMessage} {f : SessionMessage → SessionMessage}

/-- What an amendment leaves alone. -/
theorem Amendment.keeps (h : Amendment draw.now message f) (other : SessionMessage) :
    (f other).messageId = other.messageId ∧ (f other).kind = other.kind := by
  cases h with
  | acknowledge | withdraw | resolve => exact ⟨rfl, rfl⟩

theorem isUnclosed_eq_true (h : isUnclosed message = true) :
    message.closureKind = none ∧ message.supersededByMessageId = none ∧
      message.completionId = none ∧ message.resolvedByMessageId = none := by
  simp only [isUnclosed, Bool.and_eq_true, Option.isNone_iff_eq_none] at h
  exact ⟨h.1.1.1, h.1.1.2, h.1.2, h.2⟩

variable {sessionId text : Str}

theorem ValidMessage.amended (hvalid : ValidMessage sessionId message) (hdraw : draw.Valid)
    (h : Amendment draw.now message f) : ValidMessage sessionId (f message) := by
  cases h with
  | acknowledge _ hack =>
    refine { hvalid with firstAck := ?_ }
    intro time htime
    obtain rfl : draw.now = time := by simpa using htime
    exact ⟨hdraw.now, hack⟩
  | withdraw _ hunclosed =>
    obtain ⟨-, hlink, -, -⟩ := isUnclosed_eq_true hunclosed
    refine { hvalid with supersededBy := ?_, opened := ?_ }
    · intro _ hid
      exact absurd (hlink.symm.trans hid) (by simp)
    · intro hstatus
      exact absurd hstatus (by simp [withdrawn])
  | resolve resolution _ hresolution =>
    refine { hvalid with resolution := ?_, opened := ?_ }
    · intro text htext
      cases resolution with
      | none => exact hvalid.resolution text (by simpa [resolvedWith] using htext)
      | some given =>
        obtain rfl : given = text := by simpa [resolvedWith] using htext
        exact hresolution given rfl
    · intro hstatus
      exact absurd hstatus (by simp [resolvedWith])

/-- An amendment does not complete a todo, and keeps a completed one completed. -/
theorem ValidMessage.isCompleted_amended (hvalid : ValidMessage sessionId message)
    (h : Amendment draw.now message f) : (f message).IsCompleted ↔ message.IsCompleted := by
  have hopenNot : message.status = .opened → ¬ message.IsCompleted := by
    intro hopen hdone
    exact absurd (hopen.symm.trans hdone.2.1) (by simp)
  cases h with
  | acknowledge => exact Iff.rfl
  | withdraw hopen hunclosed =>
    have hnone := (isUnclosed_eq_true hunclosed).2.2.1
    refine ⟨fun hdone ↦ ?_, fun hdone ↦ absurd hdone (hopenNot hopen)⟩
    have hsome : message.completionId.isSome = true := hdone.2.2.1
    rw [hnone] at hsome
    exact absurd hsome (by simp)
  | resolve =>
    cases hstatus : message.status with
    | resolved => simp only [SessionMessage.IsCompleted, resolvedWith, hstatus]
    | opened =>
      have hnone := (hvalid.opened hstatus).2.2.2.2
      refine ⟨fun hdone ↦ ?_, fun hdone ↦ absurd hdone (hopenNot hstatus)⟩
      have hsome : message.completionId.isSome = true := hdone.2.2.1
      rw [hnone] at hsome
      exact absurd hsome (by simp)

theorem ValidMessage.superseded (hvalid : ValidMessage sessionId message) (hdraw : draw.Valid) :
    ValidMessage sessionId (superseded draw.now draw.freshId message) := by
  refine { hvalid with supersededBy := ?_, opened := ?_ }
  · intro id hid
    obtain rfl : draw.freshId = id := by simpa [WorkflowSession.superseded] using hid
    exact ⟨hdraw.freshId, rfl⟩
  · intro hstatus
    exact absurd hstatus (by simp [WorkflowSession.superseded])

theorem validMessage_replacementFor (h : ValidMessage board.sessionId original) (hdraw : draw.Valid)
    (htext : trim text = text ∧ text.length ≤ maxMessageChars) :
    ValidMessage board.sessionId
      (replacementFor draw.now draw.freshId original board.sessionId text) := by
  have hnew : ValidMessage board.sessionId (newMessage board.sessionId draw.freshId draw.now
      original.kind original.priority text original.tags original.replyTo original.requiresAck) :=
    validMessage_newMessage hdraw h.ack htext h.tags h.replyTo
  refine { hnew with supersedes := ?_ }
  intro id hid
  obtain rfl : original.messageId = id := by simpa [replacementFor] using hid
  exact h.messageId

variable {input : CompleteSessionMessageInput} {tags : List Str}

theorem Completes.validMessage_todo (h : Completes fences board input text tags todo)
    (hvalid : ValidMessage board.sessionId todo) (hdraw : draw.Valid) :
    ValidMessage board.sessionId (completedBy draw.now draw.freshId input.completionId todo) := by
  refine { hvalid with resolvedBy := ?_, completion := ?_, opened := ?_, completed := ?_,
                       completedTodo := ?_ }
  · intro id hid
    obtain rfl : draw.freshId = id := by simpa [completedBy] using hid
    exact hdraw.freshId
  · intro id hid
    obtain rfl : input.completionId = id := by simpa [completedBy] using hid
    exact h.completionId
  · intro hstatus
    exact absurd hstatus (by simp [completedBy])
  · rfl
  · exact fun _ ↦ h.kind

theorem Completes.validMessage_answer (h : Completes fences board input text tags todo)
    (hvalid : ValidMessage board.sessionId todo) (hdraw : draw.Valid) :
    ValidMessage board.sessionId
      (answerFor draw.now draw.freshId board.sessionId text tags input) := by
  have hreply : ∀ id, some input.messageId = some id → isValidPersistedMessageId id = true := by
    intro id hid
    rw [Option.some.injEq] at hid
    rw [← hid, ← h.id]
    exact hvalid.messageId
  have hnew : ValidMessage board.sessionId (newMessage board.sessionId draw.freshId draw.now .answer
      input.priority text tags (some input.messageId) false) :=
    validMessage_newMessage hdraw (by simp) (validateMessageText_eq_ok h.text)
      (validateMessageTags_eq_ok h.tags) hreply
  exact { hnew with author := h.author }

/-! ### There is always a message to evict -/

variable {isProtected : SessionMessage → Bool}

/-- More messages than are protected leave one that is not. -/
theorem find_unprotected {messages : List SessionMessage}
    (h : messages.countP isProtected < messages.length) :
    ∃ evicted, messages.find? (fun message ↦ !isProtected message) = some evicted := by
  rw [← Option.isSome_iff_exists, List.find?_isSome]
  by_contra hnone
  have hall : ∀ message ∈ messages, isProtected message = true := by
    intro message hmessage
    by_contra hnot
    exact hnone ⟨message, hmessage, by simpa using hnot⟩
  exact absurd (List.countP_eq_length.mpr hall) (Nat.ne_of_lt h)

/-- What is counted by one of two conditions is counted by the first or the second. -/
theorem countP_or_le (p q : SessionMessage → Bool) (messages : List SessionMessage) :
    messages.countP (fun message ↦ p message || q message) ≤ messages.countP p +
      messages.countP q := by
  induction messages with
  | nil => simp
  | cons message =>
    simp only [List.countP_cons]
    cases p message <;> cases q message <;> simp <;> omega

theorem countP_messageId_le (h : ObservationInvariant board) (id : Str) :
    board.messages.countP (fun message ↦ decide (message.messageId = id)) ≤ 1 := by
  have hcount := List.nodup_iff_count_le_one.mp h.ids id
  rw [List.count, List.countP_map] at hcount
  refine le_trans (List.countP_mono_left fun message _ hmatch ↦ ?_) hcount
  simpa using hmatch

/-- A board that has a message too many, or none. -/
structure Overfull (fences : Fences) (board : MessageBoard) : Prop where
  session : isValidSessionId board.sessionId = true
  valid : ∀ message ∈ board.messages, ValidMessage board.sessionId message
  bounded : board.messages.length ≤ defaultMaxMessagesPerSession + 1
  observation : ObservationInvariant board
  assignment : AssignmentInvariant fences board

/-- An eviction does one of two things, when few messages are protected. -/
theorem Overfull.evict_cases (h : Overfull fences board)
    (hfew : board.messages.countP isProtected ≤ defaultMaxMessagesPerSession) :
    (board.messages.length ≤ defaultMaxMessagesPerSession ∧
      board.evict isProtected = (board, true)) ∨
      ∃ evicted, board.messages.find? (fun message ↦ !isProtected message) = some evicted ∧
        board.evict isProtected = (board.remove isProtected evicted, true) := by
  rw [evict_eq h.bounded]
  by_cases hfits : board.messages.length ≤ defaultMaxMessagesPerSession
  · exact Or.inl ⟨hfits, if_pos hfits⟩
  · obtain ⟨evicted, hfind⟩ := find_unprotected (lt_of_le_of_lt hfew (Nat.lt_of_not_le hfits))
    refine Or.inr ⟨evicted, hfind, ?_⟩
    rw [if_neg hfits, hfind]

theorem Overfull.evict (h : Overfull fences board)
    (hfew : board.messages.countP isProtected ≤ defaultMaxMessagesPerSession) :
    (board.evict isProtected).2 = true ∧ BoardInvariant fences (board.evict isProtected).1 := by
  rcases h.evict_cases hfew with ⟨hfits, hevict⟩ | ⟨evicted, hfind, hevict⟩
  · rw [hevict]
    exact ⟨rfl, h.session, h.valid, hfits, h.observation, h.assignment⟩
  · rw [hevict]
    refine ⟨rfl, ?_, ?_, ?_, h.observation.remove hfind, h.assignment.remove h.observation hfind⟩
    · obtain ⟨revision, hrevision⟩ := h.observation.known evicted (List.mem_of_find?_eq_some hfind)
      rw [remove_eq hrevision]
      exact h.session
    · obtain ⟨revision, hrevision⟩ := h.observation.known evicted (List.mem_of_find?_eq_some hfind)
      intro message hmessage
      have hsession : (board.remove isProtected evicted).sessionId = board.sessionId := by
        rw [remove_eq hrevision]
      rw [hsession]
      exact h.valid message ((mem_remove h.observation hfind).mp hmessage).1
    · obtain ⟨revision, hrevision⟩ := h.observation.known evicted (List.mem_of_find?_eq_some hfind)
      rw [remove_eq hrevision]
      simp only
      rw [List.length_eraseP_of_mem (List.mem_of_find?_eq_some hfind)
        (by simpa using List.find?_some hfind)]
      exact Nat.sub_le_of_le_add h.bounded

/-! ### Changes keep the invariant -/

theorem BoardInvariant.revise (h : BoardInvariant fences board) {id : Str}
    (hid : ∃ message ∈ board.messages, message.messageId = id)
    (hf : ∀ message, (f message).messageId = message.messageId ∧ (f message).kind = message.kind)
    (hvalid : ∀ message ∈ board.messages, message.messageId = id →
      ValidMessage board.sessionId (f message))
    (hcompleted : ∀ message ∈ board.messages, message.messageId = id →
      ((f message).IsCompleted ↔ message.IsCompleted)) :
    BoardInvariant fences (board.revise id f) where
  session := h.session
  valid := by
    intro message hmessage
    rcases (mem_revise h.observation.ids).mp hmessage with ⟨hold, -⟩ | ⟨original, horiginal,
      hsame, rfl⟩
    · exact h.valid message hold
    · exact hvalid original horiginal hsame
  bounded := by
    simp only [MessageBoard.revise, length_updateFirst]
    exact h.bounded
  observation := h.observation.revise hid fun message ↦ (hf message).1
  assignment := h.assignment.revise h.observation.ids hf hcompleted

theorem BoardInvariant.amended (h : BoardInvariant fences board) (hdraw : draw.Valid)
    (hmem : message ∈ board.messages) (hf : Amendment draw.now message f) :
    BoardInvariant fences (board.revise message.messageId f) := by
  have hsame : ∀ other ∈ board.messages, other.messageId = message.messageId → other = message :=
    fun other hother hid ↦ List.inj_on_of_nodup_map h.observation.ids hother hmem hid
  refine h.revise ⟨message, hmem, rfl⟩ hf.keeps ?_ ?_
  · intro other hother hid
    rw [hsame other hother hid]
    exact (h.valid message hmem).amended hdraw hf
  · intro other hother hid
    rw [hsame other hother hid]
    exact (h.valid message hmem).isCompleted_amended hf

theorem BoardInvariant.push (h : BoardInvariant fences board)
    (hvalid : ValidMessage board.sessionId message) (hopen : message.status = .opened)
    (hfresh : ∀ other ∈ board.messages, other.messageId ≠ message.messageId) :
    Overfull fences (board.push message) where
  session := h.session
  valid := by
    intro other hother
    rcases List.mem_append.mp hother with hold | hlast
    · exact h.valid other hold
    · obtain rfl : other = message := by simpa using hlast
      exact hvalid
  bounded := by
    simp only [MessageBoard.push, List.length_append, List.length_singleton]
    exact Nat.succ_le_succ h.bounded
  observation := h.observation.push hfresh
  assignment := by
    refine h.assignment.push fun hdone ↦ ?_
    exact absurd (hopen.symm.trans hdone.2.1) (by simp)

/-- A todo that is completed has its fence stored at once. -/
theorem AssignmentInvariant.complete (h : AssignmentInvariant fences board)
    (hids : (board.messages.map SessionMessage.messageId).Nodup) (hmem : todo ∈ board.messages)
    {fingerprint : Str}
    (hf : ∀ message, (f message).messageId = message.messageId ∧ (f message).kind = message.kind)
    (hdone : (f todo).IsCompleted) (hfingerprint : fences.isValidFingerprint fingerprint = true) :
    AssignmentInvariant fences ((board.revise todo.messageId f).storeFence todo.messageId
      fingerprint) := by
  have hsame : ∀ other ∈ board.messages, other.messageId = todo.messageId → other = todo :=
    fun other hother hid ↦ List.inj_on_of_nodup_map hids hother hmem hid
  have hdoneMem : f todo ∈ (board.revise todo.messageId f).messages :=
    (mem_revise hids).mpr (Or.inr ⟨todo, hmem, rfl, rfl⟩)
  constructor
  · intro todoId revision hfloor
    obtain ⟨hpositive, hle, message, hmessage, hid, hkind⟩ := h.floors todoId revision hfloor
    refine ⟨hpositive, Nat.le_succ_of_le hle, ?_⟩
    by_cases heq : message.messageId = todo.messageId
    · refine ⟨f todo, hdoneMem, ?_, ?_⟩
      · rw [(hf todo).1, ← heq]
        exact hid
      · rw [(hf todo).2, ← hsame message hmessage heq]
        exact hkind
    · exact ⟨message, (mem_revise hids).mpr (Or.inl ⟨hmessage, heq⟩), hid, hkind⟩
  · exact h.tracked
  · intro todoId stored hstored
    simp only [MessageBoard.storeFence, Table.lookup_insert_eq] at hstored
    by_cases heq : todoId = todo.messageId
    · rw [if_pos heq, Option.some.injEq] at hstored
      refine ⟨⟨fingerprint, hstored.symm, hfingerprint⟩, f todo, hdoneMem, ?_, hdone⟩
      rw [(hf todo).1, heq]
    · rw [if_neg heq] at hstored
      obtain ⟨hvalid, message, hmessage, hid, hcompleted⟩ := h.fences todoId stored hstored
      refine ⟨hvalid, message, (mem_revise hids).mpr (Or.inl ⟨hmessage, ?_⟩), hid, hcompleted⟩
      rw [hid]
      exact heq
  · intro message hmessage hcompleted
    simp only [MessageBoard.storeFence, Table.lookup_insert_eq]
    rcases (mem_revise hids).mp hmessage with ⟨hold, hne⟩ | ⟨original, _, hid, rfl⟩
    · rw [if_neg hne]
      exact h.fenced message hold hcompleted
    · rw [(hf original).1, if_pos hid]
      exact ⟨_, rfl⟩
  · exact h.fencesTracked

/-- A fresh id stays fresh when a message is revised. -/
theorem Draw.IsFresh.revise (hfresh : draw.IsFresh board)
    (hids : (board.messages.map SessionMessage.messageId).Nodup) {id : Str}
    (hf : ∀ message, (f message).messageId = message.messageId) :
    draw.IsFresh (board.revise id f) := by
  intro message hmessage
  rcases (mem_revise hids).mp hmessage with ⟨hold, -⟩ | ⟨original, horiginal, -, rfl⟩
  · exact hfresh message hold
  · rw [hf original]
    exact hfresh original horiginal

/-- The board after a message was replaced, before anything is evicted. -/
def replacedBoard (draw : Draw) (text : Str) (original : SessionMessage) (board : MessageBoard) :
    MessageBoard :=
  (board.revise original.messageId (superseded draw.now draw.freshId)).push
    (replacementFor draw.now draw.freshId original board.sessionId text)

theorem BoardInvariant.replacedBoard (h : BoardInvariant fences board) (hdraw : draw.Valid)
    (hfresh : draw.IsFresh board) (hmem : original ∈ board.messages)
    (hopen : original.status = .opened)
    (hunclosed : isUnclosed original = true)
    (htext : trim text = text ∧ text.length ≤ maxMessageChars) :
    Overfull fences (replacedBoard draw text original board) := by
  have hsame : ∀ other ∈ board.messages, other.messageId = original.messageId → other = original :=
    fun other hother hid ↦ List.inj_on_of_nodup_map h.observation.ids hother hmem hid
  have hvalid := h.valid original hmem
  have hrevised : BoardInvariant fences
      (board.revise original.messageId (superseded draw.now draw.freshId)) := by
    refine h.revise ⟨original, hmem, rfl⟩ (fun _ ↦ ⟨rfl, rfl⟩) ?_ ?_
    · intro other hother hid
      rw [hsame other hother hid]
      exact hvalid.superseded hdraw
    · intro other hother hid
      rw [hsame other hother hid]
      have hnone := (isUnclosed_eq_true hunclosed).2.2.1
      constructor
      · intro hdone
        have hsome : original.completionId.isSome = true := hdone.2.2.1
        rw [hnone] at hsome
        exact absurd hsome (by simp)
      · intro hdone
        exact absurd (hopen.symm.trans hdone.2.1) (by simp)
  exact hrevised.push (validMessage_replacementFor hvalid hdraw htext) rfl
    (hfresh.revise h.observation.ids fun _ ↦ rfl)

/-- The messages that a replacement protects are two at most. -/
theorem Overfull.countP_replaced (h : Overfull fences board) (first second : Str) :
    board.messages.countP (fun message ↦ decide (message.messageId = first) ||
      decide (message.messageId = second)) ≤ defaultMaxMessagesPerSession := by
  have hone := countP_messageId_le h.observation first
  have htwo := countP_messageId_le h.observation second
  have hboth := countP_or_le (fun message ↦ decide (message.messageId = first))
    (fun message ↦ decide (message.messageId = second)) board.messages
  unfold defaultMaxMessagesPerSession
  omega

/-- The board after a todo was completed, before anything is evicted. -/
def completedBoard (fences : Fences) (draw : Draw) (text : Str) (tags : List Str)
    (input : CompleteSessionMessageInput) (board : MessageBoard) : MessageBoard :=
  ((board.revise input.messageId (completedBy draw.now draw.freshId input.completionId)).push
    (answerFor draw.now draw.freshId board.sessionId text tags input)).storeFence input.messageId
      (fences.fingerprint input.expectedAssignmentFence)

/-- The hash functions give fingerprints of the form that is checked when they are read back. -/
def Fences.FingerprintsValid (fences : Fences) : Prop :=
  ∀ fence, fences.isValidFingerprint (fences.fingerprint fence) = true

theorem BoardInvariant.completedBoard (h : BoardInvariant fences board)
    (hfences : fences.FingerprintsValid) (hdraw : draw.Valid) (hfresh : draw.IsFresh board)
    (hcompletes : Completes fences board input text tags todo) :
    Overfull fences (completedBoard fences draw text tags input board) := by
  have hmem := hcompletes.mem
  have hvalid := h.valid todo hmem
  have hsame : ∀ other ∈ board.messages, other.messageId = input.messageId → other = todo := by
    intro other hother hid
    exact List.inj_on_of_nodup_map h.observation.ids hother hmem (hid.trans hcompletes.id.symm)
  have hobservation : ObservationInvariant
      (board.revise input.messageId (completedBy draw.now draw.freshId input.completionId)) :=
    h.observation.revise ⟨todo, hmem, hcompletes.id⟩ fun _ ↦ rfl
  have hassignment : AssignmentInvariant fences ((board.revise input.messageId
      (completedBy draw.now draw.freshId input.completionId)).storeFence input.messageId
        (fences.fingerprint input.expectedAssignmentFence)) := by
    rw [← hcompletes.id]
    exact h.assignment.complete h.observation.ids hmem (fun _ ↦ ⟨rfl, rfl⟩)
      ⟨hcompletes.kind, rfl, rfl, rfl⟩ (hfences _)
  have hpushed : ObservationInvariant ((board.revise input.messageId
      (completedBy draw.now draw.freshId input.completionId)).push
        (answerFor draw.now draw.freshId board.sessionId text tags input)) :=
    hobservation.push (hfresh.revise h.observation.ids fun _ ↦ rfl)
  constructor
  · exact h.session
  · intro message hmessage
    rcases List.mem_append.mp hmessage with hold | hlast
    · rcases (mem_revise h.observation.ids).mp hold with ⟨hkept, -⟩ | ⟨original, horiginal,
        hid, rfl⟩
      · exact h.valid message hkept
      · rw [hsame original horiginal hid]
        exact hcompletes.validMessage_todo hvalid hdraw
    · obtain rfl := List.mem_singleton.mp hlast
      exact hcompletes.validMessage_answer hvalid hdraw
  · simp only [WorkflowSession.completedBoard, MessageBoard.storeFence, MessageBoard.push,
      MessageBoard.revise, List.length_append, List.length_singleton, length_updateFirst]
    exact Nat.succ_le_succ h.bounded
  · exact
      { ids := hpushed.ids
        known := hpushed.known
        retained := hpushed.retained
        distinct := hpushed.distinct
        floor := hpushed.floor
        represented := hpushed.represented }
  · refine hassignment.push fun hdone ↦ ?_
    exact absurd hdone.2.1 (by simp [answerFor, newMessage])

/-- An assignment that can be completed has few direct replies. -/
theorem openAssignmentState_eq_ok {todoId : Str} {state : AssignmentState}
    (h : openAssignmentState board todoId = .ok state) :
    state.directReplies = board.messages.filter
      (fun message ↦ decide (message.replyTo = some todoId)) ∧
      state.directReplies.length ≤ maxSessionAssignmentDirectReplies ∧
      board.find todoId = some state.todo ∧ state.todo.kind = .todo ∧ state.todo.status = .opened ∧
      board.assignmentHistoryFloors.has todoId = false := by
  simp only [openAssignmentState, retainedAssignmentThread, bind_eq_ok, required_eq_ok,
    ensure_eq_ok, decide_eq_true_eq, pure_eq_ok, Bool.and_eq_true,
    Bool.not_eq_true'] at h
  obtain ⟨_, ⟨todo, hfind, -, hkind, rfl⟩, -, hopen, -, -, -, hfew, -, -, -, hhistory, -, -, rfl⟩ :=
    h
  have htake : (board.messages.filter fun message ↦ decide (message.replyTo = some todoId)).take
      maxSessionAssignmentDirectReplies =
        board.messages.filter fun message ↦ decide (message.replyTo = some todoId) :=
    List.take_of_length_le hfew
  exact ⟨htake, by rw [htake]; exact hfew, hfind, hkind, hopen, hhistory.2⟩

/-- The messages that a completion protects are few. -/
theorem Completes.countP_completed (h : Completes fences board input text tags todo)
    (hover : Overfull fences (completedBoard fences draw text tags input board)) :
    (completedBoard fences draw text tags input board).messages.countP
        (fun message ↦ decide (message.messageId = input.messageId) ||
          decide (message.messageId = draw.freshId) ||
          decide (message.replyTo = some input.messageId)) ≤ defaultMaxMessagesPerSession := by
  obtain ⟨state, hstate, -⟩ := h.fence
  obtain ⟨hreplies, hfew, -⟩ := openAssignmentState_eq_ok hstate
  -- completing a todo changes no reply link, and adds one reply
  have hold : (updateFirst (fun message ↦ decide (message.messageId = input.messageId))
      (completedBy draw.now draw.freshId input.completionId) board.messages).countP
        (fun message ↦ decide (message.replyTo = some input.messageId)) =
            state.directReplies.length := by
    have hview := @map_updateFirst SessionMessage
      (fun message ↦ decide (message.messageId = input.messageId))
      (completedBy draw.now draw.freshId input.completionId) board.messages _
      SessionMessage.replyTo fun _ ↦ rfl
    have hcount := congrArg (List.countP fun link ↦ decide (link = some input.messageId)) hview
    rw [List.countP_map, List.countP_map] at hcount
    rw [hreplies, ← List.countP_eq_length_filter]
    exact hcount
  have hcount : (completedBoard fences draw text tags input board).messages.countP
      (fun message ↦ decide (message.replyTo = some input.messageId)) ≤
        maxSessionAssignmentDirectReplies + 1 := by
    simp only [completedBoard, MessageBoard.storeFence, MessageBoard.push, MessageBoard.revise,
      List.countP_append, hold, List.countP_singleton]
    split
    · exact Nat.succ_le_succ hfew
    · exact Nat.le_succ_of_le hfew
  have hone := countP_messageId_le hover.observation input.messageId
  have htwo := countP_messageId_le hover.observation draw.freshId
  have hfirst := countP_or_le (fun message ↦ decide (message.messageId = input.messageId))
    (fun message ↦ decide (message.messageId = draw.freshId))
    (completedBoard fences draw text tags input board).messages
  have hall := countP_or_le (fun message ↦ decide (message.messageId = input.messageId) ||
    decide (message.messageId = draw.freshId))
    (fun message ↦ decide (message.replyTo = some input.messageId))
    (completedBoard fences draw text tags input board).messages
  unfold defaultMaxMessagesPerSession
  unfold maxSessionAssignmentDirectReplies at hcount
  omega

/-- What a replacement leaves, and that it succeeds. -/
theorem BoardInvariant.commitReplacement (h : BoardInvariant fences board) (hdraw : draw.Valid)
    (hfresh : draw.IsFresh board) (hmem : original ∈ board.messages)
    (hopen : original.status = .opened)
    (hunclosed : isUnclosed original = true)
    (htext : trim text = text ∧ text.length ≤ maxMessageChars) :
    BoardInvariant fences (commitReplacement draw.now draw.freshId text original board).1 ∧
      ∃ outcome, (commitReplacement draw.now draw.freshId text original board).2 = .ok outcome := by
  have hover := h.replacedBoard hdraw hfresh hmem hopen hunclosed htext
  obtain ⟨hfound, hinvariant⟩ := hover.evict (hover.countP_replaced original.messageId draw.freshId)
  unfold WorkflowSession.replacedBoard at hfound hinvariant
  unfold WorkflowSession.commitReplacement
  simp only [hfound, if_true]
  exact ⟨hinvariant.setUpdatedAt draw.now, _, rfl⟩

/-- What a completion leaves, and that it succeeds. -/
theorem BoardInvariant.commitCompletion (h : BoardInvariant fences board)
    (hfences : fences.FingerprintsValid) (hdraw : draw.Valid) (hfresh : draw.IsFresh board)
    (hcompletes : Completes fences board input text tags todo) :
    BoardInvariant fences
      (commitCompletion fences draw.now draw.freshId text tags todo input board).1 ∧
      (commitCompletion fences draw.now draw.freshId text tags todo input board).2 =
        .ok ⟨completedBy draw.now draw.freshId input.completionId todo,
          answerFor draw.now draw.freshId board.sessionId text tags input, false⟩ := by
  have hover := h.completedBoard hfences hdraw hfresh hcompletes
  obtain ⟨hfound, hinvariant⟩ := hover.evict (hcompletes.countP_completed hover)
  unfold WorkflowSession.completedBoard at hfound hinvariant
  unfold WorkflowSession.commitCompletion
  simp only [hfound, if_true]
  exact ⟨hinvariant.setUpdatedAt draw.now, trivial⟩

theorem BoardInvariant.change (h : BoardInvariant fences board) (hfences : fences.FingerprintsValid)
    (hdraw : draw.Valid) (hchange : BoardChange fences draw board next) :
    BoardInvariant fences next := by
  cases hchange with
  | updated time => exact h.setUpdatedAt time
  | amended _ _ _ hmem hf => exact h.amended hdraw hmem hf
  | posted message _ hfresh hnew =>
    have hother : ∀ other ∈ board.messages, other.messageId ≠ message.messageId := by
      rw [hnew.id]
      exact hfresh
    exact ((h.push hnew.valid hnew.status hother).evict (by simp)).2
  | replaced _ _ _ hfresh hmem hopen hunclosed htext =>
    exact (h.commitReplacement hdraw hfresh hmem hopen hunclosed htext).1
  | completed _ _ _ _ _ hfresh hcompletes =>
    exact (h.commitCompletion hfences hdraw hfresh hcompletes).1

theorem BoardInvariant.changes (h : BoardInvariant fences board)
    (hfences : fences.FingerprintsValid) (hdraw : draw.Valid)
    (hchanges : BoardChanges fences draw board next) :
    BoardInvariant fences next := by
  induction hchanges with
  | refl => exact h
  | tail _ hlast ih => exact ih.change hfences hdraw hlast

/-- Every operation keeps the invariant. -/
theorem BoardInvariant.run (h : BoardInvariant fences board) (hfences : fences.FingerprintsValid)
    (hdraw : draw.Valid) (hfresh : draw.IsFresh board) (operation : MessageOperation) :
    BoardInvariant fences (operation.run fences draw board).1 :=
  h.changes hfences hdraw (run_changes h hdraw hfresh operation)

end WebCodex.WorkflowSession
