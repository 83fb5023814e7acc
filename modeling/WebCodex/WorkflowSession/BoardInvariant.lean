import WebCodex.WorkflowSession.Sanitized

/-!
`BoardInvariant` ties the messages of a board to what the board knows about them: every message has
one positive revision of its own, the current revision is that of some message or of the floor,
floors and fences belong to todos that are there. It is kept by the changes that the operations are
made of (`revise`, `push`, `evict`).
-/

namespace WebCodex.WorkflowSession

open Foundation Foundation.Text

def SessionMessage.IsCompleted (message : SessionMessage) : Prop :=
  message.kind = .todo ∧ message.status = .resolved ∧ message.completionId.isSome = true ∧
    message.resolvedByMessageId.isSome = true

/-- What the board knows about the revisions of its messages. -/
structure ObservationInvariant (board : MessageBoard) : Prop where
  ids : (board.messages.map SessionMessage.messageId).Nodup
  known : ∀ message ∈ board.messages,
    ∃ revision, board.messageObservationRevisions.lookup message.messageId = some revision
  retained : ∀ id revision, board.messageObservationRevisions.lookup id = some revision →
    (∃ message ∈ board.messages, message.messageId = id) ∧ 0 < revision ∧
      revision ≤ board.messageObservationRevision
  distinct : ∀ id other revision, board.messageObservationRevisions.lookup id = some revision →
    board.messageObservationRevisions.lookup other = some revision → id = other
  floor : board.messageObservationFloor ≤ board.messageObservationRevision
  represented : board.messageObservationRevision = board.messageObservationFloor ∨
    ∃ id, board.messageObservationRevisions.lookup id = some board.messageObservationRevision

structure AssignmentInvariant (fences : Fences) (board : MessageBoard) : Prop where
  floors : ∀ todoId revision, board.assignmentHistoryFloors.lookup todoId = some revision →
    0 < revision ∧ revision ≤ board.messageObservationRevision ∧
      ∃ message ∈ board.messages, message.messageId = todoId ∧ message.kind = .todo
  tracked : board.assignmentHistoryTrackingComplete = true
  fences : ∀ todoId stored, board.completionAssignmentFenceFingerprints.lookup todoId =
    some stored →
    (∃ fingerprint, stored = some fingerprint ∧ fences.isValidFingerprint fingerprint = true) ∧
      ∃ message ∈ board.messages, message.messageId = todoId ∧ message.IsCompleted
  fenced : ∀ message ∈ board.messages, message.IsCompleted →
    ∃ stored, board.completionAssignmentFenceFingerprints.lookup message.messageId = some stored
  fencesTracked : board.completionAssignmentFenceTrackingComplete = true

structure BoardInvariant (fences : Fences) (board : MessageBoard) : Prop where
  session : isValidSessionId board.sessionId = true
  valid : ∀ message ∈ board.messages, ValidMessage board.sessionId message
  bounded : board.messages.length ≤ defaultMaxMessagesPerSession
  observation : ObservationInvariant board
  assignment : AssignmentInvariant fences board

/-! ### Changing the first message with an id -/

section UpdateFirst

variable {A : Type} {p : A → Bool} {f : A → A} {items : List A}

@[simp] theorem length_updateFirst : (updateFirst p f items).length = items.length := by
  induction items with
  | nil => rfl
  | cons first _ ih =>
    rw [updateFirst]
    by_cases hp : p first = true
    · simp [hp]
    · simp [hp, ih]

/-- A view that the change keeps is kept. -/
theorem map_updateFirst {B : Type} {view : A → B} (h : ∀ item, view (f item) = view item) :
    (updateFirst p f items).map view = items.map view := by
  induction items with
  | nil => rfl
  | cons first _ ih =>
    rw [updateFirst]
    by_cases hp : p first = true
    · simp [hp, h]
    · simp [hp, ih]

/-- With unique keys the changed list consists of the changed element and of the others. -/
theorem mem_updateFirst_iff {K : Type} [DecidableEq K] {key : A → K}
    (hnodup : (items.map key).Nodup) {target : K} {item : A} :
    item ∈ updateFirst (fun candidate ↦ decide (key candidate = target)) f items ↔
      (item ∈ items ∧ key item ≠ target) ∨
        ∃ original ∈ items, key original = target ∧ item = f original := by
  induction items with
  | nil => simp [updateFirst]
  | cons first rest ih =>
    rw [List.map_cons, List.nodup_cons] at hnodup
    have hrest : ∀ other ∈ rest, key other ≠ key first := by
      intro other hother hsame
      exact hnodup.1 (List.mem_map.mpr ⟨other, hother, hsame⟩)
    by_cases hp : key first = target
    · simp only [updateFirst, hp, decide_true, if_true, List.mem_cons]
      constructor
      · rintro (rfl | hitem)
        · exact Or.inr ⟨first, Or.inl rfl, hp, rfl⟩
        · exact Or.inl ⟨Or.inr hitem, by rw [← hp]; exact hrest item hitem⟩
      · rintro (⟨rfl | hitem, hne⟩ | ⟨original, rfl | horiginal, hmatch, heq⟩)
        · exact absurd hp hne
        · exact Or.inr hitem
        · exact Or.inl heq
        · exact absurd (hmatch.trans hp.symm) (hrest original horiginal)
    · simp only [updateFirst, hp, decide_false, Bool.false_eq_true, if_false, List.mem_cons,
        ih hnodup.2]
      constructor
      · rintro (rfl | ⟨hitem, hne⟩ | ⟨original, horiginal, hmatch, heq⟩)
        · exact Or.inl ⟨Or.inl rfl, hp⟩
        · exact Or.inl ⟨Or.inr hitem, hne⟩
        · exact Or.inr ⟨original, Or.inr horiginal, hmatch, heq⟩
      · rintro (⟨rfl | hitem, hne⟩ | ⟨original, rfl | horiginal, hmatch, heq⟩)
        · exact Or.inl rfl
        · exact Or.inr (Or.inl ⟨hitem, hne⟩)
        · exact absurd hmatch hp
        · exact Or.inr (Or.inr ⟨original, horiginal, hmatch, heq⟩)

/-- With unique keys, removing the first element with a property leaves the others. -/
theorem mem_eraseP_iff {K : Type} {key : A → K} (hnodup : (items.map key).Nodup) {first item : A}
    (hfind : items.find? p = some first) :
    item ∈ items.eraseP p ↔ item ∈ items ∧ key item ≠ key first := by
  induction items with
  | nil => simp at hfind
  | cons head rest ih =>
    rw [List.map_cons, List.nodup_cons] at hnodup
    have hrest : ∀ other ∈ rest, key other ≠ key head := by
      intro other hother hsame
      exact hnodup.1 (List.mem_map.mpr ⟨other, hother, hsame⟩)
    by_cases hp : p head = true
    · rw [List.find?_cons_of_pos hp, Option.some.injEq] at hfind
      subst hfind
      rw [List.eraseP_cons_of_pos hp, List.mem_cons]
      constructor
      · intro hitem
        exact ⟨Or.inr hitem, hrest item hitem⟩
      · rintro ⟨rfl | hitem, hne⟩
        · exact absurd rfl hne
        · exact hitem
    · rw [List.find?_cons_of_neg hp] at hfind
      rw [List.eraseP_cons_of_neg hp, List.mem_cons, List.mem_cons, ih hnodup.2 hfind]
      have hhead : key head ≠ key first := (hrest first (List.mem_of_find?_eq_some hfind)).symm
      constructor
      · rintro (rfl | ⟨hitem, hne⟩)
        · exact ⟨Or.inl rfl, hhead⟩
        · exact ⟨Or.inr hitem, hne⟩
      · rintro ⟨rfl | hitem, hne⟩
        · exact Or.inl rfl
        · exact Or.inr ⟨hitem, hne⟩

end UpdateFirst

variable {message : SessionMessage}

section Find

variable {board : MessageBoard}

theorem MessageBoard.find_eq_some {id : Str} (h : board.find id = some message) :
    message ∈ board.messages ∧ message.messageId = id :=
  ⟨List.mem_of_find?_eq_some h, by simpa using List.find?_some h⟩

end Find

/-! ### Revising a message -/

section Revise

variable {fences : Fences} {board : MessageBoard} {id : Str} {f : SessionMessage → SessionMessage}

theorem mem_revise (hids : (board.messages.map SessionMessage.messageId).Nodup) :
    message ∈ (board.revise id f).messages ↔ (message ∈ board.messages ∧ message.messageId ≠ id) ∨
        ∃ original ∈ board.messages, original.messageId = id ∧ message = f original :=
  mem_updateFirst_iff hids

theorem lookup_revise (other : Str) : (board.revise id f).messageObservationRevisions.lookup other =
      if other = id then some (board.messageObservationRevision + 1)
      else board.messageObservationRevisions.lookup other :=
  Table.lookup_insert_eq _ _ _ _

/-- A table of revisions after a new one was given to an id. -/
theorem ObservationInvariant.insert (h : ObservationInvariant board) {next : MessageBoard}
    (hids : (next.messages.map SessionMessage.messageId).Nodup)
    (hmem : ∀ other, (∃ message ∈ next.messages, message.messageId = other) ↔
      (∃ message ∈ board.messages, message.messageId = other) ∨ other = id)
    (hlookup : ∀ other, next.messageObservationRevisions.lookup other =
      if other = id then some (board.messageObservationRevision + 1)
      else board.messageObservationRevisions.lookup other)
    (hrevision : next.messageObservationRevision = board.messageObservationRevision + 1)
    (hfloor : next.messageObservationFloor = board.messageObservationFloor) :
    ObservationInvariant next where
  ids := hids
  known := by
    intro message hmessage
    rw [hlookup]
    by_cases hsame : message.messageId = id
    · exact ⟨_, if_pos hsame⟩
    · rw [if_neg hsame]
      rcases (hmem message.messageId).mp ⟨message, hmessage, rfl⟩ with ⟨old, hold, heq⟩ | heq
      · rw [← heq]
        exact h.known old hold
      · exact absurd heq hsame
  retained := by
    intro other revision hother
    rw [hlookup] at hother
    by_cases hsame : other = id
    · rw [if_pos hsame, Option.some.injEq] at hother
      exact ⟨(hmem other).mpr (Or.inr hsame), by omega, by omega⟩
    · rw [if_neg hsame] at hother
      obtain ⟨hexists, hpositive, _⟩ := h.retained other revision hother
      exact ⟨(hmem other).mpr (Or.inl hexists), hpositive, by omega⟩
  distinct := by
    intro first second revision hfirst hsecond
    rw [hlookup] at hfirst hsecond
    have hold : ∀ {other : Str}, board.messageObservationRevisions.lookup other = some revision →
        revision ≤ board.messageObservationRevision :=
      fun hother ↦ (h.retained _ _ hother).2.2
    by_cases hone : first = id
    · by_cases htwo : second = id
      · rw [hone, htwo]
      · rw [if_pos hone, Option.some.injEq] at hfirst
        rw [if_neg htwo] at hsecond
        have := hold hsecond
        omega
    · rw [if_neg hone] at hfirst
      by_cases htwo : second = id
      · rw [if_pos htwo, Option.some.injEq] at hsecond
        have := hold hfirst
        omega
      · rw [if_neg htwo] at hsecond
        exact h.distinct first second revision hfirst hsecond
  floor := by
    rw [hfloor, hrevision]
    exact Nat.le_succ_of_le h.floor
  represented := Or.inr ⟨id, by rw [hlookup, if_pos rfl, hrevision]⟩

theorem ObservationInvariant.revise (h : ObservationInvariant board)
    (hid : ∃ message ∈ board.messages, message.messageId = id)
    (hf : ∀ message, (f message).messageId = message.messageId) :
    ObservationInvariant (board.revise id f) := by
  have hmap : (board.revise id f).messages.map SessionMessage.messageId =
      board.messages.map SessionMessage.messageId := map_updateFirst hf
  refine h.insert (by rw [hmap]; exact h.ids) ?_ lookup_revise rfl rfl
  intro other
  have hsame : (∃ message ∈ (board.revise id f).messages, message.messageId = other) ↔
      ∃ message ∈ board.messages, message.messageId = other := by
    rw [← List.mem_map, hmap, List.mem_map]
  rw [hsame]
  constructor
  · exact Or.inl
  · rintro (hold | rfl)
    · exact hold
    · exact hid

/-- A revision that does not complete a todo keeps what is known about todos. -/
theorem AssignmentInvariant.revise (h : AssignmentInvariant fences board)
    (hids : (board.messages.map SessionMessage.messageId).Nodup)
    (hf : ∀ message, (f message).messageId = message.messageId ∧ (f message).kind = message.kind)
    (hcompleted : ∀ message ∈ board.messages, message.messageId = id →
      ((f message).IsCompleted ↔ message.IsCompleted)) :
    AssignmentInvariant fences (board.revise id f) := by
  -- a message of the old board has a counterpart that differs in nothing that counts here
  have hcounterpart : ∀ message ∈ board.messages, ∃ next ∈ (board.revise id f).messages,
      next.messageId = message.messageId ∧ next.kind = message.kind ∧
        (next.IsCompleted ↔ message.IsCompleted) := by
    intro message hmessage
    by_cases hsame : message.messageId = id
    · exact ⟨f message, (mem_revise hids).mpr (Or.inr ⟨message, hmessage, hsame, rfl⟩),
        (hf message).1, (hf message).2, hcompleted message hmessage hsame⟩
    · exact ⟨message, (mem_revise hids).mpr (Or.inl ⟨hmessage, hsame⟩), rfl, rfl, Iff.rfl⟩
  refine ⟨?_, h.tracked, ?_, ?_, h.fencesTracked⟩
  · intro todoId revision hfloor
    obtain ⟨hpositive, hle, message, hmessage, hid, hkind⟩ := h.floors todoId revision hfloor
    obtain ⟨next, hnext, hnextId, hnextKind, -⟩ := hcounterpart message hmessage
    exact ⟨hpositive, Nat.le_succ_of_le hle, next, hnext, hnextId.trans hid, hnextKind.trans hkind⟩
  · intro todoId stored hstored
    obtain ⟨hfingerprint, message, hmessage, hid, hdone⟩ := h.fences todoId stored hstored
    obtain ⟨next, hnext, hnextId, -, hiff⟩ := hcounterpart message hmessage
    exact ⟨hfingerprint, next, hnext, hnextId.trans hid, hiff.mpr hdone⟩
  · intro message hmessage hdone
    rcases (mem_revise hids).mp hmessage with ⟨hold, -⟩ | ⟨original, horiginal, hid, rfl⟩
    · exact h.fenced message hold hdone
    · rw [(hf original).1]
      exact h.fenced original horiginal ((hcompleted original horiginal hid).mp hdone)

end Revise

section Push

variable {fences : Fences} {board : MessageBoard} {message : SessionMessage}

theorem ObservationInvariant.push (h : ObservationInvariant board)
    (hfresh : ∀ other ∈ board.messages, other.messageId ≠ message.messageId) :
    ObservationInvariant (board.push message) := by
  have hids : ((board.push message).messages.map SessionMessage.messageId).Nodup := by
    simp only [MessageBoard.push, List.map_append, List.map_cons, List.map_nil]
    refine List.nodup_append.mpr ⟨h.ids, by simp, fun _ hfirst second hsecond hsame ↦ ?_⟩
    obtain ⟨other, hother, rfl⟩ := List.mem_map.mp hfirst
    obtain rfl : second = message.messageId := by simpa using hsecond
    exact hfresh other hother hsame
  refine h.insert hids ?_ (fun other ↦ Table.lookup_insert_eq _ _ _ _) rfl rfl
  intro other
  simp only [MessageBoard.push, List.mem_append, List.mem_singleton]
  constructor
  · rintro ⟨found, hfound | rfl, hid⟩
    · exact Or.inl ⟨found, hfound, hid⟩
    · exact Or.inr hid.symm
  · rintro (⟨found, hfound, hid⟩ | rfl)
    · exact ⟨found, Or.inl hfound, hid⟩
    · exact ⟨message, Or.inr rfl, rfl⟩

theorem AssignmentInvariant.push (h : AssignmentInvariant fences board)
    (hnew : ¬ message.IsCompleted) : AssignmentInvariant fences (board.push message) := by
  have hmem : ∀ other ∈ board.messages, other ∈ (board.push message).messages :=
    fun other hother ↦ List.mem_append_left _ hother
  refine ⟨?_, h.tracked, ?_, ?_, h.fencesTracked⟩
  · intro todoId revision hfloor
    obtain ⟨hpositive, hle, todo, htodo, hid⟩ := h.floors todoId revision hfloor
    exact ⟨hpositive, Nat.le_succ_of_le hle, todo, hmem todo htodo, hid⟩
  · intro todoId stored hstored
    obtain ⟨hfingerprint, todo, htodo, hid⟩ := h.fences todoId stored hstored
    exact ⟨hfingerprint, todo, hmem todo htodo, hid⟩
  · intro other hother hdone
    rcases List.mem_append.mp hother with hold | hlast
    · exact h.fenced other hold hdone
    · obtain rfl : other = message := by simpa using hlast
      exact absurd hdone hnew

end Push

/-! ### Evicting a message -/

variable {revision : ℕ}

section Evict

variable {fences : Fences} {board : MessageBoard} {evicted : SessionMessage}
  {isProtected : SessionMessage → Bool}

def MessageBoard.remove (board : MessageBoard) (isProtected : SessionMessage → Bool)
    (evicted : SessionMessage) : MessageBoard :=
  ({ board with messages := board.messages.eraseP fun message ↦ !isProtected message } :
    MessageBoard).noteEvictedMessageObservation evicted

/-- What an eviction does to a board that knows the revision of the message. -/
theorem noteEvictedMessageObservation_eq
    (h : board.messageObservationRevisions.lookup evicted.messageId = some revision) :
    board.noteEvictedMessageObservation evicted =
      { board with
        messageObservationRevisions := board.messageObservationRevisions.erase evicted.messageId
        messageObservationFloor := max board.messageObservationFloor revision
        assignmentHistoryFloors :=
          (board.noteEvictedMessageObservation evicted).assignmentHistoryFloors
        completionAssignmentFenceFingerprints := if evicted.kind = .todo then
          board.completionAssignmentFenceFingerprints.erase evicted.messageId
          else board.completionAssignmentFenceFingerprints } := by
  unfold MessageBoard.noteEvictedMessageObservation
  simp only [h]
  by_cases hkind : evicted.kind = .todo
  · simp [hkind]
  · simp only [hkind, if_false]
    split
    · rfl
    · split
      · rfl
      · rfl

theorem remove_eq (h : board.messageObservationRevisions.lookup evicted.messageId = some revision) :
    board.remove isProtected evicted =
      { board with
        messages := board.messages.eraseP fun message ↦ !isProtected message
        messageObservationRevisions := board.messageObservationRevisions.erase evicted.messageId
        messageObservationFloor := max board.messageObservationFloor revision
        assignmentHistoryFloors := (board.remove isProtected evicted).assignmentHistoryFloors
        completionAssignmentFenceFingerprints := if evicted.kind = .todo then
          board.completionAssignmentFenceFingerprints.erase evicted.messageId
          else board.completionAssignmentFenceFingerprints } := by
  exact noteEvictedMessageObservation_eq h

/-- The floors after an eviction: those of a todo go with it, and a reply leaves its revision to its
todo. -/
theorem lookup_floors_noteEvicted {revision : ℕ}
    (h : board.messageObservationRevisions.lookup evicted.messageId = some revision) {todoId : Str}
    {floor : ℕ}
    (hfloor : (board.noteEvictedMessageObservation evicted).assignmentHistoryFloors.lookup todoId =
      some floor) :
    (board.assignmentHistoryFloors.lookup todoId = some floor ∧
        (evicted.kind = .todo → todoId ≠ evicted.messageId)) ∨
      (evicted.kind ≠ .todo ∧ evicted.replyTo = some todoId ∧
        (∃ todo ∈ board.messages, todo.messageId = todoId ∧ todo.kind = .todo) ∧
        floor = max ((board.assignmentHistoryFloors.lookup todoId).getD 0) revision) := by
  unfold MessageBoard.noteEvictedMessageObservation at hfloor
  simp only [h] at hfloor
  by_cases hkind : evicted.kind = .todo
  · rw [if_pos hkind] at hfloor
    simp only [Table.lookup_erase_eq] at hfloor
    by_cases hsame : todoId = evicted.messageId
    · rw [if_pos hsame] at hfloor
      exact absurd hfloor (by simp)
    · rw [if_neg hsame] at hfloor
      exact Or.inl ⟨hfloor, fun _ ↦ hsame⟩
  · rw [if_neg hkind] at hfloor
    have hkeep : evicted.kind = .todo → todoId ≠ evicted.messageId := fun hyes ↦ absurd hyes hkind
    cases hreply : evicted.replyTo with
    | none =>
      rw [hreply] at hfloor
      exact Or.inl ⟨hfloor, hkeep⟩
    | some target =>
      rw [hreply] at hfloor
      simp only at hfloor
      split at hfloor
      · rename_i htodo
        simp only [Table.lookup_insert_eq] at hfloor
        by_cases hsame : todoId = target
        · rw [if_pos hsame, Option.some.injEq] at hfloor
          refine Or.inr ⟨hkind, by rw [hsame], ?_, by rw [hsame]; exact hfloor.symm⟩
          obtain ⟨todo, hmem, hmatch⟩ := List.any_eq_true.mp htodo
          simp only [Bool.and_eq_true, decide_eq_true_eq] at hmatch
          exact ⟨todo, hmem, by rw [hsame]; exact hmatch.1, hmatch.2⟩
        · rw [if_neg hsame] at hfloor
          exact Or.inl ⟨hfloor, hkeep⟩
      · exact Or.inl ⟨hfloor, hkeep⟩

theorem lookup_floors_remove
    (h : board.messageObservationRevisions.lookup evicted.messageId = some revision) {todoId : Str}
    {floor : ℕ}
    (hfloor : (board.remove isProtected evicted).assignmentHistoryFloors.lookup todoId =
      some floor) :
    (board.assignmentHistoryFloors.lookup todoId = some floor ∧
        (evicted.kind = .todo → todoId ≠ evicted.messageId)) ∨
      (evicted.kind ≠ .todo ∧ evicted.replyTo = some todoId ∧
        (∃ todo ∈ board.messages, todo.messageId = todoId ∧ todo.kind = .todo) ∧
        floor = max ((board.assignmentHistoryFloors.lookup todoId).getD 0) revision) := by
  have hcases := @lookup_floors_noteEvicted
    { board with messages := board.messages.eraseP fun message ↦ !isProtected message }
    evicted revision h todoId floor hfloor
  rcases hcases with hold | ⟨hkind, hreply, ⟨todo, htodo, hid⟩, hmax⟩
  · exact Or.inl hold
  · exact Or.inr ⟨hkind, hreply, ⟨todo, List.mem_of_mem_eraseP htodo, hid⟩, hmax⟩

theorem mem_remove (h : ObservationInvariant board)
    (hfind : board.messages.find? (fun message ↦ !isProtected message) = some evicted)
    {message : SessionMessage} :
    message ∈ (board.remove isProtected evicted).messages ↔
      message ∈ board.messages ∧ message.messageId ≠ evicted.messageId := by
  obtain ⟨_, hrevision⟩ := h.known evicted (List.mem_of_find?_eq_some hfind)
  have hmessages : (board.remove isProtected evicted).messages =
      board.messages.eraseP fun message ↦ !isProtected message := by
    rw [remove_eq hrevision]
  rw [hmessages]
  exact mem_eraseP_iff h.ids hfind

theorem ObservationInvariant.remove (h : ObservationInvariant board)
    (hfind : board.messages.find? (fun message ↦ !isProtected message) = some evicted) :
    ObservationInvariant (board.remove isProtected evicted) := by
  obtain ⟨revision, hrevision⟩ := h.known evicted (List.mem_of_find?_eq_some hfind)
  have hmem := @mem_remove board evicted isProtected h hfind
  obtain ⟨-, -, hle⟩ := h.retained _ _ hrevision
  have hlookup : ∀ id, (board.remove isProtected evicted).messageObservationRevisions.lookup id =
      if id = evicted.messageId then none else board.messageObservationRevisions.lookup id := by
    intro id
    rw [remove_eq hrevision]
    exact Table.lookup_erase_eq _ _ _
  have hrevisionSame : (board.remove isProtected evicted).messageObservationRevision =
      board.messageObservationRevision := by
    rw [remove_eq hrevision]
  have hfloor : (board.remove isProtected evicted).messageObservationFloor =
      max board.messageObservationFloor revision := by
    rw [remove_eq hrevision]
  constructor
  · have hmessages : (board.remove isProtected evicted).messages =
        board.messages.eraseP fun message ↦ !isProtected message := by
      rw [remove_eq hrevision]
    rw [hmessages]
    exact h.ids.sublist (List.Sublist.map _ List.eraseP_sublist)
  · intro message hmessage
    obtain ⟨hold, hne⟩ := hmem.mp hmessage
    rw [hlookup, if_neg hne]
    exact h.known message hold
  · intro id found hfound
    rw [hlookup] at hfound
    by_cases hsame : id = evicted.messageId
    · rw [if_pos hsame] at hfound
      exact absurd hfound (by simp)
    · rw [if_neg hsame] at hfound
      obtain ⟨⟨message, hmessage, hid⟩, hpositive, hfoundLe⟩ := h.retained id found hfound
      refine ⟨⟨message, hmem.mpr ⟨hmessage, by rw [hid]; exact hsame⟩, hid⟩, hpositive, ?_⟩
      rw [hrevisionSame]
      exact hfoundLe
  · intro first second found hfirst hsecond
    rw [hlookup] at hfirst hsecond
    by_cases hone : first = evicted.messageId
    · rw [if_pos hone] at hfirst
      exact absurd hfirst (by simp)
    · by_cases htwo : second = evicted.messageId
      · rw [if_pos htwo] at hsecond
        exact absurd hsecond (by simp)
      · rw [if_neg hone] at hfirst
        rw [if_neg htwo] at hsecond
        exact h.distinct first second found hfirst hsecond
  · rw [hfloor, hrevisionSame]
    exact max_le h.floor hle
  · rw [hrevisionSame, hfloor]
    rcases h.represented with hrepresented | ⟨id, hid⟩
    · left
      rw [← hrepresented]
      exact (max_eq_left hle).symm
    · by_cases hsame : id = evicted.messageId
      · left
        rw [hsame, hrevision, Option.some.injEq] at hid
        rw [hid]
        exact (max_eq_right h.floor).symm
      · right
        exact ⟨id, by rw [hlookup, if_neg hsame]; exact hid⟩

theorem AssignmentInvariant.remove (h : AssignmentInvariant fences board)
    (hobservation : ObservationInvariant board)
    (hfind : board.messages.find? (fun message ↦ !isProtected message) = some evicted) :
    AssignmentInvariant fences (board.remove isProtected evicted) := by
  have hevicted := List.mem_of_find?_eq_some hfind
  obtain ⟨_, hrevision⟩ := hobservation.known evicted hevicted
  have hmem := @mem_remove board evicted isProtected hobservation hfind
  obtain ⟨-, hpositive, hle⟩ := hobservation.retained _ _ hrevision
  -- a message of another kind, or with another id, is still there
  have hstays : ∀ {message : SessionMessage}, message ∈ board.messages →
      message.messageId ≠ evicted.messageId →
      message ∈ (board.remove isProtected evicted).messages :=
    fun hmessage hne ↦ hmem.mpr ⟨hmessage, hne⟩
  have hsameId : ∀ {message : SessionMessage}, message ∈ board.messages →
      message.messageId = evicted.messageId → message = evicted :=
    fun hmessage hid ↦ List.inj_on_of_nodup_map hobservation.ids hmessage hevicted hid
  have hrevisionSame : (board.remove isProtected evicted).messageObservationRevision =
      board.messageObservationRevision := by
    rw [remove_eq hrevision]
  have hfingerprints : (board.remove isProtected evicted).completionAssignmentFenceFingerprints =
      if evicted.kind = .todo then
        board.completionAssignmentFenceFingerprints.erase evicted.messageId
      else board.completionAssignmentFenceFingerprints := by
    rw [remove_eq hrevision]
  constructor
  · intro todoId floor hfloor
    rw [hrevisionSame]
    rcases lookup_floors_remove hrevision hfloor with ⟨hold, hother⟩ |
        ⟨hkind, -, ⟨todo, htodo, hid, htodoKind⟩, hmax⟩
    · obtain ⟨hfloorPositive, hfloorLe, todo, htodo, hid, htodoKind⟩ := h.floors todoId floor hold
      refine ⟨hfloorPositive, hfloorLe, todo, hstays htodo fun hsame ↦ ?_, hid, htodoKind⟩
      have heq := hsameId htodo hsame
      exact hother (by rw [← heq]; exact htodoKind) (hid.symm.trans hsame)
    · refine ⟨?_, ?_, todo, ?_, hid, htodoKind⟩
      · rw [hmax]
        exact Nat.lt_of_lt_of_le hpositive (le_max_right _ _)
      · rw [hmax]
        refine max_le ?_ hle
        cases hold : board.assignmentHistoryFloors.lookup todoId with
        | none => exact Nat.zero_le _
        | some old => exact (h.floors todoId old hold).2.1
      · refine hstays htodo fun hsame ↦ ?_
        rw [hsameId htodo hsame] at htodoKind
        exact hkind htodoKind
  · rw [remove_eq hrevision]
    exact h.tracked
  · intro todoId stored hstored
    rw [hfingerprints] at hstored
    by_cases hkind : evicted.kind = .todo
    · rw [if_pos hkind, Table.lookup_erase_eq] at hstored
      by_cases hsame : todoId = evicted.messageId
      · rw [if_pos hsame] at hstored
        exact absurd hstored (by simp)
      · rw [if_neg hsame] at hstored
        obtain ⟨hvalid, todo, htodo, hid, hdone⟩ := h.fences todoId stored hstored
        exact ⟨hvalid, todo, hstays htodo (by rw [hid]; exact hsame), hid, hdone⟩
    · rw [if_neg hkind] at hstored
      obtain ⟨hvalid, todo, htodo, hid, hdone⟩ := h.fences todoId stored hstored
      refine ⟨hvalid, todo, hstays htodo fun hsame ↦ ?_, hid, hdone⟩
      have heq := hsameId htodo hsame
      exact hkind (by rw [← heq]; exact hdone.1)
  · intro message hmessage hdone
    obtain ⟨hold, hne⟩ := hmem.mp hmessage
    obtain ⟨stored, hstored⟩ := h.fenced message hold hdone
    refine ⟨stored, ?_⟩
    rw [hfingerprints]
    by_cases hkind : evicted.kind = .todo
    · rw [if_pos hkind, Table.lookup_erase_eq, if_neg hne]
      exact hstored
    · rw [if_neg hkind]
      exact hstored
  · rw [remove_eq hrevision]
    exact h.fencesTracked

/-- A board has at most one message too many when it is time to evict. -/
theorem evict_eq (hlength : board.messages.length ≤ defaultMaxMessagesPerSession + 1) :
    board.evict isProtected =
      if board.messages.length ≤ defaultMaxMessagesPerSession then (board, true)
      else
        match board.messages.find? fun message ↦ !isProtected message with
        | none => (board, false)
        | some evicted => (board.remove isProtected evicted, true) := by
  unfold MessageBoard.evict
  by_cases hfits : board.messages.length ≤ defaultMaxMessagesPerSession
  · rw [if_pos hfits, Nat.sub_eq_zero_of_le hfits]
    rfl
  · rw [if_neg hfits, show board.messages.length - defaultMaxMessagesPerSession = 1 by omega]
    rfl

end Evict

end WebCodex.WorkflowSession
