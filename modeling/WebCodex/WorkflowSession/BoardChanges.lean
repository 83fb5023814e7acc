import Mathlib.Logic.Relation
import WebCodex.WorkflowSession.BoardInvariant

/-!
`MessageOperation` lists the operations and `BoardChange` what a step of one can do: it moves the
time of the last update, amends one message, adds one, replaces one or completes a todo. Every
operation is a sequence of such changes (`run_changes`). The later modules prove their results once
for each change.
-/

namespace WebCodex.WorkflowSession

open Foundation Foundation.Text

inductive MessageOperation where
  | post (input : PostSessionMessageInput) (requiresAck : Bool)
  | acknowledge (messageIds : List Str)
  | withdraw (messageId : Str)
  | replace (input : ReplaceSessionMessageInput)
  | resolve (messageId : Str) (resolution : Option Str)
  | resolveFromWrapper (messageId resolution : Str) (currentRequestAcknowledged : Bool)
  | complete (input : CompleteSessionMessageInput)

/-- What an operation draws from outside: the time, and a new message id. -/
structure Draw where
  now : ℤ
  freshId : Str

inductive MessageResult where
  | posted (result : Except SessionMessageError SessionMessage)
  | acknowledged (outcome : SessionAckObservation)
  | withdrawn (result : Except SessionMessageError WithdrawSessionMessageOutcome)
  | replaced (result : Except SessionMessageError ReplaceSessionMessageOutcome)
  | resolved (result : Except SessionMessageError (SessionMessage × Bool))
  | completed (result : Except SessionMessageError CompleteSessionMessageOutcome)

def MessageOperation.run (fences : Fences) (draw : Draw) (board : MessageBoard) :
    MessageOperation → MessageBoard × MessageResult
  | .post input requiresAck =>
    (postMessage draw.now draw.freshId input requiresAck board).map id .posted
  | .acknowledge messageIds => (observeMessageAcks draw.now messageIds board).map id .acknowledged
  | .withdraw messageId => (withdrawMessage draw.now messageId board).map id .withdrawn
  | .replace input => (replaceMessage draw.now draw.freshId input board).map id .replaced
  | .resolve messageId resolution =>
    (resolveMessage draw.now messageId resolution board).map id .resolved
  | .resolveFromWrapper messageId resolution acknowledged =>
    (resolveMessageFromWrapper draw.now messageId resolution acknowledged board).map id .resolved
  | .complete input => (completeMessage fences draw.now draw.freshId input board).map id .completed

/-! ### Changes -/

/-- A message is amended by an acknowledgement, a withdrawal or a resolution. -/
inductive Amendment (now : ℤ) (message : SessionMessage) :
    (SessionMessage → SessionMessage) → Prop where
  | acknowledge (hopen : message.status = .opened) (hack : message.requiresAck = true)
      (hnone : message.firstAckObservedAt = none) :
      Amendment now message fun found ↦ { found with firstAckObservedAt := some now }
  | withdraw (hopen : message.status = .opened) (hunclosed : isUnclosed message = true) :
      Amendment now message (withdrawn now)
  | resolve (resolution : Option Str) (hclosure : message.closureKind = none)
      (hresolution : ∀ text, resolution = some text →
        trim text = text ∧ text.length ≤ maxMessageResolutionChars)
      (hchanged : message.status = .opened ∨ (resolution.isSome ∧
        message.resolution ≠ resolution)) :
      Amendment now message (resolvedWith now resolution)

/-- The id that was drawn is not on the board. -/
def Draw.IsFresh (draw : Draw) (board : MessageBoard) : Prop :=
  ∀ message ∈ board.messages, message.messageId ≠ draw.freshId

instance (draw : Draw) (board : MessageBoard) : Decidable (draw.IsFresh board) :=
  inferInstanceAs (Decidable (∀ message ∈ board.messages, _))

/-- What is drawn is what a clock and a generator of ids give. -/
structure Draw.Valid (draw : Draw) : Prop where
  now : 0 < draw.now
  freshId : isValidPersistedMessageId draw.freshId = true

/-- A message that may be added: it is valid, open, and replies to a message of the board. -/
structure IsNew (board : MessageBoard) (draw : Draw) (message : SessionMessage) : Prop where
  id : message.messageId = draw.freshId
  status : message.status = .opened
  valid : ValidMessage board.sessionId message
  replyTo : ∀ id, message.replyTo = some id → ∃ target ∈ board.messages, target.messageId = id

structure Completes (fences : Fences) (board : MessageBoard) (input : CompleteSessionMessageInput)
    (text : Str) (tags : List Str) (todo : SessionMessage) : Prop where
  mem : todo ∈ board.messages
  id : todo.messageId = input.messageId
  kind : todo.kind = .todo
  status : todo.status = .opened
  text : validateMessageText input.answer = .ok text
  tags : validateMessageTags input.tags = .ok tags
  completionId : isValidCompletionId input.completionId = true
  author : ∀ author, input.authorSessionId = some author → isValidSessionId author = true
  fence : ∃ state, openAssignmentState board input.messageId = .ok state ∧
    assignmentFenceFromState fences board.sessionId input.messageId state =
      input.expectedAssignmentFence
  validFence : fences.isValidFence input.expectedAssignmentFence = true

/-- There are revisions left for a number of changes. -/
def MessageBoard.HasRoom (board : MessageBoard) (count : ℕ) : Prop :=
  board.messageObservationRevision + count < 2 ^ 64

inductive BoardChange (fences : Fences) (draw : Draw) : MessageBoard → MessageBoard → Prop where
  | updated (board : MessageBoard) (time : ℤ) : BoardChange fences draw board
    (board.setUpdatedAt time)
  | amended (board : MessageBoard) (message : SessionMessage) (f : SessionMessage → SessionMessage)
      (hroom : board.HasRoom 1) (hmem : message ∈ board.messages)
      (hf : Amendment draw.now message f) :
      BoardChange fences draw board (board.revise message.messageId f)
  | posted (board : MessageBoard) (message : SessionMessage) (hroom : board.HasRoom 1)
      (hfresh : draw.IsFresh board) (hnew : IsNew board draw message) :
      BoardChange fences draw board ((board.push message).evict fun _ ↦ false).1
  | replaced (board : MessageBoard) (original : SessionMessage) (text : Str)
      (hroom : board.HasRoom 2) (hfresh : draw.IsFresh board) (hmem : original ∈ board.messages)
      (hopen : original.status = .opened) (hunclosed : isUnclosed original = true)
      (htext : trim text = text ∧ text.length ≤ maxMessageChars) :
      BoardChange fences draw board (commitReplacement draw.now draw.freshId text original board).1
  | completed (board : MessageBoard) (input : CompleteSessionMessageInput) (text : Str)
      (tags : List Str) (todo : SessionMessage) (hroom : board.HasRoom 2)
      (hfresh : draw.IsFresh board) (h : Completes fences board input text tags todo) :
      BoardChange fences draw board
        (commitCompletion fences draw.now draw.freshId text tags todo input board).1

abbrev BoardChanges (fences : Fences) (draw : Draw) : MessageBoard → MessageBoard → Prop :=
  Relation.ReflTransGen (BoardChange fences draw)

/-! ### Operations are sequences of changes -/

variable {text : Str} {tags : List Str}

section Run

variable {fences : Fences} {draw : Draw} {board : MessageBoard}

/-- A property of what a successful operation leaves, and of an unchanged board, holds of what is
left in any case. -/
theorem transact_cases {A : Type} {motive : MessageBoard → Prop}
    {operation : MessageBoard → Except SessionMessageError (MessageBoard × A)}
    (hsame : motive board)
    (hok : ∀ next result, operation board = .ok (next, result) → motive next) :
    motive (transact operation board).1 := by
  unfold transact
  cases hrun : operation board with
  | error => exact hsame
  | ok pair => exact hok pair.1 pair.2 hrun

/-- A message that has just been created from checked parts is valid. -/
theorem validMessage_newMessage (hdraw : draw.Valid) {sessionId : Str} {kind : SessionMessageKind}
    {priority : SessionMessagePriority} {replyTo : Option Str} {requiresAck : Bool}
    (hack : requiresAck = true → kind = .guidance ∧ priority = .high)
    (htext : trim text = text ∧ text.length ≤ maxMessageChars)
    (htags : validateMessageTags tags = .ok tags)
    (hreply : ∀ id, replyTo = some id → isValidPersistedMessageId id = true) :
    ValidMessage sessionId
      (newMessage sessionId draw.freshId draw.now kind priority text tags replyTo requiresAck) where
  sessionId := rfl
  messageId := hdraw.freshId
  text := htext
  tags := htags
  ack := hack
  firstAck := by simp [newMessage]
  replyTo := hreply
  author := by simp [newMessage]
  resolvedBy := by simp [newMessage]
  supersedes := by simp [newMessage]
  supersededBy := by simp [newMessage]
  completion := by simp [newMessage]
  resolution := by simp [newMessage]
  opened := by simp [newMessage]
  completed := by simp [newMessage]
  completedTodo := by simp [newMessage]

theorem nextRevision_eq_ok {count revision : ℕ} (h : board.nextRevision count = .ok revision) :
    board.HasRoom count := by
  simp only [MessageBoard.nextRevision, bind_eq_ok, ensure_eq_ok, decide_eq_true_eq] at h
  obtain ⟨_, hroom, -⟩ := h
  exact hroom

/-- What the checks of `post_message` let through. -/
theorem checkPost_eq_ok {input : PostSessionMessageInput} {requiresAck : Bool}
    (h : checkPost input requiresAck board = .ok (text, tags)) :
    (requiresAck = true → input.kind = .guidance ∧ input.priority = .high) ∧
      (trim text = text ∧ text.length ≤ maxMessageChars) ∧ validateMessageTags tags = .ok tags ∧
      board.HasRoom 1 ∧ ∀ id, input.replyTo = some id → ∃ target ∈ board.messages,
        target.messageId = id := by
  simp only [checkPost, bind_eq_ok, ensure_eq_ok, pure_eq_ok, Prod.mk.injEq] at h
  obtain ⟨-, -, -, hack, _, htext, _, htags, -, hreply, _, hroom, rfl, rfl⟩ := h
  refine ⟨?_, validateMessageText_eq_ok htext, validateMessageTags_eq_ok htags,
    nextRevision_eq_ok hroom, ?_⟩
  · intro hrequired
    simpa [hrequired] using hack
  · intro id hid
    rw [hid, Option.all_some, Option.isSome_iff_exists] at hreply
    obtain ⟨target, htarget⟩ := hreply
    obtain ⟨hmem, hsame⟩ := MessageBoard.find_eq_some htarget
    exact ⟨target, hmem, hsame⟩

theorem opened_of_not_resolved {status : SessionMessageStatus} (h : ¬ status = .resolved) :
    status = .opened := by
  cases status with
  | opened => rfl
  | resolved => exact absurd rfl h

/-- What the checks of `replace_message` let through. -/
theorem checkReplacement_eq_ok {input : ReplaceSessionMessageInput} {original : SessionMessage}
    (h : checkReplacement input board = .ok (text, original, none)) :
    board.HasRoom 2 ∧ original ∈ board.messages ∧ original.status = .opened ∧
      isUnclosed original = true ∧ (trim text = text ∧ text.length ≤ maxMessageChars) := by
  simp only [checkReplacement, bind_eq_ok, required_eq_ok] at h
  obtain ⟨-, -, _, htext, found, hfind, h⟩ := h
  by_cases hstatus : found.status = .resolved
  · rw [if_pos hstatus] at h
    simp [bind_eq_ok, pure, Except.pure] at h
  · rw [if_neg hstatus] at h
    simp only [bind_eq_ok, ensure_eq_ok, pure_eq_ok, Prod.mk.injEq] at h
    obtain ⟨-, -, -, hunclosed, _, hroom, rfl, rfl, -⟩ := h
    exact ⟨nextRevision_eq_ok hroom, (MessageBoard.find_eq_some hfind).1,
      opened_of_not_resolved hstatus, hunclosed, validateMessageText_eq_ok htext⟩

/-- What the checks of `complete_message` let through. -/
theorem checkCompletion_eq_ok {input : CompleteSessionMessageInput} {todo : SessionMessage}
    (h : checkCompletion fences input board = .ok (text, tags, todo, none)) :
    board.HasRoom 2 ∧ Completes fences board input text tags todo := by
  simp only [checkCompletion, bind_eq_ok, required_eq_ok, ensure_eq_ok, decide_eq_true_eq] at h
  obtain ⟨-, -, -, hid, -, hauthor, _, htext, _, htags, found, hfind, -, hkind, -,
    hfence, h⟩ := h
  obtain ⟨hmem, hfound⟩ := MessageBoard.find_eq_some hfind
  by_cases hstatus : found.status = .resolved
  · rw [if_pos hstatus] at h
    simp [bind_eq_ok, pure, Except.pure] at h
  · rw [if_neg hstatus] at h
    simp only [bind_eq_ok] at h
    obtain ⟨-, -, state, hstate, h⟩ := h
    by_cases hfresh : assignmentFenceFromState fences board.sessionId input.messageId state ≠
        input.expectedAssignmentFence
    · rw [if_pos hfresh] at h
      simp [bind_eq_ok] at h
    · rw [if_neg hfresh] at h
      simp only [bind_eq_ok, pure_eq_ok, Prod.mk.injEq] at h
      obtain ⟨_, hroom, rfl, rfl, rfl, -⟩ := h
      refine ⟨nextRevision_eq_ok hroom, ?_⟩
      exact
        { mem := hmem
          id := hfound
          kind := hkind
          status := opened_of_not_resolved hstatus
          text := htext
          tags := htags
          completionId := hid
          author := fun author hsome ↦ by simpa [hsome] using hauthor
          fence := ⟨state, hstate, not_not.mp hfresh⟩
          validFence := hfence }

theorem postMessage_changes (h : BoardInvariant fences board) (hdraw : draw.Valid)
    (hfresh : draw.IsFresh board) (input : PostSessionMessageInput) (requiresAck : Bool) :
    BoardChanges fences draw board
      (postMessage draw.now draw.freshId input requiresAck board).1 := by
  refine transact_cases Relation.ReflTransGen.refl fun _ _ hrun ↦ ?_
  simp only [bind_eq_ok, pure_eq_ok, Prod.mk.injEq] at hrun
  obtain ⟨⟨_, _⟩, hcheck, rfl, -⟩ := hrun
  obtain ⟨hack, htext, htags, hroom, hreply⟩ := checkPost_eq_ok hcheck
  have hvalidReply : ∀ id, input.replyTo = some id → isValidPersistedMessageId id = true := by
    intro id hid
    obtain ⟨target, hmem, rfl⟩ := hreply id hid
    exact (h.valid target hmem).messageId
  refine Relation.ReflTransGen.tail (Relation.ReflTransGen.single (.updated board draw.now)) ?_
  refine .posted (board.setUpdatedAt draw.now) _ hroom hfresh ⟨rfl, rfl, ?_, hreply⟩
  exact validMessage_newMessage hdraw hack htext htags hvalidReply

/-- A change of one message, and the time of it. -/
theorem revise_changes {message : SessionMessage} {f : SessionMessage → SessionMessage}
    (hroom : board.HasRoom 1) (hmem : message ∈ board.messages)
    (hf : Amendment draw.now message f) :
    BoardChanges fences draw board ((board.revise message.messageId f).setUpdatedAt draw.now) :=
  Relation.ReflTransGen.tail (Relation.ReflTransGen.single (.amended board message f hroom hmem hf))
    (.updated _ _)

theorem observeAck_changes (messageId : Str) (outcome : SessionAckObservation) :
    BoardChanges fences draw board (observeAck draw.now messageId board outcome).1 := by
  unfold observeAck
  cases hfind : board.messages.find? (awaitsAck messageId) with
  | none => exact Relation.ReflTransGen.refl
  | some message =>
    have hmem := List.mem_of_find?_eq_some hfind
    have hawaits := List.find?_some hfind
    simp only [awaitsAck, Bool.and_eq_true, decide_eq_true_eq] at hawaits
    obtain ⟨⟨⟨⟨rfl, hopen⟩, -⟩, -⟩, hrequired⟩ := hawaits
    simp only
    by_cases hfirst : message.firstAckObservedAt.isSome = true
    · rw [if_pos hfirst]
    · rw [if_neg hfirst]
      have hnone : message.firstAckObservedAt = none := by simpa using hfirst
      split
      · exact Relation.ReflTransGen.refl
      · rename_i revision hroom
        exact revise_changes (nextRevision_eq_ok hroom) hmem (.acknowledge hopen hrequired hnone)

theorem observeAcksFrom_changes (messageIds : List Str) :
    ∀ (seen : List Str) (board : MessageBoard) (outcome : SessionAckObservation),
      BoardChanges fences draw board
        (observeAcksFrom draw.now seen messageIds board outcome).1 := by
  induction messageIds with
  | nil => exact fun seen board outcome ↦ Relation.ReflTransGen.refl
  | cons messageId _ ih =>
    intro seen board outcome
    rw [observeAcksFrom]
    by_cases hseen : seen.contains messageId = true
    · rw [if_pos hseen]
      exact ih seen board outcome
    · rw [if_neg hseen]
      exact (observeAck_changes messageId outcome).trans (ih _ _ _)

theorem withdrawMessage_changes (messageId : Str) :
    BoardChanges fences draw board (withdrawMessage draw.now messageId board).1 := by
  refine transact_cases Relation.ReflTransGen.refl fun _ _ hrun ↦ ?_
  simp only [bind_eq_ok, required_eq_ok] at hrun
  obtain ⟨-, -, snapshot, hfind, hrun⟩ := hrun
  obtain ⟨hmem, rfl⟩ := MessageBoard.find_eq_some hfind
  by_cases hstatus : snapshot.status = .resolved
  · rw [if_pos hstatus] at hrun
    simp only [bind_eq_ok, pure_eq_ok, Prod.mk.injEq] at hrun
    obtain ⟨-, -, rfl, -⟩ := hrun
    exact Relation.ReflTransGen.refl
  · rw [if_neg hstatus] at hrun
    simp only [bind_eq_ok, ensure_eq_ok, pure_eq_ok, Prod.mk.injEq] at hrun
    obtain ⟨-, -, -, hunclosed, _, hroom, rfl, -⟩ := hrun
    exact revise_changes (nextRevision_eq_ok hroom) hmem
      (.withdraw (opened_of_not_resolved hstatus) hunclosed)

theorem resolveMessage_changes (messageId : Str) (resolution : Option Str) :
    BoardChanges fences draw board (resolveMessage draw.now messageId resolution board).1 := by
  refine transact_cases Relation.ReflTransGen.refl fun next result hrun ↦ ?_
  simp only [bind_eq_ok, required_eq_ok, ensure_eq_ok] at hrun
  obtain ⟨-, -, found, hfind, -, hclosure, hrun⟩ := hrun
  obtain ⟨hmem, rfl⟩ := MessageBoard.find_eq_some hfind
  obtain ⟨checked, hresolution, hrun⟩ : ∃ checked : Option Str, (∀ text, checked = some text →
      trim text = text ∧ text.length ≤ maxMessageResolutionChars) ∧
      (if found.status = .opened ∨ (checked.isSome ∧ found.resolution ≠ checked) then do
        let _ ← board.nextRevision 1
        pure ((board.revise found.messageId (resolvedWith draw.now checked)).setUpdatedAt draw.now,
          (resolvedWith draw.now checked found, true))
      else pure (board.setUpdatedAt draw.now, (found, false))) = Except.ok (next, result) := by
    cases resolution with
    | none => exact ⟨none, by simp, hrun⟩
    | some value =>
      obtain ⟨checked, hchecked, hrun⟩ := bind_eq_ok.mp hrun
      cases hvalid : validateResolutionText value with
      | error => simp [hvalid, Functor.map, Except.map] at hchecked
      | ok =>
        simp only [hvalid, Functor.map, Except.map, Except.ok.injEq] at hchecked
        refine ⟨checked, fun text htext ↦ ?_, hrun⟩
        rw [htext, Option.some.injEq] at hchecked
        rw [← hchecked]
        exact validateResolutionText_eq_ok hvalid
  by_cases hchanged : found.status = .opened ∨ (checked.isSome ∧ found.resolution ≠ checked)
  · rw [if_pos hchanged] at hrun
    simp only [bind_eq_ok, pure_eq_ok, Prod.mk.injEq] at hrun
    obtain ⟨_, hroom, rfl, -⟩ := hrun
    exact revise_changes (nextRevision_eq_ok hroom) hmem
      (.resolve checked (by simpa using hclosure) hresolution hchanged)
  · rw [if_neg hchanged] at hrun
    obtain ⟨rfl, -⟩ := hrun
    exact Relation.ReflTransGen.single (.updated board draw.now)

theorem resolveMessageFromWrapper_changes (messageId resolution : Str) (acknowledged : Bool) :
    BoardChanges fences draw board
      (resolveMessageFromWrapper draw.now messageId resolution acknowledged board).1 := by
  refine transact_cases Relation.ReflTransGen.refl fun _ _ hrun ↦ ?_
  simp only [bind_eq_ok, required_eq_ok, ensure_eq_ok] at hrun
  obtain ⟨-, -, checked, hchecked, -, -, found, hfind, -, hclosure, -, -, hrun⟩ := hrun
  obtain ⟨hmem, rfl⟩ := MessageBoard.find_eq_some hfind
  by_cases hstatus : found.status = .resolved
  · rw [if_pos hstatus] at hrun
    simp only [bind_eq_ok, pure_eq_ok, Prod.mk.injEq] at hrun
    obtain ⟨-, -, rfl, -⟩ := hrun
    exact Relation.ReflTransGen.refl
  · rw [if_neg hstatus] at hrun
    simp only [bind_eq_ok, pure_eq_ok, Prod.mk.injEq] at hrun
    obtain ⟨-, -, _, hroom, rfl, -⟩ := hrun
    refine revise_changes (nextRevision_eq_ok hroom) hmem
      (.resolve (some checked) (by simpa using hclosure) ?_
        (Or.inl (opened_of_not_resolved hstatus)))
    intro _ htext
    rw [Option.some.injEq] at htext
    rw [← htext]
    exact validateResolutionText_eq_ok hchecked

theorem replaceMessage_changes (hfresh : draw.IsFresh board) (input : ReplaceSessionMessageInput) :
    BoardChanges fences draw board (replaceMessage draw.now draw.freshId input board).1 := by
  unfold replaceMessage
  split
  · exact Relation.ReflTransGen.refl
  · exact Relation.ReflTransGen.refl
  · rename_i text original hcheck
    obtain ⟨hroom, hmem, hopen, hunclosed, htext⟩ := checkReplacement_eq_ok hcheck
    exact Relation.ReflTransGen.single
      (.replaced board original text hroom hfresh hmem hopen hunclosed htext)

theorem completeMessage_changes (hfresh : draw.IsFresh board)
    (input : CompleteSessionMessageInput) :
    BoardChanges fences draw board
      (completeMessage fences draw.now draw.freshId input board).1 := by
  unfold completeMessage
  split
  · exact Relation.ReflTransGen.refl
  · exact Relation.ReflTransGen.refl
  · rename_i text tags todo hcheck
    obtain ⟨hroom, hcompletes⟩ := checkCompletion_eq_ok hcheck
    exact Relation.ReflTransGen.single
      (.completed board input text tags todo hroom hfresh hcompletes)

/-- Every operation is a sequence of changes. -/
theorem run_changes (h : BoardInvariant fences board) (hdraw : draw.Valid)
    (hfresh : draw.IsFresh board) (operation : MessageOperation) :
    BoardChanges fences draw board (operation.run fences draw board).1 := by
  cases operation with
  | post input requiresAck => exact postMessage_changes h hdraw hfresh input requiresAck
  | acknowledge messageIds => exact observeAcksFrom_changes messageIds [] board _
  | withdraw messageId => exact withdrawMessage_changes messageId
  | replace input => exact replaceMessage_changes hfresh input
  | resolve messageId resolution => exact resolveMessage_changes messageId resolution
  | resolveFromWrapper messageId resolution acknowledged =>
    exact resolveMessageFromWrapper_changes messageId resolution acknowledged
  | complete input => exact completeMessage_changes hfresh input

end Run

end WebCodex.WorkflowSession
