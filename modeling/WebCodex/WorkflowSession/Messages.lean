import Mathlib.Data.Int.Notation
import WebCodex.Foundation.Fallible
import WebCodex.Foundation.Layout
import WebCodex.Foundation.Table

/-!
Messages of a session stand in a list, the oldest first. Every change gives a message the next
observation revision; a board that is full evicts old ones and raises its floor. The assignment of
a todo is the todo with its direct replies; whoever completes it shows its fence, a digest of
these without the times of acknowledgements, and a completion stores a fingerprint of the fence.
Hashing and encoding are parameters (`Fences`). An operation returns the board that it leaves and
its result; times and new ids are given by the caller.
-/

namespace WebCodex.WorkflowSession

open Foundation Foundation.Text

section

inductive SessionMessageKind where
  | note
  | proposal
  | question
  | answer
  | decision
  | risk
  | progress
  | guidance
  | todo
deriving DecidableEq

inductive SessionMessageStatus where
  | opened
  | resolved
deriving DecidableEq

inductive SessionMessageClosureKind where
  | withdrawn
  | superseded
deriving DecidableEq

inductive SessionMessagePriority where
  | low
  | normal
  | high
deriving DecidableEq

structure SessionMessage where
  (messageId sessionId : Str)
  createdAt : ℤ
  kind : SessionMessageKind
  status : SessionMessageStatus
  priority : SessionMessagePriority
  message : Str
  tags : List Str
  replyTo : Option Str
  requiresAck : Bool
  firstAckObservedAt : Option ℤ
  authorSessionId : Option Str
  resolvedAt : Option ℤ
  resolution : Option Str
  closureKind : Option SessionMessageClosureKind
  (supersededByMessageId supersedesMessageId resolvedByMessageId completionId : Option Str)
deriving DecidableEq

inductive SessionLifecycle where
  | active
  | closed
deriving DecidableEq

def SessionLifecycle.allowsMutation : SessionLifecycle → Bool
  | .active => true
  | .closed => false

/-- The part of `SessionRecord` that the message operations read and change. -/
structure MessageBoard where
  sessionId : Str
  lifecycle : SessionLifecycle
  (createdAt updatedAt : ℤ)
  messages : List SessionMessage
  (messageObservationRevision messageObservationFloor : ℕ)
  (messageObservationRevisions assignmentHistoryFloors : Table Str ℕ)
  assignmentHistoryTrackingComplete : Bool
  completionAssignmentFenceFingerprints : Table Str (Option Str)
  completionAssignmentFenceTrackingComplete : Bool

def messageIdPrefix : Str := "wc_msg_".toList
def sessionIdPrefix : Str := "wc_sess_".toList
def defaultMaxMessagesPerSession : ℕ := 200
def maxMessageChars : ℕ := 8000
def maxMessageTags : ℕ := 16
def maxMessageTagChars : ℕ := 64
def maxMessageResolutionChars : ℕ := 8000
def messageCompletionFingerprintHexChars : ℕ := 64
def maxSessionAssignmentDirectReplies : ℕ := 16

structure SessionAssignmentCurrentState where
  todo : SessionMessage
  directReplies : List SessionMessage
  directRepliesTruncated : Bool
deriving DecidableEq

inductive SessionMessageError where
  | unknownMessage
  | messageNotOpen
  | notTodo
  | idempotencyConflict
  | alreadyCompleted (answerMessageId completionId : Option Str)
  | invalidCompletionState
  | invalidObservationState
  | invalidAssignmentFence
  | assignmentStale (current : SessionAssignmentCurrentState) (freshAssignmentFence : Option Str)
  | assignmentHistoryLost (current : SessionAssignmentCurrentState)
  | assignmentTooLarge (replyCount maxReplies : ℕ) (current : SessionAssignmentCurrentState)
  | sessionClosed (lifecycle : SessionLifecycle)
  | invalidInput (message : String)
deriving DecidableEq

def isAsciiAlphanumericOrUnderscore (c : Char) : Bool :=
  ('0' ≤ c && c ≤ '9') || ('a' ≤ c && c ≤ 'z') || ('A' ≤ c && c ≤ 'Z') || c == '_'

def isValidSessionId (value : Str) : Bool :=
  sessionIdPrefix.isPrefixOf value && decide (sessionIdPrefix.length < value.length) &&
    value.all isAsciiAlphanumericOrUnderscore

def isValidCompletionId (value : Str) : Bool :=
  decide (value.length = messageCompletionFingerprintHexChars) &&
    value.all fun c ↦ ('0' ≤ c && c ≤ '9') || ('a' ≤ c && c ≤ 'f')

def validateMessageText (value : Str) : Except SessionMessageError Str := do
  let text := trim value
  ensure (!text.isEmpty) (.invalidInput "message must not be empty")
  ensure (decide (text.length ≤ maxMessageChars)) (.invalidInput "message exceeds 8000 chars")
  pure text

def validateResolutionText (value : Str) : Except SessionMessageError Str := do
  let text := trim value
  ensure (decide (text.length ≤ maxMessageResolutionChars))
    (.invalidInput "resolution exceeds 8000 chars")
  pure text

/-- The loop of `validate_message_tags`: tags are trimmed, empty ones and repetitions are left
out. -/
def collectTags : List Str → List Str → Except SessionMessageError (List Str)
  | tags, [] => .ok tags
  | tags, value :: rest =>
    let tag := trim value
    if tag.isEmpty then collectTags tags rest
    else if maxMessageTagChars < tag.length then .error (.invalidInput "tag exceeds 64 chars")
    else collectTags (if tags.contains tag then tags else tags ++ [tag]) rest

def validateMessageTags (values : List Str) : Except SessionMessageError (List Str) :=
  if maxMessageTags < values.length then .error (.invalidInput "tags exceed 16 items")
  else collectTags [] values

/-! ### Changes of a board -/

/-- Changes the first element with a property. -/
def updateFirst {A : Type} (p : A → Bool) (f : A → A) : List A → List A
  | [] => []
  | item :: rest => if p item then f item :: rest else item :: updateFirst p f rest

namespace MessageBoard

variable (board : MessageBoard)

def find (messageId : Str) : Option SessionMessage :=
  board.messages.find? fun message ↦ decide (message.messageId = messageId)

/-- The next revision, `next_message_observation_revision`. Two of them are drawn at once by the
operations that change two messages. -/
def nextRevision (count : ℕ) : Except SessionMessageError ℕ := do
  ensure (decide (board.messageObservationRevision + count < 2 ^ 64)) .invalidObservationState
  pure (board.messageObservationRevision + 1)

/-- A message is changed, and has the next revision then. -/
def revise (messageId : Str) (f : SessionMessage → SessionMessage) : MessageBoard :=
  { board with
    messages := updateFirst (fun message ↦ decide (message.messageId = messageId)) f board.messages
    messageObservationRevision := board.messageObservationRevision + 1
    messageObservationRevisions :=
      board.messageObservationRevisions.insert messageId (board.messageObservationRevision + 1) }

/-- A new message comes last, with the next revision. -/
def push (message : SessionMessage) : MessageBoard :=
  { board with
    messages := board.messages ++ [message]
    messageObservationRevision := board.messageObservationRevision + 1
    messageObservationRevisions := board.messageObservationRevisions.insert message.messageId
      (board.messageObservationRevision + 1) }

def noteEvictedMessageObservation (message : SessionMessage) : MessageBoard :=
  match board.messageObservationRevisions.lookup message.messageId with
  | none => { board with assignmentHistoryTrackingComplete := false }
  | some revision =>
    let noted := { board with
      messageObservationRevisions := board.messageObservationRevisions.erase message.messageId
      messageObservationFloor := max board.messageObservationFloor revision }
    if message.kind = .todo then
      { noted with
        assignmentHistoryFloors := noted.assignmentHistoryFloors.erase message.messageId
        completionAssignmentFenceFingerprints :=
          noted.completionAssignmentFenceFingerprints.erase message.messageId }
    else
      match message.replyTo with
      | none => noted
      | some todoId =>
        if noted.messages.any fun candidate ↦
            decide (candidate.messageId = todoId) && decide (candidate.kind = .todo) then
          { noted with
            assignmentHistoryFloors := noted.assignmentHistoryFloors.insert todoId
              (max ((noted.assignmentHistoryFloors.lookup todoId).getD 0) revision) }
        else noted

/-- The loop that evicts the oldest messages that are not protected, with the number of messages
that are too many. It says whether it found one every time. -/
def evictLoop (isProtected : SessionMessage → Bool) : ℕ → MessageBoard → MessageBoard × Bool
  | 0, board => (board, true)
  | excess + 1, board =>
    match board.messages.find? fun message ↦ !isProtected message with
    | none => (board, false)
    | some evicted =>
      let remaining :=
        { board with messages := board.messages.eraseP fun message ↦ !isProtected message }
      evictLoop isProtected excess (remaining.noteEvictedMessageObservation evicted)

def evict (isProtected : SessionMessage → Bool) : MessageBoard × Bool :=
  evictLoop isProtected (board.messages.length - defaultMaxMessagesPerSession) board

def setUpdatedAt (now : ℤ) : MessageBoard := { board with updatedAt := now }

/-- Every operation but the observation of acknowledgements is refused when the session is
closed. -/
def ensureActive : Except SessionMessageError Unit :=
  ensure board.lifecycle.allowsMutation (.sessionClosed board.lifecycle)

end MessageBoard

/-- An operation that changes the board only when it succeeds. -/
def transact {A : Type} (operation : MessageBoard → Except SessionMessageError (MessageBoard × A))
    (board : MessageBoard) : MessageBoard × Except SessionMessageError A :=
  match operation board with
  | .error error => (board, .error error)
  | .ok (next, result) => (next, .ok result)

structure PostSessionMessageInput where
  kind : SessionMessageKind
  message : Str
  tags : List Str
  replyTo : Option Str
  priority : SessionMessagePriority

def newMessage (sessionId messageId : Str) (now : ℤ) (kind : SessionMessageKind)
    (priority : SessionMessagePriority) (message : Str) (tags : List Str) (replyTo : Option Str)
    (requiresAck : Bool) : SessionMessage :=
  { messageId := messageId
    sessionId := sessionId
    createdAt := now
    kind := kind
    status := .opened
    priority := priority
    message := message
    tags := tags
    replyTo := replyTo
    requiresAck := requiresAck
    firstAckObservedAt := none
    authorSessionId := none
    resolvedAt := none
    resolution := none
    closureKind := none
    supersededByMessageId := none
    supersedesMessageId := none
    resolvedByMessageId := none
    completionId := none }

/-- What `post_message` checks. -/
def checkPost (input : PostSessionMessageInput) (requiresAck : Bool) (board : MessageBoard) :
    Except SessionMessageError (Str × List Str) := do
  board.ensureActive
  ensure (!(requiresAck && (decide (input.kind ≠ .guidance) || decide (input.priority ≠ .high))))
    (.invalidInput "requires_ack is only valid for high-priority guidance")
  let message ← validateMessageText input.message
  let tags ← validateMessageTags input.tags
  ensure (input.replyTo.all fun replyTo ↦ (board.find replyTo).isSome) .unknownMessage
  let _ ← board.nextRevision 1
  pure (message, tags)

def postMessage (now : ℤ) (freshId : Str) (input : PostSessionMessageInput) (requiresAck : Bool) :
    MessageBoard → MessageBoard × Except SessionMessageError SessionMessage :=
  transact fun board ↦ do
    let (text, tags) ← checkPost input requiresAck board
    let message := newMessage board.sessionId freshId now input.kind input.priority text tags
      input.replyTo requiresAck
    pure ((((board.setUpdatedAt now).push message).evict fun _ ↦ false).1, message)

structure SessionAckObservation where
  acceptedIds : List Str
  (acceptedCount ignoredCount firstObservedCount : ℕ)
deriving DecidableEq

/-- Open guidance of high priority that asks for an acknowledgement. -/
def awaitsAck (messageId : Str) (message : SessionMessage) : Bool :=
  decide (message.messageId = messageId) && decide (message.status = .opened) &&
    decide (message.kind = .guidance) && decide (message.priority = .high) && message.requiresAck

/-- One round of the loop of `observe_message_acks`. -/
def observeAck (now : ℤ) (messageId : Str) (board : MessageBoard)
    (outcome : SessionAckObservation) : MessageBoard × SessionAckObservation :=
  match board.messages.find? (awaitsAck messageId) with
  | none => (board, { outcome with ignoredCount := outcome.ignoredCount + 1 })
  | some message =>
    if message.firstAckObservedAt.isSome then
      (board, { outcome with
        acceptedIds := outcome.acceptedIds ++ [messageId]
        acceptedCount := outcome.acceptedCount + 1 })
    else
      match board.nextRevision 1 with
      | .error _ => (board, { outcome with ignoredCount := outcome.ignoredCount + 1 })
      | .ok _ =>
        ((board.revise messageId fun found ↦
            { found with firstAckObservedAt := some now }).setUpdatedAt now,
          { acceptedIds := outcome.acceptedIds ++ [messageId]
            acceptedCount := outcome.acceptedCount + 1
            ignoredCount := outcome.ignoredCount
            firstObservedCount := outcome.firstObservedCount + 1 })

/-- The loop of `observe_message_acks`, with the ids that it has seen. -/
def observeAcksFrom (now : ℤ) : List Str → List Str → MessageBoard → SessionAckObservation →
    MessageBoard × SessionAckObservation
  | _, [], board, outcome => (board, outcome)
  | seen, messageId :: rest, board, outcome =>
    if seen.contains messageId then observeAcksFrom now seen rest board outcome
    else
      let next := observeAck now messageId board outcome
      observeAcksFrom now (messageId :: seen) rest next.1 next.2

/-- `observe_message_acks`. It does not look at the lifecycle of the session. -/
def observeMessageAcks (now : ℤ) (messageIds : List Str) (board : MessageBoard) :
    MessageBoard × SessionAckObservation :=
  observeAcksFrom now [] messageIds board ⟨[], 0, 0, 0⟩

/-! ### Withdrawing and replacing -/

/-- Kinds that the console may withdraw or replace. -/
def isConsoleKind (kind : SessionMessageKind) : Bool :=
  match kind with
  | .note => true
  | .guidance => true
  | .question => true
  | .todo => true
  | _ => false

def isUnclosed (message : SessionMessage) : Bool :=
  message.closureKind.isNone && message.supersededByMessageId.isNone &&
    message.completionId.isNone && message.resolvedByMessageId.isNone

structure WithdrawSessionMessageOutcome where
  message : SessionMessage
  replayed : Bool
deriving DecidableEq

/-- The message as it is after it has been withdrawn. -/
def withdrawn (now : ℤ) (message : SessionMessage) : SessionMessage :=
  { message with
    status := .resolved
    resolvedAt := some now
    closureKind := some .withdrawn }

def withdrawMessage (now : ℤ) (messageId : Str) :
    MessageBoard → MessageBoard × Except SessionMessageError WithdrawSessionMessageOutcome :=
  transact fun board ↦ do
    board.ensureActive
    let snapshot ← required (board.find messageId) .unknownMessage
    if snapshot.status = .resolved then
      ensure (decide (snapshot.closureKind = some .withdrawn)) .messageNotOpen
      pure (board, ⟨snapshot, true⟩)
    else
      ensure (isConsoleKind snapshot.kind)
        (.invalidInput "message kind cannot be withdrawn by the Runtime Console")
      ensure (isUnclosed snapshot) .messageNotOpen
      let _ ← board.nextRevision 1
      pure ((board.revise messageId (withdrawn now)).setUpdatedAt now,
        ⟨withdrawn now snapshot, false⟩)

structure ReplaceSessionMessageInput where
  (messageId message : Str)

structure ReplaceSessionMessageOutcome where
  (original replacement : SessionMessage)
  replayed : Bool
deriving DecidableEq

/-- The original as it is after it has been replaced. -/
def superseded (now : ℤ) (replacementId : Str) (message : SessionMessage) : SessionMessage :=
  { message with
    status := .resolved
    resolvedAt := some now
    closureKind := some .superseded
    supersededByMessageId := some replacementId }

/-- A replacement takes everything but the text from the original. -/
def replacementFor (now : ℤ) (freshId : Str) (original : SessionMessage) (sessionId text : Str) :
    SessionMessage :=
  { newMessage sessionId freshId now original.kind original.priority text original.tags
      original.replyTo original.requiresAck with
    supersedesMessageId := some original.messageId }

def replayReplacement (input : ReplaceSessionMessageInput) (text : Str) (original : SessionMessage)
    (board : MessageBoard) : Except SessionMessageError ReplaceSessionMessageOutcome := do
  ensure (decide (original.closureKind = some .superseded)) .messageNotOpen
  let replacementId ← required original.supersededByMessageId .idempotencyConflict
  let replacement ← required (board.find replacementId) .idempotencyConflict
  ensure (decide (replacement.supersedesMessageId = some input.messageId) &&
    decide (replacement.kind = original.kind) &&
    decide (replacement.priority = original.priority) &&
      decide (replacement.tags = original.tags) &&
    decide (replacement.replyTo = original.replyTo) &&
    decide (replacement.requiresAck = original.requiresAck) &&
    decide (replacement.message = text)) .idempotencyConflict
  pure ⟨original, replacement, true⟩

/-- What `replace_message` does after its checks. Original and replacement are not evicted. The
source changes the record before it looks for messages to evict, so this is the state even if none
is found. -/
def commitReplacement (now : ℤ) (freshId : Str) (text : Str) (original : SessionMessage)
    (board : MessageBoard) :
    MessageBoard × Except SessionMessageError ReplaceSessionMessageOutcome :=
  let replacement := replacementFor now freshId original board.sessionId text
  let evicted := ((board.revise original.messageId (superseded now freshId)).push replacement).evict
    fun message ↦ decide (message.messageId = original.messageId) ||
      decide (message.messageId = freshId)
  if evicted.2 then
    (evicted.1.setUpdatedAt now, .ok ⟨superseded now freshId original, replacement, false⟩)
  else (evicted.1, .error .invalidObservationState)

/-- What `replace_message` checks. A replay is answered at once. -/
def checkReplacement (input : ReplaceSessionMessageInput) (board : MessageBoard) :
    Except SessionMessageError (Str × SessionMessage × Option ReplaceSessionMessageOutcome) := do
  board.ensureActive
  let text ← validateMessageText input.message
  let original ← required (board.find input.messageId) .unknownMessage
  if original.status = .resolved then
    let outcome ← replayReplacement input text original board
    pure (text, original, some outcome)
  else
    ensure (isConsoleKind original.kind)
      (.invalidInput "message kind cannot be replaced by the Runtime Console")
    ensure (isUnclosed original) .messageNotOpen
    let _ ← board.nextRevision 2
    pure (text, original, none)

def replaceMessage (now : ℤ) (freshId : Str) (input : ReplaceSessionMessageInput)
    (board : MessageBoard) :
    MessageBoard × Except SessionMessageError ReplaceSessionMessageOutcome :=
  match checkReplacement input board with
  | .error error => (board, .error error)
  | .ok (_, _, some outcome) => (board, .ok outcome)
  | .ok (text, original, none) => commitReplacement now freshId text original board

/-- The message as it is after it has been resolved. -/
def resolvedWith (now : ℤ) (resolution : Option Str) (message : SessionMessage) : SessionMessage :=
  { message with
    status := .resolved
    resolvedAt := if message.status = .opened then some now else message.resolvedAt
    resolution := resolution.or message.resolution }

/-- `resolve_message`. A message that is resolved stays so; its resolution may be changed. -/
def resolveMessage (now : ℤ) (messageId : Str) (resolution : Option Str) :
    MessageBoard → MessageBoard × Except SessionMessageError (SessionMessage × Bool) :=
  transact fun board ↦ do
    board.ensureActive
    let found ← required (board.find messageId) .unknownMessage
    ensure found.closureKind.isNone .messageNotOpen
    let resolution ← match resolution with
      | some value => some <$> validateResolutionText value
      | none => pure none
    if found.status = .opened ∨ (resolution.isSome ∧ found.resolution ≠ resolution) then
      let _ ← board.nextRevision 1
      pure ((board.revise messageId (resolvedWith now resolution)).setUpdatedAt now,
        (resolvedWith now resolution found, true))
    else pure (board.setUpdatedAt now, (found, false))

def resolveMessageFromWrapper (now : ℤ) (messageId resolution : Str)
    (currentRequestAcknowledged : Bool) :
    MessageBoard → MessageBoard × Except SessionMessageError (SessionMessage × Bool) :=
  transact fun board ↦ do
    board.ensureActive
    let resolution ← validateResolutionText resolution
    ensure (!resolution.isEmpty)
      (.invalidInput "session_message_resolution.resolution must not be empty")
    let snapshot ← required (board.find messageId) .unknownMessage
    ensure snapshot.closureKind.isNone .messageNotOpen
    ensure (decide (snapshot.kind ≠ .todo)) (.invalidInput
      "todo messages require complete_session_message rather than session_message_resolution")
    if snapshot.status = .resolved then
      ensure (decide (snapshot.resolution = some resolution)) .idempotencyConflict
      pure (board, (snapshot, false))
    else
      ensure (!snapshot.requiresAck || currentRequestAcknowledged) (.invalidInput
        "requires_ack guidance must be acknowledged on the same request before wrapper resolution")
      let _ ← board.nextRevision 1
      pure ((board.revise messageId (resolvedWith now (some resolution))).setUpdatedAt now,
        (resolvedWith now (some resolution) snapshot, true))

end

/-! ### Assignments -/

/-- The hash functions of assignments: `encode_assignment_fence` of a digest of the thread,
`assignment_fence_fingerprint`, `validate_assignment_fence` and
`is_valid_assignment_fence_fingerprint`. What is hashed of a thread are the messages without the
times of their acknowledgements. -/
structure Fences where
  assignmentFence : (sessionId todoId : Str) → (todo : SessionMessage) → List SessionMessage → Str
  fingerprint : Str → Str
  isValidFence : Str → Bool
  isValidFingerprint : Str → Bool

/-- `hash_semantic_message`: what is hashed of a message. -/
def SessionMessage.semantic (message : SessionMessage) : SessionMessage :=
  { message with firstAckObservedAt := none }

structure AssignmentState where
  todo : SessionMessage
  directReplies : List SessionMessage
deriving DecidableEq

variable (board : MessageBoard)

/-- `retained_assignment_thread`: the todo, the direct replies that are returned, and their
number. -/
def retainedAssignmentThread (todoId : Str) :
    Except SessionMessageError (SessionMessage × List SessionMessage × ℕ) := do
  let todo ← required (board.find todoId) .unknownMessage
  ensure (decide (todo.kind = .todo)) .notTodo
  let replies := board.messages.filter fun message ↦ decide (message.replyTo = some todoId)
  pure (todo, replies.take maxSessionAssignmentDirectReplies, replies.length)

/-- A message has a revision that the board has given out. -/
def hasKnownRevision (message : SessionMessage) : Bool :=
  (board.messageObservationRevisions.lookup message.messageId).any fun revision ↦
    decide (revision ≤ board.messageObservationRevision)

def openAssignmentState (todoId : Str) :
    Except SessionMessageError AssignmentState := do
  let (todo, replies, replyCount) ← retainedAssignmentThread board todoId
  ensure (decide (todo.status = .opened)) .messageNotOpen
  ensure (todo.closureKind.isNone && todo.resolvedAt.isNone && todo.resolution.isNone &&
    todo.resolvedByMessageId.isNone && todo.completionId.isNone) .invalidCompletionState
  ensure (decide (replyCount ≤ maxSessionAssignmentDirectReplies))
    (.assignmentTooLarge replyCount maxSessionAssignmentDirectReplies ⟨todo, replies, true⟩)
  ensure (hasKnownRevision board todo) .invalidObservationState
  ensure (board.assignmentHistoryTrackingComplete && !board.assignmentHistoryFloors.has todoId)
    (.assignmentHistoryLost ⟨todo, replies, false⟩)
  ensure (replies.all (hasKnownRevision board)) .invalidObservationState
  pure ⟨todo, replies⟩

def currentAssignmentState (todoId : Str) :
    Except SessionMessageError SessionAssignmentCurrentState := do
  let (todo, replies, replyCount) ← retainedAssignmentThread board todoId
  pure ⟨todo, replies, decide (maxSessionAssignmentDirectReplies < replyCount)⟩

variable (fences : Fences)

def assignmentFenceFromState (sessionId todoId : Str) (state : AssignmentState) :
    Str :=
  fences.assignmentFence sessionId todoId state.todo.semantic
    (state.directReplies.map SessionMessage.semantic)

/-! ### Completing a todo -/

structure CompleteSessionMessageInput where
  (messageId answer : Str)
  tags : List Str
  priority : SessionMessagePriority
  completionId : Str
  authorSessionId : Option Str
  expectedAssignmentFence : Str

structure CompleteSessionMessageOutcome where
  (todo answer : SessionMessage)
  replayed : Bool
deriving DecidableEq

/-- The todo as it is after it has been completed. -/
def completedBy (now : ℤ) (answerId completionId : Str) (todo : SessionMessage) : SessionMessage :=
  { todo with
    status := .resolved
    resolvedAt := some now
    resolvedByMessageId := some answerId
    completionId := some completionId }

def answerFor (now : ℤ) (freshId sessionId text : Str) (tags : List Str)
    (input : CompleteSessionMessageInput) : SessionMessage :=
  { newMessage sessionId freshId now .answer input.priority text tags (some input.messageId)
      false with
    authorSessionId := input.authorSessionId }

def isAnswer (answerId todoId : Str) (message : SessionMessage) : Bool :=
  decide (message.messageId = answerId) && decide (message.kind = .answer) &&
    decide (message.replyTo = some todoId)

/-- The answer to a call for a todo that is resolved. -/
def replayCompletion (input : CompleteSessionMessageInput) (text : Str) (tags : List Str)
    (todo : SessionMessage) (board : MessageBoard) :
    Except SessionMessageError CompleteSessionMessageOutcome :=
  match todo.completionId, todo.resolvedByMessageId with
  | none, none => do
    let current ← currentAssignmentState board input.messageId
    .error (.assignmentStale current none)
  | some completionId, some answerId => do
    let answer ← required (board.messages.find? (isAnswer answerId input.messageId))
      .invalidCompletionState
    ensure (decide (completionId = input.completionId))
      (.alreadyCompleted (some answer.messageId) (some completionId))
    ensure (decide (answer.message = text) && decide (answer.tags = tags) &&
      decide (answer.priority = input.priority)) .idempotencyConflict
    match board.completionAssignmentFenceFingerprints.lookup input.messageId with
    | some (some stored) =>
      ensure (decide (stored = fences.fingerprint input.expectedAssignmentFence) &&
        decide (answer.authorSessionId = input.authorSessionId)) .idempotencyConflict
      pure ⟨todo, answer, true⟩
    | some none => .error .idempotencyConflict
    | none =>
      if board.completionAssignmentFenceTrackingComplete then .error .invalidCompletionState
      else .error .idempotencyConflict
  | _, _ => .error .invalidCompletionState

/-- What `complete_message` checks. A replay is answered at once. -/
def checkCompletion (input : CompleteSessionMessageInput) (board : MessageBoard) :
    Except SessionMessageError
      (Str × List Str × SessionMessage × Option CompleteSessionMessageOutcome) := do
  board.ensureActive
  ensure (isValidCompletionId input.completionId) (.invalidInput "completion identity is invalid")
  ensure (input.authorSessionId.all isValidSessionId)
    (.invalidInput "author session identity is invalid")
  let text ← validateMessageText input.answer
  let tags ← validateMessageTags input.tags
  let todo ← required (board.find input.messageId) .unknownMessage
  ensure (decide (todo.kind = .todo)) .notTodo
  ensure (fences.isValidFence input.expectedAssignmentFence) .invalidAssignmentFence
  if todo.status = .resolved then
    let outcome ← replayCompletion fences input text tags todo board
    pure (text, tags, todo, some outcome)
  else
    ensure (todo.completionId.isNone && todo.resolvedByMessageId.isNone) .invalidCompletionState
    let state ← openAssignmentState board input.messageId
    let fresh := assignmentFenceFromState fences board.sessionId input.messageId state
    if fresh ≠ input.expectedAssignmentFence then
      let current ← currentAssignmentState board input.messageId
      .error (.assignmentStale current (some fresh))
    else
      let _ ← board.nextRevision 2
      pure (text, tags, todo, none)

/-- The fingerprint of the fence of a completion is stored under its todo. -/
def MessageBoard.storeFence (todoId fingerprint : Str) : MessageBoard :=
  { board with
    completionAssignmentFenceFingerprints :=
      board.completionAssignmentFenceFingerprints.insert todoId (some fingerprint) }

/-- What `complete_message` does after its checks. The todo, its answer and its direct replies are
not evicted. The source changes the record before it looks for messages to evict. -/
def commitCompletion (now : ℤ) (freshId text : Str) (tags : List Str) (todo : SessionMessage)
    (input : CompleteSessionMessageInput) (board : MessageBoard) :
    MessageBoard × Except SessionMessageError CompleteSessionMessageOutcome :=
  let answer := answerFor now freshId board.sessionId text tags input
  let completed := ((board.revise input.messageId (completedBy now freshId input.completionId)).push
    answer).storeFence input.messageId (fences.fingerprint input.expectedAssignmentFence)
  let evicted := completed.evict fun message ↦ decide (message.messageId = input.messageId) ||
    decide (message.messageId = freshId) || decide (message.replyTo = some input.messageId)
  if evicted.2 then
    (evicted.1.setUpdatedAt now, .ok ⟨completedBy now freshId input.completionId todo,
      answer, false⟩)
  else (evicted.1, .error .invalidCompletionState)

def completeMessage (now : ℤ) (freshId : Str) (input : CompleteSessionMessageInput)
    (board : MessageBoard) :
    MessageBoard × Except SessionMessageError CompleteSessionMessageOutcome :=
  match checkCompletion fences input board with
  | .error error => (board, .error error)
  | .ok (_, _, _, some outcome) => (board, .ok outcome)
  | .ok (text, tags, todo, none) => commitCompletion fences now freshId text tags todo input board

end WebCodex.WorkflowSession
