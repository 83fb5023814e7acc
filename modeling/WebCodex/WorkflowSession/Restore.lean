import WebCodex.WorkflowSession.Messages

/-!
The ledger keeps the messages of a session and what the board knows about them. Reading it back
checks everything again: every message is sanitised, messages with the same id are dropped, and
revisions that do not fit together are given up, in which case the floor rises to the current
revision. The JSON text in between is taken to be faithful, so the persisted form is a record.
-/

namespace WebCodex.WorkflowSession

open Foundation Foundation.Text

def boundChars (value : Str) (maxChars : ℕ) : Str :=
  if maxChars < value.length then value.take maxChars ++ "...".toList else value

def isValidPersistedMessageId (messageId : Str) : Bool :=
  messageIdPrefix.isPrefixOf messageId && decide (messageIdPrefix.length < messageId.length) &&
    (messageId.drop messageIdPrefix.length).all isAsciiAlphanumericOrUnderscore

/-- A message id that is only known by its prefix. -/
def sanitizeLink (messageId : Str) : Option Str :=
  if messageIdPrefix.isPrefixOf (trim messageId) then some (trim messageId) else none

def sanitizeStrictLink (messageId : Str) : Option Str :=
  if isValidPersistedMessageId (trim messageId) then some (trim messageId) else none

def sanitizeAuthor (authorSessionId : Str) : Option Str :=
  if isValidSessionId (trim authorSessionId) then some (trim authorSessionId) else none

def toAsciiLowercase (value : Str) : Str :=
  value.map fun c ↦ if 'A' ≤ c ∧ c ≤ 'Z' then Char.ofNat (c.toNat + 32) else c

/-- A completion id that is not valid is kept as a marker. -/
def sanitizeCompletionId (completionId : Str) : Str :=
  let value := toAsciiLowercase (trim completionId)
  if isValidCompletionId value then value else "invalid".toList

def sanitizePersistedMessage (sessionId : Str) (message : SessionMessage) : Option SessionMessage :=
  if message.sessionId ≠ sessionId ∨ messageIdPrefix.isPrefixOf message.messageId = false then none
  else
    let requiresAck := message.requiresAck && decide (message.kind = .guidance) &&
      decide (message.priority = .high)
    let link := message.supersededByMessageId.bind sanitizeStrictLink
    some { message with
      message := boundChars (trim message.message) maxMessageChars
      tags := match validateMessageTags message.tags with
        | .ok tags => tags
        | .error _ => []
      requiresAck := requiresAck
      firstAckObservedAt := message.firstAckObservedAt.filter fun time ↦
        decide (0 < time) && requiresAck
      replyTo := message.replyTo.bind sanitizeLink
      authorSessionId := message.authorSessionId.bind sanitizeAuthor
      resolvedByMessageId := message.resolvedByMessageId.bind sanitizeLink
      supersedesMessageId := message.supersedesMessageId.bind sanitizeStrictLink
      closureKind := if message.status = .resolved then message.closureKind else none
      supersededByMessageId :=
        if message.status = .resolved ∧ message.closureKind = some .superseded then link else none
      completionId := message.completionId.map sanitizeCompletionId
      resolution := message.resolution.map fun resolution ↦
        boundChars (trim resolution) maxMessageResolutionChars }

/-- The part of `PersistedSessionRecord` that belongs to the board. -/
structure PersistedBoard where
  sessionId : Str
  lifecycle : SessionLifecycle
  (createdAt updatedAt : ℤ)
  messages : List SessionMessage
  (messageObservationRevision messageObservationFloor : ℕ)
  (messageObservationRevisions assignmentHistoryFloors : Table Str ℕ)
  assignmentHistoryTrackingComplete : Bool
  completionAssignmentFenceFingerprints : Table Str (Option Str)
  completionAssignmentFenceTrackingComplete : Bool

/-- `from_record`. Only fingerprints that are there are written. -/
def PersistedBoard.fromRecord (board : MessageBoard) : PersistedBoard :=
  { sessionId := board.sessionId
    lifecycle := board.lifecycle
    createdAt := board.createdAt
    updatedAt := board.updatedAt
    messages := board.messages.drop (board.messages.length - defaultMaxMessagesPerSession)
    messageObservationRevision := board.messageObservationRevision
    messageObservationFloor := board.messageObservationFloor
    messageObservationRevisions := board.messageObservationRevisions
    assignmentHistoryFloors := board.assignmentHistoryFloors
    assignmentHistoryTrackingComplete := board.assignmentHistoryTrackingComplete
    completionAssignmentFenceFingerprints :=
      board.completionAssignmentFenceFingerprints.keep fun _ fingerprint ↦ fingerprint.isSome
    completionAssignmentFenceTrackingComplete := board.completionAssignmentFenceTrackingComplete }

/-- What is known about the revisions of the messages that were read back. -/
structure RestoredObservation where
  floor : ℕ
  revisions : Table Str ℕ
  consistent : Bool

def zeroRevisions (ids : List Str) (table : Table Str ℕ) : Table Str ℕ :=
  ids.foldl (fun known id ↦ known.insert id 0) table

/-- The revisions that are kept, and the floor, when the current revision is positive. Anything that
does not fit gives up all revisions. -/
def restoreObservation (persisted : PersistedBoard) (retainedIds : List Str) (duplicates : Bool) :
    RestoredObservation :=
  let current := persisted.messageObservationRevision
  let revisions := persisted.messageObservationRevisions
  let kept := revisions.keep fun id revision ↦
    decide (revision ≤ current) && retainedIds.contains id
  let lost := revisions.keep fun id revision ↦
    decide (revision ≤ current) && !retainedIds.contains id
  let floor := lost.values.foldl max (min persisted.messageObservationFloor current)
  let missing := retainedIds.filter fun id ↦ !kept.has id
  let known := zeroRevisions missing kept
  let highest := known.values.foldl max floor
  let consistent := !duplicates && revisions.values.all
    (fun revision ↦ decide (revision ≤ current)) && decide (kept.values.filter (0 < ·)).Nodup &&
      missing.isEmpty && decide (highest = current)
  if consistent then ⟨floor, known, true⟩
  else ⟨current, zeroRevisions retainedIds ∅, false⟩

/-- `into_record`, as far as the board is concerned. -/
def PersistedBoard.intoRecord (fences : Fences) (persisted : PersistedBoard) :
    Option MessageBoard :=
  let sessionId := trim persisted.sessionId
  if isValidSessionId sessionId = false then none
  else
    let sanitized := persisted.messages.filterMap (sanitizePersistedMessage sessionId)
    let recent := sanitized.drop (sanitized.length - defaultMaxMessagesPerSession)
    let recentIds := recent.map SessionMessage.messageId
    let duplicates := !decide recentIds.Nodup
    let messages := recent.filter fun message ↦ decide (recentIds.count message.messageId = 1)
    let allRestored := !duplicates && decide (recent.length = persisted.messages.length)
    let retainedIds := messages.map SessionMessage.messageId
    let current := persisted.messageObservationRevision
    let observation := if 0 < current then restoreObservation persisted retainedIds duplicates
      else ⟨0, zeroRevisions retainedIds ∅, true⟩
    let retainedTodoIds := (messages.filter fun message ↦ decide (message.kind = .todo)).map
      SessionMessage.messageId
    let isKnownFloor := fun (todoId : Str) (revision : ℕ) ↦
      decide (0 < revision) && decide (revision ≤ current) && retainedTodoIds.contains todoId
    let floors := if 0 < current then persisted.assignmentHistoryFloors.keep isKnownFloor else ∅
    let floorsComplete := if 0 < current then
        observation.consistent &&
          persisted.assignmentHistoryFloors.entries.all fun entry ↦ isKnownFloor entry.1 entry.2
      else true
    let completedIds := (messages.filter fun message ↦ decide (message.kind = .todo) &&
      decide (message.status = .resolved) && message.completionId.isSome &&
      message.resolvedByMessageId.isSome).map SessionMessage.messageId
    let isKnownFence := fun (todoId : Str) (fingerprint : Option Str) ↦
      completedIds.contains todoId && fingerprint.any fences.isValidFingerprint
    let fingerprints := persisted.completionAssignmentFenceFingerprints.keep isKnownFence
    let fencesConsistent := (persisted.completionAssignmentFenceFingerprints.entries.all fun entry ↦
        isKnownFence entry.1 entry.2) &&
      !(persisted.completionAssignmentFenceTrackingComplete &&
        completedIds.any fun todoId ↦ !fingerprints.has todoId)
    some
      { sessionId := sessionId
        lifecycle := persisted.lifecycle
        createdAt := persisted.createdAt
        updatedAt := max persisted.updatedAt persisted.createdAt
        messages := messages
        messageObservationRevision := current
        messageObservationFloor := observation.floor
        messageObservationRevisions := observation.revisions
        assignmentHistoryFloors := floors
        assignmentHistoryTrackingComplete := allRestored && floorsComplete &&
          persisted.assignmentHistoryTrackingComplete
        completionAssignmentFenceFingerprints := fingerprints
        completionAssignmentFenceTrackingComplete := allRestored &&
          persisted.completionAssignmentFenceTrackingComplete && fencesConsistent }

end WebCodex.WorkflowSession
