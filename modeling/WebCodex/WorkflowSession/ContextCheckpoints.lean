import WebCodex.Foundation.Numbering
import WebCodex.WorkflowSession.Messages

/-!
A session keeps a bounded ledger of events and a context revision. A result that is a checkpoint
takes the next revision and keeps it in its event. A caller that knows the checkpoints up to some
revision is handed the later ones, and is told when some have been evicted. An active session is a
record (hot), a closed one its persisted form (cold), turned into a record for each change. The
content of events is a parameter, with the function that sanitises it.
-/

namespace WebCodex.WorkflowSession

open Foundation Foundation.Text

variable {C : Type}

def eventIdPrefix : Str := "evt_".toList

/-- `SessionEvent`, with what it says besides as one component. -/
structure SessionEvent (C : Type) where
  (eventId sessionId : Str)
  contextRevision : Option ℕ
  timestamp : ℤ
  content : C
deriving DecidableEq

/-- `SessionRecord`, as far as events and the context revision are concerned. -/
structure SessionRecord (C : Type) where
  (sessionId ownerAuthorityFingerprint : Str)
  lifecycle : SessionLifecycle
  (createdAt updatedAt : ℤ)
  events : List (SessionEvent C)
  (eventsObserved contextRevision : ℕ)
deriving DecidableEq

/-- `PersistedSessionRecord` has the same fields. -/
abbrev PersistedSessionRecord (C : Type) := SessionRecord C

/-- `StoredSession`. The text of a cold session is a persisted record. -/
inductive StoredSession (C : Type)
  | hot (record : SessionRecord C)
  | cold (persisted : PersistedSessionRecord C)
deriving DecidableEq

/-- `u64::saturating_add(1)` and `u64::checked_add(1)`. -/
def saturatingSucc (count : ℕ) : ℕ := min (count + 1) (2 ^ 64 - 1)

def checkedSucc (count : ℕ) : Option ℕ := if count + 1 < 2 ^ 64 then some (count + 1) else none

/-- The newest events up to a bound: what the eviction loops leave. -/
def newest (maxEvents : ℕ) (events : List (SessionEvent C)) : List (SessionEvent C) :=
  events.drop (events.length - maxEvents)

theorem newest_eq_self {maxEvents : ℕ} {events : List (SessionEvent C)}
    (h : events.length ≤ maxEvents) : newest maxEvents events = events := by
  rw [newest, Nat.sub_eq_zero_of_le h, List.drop_zero]

theorem length_newest_le {maxEvents : ℕ} (events : List (SessionEvent C)) :
    (newest maxEvents events).length ≤ maxEvents := by
  rw [newest, List.length_drop]
  omega

namespace SessionRecord

/-- An event at the end of the ledger, and the oldest ones evicted. -/
def pushBack (maxEvents : ℕ) (event : SessionEvent C) (record : SessionRecord C) :
    SessionRecord C :=
  { record with
    events := newest maxEvents (record.events ++ [event])
    eventsObserved := saturatingSucc record.eventsObserved }

/-- `PersistedSessionRecord::from_record`. -/
def persisted (maxEvents : ℕ) (record : SessionRecord C) : PersistedSessionRecord C :=
  { record with events := newest maxEvents record.events }

end SessionRecord

def isLowerHexSha256 (value : Str) : Bool :=
  decide (value.length = 64) && value.all fun c ↦ ('0' ≤ c && c ≤ '9') || ('a' ≤ c && c ≤ 'f')

variable (tidy : C → C)

/-- `sanitize_persisted_event`: an event of another session or with another kind of id is
dropped. -/
def sanitizePersistedEvent (sessionId : Str) (event : SessionEvent C) :
    Option (SessionEvent C) :=
  if event.sessionId ≠ sessionId || !eventIdPrefix.isPrefixOf event.eventId then none
  else some { event with content := tidy event.content }

def retainedContextRevision (events : List (SessionEvent C)) : ℕ :=
  ((events.filterMap SessionEvent.contextRevision).max?).getD 0

variable (maxEvents : ℕ)

def PersistedSessionRecord.intoRecord (persisted : PersistedSessionRecord C) :
    Option (SessionRecord C) :=
  let sessionId := trim persisted.sessionId
  if isValidSessionId sessionId = false ∨
      isLowerHexSha256 persisted.ownerAuthorityFingerprint = false then none
  else
    let events := newest maxEvents
      (persisted.events.filterMap (sanitizePersistedEvent tidy sessionId))
    some
      { sessionId := sessionId
        ownerAuthorityFingerprint := persisted.ownerAuthorityFingerprint
        lifecycle := persisted.lifecycle
        createdAt := persisted.createdAt
        updatedAt := max persisted.updatedAt persisted.createdAt
        events := events
        eventsObserved := max persisted.eventsObserved events.length
        contextRevision := max persisted.contextRevision (retainedContextRevision events) }

def coldSessionFromPersisted (persisted : PersistedSessionRecord C) : Option (StoredSession C) :=
  if isLowerHexSha256 persisted.ownerAuthorityFingerprint then some (.cold persisted) else none

/-- An event of a session, as all writers build it. -/
def newEvent (sessionId suffix : Str) (timestamp : ℤ) (content : C) : SessionEvent C where
  eventId := eventIdPrefix ++ suffix
  sessionId := sessionId
  contextRevision := none
  timestamp := timestamp
  content := content

namespace StoredSession

def contextRevision : StoredSession C → ℕ
  | hot record => record.contextRevision
  | cold persisted => persisted.contextRevision

/-- `coldify_closed_session`. -/
def coldify (maxEvents : ℕ) : StoredSession C → StoredSession C
  | hot record =>
    if record.lifecycle.allowsMutation then hot record
    else (coldSessionFromPersisted (record.persisted maxEvents)).getD (hot record)
  | cold persisted => cold persisted

variable (tidy : C → C) (maxEvents : ℕ)

/-- `rewrite_cold_record`, when no other change comes in between. -/
def rewriteCold (mutate : SessionRecord C → Option (SessionRecord C))
    (persisted : PersistedSessionRecord C) :
    StoredSession C :=
  let rewritten := do
    let record ← PersistedSessionRecord.intoRecord tidy maxEvents persisted
    let next ← mutate record
    coldSessionFromPersisted (next.persisted maxEvents)
  rewritten.getD (cold persisted)

/-- A change of a record under the lock of the store: a hot record is changed in place and made cold
when it is closed, a cold one is rewritten. -/
def change (mutate : SessionRecord C → Option (SessionRecord C)) :
    StoredSession C → StoredSession C
  | hot record =>
    match mutate record with
    | some next => (hot next).coldify maxEvents
    | none => hot record
  | cold persisted => rewriteCold tidy maxEvents mutate persisted

def pushEvent (now : ℤ) (event : SessionEvent C) :
    StoredSession C → StoredSession C :=
  change tidy maxEvents fun record ↦
    some ({ record with updatedAt := now }.pushBack maxEvents event)

/-- `set_event_permission` and `set_session_close_persistent_shell_evidence`: the last event of a
kind says something else. The second one sets the time of the record as well. -/
def amendEvent (now : Option ℤ) (isAmended : SessionEvent C → Bool) (amend : C → C) :
    StoredSession C → StoredSession C :=
  change tidy maxEvents fun record ↦
    if record.events.any isAmended then
      some { record with
        updatedAt := now.getD record.updatedAt
        events := (updateFirst isAmended (fun event ↦ { event with content := amend event.content })
          record.events.reverse).reverse }
    else none

/-- The commit of `close_session`, and the cold swap after it. -/
def close (now : ℤ) (event : SessionEvent C) : StoredSession C → StoredSession C
  | hot record =>
    if record.lifecycle.allowsMutation then
      (hot ({ record with lifecycle := .closed, updatedAt := now }.pushBack maxEvents
        event)).coldify maxEvents
    else (hot record).coldify maxEvents
  | cold persisted => cold persisted

/-- A change of the other fields of a record. -/
def mutateOther (updatedAt : ℤ) :
    StoredSession C → StoredSession C :=
  change tidy maxEvents fun record ↦ some { record with updatedAt := updatedAt }

/-- What the ledger file holds of a session, and the restore of it. -/
def restart (newMaxEvents : ℕ) (stored : StoredSession C) :
    Option (StoredSession C) := do
  let persisted := match stored with
    | hot record => record.persisted maxEvents
    | cold persisted => persisted
  let record ← PersistedSessionRecord.intoRecord tidy newMaxEvents persisted
  if record.lifecycle.allowsMutation then some (hot record)
  else (coldSessionFromPersisted (record.persisted newMaxEvents)).or (some (hot record))

end StoredSession

inductive SessionContextRevisionAck
  | unsupported
  | unacknowledged
  | revision (acknowledged : ℕ)
  | invalid
deriving DecidableEq

/-- What `ToolCallStart` keeps for the context: the revision when the call started, whether its
result is a checkpoint, and what the caller acknowledges. -/
structure ToolCallStart where
  preCallContextRevision : ℕ
  advancesContextCheckpoint : Bool
  ackSessionContextRevision : SessionContextRevisionAck
deriving DecidableEq

structure SessionToolContract where
  (advancesContextCheckpoint acceptsContextAck : Bool)
deriving DecidableEq

/-- `record_tool_call_started_with_metadata`: the start of a call, which pushes an event of its
own. -/
def recordToolCallStarted (now : ℤ) (event : SessionEvent C) (ack : SessionContextRevisionAck)
    (contract : SessionToolContract) (stored : StoredSession C) :
    ToolCallStart × StoredSession C :=
  ({ preCallContextRevision := stored.contextRevision
     advancesContextCheckpoint := contract.advancesContextCheckpoint
     ackSessionContextRevision := if contract.acceptsContextAck then ack else .unsupported },
    stored.pushEvent tidy maxEvents now event)

structure RecordedModelFacingToolCall (C : Type) where
  sessionId : Str
  (contextRevision preResponseContextRevision : ℕ)
  checkpointAdvanced : Bool
  preCallContextRevision : ℕ
  ackSessionContextRevision : SessionContextRevisionAck
  recoveryEvents : List (SessionEvent C)
  historyLost : Bool
deriving DecidableEq

/-- The revision that the caller is known to have seen. -/
def ToolCallStart.provenRevision (start : ToolCallStart) : Option ℕ :=
  match start.ackSessionContextRevision with
  | .revision acknowledged =>
    if acknowledged ≤ start.preCallContextRevision then some acknowledged else none
  | _ => none

/-- The body of `push_model_facing_event`, on a record. -/
def SessionRecord.pushModelFacing (event : SessionEvent C) (start : ToolCallStart)
    (record : SessionRecord C) : Option (RecordedModelFacingToolCall C × SessionRecord C) :=
  if record.contextRevision < start.preCallContextRevision then none
  else do
    let preResponse := record.contextRevision
    let revision ← if start.advancesContextCheckpoint then checkedSucc preResponse
      else some preResponse
    let recoveryStart := start.provenRevision.getD preResponse
    let recoveryEvents :=
      Numbering.between SessionEvent.contextRevision recoveryStart preResponse record.events
    let expectedRecoveryCount := match start.provenRevision with
      | some acknowledged => preResponse - acknowledged
      | none => 0
    let result := { event with
      contextRevision := if start.advancesContextCheckpoint then some revision else none }
    some
      ({ sessionId := event.sessionId
         contextRevision := revision
         preResponseContextRevision := preResponse
         checkpointAdvanced := start.advancesContextCheckpoint
         preCallContextRevision := start.preCallContextRevision
         ackSessionContextRevision := start.ackSessionContextRevision
         recoveryEvents := recoveryEvents
         historyLost := decide (recoveryEvents.length < expectedRecoveryCount) },
        { record with
          contextRevision := if start.advancesContextCheckpoint then revision
            else record.contextRevision
          updatedAt := max record.updatedAt event.timestamp }.pushBack maxEvents result)

/-- `push_model_facing_event`. -/
def StoredSession.pushModelFacing (event : SessionEvent C) (start : ToolCallStart) :
    StoredSession C → Option (RecordedModelFacingToolCall C × StoredSession C)
  | .hot record => do
    let (recorded, next) ← record.pushModelFacing maxEvents event start
    some (recorded, .hot next)
  | .cold persisted => do
    let record ← PersistedSessionRecord.intoRecord tidy maxEvents persisted
    let (recorded, next) ← record.pushModelFacing maxEvents event start
    let cold ← coldSessionFromPersisted (next.persisted maxEvents)
    some (recorded, cold)

end WebCodex.WorkflowSession
