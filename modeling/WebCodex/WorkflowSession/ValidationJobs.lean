import WebCodex.Foundation.Marks
import WebCodex.Registry.State
import WebCodex.WorkflowSession.ContextCheckpoints
import WebCodex.WorkflowSession.Restore

/-!
The end of a validation job enters the ledger of a session as an event. The session marks the jobs
that have entered, as many as a runner keeps ended jobs; a mark goes when the ended jobs no longer
name it. An active session is a record (hot), a closed one its persisted form (cold). What other
operations do to a record is a parameter that keeps its identity (`SessionMutation`).
-/

namespace WebCodex.WorkflowSession

open Foundation Foundation.Text
open Registry (RunnerJobLifecycle)
open String (utf8Len)

variable {C : Type}

def maxMaterializedValidationJobIds : ℕ := 64
def maxSummaryStringChars : ℕ := 240

/-- `SessionRecord`, with its project and the jobs whose results have entered. -/
structure MarkedRecord (C : Type) where
  session : SessionRecord C
  project : Option Str
  materializedValidationJobIds : List Str
deriving DecidableEq

/-- `StoredSession`. The text of a cold session is a persisted record, which has the same fields. -/
inductive StoredMarked (C : Type)
  | hot (record : MarkedRecord C)
  | cold (persisted : MarkedRecord C)
deriving DecidableEq

def isSafeJobId (jobId : Str) : Bool :=
  !(jobId.isEmpty || decide (80 < utf8Len jobId) || decide (['.', '.'] <:+: jobId)) &&
    jobId.all fun c ↦ c.isAlphanum || c == '-' || c == '_' || c == '.'

/-- The values seen for the first time from the end that are fit to be marks, the newest first. -/
def newestMarks (seen : List Str) : List Str → List Str
  | [] => []
  | value :: rest =>
    if trim value ≠ value || !isSafeJobId (trim value) ||
      seen.contains value then newestMarks seen rest
    else value :: newestMarks (value :: seen) rest

def sanitizeMaterializedValidationJobIds (values : List Str) : List Str :=
  ((newestMarks [] values.reverse).take maxMaterializedValidationJobIds).reverse

/-- `PersistedSessionRecord::from_record`. -/
def MarkedRecord.persisted (maxEvents : ℕ) (record : MarkedRecord C) : MarkedRecord C :=
  { record with session := record.session.persisted maxEvents }

def MarkedRecord.intoRecord (tidy : C → C) (maxEvents : ℕ) (persisted : MarkedRecord C) :
    Option (MarkedRecord C) := do
  let session ← PersistedSessionRecord.intoRecord tidy maxEvents persisted.session
  return {
    session := session
    project := persisted.project.map fun value ↦ boundChars (trim value) maxSummaryStringChars
    materializedValidationJobIds :=
      sanitizeMaterializedValidationJobIds persisted.materializedValidationJobIds }

/-- `cold_session_from_persisted`. -/
def coldMarked (persisted : MarkedRecord C) : Option (StoredMarked C) :=
  if isLowerHexSha256 persisted.session.ownerAuthorityFingerprint then some
    (.cold persisted) else none

/-- An operation on the record of a session that keeps its id, its owner and its lifecycle. -/
structure SessionMutation (C : Type) where
  apply : ℕ → SessionRecord C → Option (SessionRecord C)
  keeps : ∀ maxEvents record next, apply maxEvents record = some next →
    next.sessionId = record.sessionId ∧
      next.ownerAuthorityFingerprint = record.ownerAuthorityFingerprint ∧
      next.lifecycle = record.lifecycle

def SessionMutation.pushEvent (now : ℤ) (event : SessionEvent C) : SessionMutation C where
  apply maxEvents record := some ({ record with updatedAt := now }.pushBack maxEvents event)
  keeps := by
    rintro maxEvents record _ ⟨⟩
    exact ⟨rfl, rfl, rfl⟩

namespace StoredMarked

/-- `coldify_closed_session`. -/
def coldify (maxEvents : ℕ) (record : MarkedRecord C) : StoredMarked C :=
  if record.session.lifecycle.allowsMutation then hot record
  else (coldMarked (record.persisted maxEvents)).getD (hot record)

/-- A change of the record under the lock of the store, when no other change comes in between: a hot
record is changed in place and made cold when it is closed, a cold one is rewritten. -/
def change (tidy : C → C) (maxEvents : ℕ) (mutate : MarkedRecord C → Option (MarkedRecord C)) :
    StoredMarked C → Option (StoredMarked C)
  | hot record => (mutate record).map (coldify maxEvents)
  | cold persisted => do
    let record ← persisted.intoRecord tidy maxEvents
    let next ← mutate record
    coldMarked (next.persisted maxEvents)

/-- The operations that leave marks and project alone. -/
def mutateOther (tidy : C → C) (maxEvents : ℕ) (mutation : SessionMutation C)
    (stored : StoredMarked C) : StoredMarked C :=
  (stored.change tidy maxEvents fun record ↦
    (mutation.apply maxEvents record.session).map fun session ↦
      { record with session := session }).getD stored

/-- The commit of `close_session`, and the cold swap after it. -/
def close (maxEvents : ℕ) (now : ℤ) (event : SessionEvent C) : StoredMarked C → StoredMarked C
  | hot record =>
    if record.session.lifecycle.allowsMutation then
      coldify maxEvents
        { record with
          session := { record.session with lifecycle := .closed, updatedAt := now }.pushBack
            maxEvents event }
    else coldify maxEvents record
  | cold persisted => cold persisted

/-- What the ledger file holds of a session, and the restore of it. -/
def restart (tidy : C → C) (maxEvents newMaxEvents : ℕ) (stored : StoredMarked C) :
    Option (StoredMarked C) := do
  let persisted := match stored with
    | hot record => record.persisted maxEvents
    | cold persisted => persisted
  let record ← persisted.intoRecord tidy newMaxEvents
  if record.session.lifecycle.allowsMutation then some (hot record)
  else (coldMarked (record.persisted newMaxEvents)).or (some (hot record))

end StoredMarked

def validationIdentityHexLen : ℕ := 24

/-- `is_validation_execution_identity`: one of three prefixes and hexadecimal digits. -/
def isValidationExecutionIdentity (value : Str) : Bool :=
  ["target:".toList, "command:".toList, "assertion:".toList].any fun kind ↦
    kind.isPrefixOf value && decide ((value.drop kind.length).length = validationIdentityHexLen) &&
      (value.drop kind.length).all fun c ↦
        c.isDigit || ('a' ≤ c && c ≤ 'f') || ('A' ≤ c && c ≤ 'F')

def validationTools : List String :=
  ["cargo_fmt", "cargo_check", "cargo_test", "go_test", "run_process", "run_script", "run_shell",
    "run_job"]

/-- The arguments of `record_validation_job_terminal`, with the id and the content of the event that
is built from them. -/
structure ValidationJobTerminal (C : Type) where
  jobId : Str
  retainedTerminalJobIds : List Str
  toolName : String
  project : Option Str
  validationTargetId : Str
  jobStatus : String
  finishedAt : Option ℤ
  suffix : Str
  content : C

/-- The time of the event, when the arguments are valid. -/
def ValidationJobTerminal.accepted (sessionId : Str) (call : ValidationJobTerminal C) :
    Option ℤ := do
  let timestamp ← call.finishedAt
  let lifecycle ← RunnerJobLifecycle.fromWire call.jobStatus
  if isValidSessionId sessionId && isSafeJobId (trim call.jobId) &&
      decide (call.retainedTerminalJobIds.length ≤ maxMaterializedValidationJobIds) &&
      (call.retainedTerminalJobIds.all fun candidate ↦
        candidate == trim candidate && isSafeJobId candidate) &&
      call.retainedTerminalJobIds.contains (trim call.jobId) &&
      validationTools.contains call.toolName &&
      isValidationExecutionIdentity call.validationTargetId &&
      lifecycle.isTerminal then
    some timestamp
  else none

/-- `append_validation_job_terminal_to_record`. -/
def MarkedRecord.appendValidationJobTerminal (jobId : Str) (retainedTerminalJobIds : List Str)
    (project : Option Str) (event : SessionEvent C) (timestamp : ℤ) (maxEvents : ℕ)
    (record : MarkedRecord C) : Option (MarkedRecord C) :=
  if record.project ≠ project || record.materializedValidationJobIds.contains jobId then none
  else do
    let room ← makeRoom maxMaterializedValidationJobIds retainedTerminalJobIds
      record.materializedValidationJobIds
    return { record with
      session := { record.session with
        updatedAt := max record.session.updatedAt timestamp }.pushBack maxEvents event
      materializedValidationJobIds := room ++ [jobId] }

/-- `record_validation_job_terminal`, on a session that is stored. It answers whether the event was
appended. -/
def StoredMarked.recordValidationJobTerminal (tidy : C → C) (maxEvents : ℕ) (sessionId : Str)
    (call : ValidationJobTerminal C) (stored : StoredMarked C) : StoredMarked C × Bool :=
  match call.accepted sessionId with
  | none => (stored, false)
  | some timestamp =>
    let event := newEvent sessionId call.suffix timestamp call.content
    match stored.change tidy maxEvents (MarkedRecord.appendValidationJobTerminal (trim call.jobId)
      call.retainedTerminalJobIds call.project event timestamp maxEvents) with
    | some next => (next, true)
    | none => (stored, false)

end WebCodex.WorkflowSession
