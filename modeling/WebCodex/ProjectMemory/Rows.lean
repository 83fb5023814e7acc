import WebCodex.ProjectMemory.Contract

/-!
Two tables hold the memories and, for each scope with memories, who the scope belongs to. Whatever
is read is checked again, and one row that fails a check makes the whole read fail: the answer is
then that the database is unavailable.
-/

namespace WebCodex.ProjectMemory

open Foundation Foundation.Text

/-- A row of `project_memories`. -/
structure MemoryRow where
  (memoryId memoryScopeId memoryKey summary body priority : Str)
  bootstrap : ℤ
  (tagsJson definitionHash : Str)
  generation : ℤ
  revision : Str
  (createdAtUnixMs updatedAtUnixMs : ℤ)
  createdByKind : Str
  createdByPrincipalDigest : Option Str
  updatedByKind : Str
  updatedByPrincipalDigest : Option Str
deriving DecidableEq

/-- A row of `project_memory_scopes`. -/
structure ScopeRow where
  (memoryScopeId identityState : Str)
  (projectRuntimeId runnerClientId rootFingerprint : Option Str)
  (createdAtUnixMs lastMutatedAtUnixMs : ℤ)
deriving DecidableEq

structure Tables where
  memories : List MemoryRow
  scopes : List ScopeRow
deriving DecidableEq

def Tables.empty : Tables := ⟨[], []⟩

/-- SQLite's `length` of a text: the characters before the first NUL. -/
def sqlLength (s : Str) : ℕ := (s.takeWhile (· ≠ '\x00')).length

/-- `COALESCE(length(..), 0)`. -/
def sqlLength? (s : Option Str) : ℕ := (s.map sqlLength).getD 0

/-- The lengths that `parse_scope_row` checks before it reads a text. -/
def ScopeRow.lengthsOk (row : ScopeRow) : Bool :=
  decide (sqlLength row.memoryScopeId = memoryScopePrefix.length + 64) &&
    decide (sqlLength row.identityState ≤ memoryScopeIdentityAttributed.length) &&
    decide (sqlLength? row.projectRuntimeId ≤ maxMemoryProjectRuntimeIdChars) &&
    decide (sqlLength? row.runnerClientId ≤ maxMemoryRunnerClientIdChars) &&
    (decide (sqlLength? row.rootFingerprint = 0) ||
      decide (sqlLength? row.rootFingerprint = memoryRootFingerprintPrefix.length + 64))

/-- `parse_scope_row`. All its callers answer `DatabaseUnavailable` when it fails. -/
def parseScopeRow (row : ScopeRow) : Fallible ProjectMemoryScopeRecord := do
  ensure row.lengthsOk .databaseUnavailable
  ensure (validateScope row.memoryScopeId).isOk .databaseUnavailable
  validateTimestampPair row.createdAtUnixMs row.lastMutatedAtUnixMs
  ensure (row.identityState = memoryScopeIdentityAttributed) .databaseUnavailable
  let projectRuntimeId ← required row.projectRuntimeId .databaseUnavailable
  let runnerClientId ← required row.runnerClientId .databaseUnavailable
  let rootFingerprint ← required row.rootFingerprint .databaseUnavailable
  validateScopeAttribution ⟨projectRuntimeId, runnerClientId, rootFingerprint⟩
  pure
    { memoryScopeId := row.memoryScopeId
      identityState := row.identityState
      projectRuntimeId := row.projectRuntimeId
      runnerClientId := row.runnerClientId
      rootFingerprint := row.rootFingerprint
      createdAtUnixMs := row.createdAtUnixMs
      lastMutatedAtUnixMs := row.lastMutatedAtUnixMs }

/-- The lengths that `parse_row` checks before it reads a text. -/
def MemoryRow.lengthsOk (row : MemoryRow) : Bool :=
  decide (sqlLength row.memoryId = memoryIdPrefix.length + 32) &&
    decide (sqlLength row.memoryScopeId = memoryScopePrefix.length + 64) &&
    decide (sqlLength row.definitionHash = memoryDefinitionHashPrefix.length + 64) &&
    decide (sqlLength row.revision = memoryRevisionPrefix.length + 64) &&
    decide (sqlLength row.memoryKey ≤ maxMemoryKeyChars) &&
    decide (sqlLength row.summary ≤ maxMemorySummaryChars) &&
    decide (String.utf8Len row.body ≤ maxMemoryBodyBytes) &&
    decide (sqlLength row.priority ≤ 6) &&
    decide (String.utf8Len row.tagsJson ≤ maxMemoryTagsJsonBytes) &&
    decide (sqlLength row.createdByKind ≤ maxMemoryPrincipalKindChars) &&
    decide (sqlLength? row.createdByPrincipalDigest ≤ memoryPrincipalDigestPrefix.length + 64) &&
    decide (sqlLength row.updatedByKind ≤ maxMemoryPrincipalKindChars) &&
    decide (sqlLength? row.updatedByPrincipalDigest ≤ memoryPrincipalDigestPrefix.length + 64)

variable (functions : MemoryFunctions)

/-- `parse_row`. All its callers answer `DatabaseUnavailable` when it fails. -/
def parseRow (expectedScope : Str) (row : MemoryRow) : Fallible ProjectMemoryRecord := do
  ensure row.lengthsOk .databaseUnavailable
  validateMemoryId row.memoryId
  ensure (validateScope row.memoryScopeId).isOk .databaseUnavailable
  ensure (row.memoryScopeId = expectedScope) .databaseUnavailable
  ensure (validMemoryKey row.memoryKey) .databaseUnavailable
  ensure (validMemorySummary row.summary) .databaseUnavailable
  ensure (validMemoryBody row.body) .databaseUnavailable
  let priority ← required (MemoryPriority.parse row.priority) .databaseUnavailable
  ensure (row.bootstrap = 0 || row.bootstrap = 1) .databaseUnavailable
  let bootstrap : Bool := row.bootstrap = 1
  let tags ← parseCanonicalTagsJson functions row.tagsJson
  validateMemoryDefinitionHash row.definitionHash
  ensure (1 ≤ row.generation) .databaseUnavailable
  let generation := row.generation.toNat
  ensure (validateMemoryRevision row.revision).isOk .databaseUnavailable
  validateTimestampPair row.createdAtUnixMs row.updatedAtUnixMs
  validateProvenancePair row.createdByKind row.createdByPrincipalDigest
  validateProvenancePair row.updatedByKind row.updatedByPrincipalDigest
  ensure (row.definitionHash =
    memoryDefinitionHash functions row.memoryKey row.summary row.body priority bootstrap tags)
    .databaseUnavailable
  ensure (row.revision =
    memoryStateRevision functions row.memoryScopeId row.memoryId generation row.definitionHash)
    .databaseUnavailable
  pure
    { memoryId := row.memoryId
      memoryKey := row.memoryKey
      summary := row.summary
      body := row.body
      priority := priority
      bootstrap := bootstrap
      tags := tags
      definitionHash := row.definitionHash
      createdByKind := row.createdByKind
      createdByPrincipalDigest := row.createdByPrincipalDigest
      updatedByKind := row.updatedByKind
      updatedByPrincipalDigest := row.updatedByPrincipalDigest
      generation := generation
      revision := row.revision
      createdAtUnixMs := row.createdAtUnixMs
      updatedAtUnixMs := row.updatedAtUnixMs }

variable (memoryScopeId : Str) (tables : Tables)

def Tables.ofScope : List MemoryRow := tables.memories.filter (·.memoryScopeId = memoryScopeId)

/-- Whether a row is the memory of a scope under a key. -/
def MemoryRow.isAt (memoryKey : Str) (row : MemoryRow) : Bool :=
  row.memoryScopeId = memoryScopeId && row.memoryKey = memoryKey

/-- `query_row` of the memory under a key, with `optional`. -/
def Tables.memoryAt (memoryKey : Str) (tables : Tables) : Fallible (Option ProjectMemoryRecord) :=
  match tables.memories.find? (MemoryRow.isAt memoryScopeId memoryKey) with
  | some row => some <$> parseRow functions memoryScopeId row
  | none => pure none

def getScopeRecord : Fallible (Option ProjectMemoryScopeRecord) :=
  match tables.scopes.find? (·.memoryScopeId = memoryScopeId) with
  | some row => some <$> parseScopeRow row
  | none => pure none

def validateScopeRecordForMemories (hasMemories : Bool) (tables : Tables) :
    Fallible (Option ProjectMemoryScopeRecord) := do
  let scope ← getScopeRecord memoryScopeId tables
  ensure (scope.isSome = hasMemories) .databaseUnavailable
  pure scope

def listProjectMemoriesWithConn : Fallible (List ProjectMemoryRecord) := do
  let rows := (tables.ofScope memoryScopeId).insertionSort fun a b ↦ a.memoryKey ≤ b.memoryKey
  let records ← (rows.take (maxMemoriesPerProject + 1)).mapM (parseRow functions memoryScopeId)
  ensure (records.length ≤ maxMemoriesPerProject) .databaseUnavailable
  let _ ← validateScopeRecordForMemories memoryScopeId (!records.isEmpty) tables
  pure records

def listProjectMemories : Fallible (List ProjectMemoryRecord) := do
  validateScope memoryScopeId
  listProjectMemoriesWithConn functions memoryScopeId tables

def getProjectMemory (memoryKey : Str) (tables : Tables) :
    Fallible (Option ProjectMemoryRecord) := do
  validateScope memoryScopeId
  validateMemoryKey memoryKey
  let record ← tables.memoryAt functions memoryScopeId memoryKey
  let _ ← validateScopeRecordForMemories memoryScopeId
    (0 < (tables.ofScope memoryScopeId).length) tables
  pure record

/-- The memories of a scope that has a row; there has to be one. -/
def snapshotMemories : Fallible (List ProjectMemoryRecord) := do
  let memories ← listProjectMemoriesWithConn functions memoryScopeId tables
  ensure (!memories.isEmpty) .databaseUnavailable
  pure memories

def getProjectMemoryScope : Fallible (Option ProjectMemoryScopeSnapshot) := do
  validateScope memoryScopeId
  match ← getScopeRecord memoryScopeId tables with
  | none =>
    ensure ((tables.ofScope memoryScopeId).length = 0) .databaseUnavailable
    pure none
  | some scope =>
    let memories ← snapshotMemories functions memoryScopeId tables
    pure (some ⟨scope, memories⟩)

def listProjectMemoryScopes (offset limit : ℕ) (tables : Tables) :
    Fallible (ℕ × List ProjectMemoryScopeSnapshot) := do
  ensure (0 < limit && limit ≤ maxMemoryScopeListLimit) .invalidLimit
  let offset := min offset maxMemoriesGlobal
  let total := tables.scopes.length
  ensure (total ≤ maxMemoriesGlobal) .databaseUnavailable
  let distinctScopeTotal := (tables.memories.map MemoryRow.memoryScopeId).dedup.length
  ensure (tables.memories.length ≤ maxMemoriesGlobal && distinctScopeTotal = total)
    .databaseUnavailable
  let rows := tables.scopes.insertionSort fun a b ↦ a.memoryScopeId ≤ b.memoryScopeId
  let scopes ← ((rows.drop offset).take limit).mapM parseScopeRow
  let snapshots ← scopes.mapM fun scope ↦ do
    let memories ← snapshotMemories functions scope.memoryScopeId tables
    pure (ProjectMemoryScopeSnapshot.mk scope memories)
  pure (total, snapshots)

end WebCodex.ProjectMemory
