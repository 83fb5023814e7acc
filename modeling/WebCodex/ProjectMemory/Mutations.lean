import WebCodex.ProjectMemory.Rows

/-!
Every call is one immediate transaction. It reads the memory and the scope again, compares the
revision that the caller expects, and writes; an error rolls everything back (`Call.apply`). The
clock is read before the transaction begins, and the id of a new memory is drawn in it: both are
arguments here.
-/

namespace WebCodex.ProjectMemory

open Foundation Foundation.Text

variable (functions : MemoryFunctions)

variable (memoryScopeId : Str)

def setLastMutated (now : ℤ) (row : ScopeRow) : ScopeRow :=
  if row.memoryScopeId = memoryScopeId then { row with lastMutatedAtUnixMs := now } else row

variable (attribution : MemoryScopeAttribution)

/-- What the insert statement of a scope writes. -/
def ScopeRow.ofAttribution (now : ℤ) : ScopeRow where
  memoryScopeId := memoryScopeId
  identityState := memoryScopeIdentityAttributed
  projectRuntimeId := some attribution.projectRuntimeId
  runnerClientId := some attribution.runnerClientId
  rootFingerprint := some attribution.rootFingerprint
  createdAtUnixMs := now
  lastMutatedAtUnixMs := now

def ensureScopeForMutation (now : ℤ) (allowCreate : Bool) (tables : Tables) : Fallible Tables := do
  validateScopeAttribution attribution
  match ← getScopeRecord memoryScopeId tables with
  | some scope =>
    ensure (scope.identityState = memoryScopeIdentityAttributed) .databaseUnavailable
    ensure (scope.projectRuntimeId = some attribution.projectRuntimeId &&
      scope.runnerClientId = some attribution.runnerClientId &&
      scope.rootFingerprint = some attribution.rootFingerprint) .databaseUnavailable
    ensure (tables.scopes.countP (·.memoryScopeId = memoryScopeId) = 1) .databaseUnavailable
    pure { tables with scopes := tables.scopes.map (setLastMutated memoryScopeId now) }
  | none =>
    ensure allowCreate .databaseUnavailable
    -- The scope id is the primary key.
    ensure (!tables.scopes.any (·.memoryScopeId = memoryScopeId)) .databaseUnavailable
    pure { tables with
      scopes := tables.scopes ++ [.ofAttribution memoryScopeId attribution now] }

structure MemorySetOutcome where
  record : ProjectMemoryRecord
  oldRevision : Option Str
  (created stateChanged : Bool)
deriving DecidableEq

def MemoryRow.isState (memoryKey revision : Str) (row : MemoryRow) : Bool :=
  row.isAt memoryScopeId memoryKey && row.revision = revision

/-- The definition hash of what a call asks for. -/
def MemorySetInput.definitionHash (input : MemorySetInput) : Str :=
  memoryDefinitionHash functions input.memoryKey input.summary input.body input.priority
    input.bootstrap input.tags

def MemoryRow.withInput (input : MemorySetInput) (principal : MemoryPrincipalAttribution)
    (definitionHash revision : Str) (generation : ℕ) (now : ℤ) (row : MemoryRow) : MemoryRow :=
  { row with
    summary := input.summary
    body := input.body
    priority := input.priority.asStr
    bootstrap := if input.bootstrap then 1 else 0
    tagsJson := tagsToJson input.tags
    definitionHash := definitionHash
    generation := generation
    revision := revision
    updatedAtUnixMs := now
    updatedByKind := principal.kind
    updatedByPrincipalDigest := some principal.principalDigest }

/-- The branch of `set_project_memory_attributed` that replaces an existing memory. -/
def updateProjectMemory (principal : MemoryPrincipalAttribution) (input : MemorySetInput)
    (requestedHash : Str) (now : ℤ) (existing : ProjectMemoryRecord) (tables : Tables) :
    Fallible (MemorySetOutcome × Tables) := do
  let prepared ← ensureScopeForMutation memoryScopeId attribution now false tables
  let oldRevision := existing.revision
  let generation := existing.generation + 1
  ensure (generation ≤ 2 ^ 63 - 1) .databaseUnavailable
  let requestedRevision :=
    memoryStateRevision functions memoryScopeId existing.memoryId generation requestedHash
  let isOld := MemoryRow.isState memoryScopeId input.memoryKey oldRevision
  ensure (prepared.memories.countP isOld = 1) (.changed oldRevision)
  let next : Tables := { prepared with
    memories := prepared.memories.map fun row ↦
      if isOld row then
        row.withInput input principal requestedHash requestedRevision generation now
      else row }
  let read ← next.memoryAt functions memoryScopeId input.memoryKey
  let record ← required read .databaseUnavailable
  pure (⟨record, some oldRevision, false, true⟩, next)

def MemoryRow.ofInput (principal : MemoryPrincipalAttribution) (input : MemorySetInput)
    (requestedHash : Str) (now : ℤ) (uuid : Str) : MemoryRow where
  memoryId := memoryIdPrefix ++ uuid
  memoryScopeId := memoryScopeId
  memoryKey := input.memoryKey
  summary := input.summary
  body := input.body
  priority := input.priority.asStr
  bootstrap := if input.bootstrap then 1 else 0
  tagsJson := tagsToJson input.tags
  definitionHash := requestedHash
  generation := 1
  revision := memoryStateRevision functions memoryScopeId (memoryIdPrefix ++ uuid) 1 requestedHash
  createdAtUnixMs := now
  updatedAtUnixMs := now
  createdByKind := principal.kind
  createdByPrincipalDigest := some principal.principalDigest
  updatedByKind := principal.kind
  updatedByPrincipalDigest := some principal.principalDigest

/-- The branch of `set_project_memory_attributed` that adds a memory. -/
def insertProjectMemory (principal : MemoryPrincipalAttribution) (input : MemorySetInput)
    (requestedHash : Str) (now : ℤ) (uuid : Str) (tables : Tables) :
    Fallible (MemorySetOutcome × Tables) := do
  let projectCount := (tables.ofScope memoryScopeId).length
  ensure (projectCount < maxMemoriesPerProject) .projectCapacityExceeded
  ensure (tables.memories.length < maxMemoriesGlobal) .globalCapacityExceeded
  let prepared ← ensureScopeForMutation memoryScopeId attribution now (projectCount = 0) tables
  let row :=
    MemoryRow.ofInput functions memoryScopeId principal input requestedHash now uuid
  -- The memory id is the primary key, and the scope and the key are unique together.
  ensure (!prepared.memories.any fun other ↦
    other.memoryId = row.memoryId || other.isAt memoryScopeId input.memoryKey) .databaseUnavailable
  let next : Tables := { prepared with memories := prepared.memories ++ [row] }
  let inserted ← required (next.memories.find? (·.memoryId = row.memoryId)) .databaseUnavailable
  let record ← parseRow functions memoryScopeId inserted
  pure (⟨record, none, true, true⟩, next)

def setProjectMemoryAttributed (principal : MemoryPrincipalAttribution) (request : MemorySetInput)
    (now : ℤ) (uuid : Str) (tables : Tables) : Fallible (MemorySetOutcome × Tables) := do
  validateScope memoryScopeId
  validateScopeAttribution attribution
  validatePrincipalAttribution principal
  validateMemoryKey request.memoryKey
  validateMemorySummary request.summary
  validateMemoryBody request.body
  let tags ← canonicalizeMemoryTags request.tags
  let input := { request with tags := tags }
  ensure (input.expectedRevision.all fun expected ↦ (validateMemoryRevision expected).isOk)
    .invalidRevision
  let requestedHash := input.definitionHash functions
  let existing? ← tables.memoryAt functions memoryScopeId input.memoryKey
  let _ ← validateScopeRecordForMemories memoryScopeId
    (0 < (tables.ofScope memoryScopeId).length) tables
  match existing? with
  | some existing =>
    let unchanged : MemorySetOutcome × Tables := (⟨existing, none, false, false⟩, tables)
    match input.expectedRevision with
    | none =>
      if existing.definitionHash = requestedHash then pure unchanged
      else .error (.expectedRevisionRequired existing.revision)
    | some expected =>
      if expected ≠ existing.revision then .error (.changed existing.revision)
      else if existing.definitionHash = requestedHash then pure unchanged
      else
        updateProjectMemory functions memoryScopeId attribution principal input requestedHash now
          existing tables
  | none =>
    ensure input.expectedRevision.isNone .notFound
    insertProjectMemory functions memoryScopeId attribution principal input requestedHash now uuid
      tables

structure MemoryDeleteOutcome where
  (memoryId revision : Option Str)
  (deleted stateChanged : Bool)
deriving DecidableEq

def deleteProjectMemoryAttributed (memoryKey expectedRevision : Str) (now : ℤ) (tables : Tables) :
    Fallible (MemoryDeleteOutcome × Tables) := do
  validateScope memoryScopeId
  validateScopeAttribution attribution
  validateMemoryKey memoryKey
  validateMemoryRevision expectedRevision
  let existing? ← tables.memoryAt functions memoryScopeId memoryKey
  let _ ← validateScopeRecordForMemories memoryScopeId
    (0 < (tables.ofScope memoryScopeId).length) tables
  match existing? with
  | none => pure (⟨none, none, false, false⟩, tables)
  | some existing =>
    ensure (existing.revision = expectedRevision) (.changed existing.revision)
    let prepared ← ensureScopeForMutation memoryScopeId attribution now false tables
    let isOld := MemoryRow.isState memoryScopeId memoryKey expectedRevision
    ensure (prepared.memories.countP isOld = 1) (.changed expectedRevision)
    let left : Tables := { prepared with memories := prepared.memories.filter fun row ↦ !isOld row }
    let outcome : MemoryDeleteOutcome :=
      ⟨some existing.memoryId, some existing.revision, true, true⟩
    if (left.ofScope memoryScopeId).length = 0 then
      ensure (left.scopes.countP (·.memoryScopeId = memoryScopeId) = 1) .databaseUnavailable
      pure (outcome, { left with scopes := left.scopes.filter (·.memoryScopeId ≠ memoryScopeId) })
    else pure (outcome, left)

structure MemoryScopePurgeOutcome where
  memoryScopeId : Str
  catalogRevision : Option Str
  purgedCount : ℕ
  (purged stateChanged : Bool)
deriving DecidableEq

def purgeProjectMemoryScope (expectedCatalogRevision : Str) (tables : Tables) :
    Fallible (MemoryScopePurgeOutcome × Tables) := do
  validateScope memoryScopeId
  ensure (validMemoryCatalogRevision expectedCatalogRevision) .invalidRevision
  match ← getScopeRecord memoryScopeId tables with
  | none =>
    ensure ((tables.ofScope memoryScopeId).length = 0) .databaseUnavailable
    pure (⟨memoryScopeId, none, 0, false, false⟩, tables)
  | some _ =>
    let records ← snapshotMemories functions memoryScopeId tables
    let currentCatalogRevision := memoryCatalogRevision functions records
    ensure (currentCatalogRevision = expectedCatalogRevision) (.scopeChanged currentCatalogRevision)
    let purgedCount := (tables.ofScope memoryScopeId).length
    ensure (purgedCount = records.length) .databaseUnavailable
    ensure (tables.scopes.countP (·.memoryScopeId = memoryScopeId) = 1) .databaseUnavailable
    let next : Tables :=
      { memories := tables.memories.filter (·.memoryScopeId ≠ memoryScopeId)
        scopes := tables.scopes.filter (·.memoryScopeId ≠ memoryScopeId) }
    pure (⟨memoryScopeId, some currentCatalogRevision, purgedCount, true, true⟩, next)

/-- A call that may change the store, with the clock reading and the id that it draws. -/
inductive Call
  | set (memoryScopeId : Str) (attribution : MemoryScopeAttribution)
    (principal : MemoryPrincipalAttribution) (input : MemorySetInput) (now : ℤ) (uuid : Str)
  | delete (memoryScopeId : Str) (attribution : MemoryScopeAttribution)
    (memoryKey expectedRevision : Str) (now : ℤ)
  | purge (memoryScopeId expectedCatalogRevision : Str)
deriving DecidableEq

inductive Outcome
  | set (outcome : MemorySetOutcome)
  | delete (outcome : MemoryDeleteOutcome)
  | purge (outcome : MemoryScopePurgeOutcome)
deriving DecidableEq

def Call.transact (call : Call) (tables : Tables) : Fallible (Outcome × Tables) :=
  match call with
  | .set scope attribution principal input now uuid =>
    (fun done ↦ (Outcome.set done.1, done.2)) <$>
      setProjectMemoryAttributed functions scope attribution principal input now uuid tables
  | .delete scope attribution key expected now =>
    (fun done ↦ (Outcome.delete done.1, done.2)) <$>
      deleteProjectMemoryAttributed functions scope attribution key expected now tables
  | .purge scope expected =>
    (fun done ↦ (Outcome.purge done.1, done.2)) <$>
      purgeProjectMemoryScope functions scope expected tables

/-- A call: its transaction is committed, or rolled back with an error. -/
def Call.apply (call : Call) (tables : Tables) : Fallible Outcome × Tables :=
  match call.transact functions tables with
  | .ok (outcome, next) => (.ok outcome, next)
  | .error error => (.error error, tables)

def tablesAfter (tables : Tables) (calls : List Call) : Tables :=
  calls.foldl (fun current call ↦ (call.apply functions current).2) tables

end WebCodex.ProjectMemory
