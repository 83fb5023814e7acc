import Mathlib.Data.List.Sort
import Mathlib.Data.String.Basic
import WebCodex.Foundation.Table

/-!
A runner reports its projects as a snapshot in numbered pages. The registry collects the pages of
one generation in a staging area and replaces the published list when the last page arrives; a
late, repeated or malformed page leaves the list alone. Registering or removing a single project
changes the list directly and discards the staging area.
-/

namespace WebCodex.ProjectInventory

open Foundation

def pageMaxSummaries : ℕ := 64
def pageMaxSerializedBytes : ℕ := 256 * 1024
def snapshotMaxSerializedBytes : ℕ := 16 * 1024 * 1024
def generationMaxBytes : ℕ := 96
def stagingTtlSecs : ℤ := 120
def maxConcurrentSyncs : ℕ := 8
def maxRetiredProjectGenerations : ℕ := 16
def maxAgentInstanceIdLen : ℕ := 128

/-! ### Projects and pages -/

structure RunnerProjectSummary where
  id : String
  name : Option String := none
  path : String
  allowPatch : Bool := true
  kind : Option String := none
  registrationSource : Option String := none
  description : Option String := none
  hooks : List String := []
  disabled : Bool := false
  revision : Option String := none
  gitBranch : Option String := none
  gitHead : Option String := none
  gitDirty : Option Bool := none
  updatedAt : ℤ := 0
  shellProfile : Option String := none
  deriving DecidableEq

structure ShellProjectInventoryPage where
  generation : String
  (snapshotSequence pageIndex totalReported : ℕ)
  complete : Bool
  projects : List RunnerProjectSummary
  deriving DecidableEq

/-- What the registry takes from the serialized form of pages and of lists of summaries. -/
structure Encoding where
  pageBytes : ShellProjectInventoryPage → ℕ
  pageDigest : ShellProjectInventoryPage → String
  summariesBytes : List RunnerProjectSummary → ℕ

def containsNul (value : String) : Bool := value.toList.contains (Char.ofNat 0)

/-- An optional text that is too long or holds a NUL. -/
def badOptional (maxBytes : ℕ) (value : Option String) : Bool :=
  value.any fun text ↦ decide (text.utf8ByteSize > maxBytes) || containsNul text

def isHexDigit (c : Char) : Bool := c.isDigit || ('a' ≤ c && c ≤ 'f') || ('A' ≤ c && c ≤ 'F')

def isNameChar (c : Char) : Bool := c.isAlphanum || c == '-' || c == '_' || c == '.'

/-- A revision that is not `sha256:` followed by 64 hexadecimal digits. -/
def badRevision (revision : String) : Bool :=
  match "sha256:".toList.isPrefixOf? revision.toList with
  | none => true
  | some hex => hex.length != 64 || !hex.all isHexDigit

def validateProjectSummary (project : RunnerProjectSummary) : Except String Unit :=
  if project.id.isEmpty || decide (project.id.utf8ByteSize > 64) ||
      !project.id.toList.all isNameChar then
    .error "project_summary_invalid_id"
  else if project.path.isEmpty || decide (project.path.utf8ByteSize > 4096) ||
      containsNul project.path then
    .error "project_summary_invalid_path"
  else if project.name.any fun name ↦ name.isEmpty || badOptional 120 (some name) then
    .error "project_summary_invalid_name"
  else if badOptional 500 project.description then
    .error "project_summary_invalid_description"
  else if badOptional 120 project.kind || badOptional 120 project.shellProfile ||
      badOptional 512 project.gitBranch || badOptional 128 project.gitHead then
    .error "project_summary_invalid_metadata"
  else if decide (project.hooks.length > 64) ||
      project.hooks.any fun hook ↦ hook.isEmpty || badOptional 120 (some hook) then
    .error "project_summary_invalid_hooks"
  else if project.revision.any badRevision then
    .error "project_summary_invalid_revision"
  else .ok ()

def validateProjectSummaryBatch (encoding : Encoding) (projects : List RunnerProjectSummary) :
    Except String ℕ := do
  projects.forM validateProjectSummary
  if encoding.summariesBytes projects > snapshotMaxSerializedBytes then
    .error "project_inventory_snapshot_too_large"
  else if (projects.map (·.id)).dedup.length != projects.length then
    .error "project_inventory_duplicate_project_id"
  else .ok (encoding.summariesBytes projects)

def validateGeneration (generation : String) : Except String Unit :=
  if generation.isEmpty || decide (generation.utf8ByteSize > generationMaxBytes) ||
      !generation.toList.all isNameChar then
    .error "project_inventory_invalid_generation"
  else .ok ()

/-- The checks of `validate_page` on the shape of a page. -/
def validatePageShape (page : ShellProjectInventoryPage) : Except String Unit :=
  if page.snapshotSequence == 0 then .error "project_inventory_invalid_snapshot_sequence"
  else if page.projects.length > pageMaxSummaries then
    .error "project_inventory_page_summary_limit"
  else if page.totalReported == 0 then
    if page.pageIndex != 0 || !page.complete || !page.projects.isEmpty then
      .error "project_inventory_empty_snapshot_malformed"
    else .ok ()
  else if page.projects.isEmpty then .error "project_inventory_empty_page"
  else .ok ()

/-- `validate_page`: the size and the digest of a valid page. -/
def validatePage (encoding : Encoding) (page : ShellProjectInventoryPage) :
    Except String (ℕ × String) := do
  validateGeneration page.generation
  validatePageShape page
  let _ ← validateProjectSummaryBatch encoding page.projects
  if encoding.pageBytes page > pageMaxSerializedBytes then
    .error "project_inventory_page_too_large"
  else .ok (encoding.pageBytes page, encoding.pageDigest page)

/-! ### The inventory of a runner -/

/-- The synchronization states a status can name. -/
inductive SyncState
  | pending | inProgress | complete | degraded
  deriving DecidableEq

structure ShellProjectInventoryStatus where
  syncState : SyncState
  generation : Option String
  totalReported : Option ℕ
  totalSynced : ℕ
  lastErrorCode : Option String
  lastSyncAt : Option ℤ

structure ProjectInventoryStaging where
  generation : String
  (snapshotSequence totalReported nextPageIndex : ℕ)
  projects : List RunnerProjectSummary
  seenIds : List String
  serializedBytes : ℕ
  startedAt : ℤ

structure ProjectInventoryState where
  status : ShellProjectInventoryStatus
  staging : Option ProjectInventoryStaging
  retiredGenerations : List String
  highestSnapshotSequence : ℕ
  lastPageGeneration : Option String
  lastPageIndex : Option ℕ
  lastPageDigest : Option String

/-- The fields of `RunnerRecord` that the inventory reads and writes. -/
structure InventoryRunner where
  runnerInstanceId : String
  connectionId : Option String
  lastSeen : ℤ
  projects : List RunnerProjectSummary
  projectInventory : ProjectInventoryState

def pendingInventoryState (totalSynced : ℕ) : ProjectInventoryState where
  status := ⟨.pending, none, none, totalSynced, none, none⟩
  staging := none
  retiredGenerations := []
  highestSnapshotSequence := 0
  lastPageGeneration := none
  lastPageIndex := none
  lastPageDigest := none

/-- `retire_generation`: the oldest entries fall out of a bounded list. -/
def retireGeneration (state : ProjectInventoryState) (generation : String) :
    ProjectInventoryState :=
  if generation.isEmpty || state.retiredGenerations.contains generation then state
  else
    let retired := state.retiredGenerations ++ [generation]
    { state with
      retiredGenerations := retired.drop (retired.length - maxRetiredProjectGenerations) }

/-- Takes the staging area away and retires its generation. -/
def dropStaging (state : ProjectInventoryState) : ProjectInventoryState :=
  match state.staging with
  | none => state
  | some staging => retireGeneration { state with staging := none } staging.generation

variable (runner : InventoryRunner)

/-- The published list with its inventory, as `clear_staging` leaves them. -/
def clearStaging (errorCode : Option String) (now : ℤ) :
    InventoryRunner :=
  let inventory := dropStaging runner.projectInventory
  match errorCode with
  | none => { runner with projectInventory := inventory }
  | some code =>
    { runner with
      projectInventory :=
        { inventory with
          status := ⟨.degraded, inventory.status.generation, inventory.status.totalReported,
            runner.projects.length, some code, inventory.status.lastSyncAt.or (some now)⟩ } }

def preserveAuthoritativePending (existing : ProjectInventoryState) (totalSynced : ℕ) :
    ProjectInventoryState :=
  let state := dropStaging existing
  { state with
    status := ⟨.pending, state.status.generation, none, totalSynced, none,
      state.status.lastSyncAt⟩ }

/-- Retires the generation that a status names. -/
def retireNamed (state : ProjectInventoryState) : ProjectInventoryState :=
  match state.status.generation with
  | none => state
  | some previous => retireGeneration state previous

def reconcileDynamicProjection (now : ℤ) : InventoryRunner :=
  let cleared := clearStaging runner none now
  { cleared with
    projectInventory :=
      { retireNamed cleared.projectInventory with
        status := ⟨.complete, none, some runner.projects.length, runner.projects.length, none,
          some now⟩ } }

def expireStaging (now : ℤ) (runner : InventoryRunner) : InventoryRunner :=
  if runner.projectInventory.staging.any fun staging ↦
      decide (now - staging.startedAt > stagingTtlSecs) then
    clearStaging runner (some "project_inventory_sync_timeout") now
  else runner

def noteNonfatalError (code : String) : InventoryRunner :=
  { runner with
    projectInventory :=
      { runner.projectInventory with
        status := { runner.projectInventory.status with lastErrorCode := some code } } }

/-! ### A page -/

inductive PageOutcome
  | refused | replayed | staged | published
  deriving DecidableEq

def ProjectInventoryState.stagingMatches (state : ProjectInventoryState)
    (page : ShellProjectInventoryPage) : Bool :=
  state.staging.any fun staging ↦
    staging.generation == page.generation && staging.snapshotSequence == page.snapshotSequence

/-- The page belongs to the generation that is published and complete. -/
def ProjectInventoryState.completedMatches (state : ProjectInventoryState)
    (page : ShellProjectInventoryPage) : Bool :=
  state.staging.isNone && state.status.syncState == .complete &&
    state.status.generation == some page.generation

def ProjectInventoryState.isLastPage (state : ProjectInventoryState)
    (page : ShellProjectInventoryPage) (digest : String) : Bool :=
  state.lastPageGeneration == some page.generation && state.lastPageIndex == some page.pageIndex &&
    state.lastPageDigest == some digest

/-- An empty staging area for the generation of a page. -/
def ProjectInventoryStaging.begin (page : ShellProjectInventoryPage) (now : ℤ) :
    ProjectInventoryStaging :=
  ⟨page.generation, page.snapshotSequence, page.totalReported, 0, [], [], 0, now⟩

/-- The inventory when a fresh first page replaces whatever was staged: the generation that is
published is retired, and so is the one that was staged. -/
def startStaging (state : ProjectInventoryState) (page : ShellProjectInventoryPage) (now : ℤ) :
    ProjectInventoryState :=
  let fenced := { state with highestSnapshotSequence := page.snapshotSequence }
  let retired :=
    if fenced.status.syncState == .complete then
      match fenced.status.generation with
      | some previous =>
        if previous != page.generation then retireGeneration fenced previous else fenced
      | none => fenced
    else fenced
  { dropStaging retired with staging := some (.begin page now) }

/-- The fences in front of the staging area. The error is the runner of an early return, with its
outcome; otherwise the staging area belongs to the generation of the page. -/
def admitPage (concurrentStaging : ℕ) (page : ShellProjectInventoryPage) (digest : String)
    (now : ℤ) :
    Except (InventoryRunner × PageOutcome) InventoryRunner :=
  let state := runner.projectInventory
  let stale := noteNonfatalError runner "project_inventory_stale_generation"
  if state.isLastPage page digest && (state.stagingMatches page || state.completedMatches page) then
    .error (runner, .replayed)
  else if decide (page.snapshotSequence < state.highestSnapshotSequence) ||
      (page.snapshotSequence == state.highestSnapshotSequence && !state.stagingMatches page) then
    .error (stale, .refused)
  else if state.retiredGenerations.contains page.generation || state.completedMatches page then
    .error (stale, .refused)
  else if state.stagingMatches page then .ok runner
  else if page.pageIndex != 0 then
    .error (noteNonfatalError runner "project_inventory_missing_or_stale_generation", .refused)
  else if state.staging.isNone && decide (concurrentStaging ≥ maxConcurrentSyncs) then
    .error ({ runner with
          projectInventory :=
            { state with
              status := ⟨.degraded, state.status.generation, state.status.totalReported,
                runner.projects.length, some "project_inventory_staging_capacity",
                state.status.lastSyncAt⟩ } }, .refused)
  else if page.snapshotSequence ≤ state.highestSnapshotSequence then .error (stale, .refused)
  else .ok { runner with projectInventory := startStaging state page now }

variable (staging : ProjectInventoryStaging)

/-- Why a page does not continue the staging area. -/
def stagingFault (page : ShellProjectInventoryPage) (bytes : ℕ) : Option String :=
  let nextTotal := staging.projects.length + page.projects.length
  if staging.nextPageIndex != page.pageIndex then some "project_inventory_page_out_of_order"
  else if staging.totalReported != page.totalReported then some "project_inventory_total_changed"
  else if page.projects.any fun project ↦ staging.seenIds.contains project.id then
    some "project_inventory_duplicate_project_id"
  else if decide (nextTotal > staging.totalReported) ||
      (page.complete && nextTotal != staging.totalReported) ||
      (!page.complete && decide (nextTotal ≥ staging.totalReported)) then
    some "project_inventory_completion_mismatch"
  else if staging.serializedBytes + bytes > snapshotMaxSerializedBytes then
    some "project_inventory_snapshot_too_large"
  else none

/-- The staging area with a page added to it. -/
def ProjectInventoryStaging.extend (page : ShellProjectInventoryPage) (bytes : ℕ) :
    ProjectInventoryStaging :=
  { staging with
    seenIds := staging.seenIds ++ page.projects.map (·.id)
    projects := staging.projects ++ page.projects
    serializedBytes := staging.serializedBytes + bytes
    nextPageIndex := staging.nextPageIndex + 1 }

def idLe (first second : RunnerProjectSummary) : Prop := first.id ≤ second.id

instance (first second : RunnerProjectSummary) : Decidable (idLe first second) :=
  inferInstanceAs (Decidable (_ ≤ _))

def sortById (projects : List RunnerProjectSummary) : List RunnerProjectSummary :=
  projects.insertionSort idLe

/-- A page that continues the staging area: it is added, and the last one publishes. -/
def extendStaging (page : ShellProjectInventoryPage) (bytes : ℕ) (digest : String) (now : ℤ) :
    InventoryRunner × PageOutcome :=
  let extended := staging.extend page bytes
  let inventory :=
    { runner.projectInventory with
      staging := some extended
      lastPageGeneration := some page.generation
      lastPageIndex := some page.pageIndex
      lastPageDigest := some digest }
  if page.complete then
    let projects := sortById extended.projects
    ({ runner with
        projects := projects
        projectInventory :=
          { inventory with
            staging := none
            status := ⟨.complete, some page.generation, some projects.length, projects.length, none,
              some now⟩ } }, .published)
  else
    ({ runner with
        projectInventory :=
          { inventory with
            status := ⟨.inProgress, some page.generation, some page.totalReported,
              extended.projects.length, none, inventory.status.lastSyncAt⟩ } }, .staged)

/-- A page that reached the staging area of its generation. -/
def acceptPage (page : ShellProjectInventoryPage) (bytes : ℕ) (digest : String) (now : ℤ) :
    InventoryRunner × PageOutcome :=
  match runner.projectInventory.staging with
  | none => (runner, .refused)
  | some staging =>
    if staging.generation != page.generation ||
        staging.snapshotSequence != page.snapshotSequence then
      (noteNonfatalError runner "project_inventory_stale_generation", .refused)
    else
      match stagingFault staging page bytes with
      | some code => (clearStaging runner (some code) now, .refused)
      | none => extendStaging runner staging page bytes digest now

/-- A page at the runner it is for, behind the lease checks. -/
def applyPage (encoding : Encoding) (runner : InventoryRunner) (concurrentStaging : ℕ)
    (page : ShellProjectInventoryPage) (now : ℤ) : InventoryRunner × PageOutcome :=
  let runner := expireStaging now { runner with lastSeen := now }
  match validatePage encoding page with
  | .error code => (clearStaging runner (some code) now, .refused)
  | .ok (bytes, digest) =>
    match admitPage runner concurrentStaging page digest now with
    | .error early => early
    | .ok runner => acceptPage runner page bytes digest now

abbrev Runners := Table String InventoryRunner

def validateRunnerInstanceId (value : String) : Except String Unit :=
  if value.isEmpty then .error "agent_instance_id must not be empty"
  else if value.utf8ByteSize > maxAgentInstanceIdLen then
    .error s!"agent_instance_id is too long; maximum is {maxAgentInstanceIdLen} characters"
  else if !value.toList.all fun c ↦ c.isAlphanum || c == '-' || c == '_' then
    .error "agent_instance_id may only contain ASCII letters, digits, '-', and '_'"
  else .ok ()

/-- Whether a runner holds the lease that a request names. -/
def leaseFault (clientId instanceId : String) (expectedConnectionId : Option String)
    (runner : Option InventoryRunner) : Option String :=
  match runner with
  | none => some s!"unknown shell client: {clientId}"
  | some runner =>
    if runner.runnerInstanceId != instanceId then
      some s!"runner {clientId} is no longer the active instance (stale or replaced)"
    else if expectedConnectionId.any fun expected ↦ runner.connectionId != some expected then
      some s!"runner {clientId} transport connection is no longer active"
    else none

/-- `apply_project_inventory_page_checked`: the runners, the answer, and how the page was handled
when it reached its runner. -/
def applyProjectInventoryPageChecked (encoding : Encoding) (runners : Runners)
    (clientId instanceId : String) (expectedConnectionId : Option String)
    (page : ShellProjectInventoryPage) (now : ℤ) :
    Runners × Except String (ShellProjectInventoryStatus × PageOutcome) :=
  match validateRunnerInstanceId instanceId with
  | .error message => (runners, .error message)
  | .ok _ =>
    let expired := Table.mapValues (fun _ runner ↦ expireStaging now runner) runners
    let concurrentStaging :=
      (Table.values expired).countP fun runner ↦ runner.projectInventory.staging.isSome
    match leaseFault clientId instanceId expectedConnectionId (expired.lookup clientId),
        expired.lookup clientId with
    | some message, _ => (expired, .error message)
    | none, none => (expired, .error s!"unknown shell client: {clientId}")
    | none, some runner =>
      let (runner, outcome) := applyPage encoding runner concurrentStaging page now
      (expired.insert clientId runner, .ok (runner.projectInventory.status, outcome))

/-! ### Dynamic mutations -/

/-- Drops later neighbours with the same id, as `dedup_by` does. -/
def dedupById : List RunnerProjectSummary → List RunnerProjectSummary
  | [] => []
  | project :: rest => project :: (dedupById rest).dropWhile fun other ↦ other.id == project.id

def upsertProjectSummary (projects : List RunnerProjectSummary) (project : RunnerProjectSummary) :
    List RunnerProjectSummary :=
  match projects.findIdx? fun existing ↦ existing.id == project.id with
  | some index => projects.set index project
  | none => dedupById (sortById (projects ++ [project]))

/-- A change of the published list by the registry itself. -/
inductive DynamicMutation
  | upsert (project : RunnerProjectSummary)
  | remove (projectId : String)

def DynamicMutation.apply (mutation : DynamicMutation) (projects : List RunnerProjectSummary) :
    List RunnerProjectSummary :=
  match mutation with
  | .upsert project => upsertProjectSummary projects project
  | .remove projectId => projects.filter fun project ↦ project.id != projectId

def DynamicMutation.validate : DynamicMutation → Except String Unit
  | .upsert project => validateProjectSummary project
  | .remove _ => .ok ()

/-- `upsert_runner_project_for_instance` and `remove_runner_project_for_instance`. -/
def mutateRunnerProject (runners : Runners) (clientId instanceId : String)
    (mutation : DynamicMutation) (now : ℤ) : Runners × Except String Unit :=
  match mutation.validate with
  | .error message => (runners, .error message)
  | .ok _ =>
    match leaseFault clientId instanceId none (runners.lookup clientId),
        runners.lookup clientId with
    | some message, _ => (runners, .error message)
    | none, none => (runners, .error s!"unknown shell client: {clientId}")
    | none, some runner =>
      let mutated := { runner with projects := mutation.apply runner.projects }
      (runners.insert clientId (reconcileDynamicProjection mutated now), .ok ())

/-- The inventory part of a registration: an instance that reconnects keeps its published list with
a pending inventory, and another instance starts afresh. -/
def registerRunner (runners : Runners) (clientId instanceId : String)
    (connectionId : Option String) (now : ℤ) : Runners :=
  let fresh : InventoryRunner := ⟨instanceId, connectionId, now, [], pendingInventoryState 0⟩
  match runners.lookup clientId with
  | none => runners.insert clientId fresh
  | some existing =>
    if existing.runnerInstanceId == instanceId then
      runners.insert clientId
        { fresh with
          projects := existing.projects
          projectInventory :=
            preserveAuthoritativePending existing.projectInventory existing.projects.length }
    else runners.insert clientId fresh

end WebCodex.ProjectInventory
