import WebCodex.Registry.Cursors

/-!
A structured call starts its job hidden, and only a promotion makes its record public. But a
registration rebuilds every job that it does not know as a public one, and the record of a
cancelled job is removed without a memory of it. The jobs started hidden and not handed off since
are watched along a run (`Watched`); a promotion that is refused, or that finds the job ended,
goes on with the watch (`handsOff`). Watched jobs stay hidden as long as registrations find a
record or a memory of them (`revealsNothing`).
-/

namespace WebCodex.Registry

open Foundation

variable {jobId : String}

/-- A step of a job keeps its visibility, hides it for the cleanup, or is its promotion. -/
theorem JobStep.visibility_cases {late : Prop} {promoted : String → Prop} {old new : ShellJobRecord}
    (h : JobStep late promoted jobId old new) :
    new.visibility = old.visibility ∨ new.visibility = .cleanupPending ∨ promoted jobId := by
  have hkept : ∀ {record : ShellJobRecord}, record.identity = old.identity →
      record.visibility = old.visibility := fun hrecord ↦ congrArg JobIdentity.visibility hrecord
  cases h with
  | cleanup => exact Or.inr (Or.inl rfl)
  | promoted h => exact Or.inr (Or.inr h)
  | interrupted | stopRequested | cleanupRequested => exact Or.inl rfl
  | _ => exact Or.inl (hkept (by simp))

/-- A job that is not promoted does not become public. -/
theorem hidden_of_follows {late : Prop} {promoted : String → Prop} {old new : ShellJobRecord}
    (h : Follows late promoted jobId old new) (hpromoted : ¬ promoted jobId)
    (hold : old.visibility ≠ .isPublic) :
    new.visibility ≠ .isPublic := by
  induction h with
  | refl => exact hold
  | tail _ hstep ih =>
    rcases hstep.visibility_cases with hsame | hcleanup | hpromotes
    · rw [hsame]
      exact ih
    · rw [hcleanup]
      decide
    · exact absurd hpromotes hpromoted

/-- A registry with the jobs that were started hidden and not handed off by a promotion since. -/
structure Watched where
  state : RunnerRegistryInner
  hidden : Finset String

/-- A promotion hands the job off: its record, brought up to date, is not under cleanup and has not
ended. Any other promotion is refused or leaves the ended job hidden. -/
def handsOff (env : Environment) (inner : RunnerRegistryInner) (jobId : String) (now : ℤ) : Bool :=
  ((refreshJobStatus env now jobId inner).jobsById.lookup jobId).any fun job ↦
    job.visibility != .cleanupPending && !job.lifecycle.isTerminal

def hiddenAfter (env : Environment) (inner : RunnerRegistryInner) (hidden : Finset String) :
    Operation → Finset String
  | .start body now =>
    match startedJobId env inner body now with
    | none => hidden
    | some jobId =>
      if body.visibility = .hiddenUntilHandoff then insert jobId hidden else hidden.erase jobId
  | .promote jobId now => if handsOff env inner jobId now then hidden.erase jobId else hidden
  | _ => hidden

def Watched.step (env : Environment) (watched : Watched) (operation : Operation) : Watched where
  state := (Registry.step env watched.state operation).state
  hidden := hiddenAfter env watched.state watched.hidden operation

def Watched.run (env : Environment) (watched : Watched) (operations : List Operation) : Watched :=
  operations.foldl (Watched.step env) watched

def Watched.Concealed (watched : Watched) : Prop :=
  ∀ jobId ∈ watched.hidden, ∀ job, watched.state.jobsById.lookup jobId = some job →
    job.visibility ≠ .isPublic

/-! ### What a registration must find -/

variable {runner : RunnerRecord} {snapshot : ShellJobSnapshot}

section Conditions

variable (env : Environment) (inner : RunnerRegistryInner) (body : RunnerRegisterRequest) (now : ℤ)

/-- The runner of a registration is known, with the instance that registers again. -/
def holdsLease (runner : RunnerRecord) : Bool :=
  runner.runnerInstanceId == body.runnerInstanceId &&
    !sharedKeyExpired env inner now runner body.clientId

/-- The record of the job stands and is not removed before the inventory is read: it is not under
cleanup, or it belongs to a job that runs within its recovery deadline and its instance registers
again. -/
def staysKnown (jobId : String) : Bool :=
  (inner.jobsById.lookup jobId).any fun job ↦
    job.visibility != .cleanupPending ||
      (((inner.runners.lookup body.clientId).any (holdsLease env inner body now)) &&
        !job.lifecycle.isTerminal && !(job.recoveryActive && recoveryExpired env now job))

/-- The runner remembers that the job of the snapshot ended inside a call. -/
def isRemembered (snapshot : ShellJobSnapshot) : Bool :=
  snapshot.status.isTerminal && (inner.runners.lookup body.clientId).any fun runner ↦
    holdsLease env inner body now runner &&
      runner.suppressesProjectedTerminal body.clientId body.runnerInstanceId snapshot.jobId
        snapshot.requestId now

variable {env inner body now}

theorem holdsLease_iff :
    holdsLease env inner body now runner = true ↔
      runner.runnerInstanceId = body.runnerInstanceId ∧
        sharedKeyExpired env inner now runner body.clientId = false := by
  simp [holdsLease]

theorem staysKnown_iff :
    staysKnown env inner body now jobId = true ↔
      ∃ job, inner.jobsById.lookup jobId = some job ∧
        (job.visibility ≠ .cleanupPending ∨
          ((∃ runner, inner.runners.lookup body.clientId = some runner ∧
              holdsLease env inner body now runner = true) ∧
            job.lifecycle.isTerminal = false ∧
            (job.recoveryActive && recoveryExpired env now job) = false)) := by
  simp only [staysKnown, Option.any_eq_true, Bool.or_eq_true, Bool.and_eq_true, Bool.not_eq_true',
    bne_iff_ne, and_assoc, ne_eq]

theorem isRemembered_iff :
    isRemembered env inner body now snapshot = true ↔
      snapshot.status.isTerminal = true ∧
        ∃ runner, inner.runners.lookup body.clientId = some runner ∧
          holdsLease env inner body now runner = true ∧
          runner.suppressesProjectedTerminal body.clientId body.runnerInstanceId snapshot.jobId
            snapshot.requestId now = true := by
  simp [isRemembered, Option.any_eq_true]

end Conditions

/-- A registration finds, for each snapshot of a watched job, its record or a memory of it. -/
def revealsNothing (env : Environment) (watched : Watched) : Operation → Bool
  | .register body now =>
    body.jobInventory.all fun inventory ↦ inventory.jobs.all fun snapshot ↦
      !decide (snapshot.jobId ∈ watched.hidden) ||
        staysKnown env watched.state body now snapshot.jobId ||
        isRemembered env watched.state body now snapshot
  | _ => true

/-- Every registration of the run reveals nothing. -/
def revealsNothingAlong (env : Environment) : Watched → List Operation → Bool
  | _, [] => true
  | watched, operation :: rest =>
    revealsNothing env watched operation && revealsNothingAlong env
      (watched.step env operation) rest

/-! ### Records that a registration keeps -/

theorem visibility_markJobLost (now : ℤ) (reason : JobRecoveryReason) (message : String)
    (job : ShellJobRecord) : (markJobLost now reason message job).visibility = job.visibility :=
  congrArg JobIdentity.visibility (identity_markJobLost now job reason message)

/-- The registry knows a job that is not under cleanup. -/
def KnownUncleaned (jobId : String) (inner : RunnerRegistryInner) : Prop :=
  ∃ job, inner.jobsById.lookup jobId = some job ∧ job.visibility ≠ .cleanupPending

namespace KnownUncleaned

variable {jobId : String} {inner after : RunnerRegistryInner} (h : KnownUncleaned jobId inner)

include h

theorem congr (hafter : after.jobsById = inner.jobsById) : KnownUncleaned jobId after := by
  obtain ⟨job, hjob, hvisible⟩ := h
  exact ⟨job, hafter ▸ hjob, hvisible⟩

/-- Losing some of the jobs keeps the records. -/
theorem map {p : ShellJobRecord → Bool} {now : ℤ} {reason : JobRecoveryReason} {message : String}
    (hafter : after.jobsById.lookup jobId = (inner.jobsById.lookup jobId).map fun job ↦
      if p job then markJobLost now reason message job else job) :
    KnownUncleaned jobId after := by
  obtain ⟨job, hjob, hvisible⟩ := h
  refine ⟨if p job then markJobLost now reason message job else job, by rw [hafter, hjob]; rfl, ?_⟩
  split_ifs
  · rw [visibility_markJobLost]
    exact hvisible
  · exact hvisible

theorem removeCleanup : KnownUncleaned jobId (removeCleanupTerminalJobs inner) := by
  obtain ⟨job, hjob, hvisible⟩ := h
  refine ⟨job, ?_, hvisible⟩
  rw [lookup_removeCleanupTerminalJobs, hjob]
  simp [awaitsRemoval, hvisible]

theorem expire (env : Environment) (now : ℤ) (clientFilter : Option String) (passCap : ℕ) :
    KnownUncleaned jobId (expireRecoveringJobs env clientFilter now passCap inner) := by
  obtain ⟨job, hjob, hvisible⟩ := h
  by_cases hmem : (jobId, job) ∈ expiring env clientFilter now passCap inner
  · have hsame : (expiredJob now job).visibility = job.visibility :=
      congrArg JobIdentity.visibility (identity_expiredJob now job)
    refine ⟨expiredJob now job, ?_, hsame ▸ hvisible⟩
    rw [lookup_expire_of_mem env now hmem]
    simp [awaitsRemoval, hsame, hvisible]
  · exact ⟨job, lookup_expire_of_notMem env now hjob (by simp [awaitsRemoval, hvisible]) hmem,
      hvisible⟩

theorem prune (env : Environment) (now : ℤ) :
    KnownUncleaned jobId (pruneExpiredSharedKeyRunners env now inner).1 :=
  h.map (p := fun job ↦ (expiredRunners env now inner).contains job.clientId)
    (lookup_pruneExpiredSharedKeyRunners env now inner jobId)

/-- A replaced instance leaves the hidden job alone, or known to be cleaned up. -/
theorem replaceInstance (body : RunnerRegisterRequest) (now : ℤ) :
    KnownUncleaned jobId (replaceInstance body now inner).1 := by
  simp only [Registry.replaceInstance]
  split
  · exact h
  · rename_i existing _
    split
    · exact h
    · have hlost :=
        h.map (p := isAbandoned body.clientId existing.runnerInstanceId body.jobInventory)
          (lookup_loseJobs now body.clientId .runnerInstanceReplaced
            "runner instance was replaced before the job completed or reconciled"
          (fun _ ↦ isAbandoned body.clientId existing.runnerInstanceId body.jobInventory)
            inner jobId)
      have hterminated : KnownUncleaned jobId (terminateInstanceJobs body.clientId
          existing.runnerInstanceId body.jobInventory now inner) := hlost.removeCleanup
      have hresolved := hterminated.congr (jobsById_of_jobs_eq
        (jobs_resolveDisconnectedSyncRequests _ body.clientId
          "runner instance was replaced before the request completed; the request was not handed to the replacement instance"))
      exact hresolved.congr (jobsById_of_jobs_eq
        (jobs_retireInstance _ body.clientId existing.runnerInstanceId))

theorem beforeSnapshots (env : Environment) (clientId instanceId : String)
    (inventory : ShellJobInventory) (now : ℤ) :
    KnownUncleaned jobId (beforeSnapshots env inner clientId instanceId inventory now) :=
  (h.expire env now (some clientId) recoverySweepPassCap).map
    (p := isMissing clientId instanceId inventory jobId)
    (lookup_beforeSnapshots env inner clientId instanceId inventory now jobId)

end KnownUncleaned

variable {state : RunnerRegistryInner}

section Registration

variable (env : Environment) (inner : RunnerRegistryInner) (body : RunnerRegisterRequest)
  (inventory : ShellJobInventory) (now : ℤ)

/-- The registry behind an accepted registration, before its inventory is read. -/
def admitted : RunnerRegistryInner :=
  installRunner body now (replaceInstance body now (pruneExpiredSharedKeyRunners env now inner).1).1

/-- The registry when the first snapshot of an accepted registration is read. -/
def readyForSnapshots : RunnerRegistryInner :=
  beforeSnapshots env (admitted env inner body now) body.clientId body.runnerInstanceId
    inventory now

variable {env inner body inventory now}

/-- An instance that holds the lease replaces nothing. -/
theorem replaceInstance_of_holdsLease (hrunner : state.runners.lookup body.clientId = some runner)
    (hinstance : runner.runnerInstanceId = body.runnerInstanceId) :
    replaceInstance body now state = (state, []) := by
  simp [replaceInstance, hrunner, hinstance]

/-- A runner that is not among the forgotten ones stays. -/
theorem lookup_runners_prune {clientId : String}
    (hrunner : inner.runners.lookup clientId = some runner)
    (hfresh : sharedKeyExpired env inner now runner clientId = false) :
    clientId ∉ expiredRunners env now inner ∧
      (pruneExpiredSharedKeyRunners env now inner).1.runners.lookup clientId = some runner := by
  have hnot : clientId ∉ expiredRunners env now inner := by
    intro hmem
    rw [expiredRunners, List.mem_map] at hmem
    obtain ⟨_, hentry, rfl⟩ := hmem
    rw [List.mem_filter, Table.mem_entries] at hentry
    rw [hentry.1, Option.some.injEq] at hrunner
    simp [hrunner ▸ hfresh] at hentry
  refine ⟨hnot, ?_⟩
  simp only [pruneExpiredSharedKeyRunners]
  split_ifs
  · exact hrunner
  · simp only [forgetRunners, Table.lookup_keep, runners_of_leases_eq
      (leases_loseRunnerJobs now _ _), runners_of_leases_eq
        (leases_resolveDisconnectedRunners _ _ _), hrunner]
    simp [hnot]

/-- The job of an accepted snapshot belongs to the runner that registers. -/
theorem clientId_of_preflight {job : ShellJobRecord}
    (hpreflight : preflightInventory state body.clientId body.runnerInstanceId inventory = .ok ())
    (hmem : snapshot ∈ inventory.jobs) (hjob : state.jobsById.lookup snapshot.jobId = some job) :
    job.clientId = body.clientId := by
  have hfault := snapshotFault_of_preflight hpreflight hmem
  simp only [snapshotFault, hjob, knownJobFault] at hfault
  by_contra hother
  have hne : (job.clientId != body.clientId) = true := by simpa using hother
  split_ifs at hfault

/-- A known record is there when the snapshot of its job is read. -/
theorem exists_lookup_of_staysKnown (hmem : snapshot ∈ inventory.jobs)
    (hpreflight : preflightInventory (pruneExpiredSharedKeyRunners env now inner).1 body.clientId
      body.runnerInstanceId inventory = .ok ())
    (hstays : staysKnown env inner body now snapshot.jobId = true) :
    ∃ job, (readyForSnapshots env inner body inventory now).jobsById.lookup snapshot.jobId =
      some job := by
  obtain ⟨job, hjob, hvisible | ⟨⟨_, hrunner, hlease⟩, hopen, hdeadline⟩⟩ :=
    staysKnown_iff.mp hstays
  · have hknown : KnownUncleaned snapshot.jobId inner := ⟨job, hjob, hvisible⟩
    have hadmitted : KnownUncleaned snapshot.jobId (admitted env inner body now) :=
      (hknown.prune env now).replaceInstance body now
    obtain ⟨later, hlater, _⟩ := hadmitted.beforeSnapshots env body.clientId body.runnerInstanceId
      inventory now
    exact ⟨later, hlater⟩
  · obtain ⟨hinstance, hfresh⟩ := holdsLease_iff.mp hlease
    obtain ⟨hkept, hpruned⟩ := lookup_runners_prune hrunner hfresh
    have hlookup := lookup_pruneExpiredSharedKeyRunners env now inner snapshot.jobId
    rw [hjob, Option.map_some] at hlookup
    have hclient : job.clientId = body.clientId := by
      have hfound := clientId_of_preflight hpreflight hmem hlookup
      rw [← hfound]
      split_ifs
      · exact (congrArg JobIdentity.clientId (identity_markJobLost now job _ _)).symm
      · rfl
    have hnotExpired : ¬ (expiredRunners env now inner).contains job.clientId = true := by
      simpa [hclient] using hkept
    rw [if_neg hnotExpired] at hlookup
    have hadmitted : (admitted env inner body now).jobsById.lookup snapshot.jobId = some job := by
      rw [admitted, replaceInstance_of_holdsLease hpruned hinstance]
      exact hlookup
    refine ⟨job, lookup_beforeSnapshots_of_notMem env body.clientId body.runnerInstanceId now hmem
      hadmitted hopen fun hexpired ↦ ?_⟩
    have hentry := mem_expiring env now hexpired
    simp [hentry.2.1, hentry.2.2.2] at hdeadline

/-- Whether a runner suppresses a job depends on its unexpired suppressions only. -/
theorem suppresses_of_suppressions {other : RunnerRecord}
    (hsuppressions : other.suppressions = (runner.pruneSuppressions now).suppressions)
    (clientId instanceId jobId requestId : String) :
    other.suppressesProjectedTerminal clientId instanceId jobId requestId now =
      runner.suppressesProjectedTerminal clientId instanceId jobId requestId now := by
  rw [RunnerRecord.suppressesProjectedTerminal, hsuppressions, RunnerRecord.pruneSuppressions,
    List.any_filter, RunnerRecord.suppressesProjectedTerminal]
  congr 1
  funext entry
  by_cases hlive : entry.expiresAt > now
  · simp [hlive]
  · simp [hlive]

/-- A remembered job is suppressed when its snapshot is read. -/
theorem suppressesSnapshot_of_isRemembered
    (hremembered : isRemembered env inner body now snapshot = true)
    (hstate : state.runners = (readyForSnapshots env inner body inventory now).runners) :
    suppressesSnapshot state body.clientId body.runnerInstanceId now snapshot = true := by
  obtain ⟨hended, runner, hrunner, hlease, hsuppresses⟩ := isRemembered_iff.mp hremembered
  obtain ⟨hinstance, hfresh⟩ := holdsLease_iff.mp hlease
  have hpruned := (lookup_runners_prune hrunner hfresh).2
  have hready : (readyForSnapshots env inner body inventory now).runners =
      (pruneAllSuppressions now (admitted env inner body now)).runners := by
    rw [readyForSnapshots, beforeSnapshots, runners_of_leases_eq (leases_loseJobs _ _ _ _ _ _),
      runners_of_leases_eq (leases_expireRecoveringJobs _ _ _ _ _)]
  have hadmitted : (admitted env inner body now).runners.lookup body.clientId =
      some (installedRecord (some runner) body now) := by
    rw [admitted, replaceInstance_of_holdsLease hpruned hinstance, installRunner, hpruned]
    exact AList.lookup_insert _
  have hlookup : state.runners.lookup body.clientId =
      some ((installedRecord (some runner) body now).pruneSuppressions now) := by
    rw [hstate, hready, pruneAllSuppressions, Table.lookup_mapValues, hadmitted]
    rfl
  have hinstalled : (installedRecord (some runner) body now).suppressions =
      (runner.pruneSuppressions now).suppressions := by
    simp [installedRecord, hinstance]
  simp only [suppressesSnapshot, hended, hlookup, Option.any_some, Bool.true_and]
  rw [suppresses_of_suppressions rfl, suppresses_of_suppressions hinstalled]
  exact hsuppresses

/-! ### A registration keeps watched jobs hidden -/

/-- Nothing new is stored and nothing is promoted. -/
theorem quietVersions : JobRules (fun _ _ ↦ False) (Follows True fun _ ↦ False) :=
  versions fun _ h ↦ h

theorem concealed_of_advances {hidden : Finset String} {after : RunnerRegistryInner}
    (h : Watched.Concealed ⟨inner, hidden⟩)
    (hafter : Advances True (fun _ ↦ False) (fun _ _ ↦ False) inner after) :
    Watched.Concealed ⟨after, hidden⟩ := by
  intro jobId hid job hjob
  rcases hafter.origin jobId job hjob with ⟨_, _, hfresh⟩ | ⟨old, hold, hfollows⟩
  · exact hfresh.elim
  · exact hidden_of_follows hfollows id (h jobId hid old hold)

variable (env inner body now) in
theorem advances_admitted :
    Advances True (fun _ ↦ False) (fun _ _ ↦ False) inner (admitted env inner body now) :=
  .trans quietVersions.toVersions (changes_pruneExpiredSharedKeyRunners quietVersions env now inner)
    (.trans quietVersions.toVersions (changes_replaceInstance quietVersions now body _)
      (changes_of_jobs_eq quietVersions (jobs_installRunner _ body now)))

variable (env inner body inventory now) in
theorem advances_readyForSnapshots :
    Advances True (fun _ ↦ False) (fun _ _ ↦ False) inner
      (readyForSnapshots env inner body inventory now) := by
  refine .trans quietVersions.toVersions (advances_admitted env inner body now) ?_
  refine .trans quietVersions.toVersions ?_ (changes_loseJobs quietVersions now _ _ _ _ _)
  refine .trans quietVersions.toVersions ?_
    (changes_expireRecoveringJobs quietVersions env now _ _ _)
  exact changes_of_jobs_eq quietVersions (jobs_pruneAllSuppressions _ now)

/-- The loop over an accepted inventory reveals no watched job. -/
theorem concealed_reconcile {hidden : Finset String} (h : Watched.Concealed ⟨inner, hidden⟩)
    (hnodup : (inventory.jobs.map (·.jobId)).Nodup)
    (hpreflight : preflightInventory (pruneExpiredSharedKeyRunners env now inner).1 body.clientId
      body.runnerInstanceId inventory = .ok ())
    (hfound : ∀ snapshot ∈ inventory.jobs, snapshot.jobId ∈ hidden →
      staysKnown env inner body now snapshot.jobId = true ∨
        isRemembered env inner body now snapshot = true) :
    Watched.Concealed
      ⟨reconcileInventory env (admitted env inner body now) body.clientId body.runnerInstanceId
        body.group inventory now, hidden⟩ := by
  intro jobId hid later hlater
  have hready := concealed_of_advances h (advances_readyForSnapshots env inner body inventory now)
  rw [reconcileInventory_eq, lookup_removeCleanupTerminalJobs, Option.filter_eq_some_iff] at hlater
  by_cases hnamed : jobId ∈ inventory.jobs.map (·.jobId)
  · obtain ⟨snapshot, hmem, rfl⟩ := List.mem_map.mp hnamed
    obtain ⟨state, hlookup, hrunners, hresult⟩ := lookup_foldl_reconcileSnapshot now body.clientId
      body.runnerInstanceId body.group hnodup hmem
      (beforeSnapshots env (admitted env inner body now) body.clientId body.runnerInstanceId
        inventory now)
    rw [hresult, lookup_reconcileSnapshot_self] at hlater
    cases hjob : state.jobsById.lookup snapshot.jobId with
    | some job =>
      have hhidden : job.visibility ≠ .isPublic := hready _ hid job (hlookup ▸ hjob)
      simp only [hjob] at hlater
      split_ifs at hlater
      · exact Option.some.inj hlater.1 ▸ hhidden
      · have hsame : later.visibility = job.visibility :=
          Option.some.inj hlater.1 ▸ congrArg JobIdentity.visibility (identity_reconciledJob now job
            body.runnerInstanceId snapshot)
        exact hsame ▸ hhidden
    | none =>
      rcases hfound snapshot hmem hid with hstays | hremembered
      · obtain ⟨job, hknown⟩ := exists_lookup_of_staysKnown hmem hpreflight hstays
        rw [readyForSnapshots, ← hlookup, hjob] at hknown
        simp at hknown
      · simp [hjob, suppressesSnapshot_of_isRemembered hremembered hrunners] at hlater
  · rw [lookup_foldl_reconcileSnapshot_of_notMem now body.clientId body.runnerInstanceId
      body.group _ hnamed] at hlater
    exact hready jobId hid later hlater.1

/-- An accepted inventory was found valid. -/
theorem validateJobInventory_of_validate {checks : Checks}
    (hvalid : body.validate checks = .ok ()) (hinventory : body.jobInventory = some inventory) :
    validateJobInventory checks body.clientId inventory = .ok () := by
  have hchecked : body.validateInventory checks = .ok () := by
    simp only [RunnerRegisterRequest.validate, bind, Except.bind] at hvalid
    split at hvalid
    · simp at hvalid
    · split at hvalid
      · simp at hvalid
      · split at hvalid
        · simp at hvalid
        · split at hvalid
          · simp at hvalid
          · exact hvalid
  rw [RunnerRegisterRequest.validateInventory, hinventory] at hchecked
  split at hchecked
  · simp_all
  · simp_all
  · simp at hchecked
  · simp_all

theorem preflight_of_leaseFault (hlease : leaseFault env state body = none)
    (hinventory : body.jobInventory = some inventory) :
    preflightInventory state body.clientId body.runnerInstanceId inventory = .ok () := by
  cases hpreflight : preflightInventory state body.clientId body.runnerInstanceId inventory with
  | ok => rfl
  | error =>
    simp only [leaseFault, hinventory, Option.map_some, hpreflight] at hlease
    grind

/-- A registration keeps watched jobs hidden. -/
theorem concealed_register {watched : Watched} (h : watched.Concealed)
    (hreveals : revealsNothing env watched (.register body now) = true) :
    (watched.step env (.register body now)).Concealed := by
  show Watched.Concealed
    ⟨(registerSession env watched.state body now).state, watched.hidden⟩
  simp only [registerSession]
  split
  · exact h
  · rename_i hvalid
    split
    · exact concealed_of_advances h
        (changes_pruneExpiredSharedKeyRunners quietVersions env now watched.state)
    · rename_i hlease
      cases hinventory : body.jobInventory with
      | none =>
        simp only [reconcileRegistration, hinventory]
        exact concealed_of_advances h (advances_admitted env watched.state body now)
      | some =>
        simp only [reconcileRegistration, hinventory]
        refine concealed_reconcile h
          (nodup_of_validateJobInventory (validateJobInventory_of_validate hvalid hinventory))
          (preflight_of_leaseFault hlease hinventory) fun snapshot hmem hid ↦ ?_
        simp only [revealsNothing, hinventory, Option.all_some, List.all_eq_true] at hreveals
        simpa [hid] using hreveals snapshot hmem

end Registration

/-! ### Runs -/

variable {env : Environment} {watched : Watched}

/-- A start stores its record with the visibility that it asks for. -/
theorem concealed_start (h : watched.Concealed) (body : ShellJobStart) (now : ℤ) :
    (watched.step env (.start body now)).Concealed := by
  intro jobId hid job hjob
  rcases startJob_cases env watched.state body now with hsame | ⟨runner, started, hstarted, hjobs⟩
  · have hnone : startedJobId env watched.state body now = none :=
      if_pos (congrArg Store.next hsame)
    have hhidden : jobId ∈ watched.hidden := by
      simpa [Watched.step, hiddenAfter, hnone] using hid
    exact h jobId hhidden job (jobsById_of_jobs_eq hsame ▸ hjob)
  · have hsome : startedJobId env watched.state body now = some started := by
      have hnext : (startJob env watched.state body now).state.nextHandle =
          watched.state.nextHandle + 1 := congrArg Store.next hjobs
      simp [startedJobId, hnext, hstarted, Except.toOption]
    have htable : (startJob env watched.state body now).state.jobsById =
        watched.state.jobsById.insert started (startedRecord watched.state runner body started) :=
      congrArg Store.table hjobs
    have hlookup : (watched.state.jobsById.insert started
        (startedRecord watched.state runner body started)).lookup jobId = some job := htable ▸ hjob
    simp only [Watched.step, hiddenAfter, hsome] at hid
    rw [Table.lookup_insert_eq] at hlookup
    split_ifs at hid hlookup with hvisibility hnew
    · rw [← Option.some.inj hlookup]
      exact fun hpublic ↦ absurd (hvisibility.symm.trans hpublic) (by decide)
    · exact h jobId ((Finset.mem_insert.mp hid).resolve_left hnew) job hlookup
    · exact absurd ‹jobId = started› (Finset.ne_of_mem_erase hid)
    · exact h jobId (Finset.mem_of_mem_erase hid) job hlookup

/-- Every other operation changes records without making watched ones public. -/
theorem concealed_change (h : watched.Concealed) (operation : Operation)
    (hsub : hiddenAfter env watched.state watched.hidden operation ⊆ watched.hidden)
    (hpromoted : ∀ jobId, promotes operation jobId →
      jobId ∉ hiddenAfter env watched.state watched.hidden operation)
    (hfresh : MakesFresh (fun _ _ ↦ False) env watched.state operation) :
    (watched.step env operation).Concealed := by
  intro jobId hid job hjob
  have hadvances : Advances True (promotes operation) (fun _ _ ↦ False) watched.state
      (Registry.step env watched.state operation).state :=
    step_advances (versions fun _ hnever ↦ hnever) env watched.state operation (Or.inr trivial)
      (fun _ hpromotes ↦ hpromotes) hfresh
  rcases hadvances.origin jobId job hjob with ⟨_, _, hnever⟩ | ⟨old, hold, hfollows⟩
  · exact hnever.elim
  · exact hidden_of_follows hfollows (fun hpromotes ↦ hpromoted jobId hpromotes hid)
      (h jobId (hsub hid) old hold)

/-- A promotion that hands nothing off only brings the record up to date. -/
theorem state_promoteHiddenJob {inner : RunnerRegistryInner} {jobId : String} {now : ℤ}
    (h : handsOff env inner jobId now = false) :
    (promoteHiddenJob env inner jobId now).state = refreshJobStatus env now jobId inner := by
  rw [promoteHiddenJob]
  cases hjob : (refreshJobStatus env now jobId inner).jobsById.lookup jobId with
  | none => rfl
  | some job =>
    rw [handsOff, hjob, Option.any_some, Bool.and_eq_false_iff] at h
    dsimp only
    rcases h with hcleanup | hended
    · have hpending : (job.visibility == .cleanupPending) = true := by simpa [bne] using hcleanup
      rw [if_pos hpending]
      rfl
    · split_ifs with hpending hterminal
      · rfl
      · rfl
      · simp [hterminal] at hended

/-- A promotion makes a watched job public only when it hands the job off, which ends the watch. -/
theorem concealed_promote (h : watched.Concealed) (promotedId : String) (now : ℤ) :
    (watched.step env (.promote promotedId now)).Concealed := by
  cases hhands : handsOff env watched.state promotedId now with
  | true =>
    have hafter : hiddenAfter env watched.state watched.hidden (.promote promotedId now) =
        watched.hidden.erase promotedId := if_pos hhands
    refine concealed_change h _ (hafter ▸ Finset.erase_subset _ _)
      (fun jobId hpromotes ↦ ?_) trivial
    rw [hafter, show jobId = promotedId from hpromotes]
    exact Finset.notMem_erase promotedId watched.hidden
  | false =>
    have hafter : watched.step env (.promote promotedId now) =
        ⟨refreshJobStatus env now promotedId watched.state, watched.hidden⟩ := by
      rw [Watched.step, Registry.step, hiddenAfter, hhands]
      exact congrArg (Watched.mk · watched.hidden) (state_promoteHiddenJob hhands)
    rw [hafter]
    exact concealed_of_advances h (changes_refreshJobStatus quietVersions env now watched.state _)

/-- Every step keeps watched jobs hidden. -/
theorem concealed_step (h : watched.Concealed) (operation : Operation)
    (hreveals : revealsNothing env watched operation = true) :
    (watched.step env operation).Concealed := by
  cases operation with
  | register => exact concealed_register h hreveals
  | start body now => exact concealed_start h body now
  | promote promotedId now => exact concealed_promote h promotedId now
  | _ =>
    exact concealed_change h _ (Finset.Subset.refl _) (fun _ hpromotes ↦ hpromotes.elim) trivial

/-- A job that was started hidden and not handed off is not public in any state of a run whose
registrations find, for each snapshot of such a job, its record or a memory of it. -/
theorem hidden_jobs_stay_hidden (env : Environment) (receipts : List TerminalJobReceipt) (begun : ℤ)
    (operations : List Operation)
    (h : revealsNothingAlong env ⟨hydrated receipts begun, ∅⟩ operations = true) :
    (Watched.run env ⟨hydrated receipts begun, ∅⟩ operations).Concealed := by
  have hrun : ∀ (operations : List Operation) (watched : Watched), watched.Concealed →
      revealsNothingAlong env watched operations = true →
          (watched.run env operations).Concealed := by
    intro operations
    induction operations with
    | nil => exact fun watched hconcealed _ ↦ hconcealed
    | cons operation _ ih =>
      intro watched hconcealed hreveals
      rw [revealsNothingAlong, Bool.and_eq_true] at hreveals
      exact ih _ (concealed_step hconcealed operation hreveals.1) hreveals.2
  exact hrun operations _ (fun jobId hid ↦ absurd hid (Finset.notMem_empty jobId)) h

/-! ### A hidden job and its runner -/

section Example

def reconcilingRunner (inventory : ShellJobInventory) : RunnerRegisterRequest where
  clientId := "runner"
  runnerInstanceId := "instance"
  features := [.asyncJobs, .jobStateReconciliation]
  jobInventory := some inventory

def hiddenJobRuns : List Operation :=
  [.register (reconcilingRunner ⟨true, []⟩) 1,
    .start
      { requestId := "request"
        drawnJobId := "job"
        clientId := "runner"
        createdAt := 1
        commandPreview := "make"
        visibility := .hiddenUntilHandoff } 1,
    .poll "runner" "instance" none 2,
    .update
      { clientId := "runner"
        runnerInstanceId := "instance"
        jobId := "job"
        updateSeq := some 1
        status := "running" } none 3]

def hiddenJobEnds (status : String) (exitCode : Option ℤ) : Operation :=
  .update
    { clientId := "runner"
      runnerInstanceId := "instance"
      jobId := "job"
      updateSeq := some 2
      status := status
      exitCode := exitCode
      finished := true } none 5

/-- The runner registers again, with the job among those that have ended. -/
def hiddenJobIsReported (status : RunnerJobLifecycle) (exitCode : Option ℤ) : Operation :=
  .register (reconcilingRunner ⟨true,
    [{ jobId := "job"
       requestId := "request"
       status := status
       updateSeq := 2
       createdAt := 1
       startedAt := some 2
       endedAt := some 5
       exitCode := exitCode
       context := { commandPreview := "make" } }]⟩) 6

/-- A job that ended inside its call is remembered and stays hidden. A promotion that comes too late
hands nothing off. -/
theorem hidden_jobs_stay_hidden_projected :
    (Watched.run { checks := plainChecks } ⟨hydrated [] 0, ∅⟩
      (hiddenJobRuns ++ [hiddenJobEnds "completed" (some 0), .promote "job" 5,
        .discardProjected "job" 5, hiddenJobIsReported .completed (some 0)])).Concealed :=
  hidden_jobs_stay_hidden { checks := plainChecks } [] 0 _ (by decide +kernel)

/-- A job that is cancelled while it runs comes back as a public one: its end removes the record,
and nothing remembers it. -/
theorem cancelled_hidden_job_returns_public :
    ¬ (Watched.run { checks := plainChecks } ⟨hydrated [] 0, ∅⟩
      (hiddenJobRuns ++ [.cancelHidden none "job" "stop" 4, .poll "runner" "instance" none 4,
        hiddenJobEnds "stopped" none, hiddenJobIsReported .stopped none])).Concealed := by
  intro hconcealed
  have hpublic : ((Watched.run { checks := plainChecks } ⟨hydrated [] 0, ∅⟩
      (hiddenJobRuns ++ [.cancelHidden none "job" "stop" 4, .poll "runner" "instance" none 4,
        hiddenJobEnds "stopped" none,
        hiddenJobIsReported .stopped none])).state.jobsById.lookup "job").map (·.visibility) =
      some .isPublic := by
    decide +kernel
  obtain ⟨job, hjob, hvisibility⟩ := Option.map_eq_some_iff.mp hpublic
  exact hconcealed "job" (by decide +kernel) job hjob hvisibility

end Example

end WebCodex.Registry
