import WebCodex.Registry.JobLookup

/-!
The preflight of an inventory checks that the snapshots it expects to apply move no running job
backwards. It misses a detached job that changes its instance at the sequence number that the
registry has, and a job under cleanup that is given up, removed, and rebuilt. A running job keeps
its place exactly when the snapshots of these kinds are not behind it.
-/

namespace WebCodex.Registry

open JobLog

structure JobCursors where
  (updateSeq stdoutNextLine stderrNextLine completed : ℕ)
  deriving DecidableEq

instance : LE JobCursors where
  le first second :=
    first.updateSeq ≤ second.updateSeq ∧ first.stdoutNextLine ≤ second.stdoutNextLine ∧
      first.stderrNextLine ≤ second.stderrNextLine ∧ first.completed ≤ second.completed

instance (first second : JobCursors) : Decidable (first ≤ second) :=
  inferInstanceAs (Decidable (_ ∧ _))

theorem JobCursors.le_refl (cursors : JobCursors) : cursors ≤ cursors :=
  ⟨le_rfl, le_rfl, le_rfl, le_rfl⟩

def ShellJobRecord.cursors (job : ShellJobRecord) : JobCursors :=
  ⟨job.lastUpdateSeq, job.stdout.nextLine, job.stderr.nextLine,
    completedSteps job.validationProgress⟩

def ShellJobSnapshot.cursors (snapshot : ShellJobSnapshot) : JobCursors :=
  ⟨snapshot.updateSeq, snapshot.stdout.nextLine, snapshot.stderr.nextLine,
    completedSteps snapshot.validationProgress⟩

section Applied

variable (instanceId : String) (snapshot : ShellJobSnapshot) (now : ℤ) (job : ShellJobRecord)

theorem cursors_reconciledJob :
    (reconciledJob instanceId snapshot now job).cursors = snapshot.cursors := by
  rw [reconciledJob]
  split_ifs
  · rfl
  · rfl

theorem lifecycle_reconciledJob :
    (reconciledJob instanceId snapshot now job).lifecycle = snapshot.status := by
  rw [reconciledJob]
  split_ifs
  · exact lifecycle_observeJobTerminal now _
  · exact lifecycle_observeJobTerminal now _

variable (inner : RunnerRegistryInner) (clientId : String) (authGroup : Option RunnerAccessGroup)

theorem cursors_rebuiltJob :
    (rebuiltJob inner clientId instanceId authGroup snapshot now).cursors = snapshot.cursors := by
  simp only [rebuiltJob, recordFromSnapshot, observeJobTerminal]
  split_ifs
  · rfl
  · rfl

theorem lifecycle_rebuiltJob :
    (rebuiltJob inner clientId instanceId authGroup snapshot now).lifecycle = snapshot.status :=
  lifecycle_observeJobTerminal now _

end Applied

/-! ### What the preflight promises -/

variable {checks : Checks} {clientId jobId : String} {snapshot : ShellJobSnapshot}

/-- The loop over the snapshots goes on only behind a valid one with a job id that it has not
seen. -/
theorem validateSnapshots_cons {ids requestIds : List String} {sawTerminal : Bool}
    {rest : List ShellJobSnapshot}
    (h : validateSnapshots checks clientId ids requestIds sawTerminal (snapshot :: rest) = .ok ()) :
    snapshot.jobId ∉ ids ∧ (∃ active, validateSnapshot checks clientId snapshot = .ok active) ∧
      ∃ saw, validateSnapshots checks clientId (snapshot.jobId :: ids)
        (snapshot.requestId :: requestIds) saw rest = .ok () := by
  simp only [validateSnapshots, bind, Except.bind] at h
  split_ifs at h with hseen hrequested
  cases hvalid : validateSnapshot checks clientId snapshot with
  | error => simp [hvalid] at h
  | ok active =>
    simp only [hvalid] at h
    split_ifs at h
    exact ⟨by simpa using hseen, ⟨active, rfl⟩, _, h⟩

/-- The preflight lets every job be reported once. -/
theorem nodup_of_validateSnapshots {ids requestIds : List String} {sawTerminal : Bool}
    {snapshots : List ShellJobSnapshot}
    (h : validateSnapshots checks clientId ids requestIds sawTerminal snapshots = .ok ()) :
    (snapshots.map (·.jobId)).Nodup ∧ ∀ snapshot ∈ snapshots, snapshot.jobId ∉ ids := by
  induction snapshots generalizing ids requestIds sawTerminal with
  | nil => simp
  | cons _ _ ih =>
    obtain ⟨hnew, -, _, hrest⟩ := validateSnapshots_cons h
    obtain ⟨hnodup, hunseen⟩ := ih hrest
    constructor
    · refine List.nodup_cons.mpr ⟨fun hagain ↦ ?_, hnodup⟩
      obtain ⟨other, hother, hsame⟩ := List.mem_map.mp hagain
      exact hunseen other hother (hsame ▸ List.mem_cons_self)
    · intro other hother
      rcases List.mem_cons.mp hother with rfl | hlater
      · exact hnew
      · exact fun hseen ↦ hunseen other hlater (List.mem_cons_of_mem _ hseen)

variable {inventory : ShellJobInventory}

theorem validateSnapshots_of_validateJobInventory
    (h : validateJobInventory checks clientId inventory = .ok ()) :
    validateSnapshots checks clientId [] [] false inventory.jobs = .ok () := by
  cases hsnapshots : validateSnapshots checks clientId [] [] false inventory.jobs with
  | ok => rfl
  | error =>
    simp only [validateJobInventory, hsnapshots, bind, Except.bind] at h
    split_ifs at h

/-- An accepted inventory does not name a job twice. -/
theorem nodup_of_validateJobInventory
    (h : validateJobInventory checks clientId inventory = .ok ()) :
    (inventory.jobs.map (·.jobId)).Nodup :=
  (nodup_of_validateSnapshots (validateSnapshots_of_validateJobInventory h)).1

/-- The preflight finds no fault with any snapshot. -/
theorem snapshotFault_of_preflight {inner : RunnerRegistryInner} {instanceId : String}
    (h : preflightInventory inner clientId instanceId inventory = .ok ())
    (hmem : snapshot ∈ inventory.jobs) :
    snapshotFault inner clientId instanceId snapshot = none := by
  rw [preflightInventory] at h
  split at h
  · simp at h
  · rename_i hnone
    exact List.findSome?_eq_none_iff.mp hnone snapshot hmem

variable {job later : ShellJobRecord}

/-- The preflight lets a snapshot that it expects to be applied only move a running job forward. -/
theorem cursors_le_of_preflight {inner : RunnerRegistryInner} {instanceId : String}
    (h : preflightInventory inner clientId instanceId inventory = .ok ())
    (hmem : snapshot ∈ inventory.jobs)
    (hjob : inner.jobsById.lookup snapshot.jobId = some job)
    (hopen : job.lifecycle.isTerminal = false)
    (happly : wouldApply job snapshot = true) :
    job.cursors ≤ snapshot.cursors := by
  have hfault := snapshotFault_of_preflight h hmem
  simp only [snapshotFault, hjob] at hfault
  split_ifs at hfault
  simp only [knownJobFault, hopen, happly, Bool.false_and, Bool.not_false, Bool.true_and,
    if_true, Bool.false_eq_true, if_false] at hfault
  split_ifs at hfault with _ _ _ _ hcompleted hlines
  simp only [Bool.or_eq_true, decide_eq_true_eq, not_or, not_lt] at hcompleted hlines
  simp only [wouldApply, Bool.or_eq_true, Bool.and_eq_true, decide_eq_true_eq, beq_iff_eq] at happly
  refine ⟨?_, hlines.1, hlines.2, hcompleted⟩
  rcases happly with hnewer | ⟨hsame, _⟩
  · exact hnewer.le
  · exact hsame.ge

/-! ### What the reconciliation does -/

theorem identity_expiredJob (now : ℤ) (job : ShellJobRecord) :
    (expiredJob now job).identity = job.identity := by
  rw [expiredJob]
  split_ifs
  · exact identity_markJobLost now job _ _
  · rfl

theorem lifecycle_expiredJob (now : ℤ) (hactive : job.recoveryActive = true) :
    (expiredJob now job).lifecycle.isTerminal = true := by
  rw [expiredJob, if_pos hactive]
  exact lifecycle_markJobLost now _ _ job

/-- No job that runs before and after has moved backwards. -/
def KeepsCursors (before after : RunnerRegistryInner) : Prop :=
  ∀ jobId job later, before.jobsById.lookup jobId = some job → job.lifecycle.isTerminal = false →
    after.jobsById.lookup jobId = some later → later.lifecycle.isTerminal = false →
    job.cursors ≤ later.cursors

/-- A snapshot that takes effect behind the back of the preflight: it moves a detached job that is
not recovering to another instance without a new sequence number, or its job is under cleanup and
among those whose recovery the reconciliation gives up first. -/
def EscapesPreflight (env : Environment) (inner : RunnerRegistryInner)
    (clientId instanceId : String) (now : ℤ) (snapshot : ShellJobSnapshot) (job : ShellJobRecord) :
    Prop :=
  (isDetachedTransfer instanceId job snapshot = true ∧ snapshot.updateSeq = job.lastUpdateSeq ∧
      job.recoveryActive = false) ∨
    (job.visibility = .cleanupPending ∧
      (snapshot.jobId, job) ∈ expiring env (some clientId) now recoverySweepPassCap inner)

section Reconciliation

variable (env : Environment) (inner : RunnerRegistryInner) (clientId instanceId : String)
  (authGroup : Option RunnerAccessGroup) (inventory : ShellJobInventory) (now : ℤ)

/-- The jobs before the loop over the snapshots. -/
def beforeSnapshots : RunnerRegistryInner :=
  let swept := expireRecoveringJobs env (some clientId) now recoverySweepPassCap
    (pruneAllSuppressions now inner)
  loseJobs clientId now .runnerInventoryMissing
    "runner complete active inventory did not contain this job"
    (jobsWhere (isMissing clientId instanceId inventory) swept) swept

theorem reconcileInventory_eq :
    reconcileInventory env inner clientId instanceId authGroup inventory now =
      removeCleanupTerminalJobs (inventory.jobs.foldl
        (reconcileSnapshot clientId instanceId authGroup now)
        (beforeSnapshots env inner clientId instanceId inventory now)) := rfl

/-- What reconciliation has made of a job before it comes to the snapshots: the sweep may have
expired it, and it is lost when the inventory misses it. -/
theorem lookup_beforeSnapshots (jobId : String) :
    (beforeSnapshots env inner clientId instanceId inventory now).jobsById.lookup jobId =
      ((expireRecoveringJobs env (some clientId) now recoverySweepPassCap inner).jobsById.lookup
        jobId).map fun job ↦
          if isMissing clientId instanceId inventory jobId job then
            markJobLost now .runnerInventoryMissing
              "runner complete active inventory did not contain this job" job
          else job := by
  rw [beforeSnapshots, lookup_loseJobs, lookup_expireRecoveringJobs, lookup_expireRecoveringJobs]
  rfl

variable {inner inventory}

/-- The loop finds a running job as it was, when the sweep does not give it up. -/
theorem lookup_beforeSnapshots_of_notMem (hmem : snapshot ∈ inventory.jobs)
    (hjob : inner.jobsById.lookup snapshot.jobId = some job)
    (hopen : job.lifecycle.isTerminal = false)
    (hnot : (snapshot.jobId, job) ∉ expiring env (some clientId) now recoverySweepPassCap inner) :
    (beforeSnapshots env inner clientId instanceId inventory now).jobsById.lookup snapshot.jobId =
      some job := by
  have hkept : awaitsRemoval job = false := by simp [awaitsRemoval, hopen]
  have hpresent : isMissing clientId instanceId inventory snapshot.jobId job = false := by
    simp only [isMissing, List.contains_eq_mem, List.mem_map]
    simp only [Bool.and_eq_false_imp, Bool.not_eq_false', decide_eq_true_eq]
    exact fun _ ↦ ⟨snapshot, hmem, rfl⟩
  rw [lookup_beforeSnapshots, lookup_expire_of_notMem env now hjob hkept hnot]
  simp [hpresent]

variable (inventory) in
/-- A job that the sweep gives up has ended when the loop comes to it, or is gone when it was under
cleanup. -/
theorem lookup_beforeSnapshots_of_mem
    (hexpired : (jobId, job) ∈ expiring env (some clientId) now recoverySweepPassCap inner) :
    (job.visibility = .cleanupPending ∧
        (beforeSnapshots env inner clientId instanceId inventory now).jobsById.lookup
          jobId = none) ∨
      ∃ lost, lost.lifecycle.isTerminal = true ∧ job.visibility ≠ .cleanupPending ∧
        (beforeSnapshots env inner clientId instanceId inventory now).jobsById.lookup jobId =
          some lost := by
  have hended := lifecycle_expiredJob now (mem_expiring env now hexpired).2.1
  have hvisible : (expiredJob now job).visibility = job.visibility :=
    congrArg JobIdentity.visibility (identity_expiredJob now job)
  rw [lookup_beforeSnapshots, lookup_expire_of_mem env now hexpired]
  by_cases hcleanup : job.visibility = .cleanupPending
  · left
    refine ⟨hcleanup, ?_⟩
    simp [awaitsRemoval, hended, hvisible, hcleanup]
  · right
    refine ⟨expiredJob now job, hended, hcleanup, ?_⟩
    have hkept : awaitsRemoval (expiredJob now job) = false := by
      simp [awaitsRemoval, hvisible, hcleanup]
    have hactive : (expiredJob now job).lifecycle.isRunnerActive = false := by
      rw [Bool.eq_false_iff]
      intro hactive
      simp [RunnerJobLifecycle.not_isTerminal_of_isRunnerActive hactive] at hended
    simp [hkept, isMissing, hactive]

/-- A job that stands after the reconciliation stands after the loop. -/
theorem lookup_reconcileInventory_of_open (hopen : later.lifecycle.isTerminal = false) :
    (reconcileInventory env inner clientId instanceId authGroup inventory now).jobsById.lookup
        jobId = some later ↔
      (inventory.jobs.foldl (reconcileSnapshot clientId instanceId authGroup now)
        (beforeSnapshots env inner clientId instanceId inventory now)).jobsById.lookup jobId =
          some later := by
  rw [reconcileInventory_eq, lookup_removeCleanupTerminalJobs, Option.filter_eq_some_iff]
  simp [awaitsRemoval, hopen]

/-- A job that still runs when the loop begins is as it was. -/
theorem eq_of_lookup_beforeSnapshots (hjob : inner.jobsById.lookup jobId = some job)
    (hopen : job.lifecycle.isTerminal = false)
    (hlater : (beforeSnapshots env inner clientId instanceId inventory now).jobsById.lookup jobId =
      some later)
    (hlaterOpen : later.lifecycle.isTerminal = false) : later = job := by
  by_cases hexpired : (jobId, job) ∈ expiring env (some clientId) now recoverySweepPassCap inner
  · rcases lookup_beforeSnapshots_of_mem env clientId instanceId inventory now hexpired
      with ⟨_, hgone⟩ | ⟨_, hended, _, hlost⟩
    · simp [hgone] at hlater
    · rw [hlost, Option.some.injEq] at hlater
      simp [hlater ▸ hended] at hlaterOpen
  · have hkept : awaitsRemoval job = false := by simp [awaitsRemoval, hopen]
    rw [lookup_beforeSnapshots, lookup_expire_of_notMem env now hjob hkept hexpired,
      Option.map_some, Option.some.injEq] at hlater
    by_cases hmissing : isMissing clientId instanceId inventory jobId job = true
    · rw [if_pos hmissing] at hlater
      have hended := lifecycle_markJobLost now .runnerInventoryMissing
        "runner complete active inventory did not contain this job" job
      rw [hlater, hlaterOpen] at hended
      exact absurd hended (by decide)
    · rw [if_neg hmissing] at hlater
      exact hlater.symm

/-- A snapshot that is applied without being predicted moves a detached job at rest. -/
theorem transfersAtRest_of_not_leavesJob (hleft : leavesJob instanceId job snapshot = false)
    (happly : wouldApply job snapshot = false) :
    isDetachedTransfer instanceId job snapshot = true ∧ snapshot.updateSeq = job.lastUpdateSeq ∧
      job.recoveryActive = false := by
  simp only [leavesJob, Bool.or_eq_false_iff, decide_eq_false_iff_not, not_lt] at hleft
  simp only [wouldApply, Bool.or_eq_false_iff, decide_eq_false_iff_not, not_lt] at happly
  have hsame : snapshot.updateSeq = job.lastUpdateSeq := le_antisymm happly.1 hleft.1.2
  have hrest : job.recoveryActive = false := by simpa [hsame] using happly.2
  refine ⟨?_, hsame, hrest⟩
  simpa [hsame, hrest] using hleft.2

/-- A snapshot that escapes the preflight takes effect: its job runs on with its cursors. -/
theorem exists_later_of_escape (hnodup : (inventory.jobs.map (·.jobId)).Nodup)
    (hmem : snapshot ∈ inventory.jobs) (hjob : inner.jobsById.lookup snapshot.jobId = some job)
    (hopen : job.lifecycle.isTerminal = false) (hstatus : snapshot.status.isTerminal = false)
    (hescape : EscapesPreflight env inner clientId instanceId now snapshot job) :
    ∃ later, (reconcileInventory env inner clientId instanceId authGroup inventory
        now).jobsById.lookup snapshot.jobId = some later ∧
      later.lifecycle.isTerminal = false ∧ later.cursors = snapshot.cursors := by
  obtain ⟨state, hlookup, _, hresult⟩ := lookup_foldl_reconcileSnapshot now clientId instanceId
    authGroup hnodup hmem (beforeSnapshots env inner clientId instanceId inventory now)
  rw [lookup_reconcileSnapshot_self, hlookup] at hresult
  rcases hescape with ⟨htransfer, hsame, hrest⟩ | ⟨hcleanup, hexpired⟩
  · have hnot : (snapshot.jobId, job) ∉
        expiring env (some clientId) now recoverySweepPassCap inner := by
      intro hexpired
      simp [(mem_expiring env now hexpired).2.1] at hrest
    have hleft : leavesJob instanceId job snapshot = false := by
      simp [leavesJob, hopen, hsame, htransfer]
    rw [lookup_beforeSnapshots_of_notMem env clientId instanceId now hmem hjob hopen
      hnot] at hresult
    simp only [hleft, Bool.false_eq_true, if_false] at hresult
    have hlater : (reconciledJob instanceId snapshot now job).lifecycle.isTerminal = false := by
      rw [lifecycle_reconciledJob, hstatus]
    exact ⟨_, (lookup_reconcileInventory_of_open env clientId instanceId authGroup now hlater).mpr
      hresult, hlater, cursors_reconciledJob instanceId snapshot now job⟩
  · rcases lookup_beforeSnapshots_of_mem env clientId instanceId inventory now hexpired
      with ⟨_, hgone⟩ | ⟨_, _, hvisible, _⟩
    · have hshown : suppressesSnapshot state clientId instanceId now snapshot = false := by
        simp [suppressesSnapshot, hstatus]
      rw [hgone] at hresult
      simp only [hshown, Bool.false_eq_true, if_false] at hresult
      have hlater : (rebuiltJob state clientId instanceId authGroup snapshot
          now).lifecycle.isTerminal = false := by
        rw [lifecycle_rebuiltJob, hstatus]
      exact ⟨_, (lookup_reconcileInventory_of_open env clientId instanceId authGroup now hlater).mpr
        hresult, hlater, cursors_rebuiltJob instanceId snapshot now state clientId authGroup⟩
    · exact absurd hcleanup hvisible

/-- What becomes of a running job that the inventory names: it is left, or takes over the cursors of
a snapshot that the preflight checked or that escaped it. -/
theorem later_of_named (hnodup : (inventory.jobs.map (·.jobId)).Nodup)
    (hmem : snapshot ∈ inventory.jobs) (hjob : inner.jobsById.lookup snapshot.jobId = some job)
    (hopen : job.lifecycle.isTerminal = false)
    (hlater : (reconcileInventory env inner clientId instanceId authGroup inventory
      now).jobsById.lookup snapshot.jobId = some later)
    (hlaterOpen : later.lifecycle.isTerminal = false) :
    later = job ∨ (later.cursors = snapshot.cursors ∧ snapshot.status.isTerminal = false ∧
      (wouldApply job snapshot = true ∨
        EscapesPreflight env inner clientId instanceId now snapshot job)) := by
  obtain ⟨state, hlookup, _, hresult⟩ := lookup_foldl_reconcileSnapshot now clientId instanceId
    authGroup hnodup hmem (beforeSnapshots env inner clientId instanceId inventory now)
  rw [lookup_reconcileInventory_of_open env clientId instanceId authGroup now hlaterOpen, hresult,
    lookup_reconcileSnapshot_self, hlookup] at hlater
  by_cases hexpired : (snapshot.jobId, job) ∈
      expiring env (some clientId) now recoverySweepPassCap inner
  · rcases lookup_beforeSnapshots_of_mem env clientId instanceId inventory now hexpired
      with ⟨hcleanup, hgone⟩ | ⟨lost, hended, _, hlost⟩
    · rw [hgone] at hlater
      split_ifs at hlater
      rw [Option.some.injEq] at hlater
      subst hlater
      rw [lifecycle_rebuiltJob] at hlaterOpen
      exact Or.inr ⟨cursors_rebuiltJob instanceId snapshot now state clientId authGroup, hlaterOpen,
        Or.inr (Or.inr ⟨hcleanup, hexpired⟩)⟩
    · have hleft : leavesJob instanceId lost snapshot = true := by simp [leavesJob, hended]
      simp only [hlost, hleft, if_true, Option.some.injEq] at hlater
      simp [hlater ▸ hended] at hlaterOpen
  · rw [lookup_beforeSnapshots_of_notMem env clientId instanceId now hmem hjob hopen hexpired]
      at hlater
    by_cases hleft : leavesJob instanceId job snapshot = true
    · simp only [hleft, if_true, Option.some.injEq] at hlater
      exact Or.inl hlater.symm
    · simp only [if_neg hleft, Option.some.injEq] at hlater
      subst hlater
      rw [lifecycle_reconciledJob] at hlaterOpen
      refine Or.inr ⟨cursors_reconciledJob instanceId snapshot now job, hlaterOpen, ?_⟩
      by_cases happly : wouldApply job snapshot = true
      · exact Or.inl happly
      · exact Or.inr (Or.inl (transfersAtRest_of_not_leavesJob instanceId
          (Bool.eq_false_iff.mpr hleft) (Bool.eq_false_iff.mpr happly)))

/-- Running jobs keep their place exactly when no snapshot that escapes the preflight is behind its
job: what is refused changes nothing, and what is accepted replaces the cursors of the job. -/
theorem reconcileInventory_keepsCursors_iff
    (hvalid : validateJobInventory env.checks clientId inventory = .ok ())
    (hpreflight : preflightInventory inner clientId instanceId inventory = .ok ()) :
    KeepsCursors inner
        (reconcileInventory env inner clientId instanceId authGroup inventory now) ↔
      ∀ snapshot ∈ inventory.jobs, ∀ job, inner.jobsById.lookup snapshot.jobId = some job →
        job.lifecycle.isTerminal = false → snapshot.status.isTerminal = false →
        EscapesPreflight env inner clientId instanceId now snapshot job →
        job.cursors ≤ snapshot.cursors := by
  have hnodup := nodup_of_validateJobInventory hvalid
  constructor
  · intro hkeeps snapshot hmem job hjob hopen hstatus hescape
    obtain ⟨later, hlater, hlaterOpen, hcursors⟩ := exists_later_of_escape env clientId instanceId
      authGroup now hnodup hmem hjob hopen hstatus hescape
    exact hcursors ▸ hkeeps _ job later hjob hopen hlater hlaterOpen
  · intro hcondition jobId job later hjob hopen hlater hlaterOpen
    by_cases hnamed : jobId ∈ inventory.jobs.map (·.jobId)
    · obtain ⟨snapshot, hmem, rfl⟩ := List.mem_map.mp hnamed
      rcases later_of_named env clientId instanceId authGroup now hnodup hmem hjob hopen hlater
        hlaterOpen with rfl | ⟨hcursors, hstatus, happly | hescape⟩
      · exact JobCursors.le_refl _
      · exact hcursors ▸ cursors_le_of_preflight hpreflight hmem hjob hopen happly
      · exact hcursors ▸ hcondition snapshot hmem job hjob hopen hstatus hescape
    · rw [lookup_reconcileInventory_of_open env clientId instanceId authGroup now hlaterOpen,
        lookup_foldl_reconcileSnapshot_of_notMem now clientId instanceId authGroup _
          hnamed] at hlater
      rw [eq_of_lookup_beforeSnapshots env clientId instanceId now hjob hopen hlater hlaterOpen]
      exact JobCursors.le_refl _

end Reconciliation

/-! ### A detached job that changes its instance -/

def detachedDigest : String :=
  "889db8910923f531442fd8b144ec63179a8078cf14061991904bb5ec9dd548c5"

def detachedEnvironment : Environment where
  checks := { plainChecks with digest := fun _ ↦ detachedDigest }

/-- A detached job of the first instance of a runner has written two lines. -/
def detachedJobRuns : List Operation :=
  [.register
      { clientId := "runner"
        runnerInstanceId := "first"
        features :=
          [.asyncJobs, .structuredExecutionJobs, .detachedProcessJobs, .jobStateReconciliation]
        jobInventory := some ⟨true, []⟩ } 1,
    .start
      { requestId := "request"
        drawnJobId := ""
        clientId := "runner"
        createdAt := 1
        commandPreview := "sleep 60"
        structuredExecution := some (.detachedProcess ⟨"sleep", ["60"]⟩)
        detachedIdempotencyKey := some "key"
        detachedInitiator := some "owner" } 1,
    .poll "runner" "first" none 2,
    .update
      { clientId := "runner"
        runnerInstanceId := "first"
        jobId := "detached_" ++ detachedDigest
        updateSeq := some 1
        status := "running"
        stdoutChunk := some "one\ntwo\n".toList } none 3]

/-- The inventory of the second instance, with a sequence number and a tail of the output. -/
def secondInventory (sequence : ℕ) (tail : String) : ShellJobInventory where
  activeComplete := true
  jobs :=
    [{ jobId := "detached_" ++ detachedDigest
       requestId := "request"
       status := .running
       updateSeq := sequence
       createdAt := 1
       startedAt := some 3
       context :=
         { commandPreview := "sleep 60"
           structuredExecution := some
             { executionSource := "run_detached_process", argCount := 1, stdinPresent := false } }
       stdout := { tail := tail.toList, nextLine := 1 + retainedLineCount tail.toList } }]

/-- The cursors of the detached job before the second instance registers. -/
theorem cursors_detachedJobRuns : ((run detachedEnvironment {} detachedJobRuns).jobsById.lookup
    ("detached_" ++ detachedDigest)).map (fun job ↦ (job.cursors, job.lifecycle)) =
      some (⟨1, 3, 1, 0⟩, .running) := by
  decide +kernel

/-- A second instance with all of the output takes the job over without a step backwards. -/
theorem reconcileInventory_keepsCursors_second :
    KeepsCursors (run detachedEnvironment {} detachedJobRuns)
      (reconcileInventory detachedEnvironment (run detachedEnvironment {} detachedJobRuns) "runner"
        "second" none (secondInventory 1 "one\ntwo\n") 4) := by
  refine (reconcileInventory_keepsCursors_iff detachedEnvironment "runner" "second" none 4
    (by decide +kernel) (by decide +kernel)).mpr ?_
  intro _ hmem _ hjob _ _ _
  rw [secondInventory, List.mem_singleton] at hmem
  subst hmem
  have hbefore := cursors_detachedJobRuns
  rw [hjob, Option.map_some, Option.some.injEq, Prod.mk.injEq] at hbefore
  rw [hbefore.1]
  decide +kernel

/-- With a part of the output only and no new sequence number, it moves the job backwards. -/
theorem reconcileInventory_moves_detached_job_backwards :
    ¬ ∀ (env : Environment) (inner : RunnerRegistryInner) (clientId instanceId : String)
      (authGroup : Option RunnerAccessGroup) (inventory : ShellJobInventory) (now : ℤ),
      validateJobInventory env.checks clientId inventory = .ok () →
      preflightInventory inner clientId instanceId inventory = .ok () →
      KeepsCursors inner
        (reconcileInventory env inner clientId instanceId authGroup inventory now) := by
  intro hall
  have hkeeps := hall detachedEnvironment (run detachedEnvironment {} detachedJobRuns) "runner"
    "second" none (secondInventory 1 "one\n") 4 (by decide +kernel) (by decide +kernel)
    ("detached_" ++ detachedDigest)
  have hafter :
      ((reconcileInventory detachedEnvironment (run detachedEnvironment {} detachedJobRuns) "runner"
        "second" none (secondInventory 1 "one\n") 4).jobsById.lookup
      ("detached_" ++ detachedDigest)).map (fun job ↦ (job.cursors, job.lifecycle)) =
        some (⟨1, 2, 1, 0⟩, .running) := by
    decide +kernel
  obtain ⟨job, hjob, hcursors⟩ := Option.map_eq_some_iff.mp cursors_detachedJobRuns
  obtain ⟨later, hlater, hlaterCursors⟩ := Option.map_eq_some_iff.mp hafter
  rw [Prod.mk.injEq] at hcursors hlaterCursors
  have hle := hkeeps job later hjob (by rw [hcursors.2]; rfl) hlater
    (by rw [hlaterCursors.2]; rfl)
  rw [hcursors.1, hlaterCursors.1] at hle
  exact absurd hle (by decide)

end WebCodex.Registry
