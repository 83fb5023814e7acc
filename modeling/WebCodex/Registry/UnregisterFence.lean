import WebCodex.Registry.JobTracking

/-!
`begin_project_unregister` raises a fence when it finds no active job of the project, and
`end_project_unregister` lowers it. Begins may be nested, and the fence counts them. As long as a
begin that has raised the fence has not met its own end, no start makes a job of the project
(`fenced_project_gets_no_job`).
-/

namespace WebCodex.Registry

open Foundation

inductive FenceCall where
  | begin (access : Option RunnerAccess) (projectId : String) (now : ℤ)
  | finish (projectId : String)
  | start (start : ShellJobStart) (now : ℤ)

variable (env : Environment) (projectId : String) {inner : RunnerRegistryInner}

def FenceCall.perform (inner : RunnerRegistryInner) : FenceCall → RunnerRegistryInner
  | .begin access asked now => (beginProjectUnregister env inner access asked now).state
  | .finish asked => endProjectUnregister asked inner
  | .start asked now => (startJob env inner asked now).state

/-- A begin for the project that reports no active job. -/
def FenceCall.raises (inner : RunnerRegistryInner) : FenceCall → Bool
  | .begin access asked now =>
    asked == projectId &&
      decide ((beginProjectUnregister env inner access asked now).result = .ok 0)
  | _ => false

def FenceCall.lowers : FenceCall → Bool
  | .finish asked => asked == projectId
  | _ => false

def performAll (inner : RunnerRegistryInner) (calls : List FenceCall) : RunnerRegistryInner :=
  calls.foldl (fun inner call ↦ call.perform env inner) inner

/-- How many begins that raised the fence wait for their ends after some calls, of which `opened`
waited before. There is no number when one of the ends meets no such begin. -/
def openedAfter : ℕ → RunnerRegistryInner → List FenceCall → Option ℕ
  | opened, _, [] => some opened
  | opened, inner, call :: calls =>
    if call.raises env projectId inner then openedAfter (opened + 1) (call.perform env inner) calls
    else if call.lowers projectId then
      if opened = 0 then none else openedAfter (opened - 1) (call.perform env inner) calls
    else openedAfter opened (call.perform env inner) calls

def fenceHeight (inner : RunnerRegistryInner) : ℕ :=
    (inner.unregisteringProjects.lookup projectId).getD 0

/-- A fence that is there is raised, so that lowering it does not underflow. -/
def FencesRaised (inner : RunnerRegistryInner) : Prop :=
  ∀ projectId, inner.unregisteringProjects.lookup projectId ≠ some 0

/-- Each job of the project in the second registry is in the first one. -/
def NoJobCreated (before after : RunnerRegistryInner) : Prop :=
  ∀ jobId job, after.jobsById.lookup jobId = some job → job.projectId = some projectId →
    ∃ old, before.jobsById.lookup jobId = some old ∧ old.projectId = some projectId

theorem NoJobCreated.trans {before between after : RunnerRegistryInner}
    (hfirst : NoJobCreated projectId before between)
    (hrest : NoJobCreated projectId between after) :
    NoJobCreated projectId before after := by
  intro jobId job hjob hproject
  obtain ⟨old, hold, holdProject⟩ := hrest jobId job hjob hproject
  exact hfirst jobId old hold holdProject

theorem noJobCreated_of_jobs {before after : RunnerRegistryInner}
    (hjobs : after.jobsById = before.jobsById) :
    NoJobCreated projectId before after := fun _ job hjob hproject ↦ ⟨job, hjobs ▸ hjob, hproject⟩

/-- The table has an entry for a project exactly when its fence is up, with the number of removals
that are under way. -/
theorem lookup_of_raised (hraised : FencesRaised inner) :
    inner.unregisteringProjects.lookup projectId =
    if fenceHeight projectId inner = 0 then none else some (fenceHeight projectId inner) := by
  unfold fenceHeight
  cases hlookup : inner.unregisteringProjects.lookup projectId with
  | none => rfl
  | some height =>
    have hpos : height ≠ 0 := fun hzero ↦ hraised projectId (hzero ▸ hlookup)
    rw [Option.getD_some, if_neg hpos]

theorem unregisteringProjects_refreshAllJobs (now : ℤ) :
    (refreshAllJobs env now inner).unregisteringProjects = inner.unregisteringProjects :=
  foldl_view_eq RunnerRegistryInner.unregisteringProjects
    (fun current jobId ↦ refreshJobStatus env now jobId current) (fun _ _ ↦ rfl) _ inner

theorem projectId_refreshed (now : ℤ) (job : ShellJobRecord) :
    (refreshed env inner now job).projectId = job.projectId := by
  unfold refreshed markJobLost beginJobRecovery observeJobTerminal
  split_ifs <;> rfl

theorem noJobCreated_refreshAllJobs (now : ℤ) :
    NoJobCreated projectId inner (refreshAllJobs env now inner) := by
  intro _ _ hjob hproject
  rw [lookup_refreshAllJobs, Option.map_eq_some_iff] at hjob
  obtain ⟨old, hold, rfl⟩ := hjob
  exact ⟨old, hold, (projectId_refreshed env now old).symm.trans hproject⟩

/-- The start of a job leaves the fences alone. -/
theorem unregisteringProjects_startJob (start : ShellJobStart) (now : ℤ) :
    (startJob env inner start now).state.unregisteringProjects = inner.unregisteringProjects := by
  have hadmit (runner : RunnerRecord) (jobId : String) :
      (admitStart inner runner start jobId now).state.unregisteringProjects =
        inner.unregisteringProjects := by
    simp only [admitStart, enqueuePendingRequest]
    split
    · rfl
    · rename_i henqueued
      split at henqueued
      · cases henqueued
      · cases henqueued
        rfl
  simp only [startJob]
  repeat' split
  all_goals first
    | rfl
    | exact hadmit _ _

/-- A start that is admitted is for no project that is being unregistered. -/
theorem projectId_ne_of_admitted {runner : RunnerRecord} {start : ShellJobStart}
    (hfence : fenceHeight projectId inner ≠ 0)
    (hadmitted : startFault env.checks inner runner start = none) :
    start.projectId ≠ some projectId := by
  intro hproject
  have hhas : Table.has projectId inner.unregisteringProjects = true := by
    rw [Table.has, Option.isSome_iff_ne_none]
    intro hnone
    rw [fenceHeight, hnone] at hfence
    exact hfence rfl
  unfold startFault at hadmitted
  split at hadmitted
  · cases hadmitted
  · rw [hproject, Option.any_some, if_pos hhas] at hadmitted
    cases hadmitted

/-- A start makes no job of a project whose fence is raised. -/
theorem noJobCreated_startJob (hfence : fenceHeight projectId inner ≠ 0) (start : ShellJobStart)
    (now : ℤ) :
    NoJobCreated projectId inner (startJob env inner start now).state := by
  have hsame := noJobCreated_of_jobs projectId (rfl : inner.jobsById = inner.jobsById)
  have hadmit (runner : RunnerRecord) (jobId : String)
      (hadmitted : startFault env.checks inner runner start = none) :
      NoJobCreated projectId inner (admitStart inner runner start jobId now).state := by
    obtain hjobs | hjobs := admitStart_cases inner runner start jobId now
    · exact noJobCreated_of_jobs projectId (congrArg Store.table hjobs)
    · intro _ job hjob hproject
      rw [show (admitStart inner runner start jobId now).state.jobsById =
        _ from congrArg Store.table hjobs, Table.lookup_insert_eq] at hjob
      split_ifs at hjob
      · cases hjob
        exact absurd hproject (projectId_ne_of_admitted env projectId hfence hadmitted)
      · exact ⟨job, hjob, hproject⟩
  simp only [startJob]
  repeat' split
  all_goals first
    | exact hsame
    | exact hadmit _ _ ‹_›

/-- What a call does to a fence. -/
theorem fence_perform (hraised : FencesRaised inner) (call : FenceCall) :
    FencesRaised (call.perform env inner) ∧ fenceHeight projectId (call.perform env inner) =
        if call.raises env projectId inner then fenceHeight projectId inner + 1
        else if call.lowers projectId then fenceHeight projectId inner - 1
        else fenceHeight projectId inner := by
  cases call with
  | start start now =>
    have hfences : (startJob env inner start now).state.unregisteringProjects =
        inner.unregisteringProjects :=
      unregisteringProjects_startJob env start now
    refine ⟨fun other ↦ hfences ▸ hraised other, ?_⟩
    simp [FenceCall.raises, FenceCall.lowers, fenceHeight, FenceCall.perform, hfences]
  | finish asked =>
    simp only [FenceCall.raises, FenceCall.lowers, fenceHeight, FenceCall.perform,
      endProjectUnregister, FencesRaised, Bool.false_eq_true, if_false, beq_iff_eq]
    cases hasked : inner.unregisteringProjects.lookup asked with
    | none =>
      refine ⟨hraised, ?_⟩
      split_ifs with hsame
      · rw [← hsame, hasked]
        rfl
      · rfl
    | some count =>
      by_cases hone : count - 1 = 0
      · simp only [if_pos hone, Table.lookup_erase_eq]
        refine ⟨fun other ↦ ?_, ?_⟩
        · split_ifs
          · simp
          · exact hraised other
        · by_cases hsame : asked = projectId
          · subst hsame
            simp [hasked, hone]
          · simp [hsame, Ne.symm hsame]
      · simp only [if_neg hone, Table.lookup_insert_eq]
        refine ⟨fun other ↦ ?_, ?_⟩
        · split_ifs
          · simpa using hone
          · exact hraised other
        · by_cases hsame : asked = projectId
          · subst hsame
            simp [hasked]
          · simp [hsame, Ne.symm hsame]
  | begin _ asked now =>
    have hfences : (refreshAllJobs env now inner).unregisteringProjects =
        inner.unregisteringProjects :=
      unregisteringProjects_refreshAllJobs env now
    simp only [FenceCall.raises, FenceCall.lowers, fenceHeight, FenceCall.perform,
      beginProjectUnregister, FencesRaised, Bool.false_eq_true, if_false, hfences,
      CallResult.ok.injEq, Bool.and_eq_true, beq_iff_eq,
      decide_eq_true_eq]
    generalize (Table.values (refreshAllJobs env now inner).jobsById).countP _ = active
    by_cases hnone : active = 0
    · subst hnone
      simp only [if_true, and_true, Table.lookup_insert_eq]
      refine ⟨fun other ↦ ?_, ?_⟩
      · split_ifs
        · simp
        · exact hraised other
      · by_cases hsame : asked = projectId
        · subst hsame
          simp
        · simp [hsame, Ne.symm hsame]
    · simp only [hnone, and_false, if_false, hfences]
      exact ⟨hraised, trivial⟩

/-- What a call does to the jobs of a project whose fence is raised. -/
theorem noJobCreated_perform (hfence : fenceHeight projectId inner ≠ 0) (call : FenceCall) :
    NoJobCreated projectId inner (call.perform env inner) := by
  cases call with
  | start start now => exact noJobCreated_startJob env projectId hfence start now
  | finish =>
    simp only [FenceCall.perform, endProjectUnregister]
    split <;> exact noJobCreated_of_jobs projectId rfl
  | begin _ _ now =>
    simp only [FenceCall.perform, beginProjectUnregister]
    split <;> exact noJobCreated_refreshAllJobs env projectId now

theorem fencesRaised_performAll (hraised : FencesRaised inner) (calls : List FenceCall) :
    FencesRaised (performAll env inner calls) := by
  induction calls generalizing inner with
  | nil => exact hraised
  | cons call _ ih => exact ih (fence_perform env "" hraised call).1

/-- As long as a begin before the calls waits for its end, the fence is as high as the begins that
wait, and no job of the project is made. -/
theorem fence_performAll (hraised : FencesRaised inner) (calls : List FenceCall)
    {opened after below : ℕ} (hheight : fenceHeight projectId inner = below + 1 + opened)
    (hopened : openedAfter env projectId opened inner calls = some after) :
    fenceHeight projectId (performAll env inner calls) = below + 1 + after ∧
      NoJobCreated projectId inner (performAll env inner calls) := by
  induction calls generalizing inner opened with
  | nil =>
    cases hopened
    exact ⟨hheight, noJobCreated_of_jobs projectId rfl⟩
  | cons call calls ih =>
    obtain ⟨hraised', hstep⟩ := fence_perform env projectId hraised call
    have hfirst : NoJobCreated projectId inner (call.perform env inner) :=
      noJobCreated_perform env projectId (by omega) call
    rw [openedAfter] at hopened
    have hrest : fenceHeight projectId (performAll env (call.perform env inner) calls) = below +
      1 + after ∧
        NoJobCreated projectId (call.perform env inner)
            (performAll env (call.perform env inner) calls) := by
      by_cases hraises : call.raises env projectId inner = true
      · rw [if_pos hraises] at hopened hstep
        exact ih hraised' (by omega) hopened
      · rw [if_neg hraises] at hopened hstep
        by_cases hlowers : call.lowers projectId = true
        · rw [if_pos hlowers] at hopened hstep
          split_ifs at hopened with hzero
          exact ih hraised' (by omega) hopened
        · rw [if_neg hlowers] at hopened hstep
          exact ih hraised' (hstep.trans hheight) hopened
    exact ⟨hrest.1, hfirst.trans projectId hrest.2⟩

/-- From a registry without fences and after any calls, a begin that reports no active job of the
project raises its fence by one. Whatever calls come until its own end, no job of the project is
made and the fence counts the begins that wait for their ends; after that end it is what it was
before the begin. -/
theorem fenced_project_gets_no_job (hclear : inner.unregisteringProjects = ∅)
    (earlier between : List FenceCall) (access : Option RunnerAccess) (now : ℤ) {opened : ℕ} :
    let before := performAll env inner earlier
    let fenced := (beginProjectUnregister env before access projectId now).state
    let after := performAll env fenced between
    (beginProjectUnregister env before access projectId now).result = .ok 0 →
      openedAfter env projectId 0 fenced between = some opened →
        NoJobCreated projectId fenced after ∧ FencesRaised after ∧
          after.unregisteringProjects.lookup projectId = some
            (fenceHeight projectId before + 1 + opened) ∧
          (opened = 0 → (endProjectUnregister projectId after).unregisteringProjects.lookup
            projectId =
            before.unregisteringProjects.lookup projectId) := by
  intro before fenced after hbegin hopened
  have hraised : FencesRaised before := fencesRaised_performAll env
    (fun _ ↦ by simp [hclear]) earlier
  have hraises : (FenceCall.begin access projectId now).raises env projectId before = true := by
    simp [FenceCall.raises, hbegin]
  obtain ⟨hfenced, hheight⟩ := fence_perform env projectId hraised (.begin access projectId now)
  rw [if_pos hraises] at hheight
  obtain ⟨hafter, hcreated⟩ := fence_performAll env projectId hfenced between hheight hopened
  have hlast : FencesRaised after := fencesRaised_performAll env hfenced between
  change fenceHeight projectId after = _ at hafter
  refine ⟨hcreated, hlast, ?_, fun hnone ↦ ?_⟩
  · rw [lookup_of_raised projectId hlast, hafter, if_neg (by omega)]
  · obtain ⟨hended, hdown⟩ := fence_perform env projectId hlast (.finish projectId)
    have hback : fenceHeight projectId (endProjectUnregister projectId after) =
        fenceHeight projectId before := by
      simp only [FenceCall.raises, FenceCall.lowers, Bool.false_eq_true, if_false, beq_self_eq_true,
        if_true, hafter, hnone] at hdown
      exact hdown
    change FencesRaised (endProjectUnregister projectId after) at hended
    rw [lookup_of_raised projectId hraised, lookup_of_raised projectId hended, hback]

/-- The calls after a begin at time 1: a second begin, a start of a job of the project and an
end. -/
def nestedBegin : List FenceCall := [.begin none "web" 2,
    .start { requestId := "request", drawnJobId := "job", clientId := "runner"
             projectId := some "web", createdAt := 3 } 3,
    .finish "web"]

/-- While two removals of a project overlap, the end of the first one leaves the fence of the second
one up, and no job starts in the project. -/
theorem nested_begin_keeps_fence :
    let fenced := (beginProjectUnregister { checks := plainChecks } {} none "web" 1).state
    NoJobCreated "web" fenced (performAll { checks := plainChecks } fenced nestedBegin) := by
  have hkept := @fenced_project_gets_no_job { checks := plainChecks } "web" {} rfl
    [] nestedBegin none 1 0 rfl rfl
  exact hkept.1

end WebCodex.Registry
