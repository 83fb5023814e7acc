import WebCodex.Registry.JobEvolution

/-!
A job that has ended keeps its state, its exit code and its end time as long as its record stands,
in every run that delivers no result to it. The condition is needed: `complete_checked` does not
look whether the job has ended, and a read that declares a job lost leaves its request pending.
-/

namespace WebCodex.Registry

open Foundation

structure TerminalOutcome where
  lifecycle : RunnerJobLifecycle
  (exitCode endedAt : Option ℤ)
  deriving DecidableEq

def ShellJobRecord.outcome (job : ShellJobRecord) : TerminalOutcome :=
  ⟨job.lifecycle, job.exitCode, job.endedAt⟩

theorem outcome_observeJobTerminal (now : ℤ) (job : ShellJobRecord) :
    (observeJobTerminal now job).outcome = job.outcome := by
  rw [observeJobTerminal]
  split_ifs
  · rfl
  · rfl

section Ended

variable {job : ShellJobRecord} (hended : job.lifecycle.isTerminal = true) (now : ℤ)

include hended

theorem beginJobRecovery_of_ended (reason : JobRecoveryReason) :
    beginJobRecovery now reason job = job := by
  simp [beginJobRecovery, hended]

theorem markJobLost_of_ended (reason : JobRecoveryReason) (message : String) :
    markJobLost now reason message job = job := by
  simp [markJobLost, hended]

theorem ne_queued_of_ended : job.lifecycle ≠ .queued := by
  intro hqueued
  rw [hqueued] at hended
  exact absurd hended (by decide)

theorem dispatchedJob_of_ended : dispatchedJob now job = job := by
  simp [dispatchedJob, ne_queued_of_ended hended]

end Ended

variable {promoted : String → Prop} {jobId : String}

/-- A change of a job that has ended keeps its outcome, when no late result is delivered to it. -/
theorem JobStep.outcome_eq {old new : ShellJobRecord} (h : JobStep False promoted jobId old new)
    (hended : old.lifecycle.isTerminal = true) : new.outcome = old.outcome := by
  have hopen : ∀ {p : Prop}, old.lifecycle.isTerminal = false → p := by
    intro p hopen
    simp [hopen] at hended
  cases h with
  | observed now => exact outcome_observeJobTerminal now old
  | recovering => rw [beginJobRecovery_of_ended hended]
  | lost => rw [markJobLost_of_ended hended]
  | dispatched => rw [dispatchedJob_of_ended hended]
  | completed _ _ hguard => exact hopen (hguard.resolve_right id)
  | violated _ _ _ hguard => exact hopen hguard
  | applied _ _ _ _ _ hguard => exact hopen hguard
  | stopped _ hguard => exact absurd hguard (ne_queued_of_ended hended)
  | stopRequested hguard => exact hopen hguard
  | cleanupRequested hguard => exact hopen hguard
  | reconciled _ _ _ hguard => exact hopen hguard
  | interrupted | cleanup | promoted => rfl

/-- Versions of a job that has ended have the same outcome. -/
theorem outcome_eq_of_follows {old new : ShellJobRecord} (h : Follows False promoted jobId old new)
    (hended : old.lifecycle.isTerminal = true) : new.outcome = old.outcome := by
  induction h with
  | refl => rfl
  | @tail middle _ _ hstep ih =>
    have hsame : middle.lifecycle = old.lifecycle := congrArg TerminalOutcome.lifecycle ih
    exact (hstep.outcome_eq (hsame ▸ hended)).trans ih

/-- No operation of the run delivers a result to a job that has ended. -/
def NoLateResult (env : Environment) : RunnerRegistryInner → List Operation → Prop
  | _, [] => True
  | inner, operation :: rest =>
    endsEndedJob inner operation = false ∧ NoLateResult env (step env inner operation).state rest

/-- Every record that stood in a state with an ended job and stands after the run, shared cells and
all, shows the same outcome. -/
def OutcomesLast (env : Environment) (inner : RunnerRegistryInner) (operations : List Operation) :
    Prop :=
  ∀ jobId job later, inner.jobsById.lookup jobId = some job → job.lifecycle.isTerminal = true →
    (run env inner operations).jobsById.lookup jobId = some later → later.handle = job.handle →
    later.outcome = job.outcome

/-- Any record is fresh and any job may be promoted. -/
theorem anyVersions (late : Prop) : JobRules (fun _ _ ↦ True) (Follows late fun _ ↦ True) :=
  versions fun _ _ ↦ trivial

theorem makesFresh_true (env : Environment) (inner : RunnerRegistryInner) (operation : Operation) :
    MakesFresh (fun _ _ ↦ True) env inner operation := by
  cases operation <;> simp [MakesFresh]

/-- A run without late results advances every job, whose outcome it keeps once there is one. -/
theorem run_advances (env : Environment) (inner : RunnerRegistryInner) (operations : List Operation)
    (h : NoLateResult env inner operations) :
    Advances False (fun _ ↦ True) (fun _ _ ↦ True) inner (run env inner operations) := by
  induction operations generalizing inner with
  | nil => exact .refl (anyVersions False).toVersions _
  | cons operation _ ih =>
    refine .trans (anyVersions False).toVersions ?_ (ih _ h.2)
    exact step_advances (anyVersions False) env inner operation (Or.inl h.1) (fun _ _ ↦ trivial)
      (makesFresh_true env inner operation)

/-- The jobs of a server that has started carry the handles that they are kept under. -/
theorem stamped_hydrated (receipts : List TerminalJobReceipt) (now : ℤ) :
    (hydrated receipts now).jobs.Stamped ShellJobRecord.handle := by
  have rules := anyVersions True
  have hrestored : Advances True (fun _ ↦ True) (fun _ _ ↦ True) {} (hydrated receipts now) := by
    refine changes_foldl rules id _ receipts (fun state _ ↦ ?_) {}
    rw [restoreReceipt]
    split_ifs
    · exact .refl rules.toVersions _
    · refine changes_addJob rules state _ _ ?_ trivial
      exact congrArg JobIdentity.handle (identity_observeJobTerminal now _)
  refine hrestored.stamped rules.toVersions fun _ _ hjob ↦ ?_
  simp [RunnerRegistryInner.jobs] at hjob

/-- The addresses of the records of a reachable registry were drawn before. -/
theorem Reachable.stamped {env : Environment} {inner : RunnerRegistryInner}
    (h : Reachable env inner) : inner.jobs.Stamped ShellJobRecord.handle := by
  induction h with
  | start receipts now => exact stamped_hydrated receipts now
  | step operation _ ih =>
    refine Store.Evolves.stamped (anyVersions True).toVersions ?_ ih
    exact step_advances (anyVersions True) env _ operation (Or.inr trivial) (fun _ _ ↦ trivial)
      (makesFresh_true env _ operation)

/-- A runner without reconciliation takes a job and is not heard of for more than a minute; a read
declares the job lost. -/
def lostWhileSilent : List Operation :=
  [.register { clientId := "runner", runnerInstanceId := "instance", features := [.asyncJobs] } 0,
    .start { requestId := "request", drawnJobId := "job", clientId := "runner", createdAt := 0 } 0,
    .poll "runner" "instance" none 0, .readJob "job" 100]

/-- From every reachable state on, the outcome of a job that has ended stays, in every run that
delivers no result to a job that has ended. -/
theorem terminal_outcome_lasts (env : Environment) (inner : RunnerRegistryInner)
    (hreachable : Reachable env inner) (operations : List Operation)
    (h : NoLateResult env inner operations) : OutcomesLast env inner operations := by
  intro jobId job later hjob hended hlater hsame
  have hlow : later.handle < inner.jobs.next := hsame ▸ hreachable.stamped jobId job hjob
  obtain ⟨old, hold, hfollows⟩ :=
    (run_advances env inner operations h).carries_of_stamp_lt hlater hlow
  have hidentified : old = job := Option.some.inj (hold.symm.trans hjob)
  exact hidentified ▸ outcome_eq_of_follows hfollows (hidentified ▸ hended)

/-- The lost job stays lost while its runner is heard of again and the registry is swept. -/
theorem terminal_outcome_lasts_while_silent :
    OutcomesLast { checks := plainChecks } (run { checks := plainChecks } {} lostWhileSilent)
      [.poll "runner" "instance" none 101, .sweep 200, .readJobs 300] :=
  terminal_outcome_lasts _ _ ((reachable_empty _).run lostWhileSilent) _
    ⟨rfl, rfl, rfl, trivial⟩

/-- The result of the command, which arrives after all. -/
def lateResult : Operation :=
  .complete { clientId := "runner", runnerInstanceId := "instance", requestId := "request",
              exitCode := some 0 } none 101

/-- A job of a silent runner is marked lost by a read. When the result arrives late, the job turns
into a completed one. -/
theorem late_result_replaces_outcome :
    ¬ ∀ (env : Environment) (inner : RunnerRegistryInner), Reachable env inner →
      ∀ operations, OutcomesLast env inner operations := by
  intro hall
  have hlast := hall { checks := plainChecks } _
    ((reachable_empty { checks := plainChecks }).run lostWhileSilent) [lateResult] "job"
  have hbefore : ((run { checks := plainChecks } {} lostWhileSilent).jobsById.lookup "job").map
      (fun job ↦ (job.outcome, job.handle)) = some (⟨.lost, none, some 100⟩, 0) := by
    decide +kernel
  have hafter :
      ((run { checks := plainChecks } {} (lostWhileSilent ++ [lateResult])).jobsById.lookup
        "job").map (fun job ↦ (job.outcome, job.handle)) =
        some (⟨.completed, some 0, some 101⟩, 0) := by
    decide +kernel
  obtain ⟨job, hjob, houtcome⟩ := Option.map_eq_some_iff.mp hbefore
  obtain ⟨later, hlater, hlaterOutcome⟩ := Option.map_eq_some_iff.mp hafter
  have hended : job.lifecycle.isTerminal = true := by
    rw [show job.lifecycle = .lost from congrArg (fun pair ↦ pair.1.lifecycle) houtcome]
    rfl
  have hsame : later.handle = job.handle :=
    (congrArg Prod.snd hlaterOutcome).trans (congrArg Prod.snd houtcome).symm
  have heq := hlast job later hjob hended hlater hsame
  have hlifecycle : later.lifecycle = job.lifecycle := congrArg TerminalOutcome.lifecycle heq
  rw [show later.lifecycle = .completed from
      congrArg (fun pair ↦ pair.1.lifecycle) hlaterOutcome,
    show job.lifecycle = .lost from congrArg (fun pair ↦ pair.1.lifecycle) houtcome] at hlifecycle
  exact absurd hlifecycle (by decide)

end WebCodex.Registry
