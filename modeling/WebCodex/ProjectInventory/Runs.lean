import Mathlib.Data.List.Dedup
import WebCodex.ProjectInventory.Paging

/-!
Pages of any generations arrive in any order, repeated and with gaps, between dynamic mutations,
reconnects and time-outs (`InventoryEvent`, `run`). Each event acts on the runner of a client in one
of five ways (`RunnerAction`, `lookup_step`), so that a run of the registry is, for one client, a
run of actions on its runner (`lookup_run`).
-/

namespace WebCodex.ProjectInventory

open Foundation

inductive InventoryEvent
  | page (clientId instanceId : String) (connectionId : Option String)
      (received : ShellProjectInventoryPage) (now : ℤ)
  | mutate (clientId instanceId : String) (mutation : DynamicMutation) (now : ℤ)
  | reconnect (clientId : String) (connectionId : Option String) (now : ℤ)
  | expire (now : ℤ)

variable {clientId : String}

section Runs

variable (encoding : Encoding)

def step (runners : Runners) : InventoryEvent → Runners
  | .page clientId instanceId connectionId received now =>
    (applyProjectInventoryPageChecked encoding runners clientId instanceId connectionId
      received now).1
  | .mutate clientId instanceId mutation now =>
    (mutateRunnerProject runners clientId instanceId mutation now).1
  | .reconnect clientId connectionId now =>
    match runners.lookup clientId with
    | none => runners
    | some runner => registerRunner runners clientId runner.runnerInstanceId connectionId now
  | .expire now => Table.mapValues (fun _ runner ↦ expireStaging now runner) runners

/-- The runners after some events, oldest first. -/
def run (runners : Runners) (events : List InventoryEvent) : Runners :=
  events.foldl (step encoding) runners

/-- The effect of an event on the runner of a client. -/
inductive RunnerAction
  | expire (now : ℤ)
  | page (received : ShellProjectInventoryPage) (concurrentStaging : ℕ) (now : ℤ)
  | mutate (mutation : DynamicMutation) (now : ℤ)
  | reconnect (connectionId : Option String) (now : ℤ)
  | skip

variable (runner : InventoryRunner)

def RunnerAction.apply : RunnerAction → InventoryRunner
  | .expire now => expireStaging now runner
  | .page received concurrentStaging now =>
    (applyPage encoding (expireStaging now runner) concurrentStaging received now).1
  | .mutate mutation now =>
    reconcileDynamicProjection { runner with projects := mutation.apply runner.projects } now
  | .reconnect connectionId now =>
    { runner with
      connectionId := connectionId
      lastSeen := now
      projectInventory := preserveAuthoritativePending runner.projectInventory
        runner.projects.length }
  | .skip => runner

def RunnerAction.outcome : RunnerAction → PageOutcome
  | .page received concurrentStaging now =>
    (applyPage encoding (expireStaging now runner) concurrentStaging received now).2
  | _ => .refused

/-- The action of an event on a client's runner. -/
def actionOn (clientId : String) (runners : Runners) : InventoryEvent → RunnerAction
  | .page target instanceId connectionId received now =>
    match validateRunnerInstanceId instanceId with
    | .error _ => .skip
    | .ok _ =>
      let expired := Table.mapValues (fun _ runner ↦ expireStaging now runner) runners
      if target = clientId ∧
          leaseFault target instanceId connectionId (expired.lookup target) = none then
        .page received ((Table.values expired).countP fun runner ↦
          runner.projectInventory.staging.isSome) now
      else .expire now
  | .mutate target instanceId mutation now =>
    match mutation.validate with
    | .error _ => .skip
    | .ok _ =>
      if target = clientId ∧ leaseFault target instanceId none (runners.lookup target) = none then
        .mutate mutation now
      else .skip
  | .reconnect target connectionId now =>
    if target = clientId then .reconnect connectionId now else .skip
  | .expire now => .expire now

variable {encoding}

theorem leaseFault_none {instanceId : String} {connectionId : Option String} :
    leaseFault clientId instanceId connectionId none ≠ none := by
  simp [leaseFault]

/-- Every event acts on a client's runner by its action. -/
theorem lookup_step {runners : Runners} {runner : InventoryRunner}
    (hrunner : runners.lookup clientId = some runner) (event : InventoryEvent) :
    (step encoding runners event).lookup clientId =
      some ((actionOn clientId runners event).apply encoding runner) := by
  cases event with
  | page target instanceId connectionId _ now =>
    simp only [step, applyProjectInventoryPageChecked, actionOn]
    cases validateRunnerInstanceId instanceId with
    | error => exact hrunner
    | ok =>
      have hexpired : (Table.mapValues (fun _ other ↦ expireStaging now other) runners).lookup
          clientId = some (expireStaging now runner) := by
        rw [Table.lookup_mapValues, hrunner, Option.map_some]
      generalize Table.mapValues (fun _ other ↦ expireStaging now other) runners = expired
        at hexpired ⊢
      cases hfault : leaseFault target instanceId connectionId (expired.lookup target) with
      | some => simpa [hfault, RunnerAction.apply] using hexpired
      | none =>
        cases htarget : expired.lookup target with
        | none => exact absurd (htarget ▸ hfault) leaseFault_none
        | some =>
          simp only [Table.lookup_insert_eq, and_true]
          by_cases hsame : target = clientId
          · subst hsame
            rw [if_pos rfl, if_pos rfl]
            rw [htarget] at hexpired
            obtain rfl := Option.some.inj hexpired
            rfl
          · rw [if_neg fun hclient ↦ hsame hclient.symm, if_neg hsame]
            exact hexpired
  | mutate target instanceId mutation =>
    simp only [step, mutateRunnerProject, actionOn]
    cases mutation.validate with
    | error => exact hrunner
    | ok =>
      cases hfault : leaseFault target instanceId none (runners.lookup target) with
      | some => simpa [hfault, RunnerAction.apply] using hrunner
      | none =>
        cases htarget : runners.lookup target with
        | none => exact absurd (htarget ▸ hfault) leaseFault_none
        | some =>
          simp only [Table.lookup_insert_eq, and_true]
          by_cases hsame : target = clientId
          · subst hsame
            rw [if_pos rfl, if_pos rfl]
            rw [htarget] at hrunner
            obtain rfl := Option.some.inj hrunner
            rfl
          · rw [if_neg fun hclient ↦ hsame hclient.symm, if_neg hsame]
            exact hrunner
  | reconnect target =>
    simp only [step, actionOn]
    by_cases hsame : target = clientId
    · subst hsame
      simp [hrunner, registerRunner, RunnerAction.apply]
    · cases htarget : runners.lookup target with
      | none => simpa [hsame, RunnerAction.apply] using hrunner
      | some =>
        have hne : clientId ≠ target := fun hclient ↦ hsame hclient.symm
        simp [registerRunner, htarget, hne, hsame, RunnerAction.apply, hrunner]
  | expire => simp [step, actionOn, RunnerAction.apply, hrunner]

variable (encoding)

/-- What a run does to the runner of a client. -/
def actions (clientId : String) : Runners → List InventoryEvent → List RunnerAction
  | _, [] => []
  | runners, event :: events =>
    actionOn clientId runners event :: actions clientId (step encoding runners event) events

def runActions (acts : List RunnerAction) : InventoryRunner :=
  acts.foldl (fun current act ↦ act.apply encoding current) runner

variable {encoding}

theorem lookup_run {runners : Runners} {runner : InventoryRunner}
    (hrunner : runners.lookup clientId = some runner) (events : List InventoryEvent) :
    (run encoding runners events).lookup clientId =
      some (runActions encoding runner (actions encoding clientId runners events)) := by
  induction events generalizing runners runner with
  | nil => exact hrunner
  | cons event _ ih => exact ih (lookup_step hrunner event)

end Runs

/-! ### What a page does to an inventory -/

/-- A change of the inventory that stages nothing: the staging area stays or goes, and the
generations that are retired are those of the staging area and of the status. -/
structure Quiet (before after : ProjectInventoryState) : Prop where
  highest : after.highestSnapshotSequence = before.highestSnapshotSequence
  staging : after.staging = before.staging ∨ after.staging = none
  named : after.status.generation = before.status.generation ∨ after.status.generation = none
  retired : ∀ generation ∈ after.retiredGenerations, generation ∈ before.retiredGenerations ∨
    after.staging = none ∧ (before.status.generation = some generation ∨
      ∃ staging, before.staging = some staging ∧ staging.generation = generation)

theorem Quiet.refl (state : ProjectInventoryState) : Quiet state state :=
  ⟨rfl, .inl rfl, .inl rfl, fun _ hretired ↦ .inl hretired⟩

theorem Quiet.trans {first second third : ProjectInventoryState} (hfirst : Quiet first second)
    (hsecond : Quiet second third) : Quiet first third := by
  refine ⟨hsecond.highest.trans hfirst.highest, ?_, ?_, ?_⟩
  · rcases hsecond.staging with hkept | hgone
    · rw [hkept]
      exact hfirst.staging
    · exact .inr hgone
  · rcases hsecond.named with hkept | hgone
    · rw [hkept]
      exact hfirst.named
    · exact .inr hgone
  · intro generation hretired
    rcases hsecond.retired generation hretired with hold | ⟨hgone,
      hnamed | ⟨staging, hstaging, hgen⟩⟩
    · rcases hfirst.retired generation hold with hold | ⟨hmiddle, hsource⟩
      · exact .inl hold
      · refine .inr ⟨?_, hsource⟩
        rcases hsecond.staging with hkept | hgone
        · rw [hkept, hmiddle]
        · exact hgone
    · rcases hfirst.named with hkept | hnone
      · exact .inr ⟨hgone, .inl (hkept ▸ hnamed)⟩
      · rw [hnone] at hnamed
        cases hnamed
    · rcases hfirst.staging with hkept | hnone
      · exact .inr ⟨hgone, .inr ⟨staging, hkept ▸ hstaging, hgen⟩⟩
      · rw [hnone] at hstaging
        cases hstaging

variable {state : ProjectInventoryState}

theorem mem_retireGeneration {retired generation : String}
    (hmem : generation ∈ (retireGeneration state retired).retiredGenerations) :
    generation ∈ state.retiredGenerations ∨ generation = retired := by
  unfold retireGeneration at hmem
  split_ifs at hmem
  · exact .inl hmem
  · simpa using List.mem_of_mem_drop hmem

@[simp] theorem retireGeneration_staging (state : ProjectInventoryState) (retired : String) :
    (retireGeneration state retired).staging = state.staging := by
  unfold retireGeneration
  split_ifs <;> rfl

@[simp] theorem retireGeneration_status (state : ProjectInventoryState) (retired : String) :
    (retireGeneration state retired).status = state.status := by
  unfold retireGeneration
  split_ifs <;> rfl

@[simp] theorem retireGeneration_highest (state : ProjectInventoryState) (retired : String) :
    (retireGeneration state retired).highestSnapshotSequence = state.highestSnapshotSequence := by
  unfold retireGeneration
  split_ifs <;> rfl

@[simp] theorem dropStaging_staging (state : ProjectInventoryState) :
    (dropStaging state).staging = none := by
  unfold dropStaging
  split
  · assumption
  · simp

@[simp] theorem dropStaging_status (state : ProjectInventoryState) :
    (dropStaging state).status = state.status := by
  unfold dropStaging
  split <;> simp

@[simp] theorem dropStaging_highest (state : ProjectInventoryState) :
    (dropStaging state).highestSnapshotSequence = state.highestSnapshotSequence := by
  unfold dropStaging
  split <;> simp

theorem mem_dropStaging {generation : String}
    (hmem : generation ∈ (dropStaging state).retiredGenerations) :
    generation ∈ state.retiredGenerations ∨
      ∃ staging, state.staging = some staging ∧ staging.generation = generation := by
  unfold dropStaging at hmem
  split at hmem
  · exact .inl hmem
  · next staging hstaging =>
    rcases mem_retireGeneration hmem with hold | hnew
    · exact .inl hold
    · exact .inr ⟨staging, hstaging, hnew.symm⟩

theorem quiet_dropStaging (state : ProjectInventoryState) : Quiet state (dropStaging state) := by
  refine ⟨by simp, .inr (by simp), .inl (by simp), fun _ hmem ↦ ?_⟩
  rcases mem_dropStaging hmem with hold | hstaged
  · exact .inl hold
  · exact .inr ⟨by simp, .inr hstaged⟩

/-- A status that keeps naming its generation, or names none, is a quiet change. -/
theorem quiet_status (state : ProjectInventoryState) {status : ShellProjectInventoryStatus}
    (hnamed : status.generation = state.status.generation ∨ status.generation = none) :
    Quiet state { state with status := status } :=
  ⟨rfl, .inl rfl, hnamed, fun _ hretired ↦ .inl hretired⟩

variable (runner : InventoryRunner)

theorem quiet_clearStaging (errorCode : Option String) (now : ℤ) :
    Quiet runner.projectInventory (clearStaging runner errorCode now).projectInventory := by
  cases errorCode with
  | none => exact quiet_dropStaging _
  | some => exact (quiet_dropStaging _).trans (quiet_status _ (.inl (by simp)))

@[simp] theorem clearStaging_projects (errorCode : Option String) (now : ℤ) :
    (clearStaging runner errorCode now).projects = runner.projects := by
  cases errorCode <;> rfl

theorem quiet_expireStaging (now : ℤ) (runner : InventoryRunner) :
    Quiet runner.projectInventory (expireStaging now runner).projectInventory := by
  unfold expireStaging
  split_ifs
  · exact quiet_clearStaging _ _ _
  · exact .refl _

@[simp] theorem expireStaging_projects (now : ℤ) (runner : InventoryRunner) :
    (expireStaging now runner).projects = runner.projects := by
  unfold expireStaging
  split_ifs <;> simp

theorem quiet_preserveAuthoritativePending (state : ProjectInventoryState) (totalSynced : ℕ) :
    Quiet state (preserveAuthoritativePending state totalSynced) :=
  (quiet_dropStaging state).trans (quiet_status _ (.inl rfl))

/-- Retiring the published generation is quiet once the staging area is gone. -/
theorem quiet_retireNamed (hstaging : state.staging = none) : Quiet state (retireNamed state) := by
  unfold retireNamed
  split
  · exact .refl _
  · next previous hprevious =>
    refine ⟨by simp, .inl (by simp), .inl (by simp), fun _ hmem ↦ ?_⟩
    rcases mem_retireGeneration hmem with hold | hnew
    · exact .inl hold
    · exact .inr ⟨by simp [hstaging], .inl (hnew ▸ hprevious)⟩

theorem quiet_reconcileDynamicProjection (now : ℤ) :
    Quiet runner.projectInventory (reconcileDynamicProjection runner now).projectInventory :=
  ((quiet_clearStaging runner none now).trans (quiet_retireNamed (by simp [clearStaging]))).trans
    (quiet_status _ (.inr rfl))

@[simp] theorem reconcileDynamicProjection_staging (now : ℤ) :
    (reconcileDynamicProjection runner now).projectInventory.staging = none := by
  simp only [reconcileDynamicProjection, clearStaging, retireNamed]
  split <;> simp

/-- A first page takes the staging area: its sequence is above every one staged before. -/
structure Starts (page : ShellProjectInventoryPage) (before after : InventoryRunner) : Prop where
  above : before.projectInventory.highestSnapshotSequence < page.snapshotSequence
  starts : ∃ now, after =
    { before with projectInventory := startStaging before.projectInventory page now }

/-- A page without repeated ids continues the staging area of its generation. -/
structure Extends (page : ShellProjectInventoryPage) (before : InventoryRunner)
    (after : InventoryRunner × PageOutcome) : Prop where
  distinct : (page.projects.map (·.id)).Nodup
  continues : ∃ staging bytes digest now, before.projectInventory.staging = some staging ∧
    staging.generation = page.generation ∧ staging.snapshotSequence = page.snapshotSequence ∧
    stagingFault staging page bytes = none ∧
    after = extendStaging before staging page bytes digest now

theorem validateProjectSummaryBatch_distinct {encoding : Encoding}
    {projects : List RunnerProjectSummary} {bytes : ℕ}
    (hvalid : validateProjectSummaryBatch encoding projects = .ok bytes) :
    (projects.map (·.id)).Nodup := by
  unfold validateProjectSummaryBatch at hvalid
  cases hsummaries : projects.forM validateProjectSummary with
  | error => simp [hsummaries, bind, Except.bind] at hvalid
  | ok =>
    simp only [hsummaries, bind, Except.bind] at hvalid
    split_ifs at hvalid with _ hdistinct
    have hlength : (projects.map (·.id)).dedup.length = (projects.map (·.id)).length := by
      simpa using hdistinct
    rw [← (List.dedup_sublist _).eq_of_length hlength]
    exact List.nodup_dedup _

theorem validatePage_distinct {encoding : Encoding} {page : ShellProjectInventoryPage}
    {checked : ℕ × String} (hvalid : validatePage encoding page = .ok checked) :
    (page.projects.map (·.id)).Nodup := by
  unfold validatePage at hvalid
  cases hgeneration : validateGeneration page.generation with
  | error => simp [hgeneration, bind, Except.bind] at hvalid
  | ok =>
    cases hshape : validatePageShape page with
    | error => simp [hgeneration, hshape, bind, Except.bind] at hvalid
    | ok =>
      cases hbatch : validateProjectSummaryBatch encoding page.projects with
      | error => simp [hgeneration, hshape, hbatch, bind, Except.bind] at hvalid
      | ok => exact validateProjectSummaryBatch_distinct hbatch

theorem quiet_noteNonfatalError (code : String) :
    Quiet runner.projectInventory (noteNonfatalError runner code).projectInventory :=
  quiet_status _ (.inl rfl)

/-- The fences either answer without staging anything, or leave the runner as it is, or give the
staging area to the page. -/
theorem admitPage_cases (concurrentStaging : ℕ) (page : ShellProjectInventoryPage)
    (digest : String) (now : ℤ) :
    match admitPage runner concurrentStaging page digest now with
    | .error early =>
      Quiet runner.projectInventory early.1.projectInventory ∧ early.1.projects = runner.projects ∧
        early.2 ≠ .published
    | .ok admitted => admitted = runner ∨ Starts page runner admitted := by
  simp only [admitPage]
  split_ifs with _ _ _ _ _ _ hfence
  · exact ⟨.refl _, rfl, by simp⟩
  · exact ⟨quiet_noteNonfatalError _ _, rfl, by simp⟩
  · exact ⟨quiet_noteNonfatalError _ _, rfl, by simp⟩
  · exact .inl rfl
  · exact ⟨quiet_noteNonfatalError _ _, rfl, by simp⟩
  · exact ⟨quiet_status _ (.inl rfl), rfl, by simp⟩
  · exact ⟨quiet_noteNonfatalError _ _, rfl, by simp⟩
  · exact .inr ⟨by omega, now, rfl⟩

theorem acceptPage_cases {page : ShellProjectInventoryPage}
    (hdistinct : (page.projects.map (·.id)).Nodup) (bytes : ℕ) (digest : String) (now : ℤ) :
    Extends page runner (acceptPage runner page bytes digest now) ∨ Quiet runner.projectInventory
          (acceptPage runner page bytes digest now).1.projectInventory ∧
        (acceptPage runner page bytes digest now).1.projects = runner.projects ∧
        (acceptPage runner page bytes digest now).2 ≠ .published := by
  unfold acceptPage
  split
  · exact .inr ⟨.refl _, rfl, by simp⟩
  · next staging hstaging =>
    split_ifs with hmismatch
    · exact .inr ⟨quiet_noteNonfatalError _ _, rfl, by simp⟩
    · split
      · exact .inr ⟨quiet_clearStaging _ _ _, by simp, by simp⟩
      · next hfault =>
        simp only [Bool.or_eq_true, bne_iff_ne, not_or, not_not] at hmismatch
        exact .inl ⟨hdistinct, staging, bytes, digest, now, hstaging, hmismatch.1, hmismatch.2,
          hfault, rfl⟩

/-- What a page can do: something quiet, then perhaps take the staging area, then either something
quiet again or a continuation of the staging area. -/
theorem applyPage_cases (encoding : Encoding) (runner : InventoryRunner) (concurrentStaging : ℕ)
    (page : ShellProjectInventoryPage) (now : ℤ) :
    ∃ quiet admitted : InventoryRunner,
      Quiet runner.projectInventory quiet.projectInventory ∧ quiet.projects = runner.projects ∧
      (admitted = quiet ∨ Starts page quiet admitted) ∧
      (Extends page admitted (applyPage encoding runner concurrentStaging page now) ∨
        Quiet admitted.projectInventory
            (applyPage encoding runner concurrentStaging page now).1.projectInventory ∧
          (applyPage encoding runner concurrentStaging page now).1.projects = admitted.projects ∧
          (applyPage encoding runner concurrentStaging page now).2 ≠ .published) := by
  have hexpired := quiet_expireStaging now { runner with lastSeen := now }
  have hprojects := expireStaging_projects now { runner with lastSeen := now }
  unfold applyPage
  generalize expireStaging now { runner with lastSeen := now } = expired at hexpired hprojects ⊢
  refine ⟨expired, ?_⟩
  cases hvalid : validatePage encoding page with
  | error =>
    exact ⟨expired, hexpired, hprojects, .inl rfl, .inr
      ⟨quiet_clearStaging _ _ _, by simp, by simp⟩⟩
  | ok checked =>
    obtain ⟨bytes, digest⟩ := checked
    have hadmit := admitPage_cases expired concurrentStaging page digest now
    cases hadmitted : admitPage expired concurrentStaging page digest now with
    | error =>
      exact ⟨expired, hexpired, hprojects, .inl rfl, .inr (by simpa [hadmitted] using hadmit)⟩
    | ok admitted =>
      rw [hadmitted] at hadmit
      refine ⟨admitted, hexpired, hprojects, hadmit, ?_⟩
      simpa only [hadmitted] using
        acceptPage_cases admitted (validatePage_distinct hvalid) bytes digest now

end WebCodex.ProjectInventory
