import WebCodex.ProjectInventory.Runs

/-!
The published list of a runner changes in two ways only
(`inventory_publishes_complete_generations`): a mutation applies to it, or a page completes a
generation, and then it is the sorted union of the pages of that generation, without duplicates.
Snapshots are published in increasing order of their sequence numbers: a sequence at or below the
highest one ever staged, other than the one being staged, is stale for good (`Stale`). Every
retired generation is stale, also after it has fallen out of the bounded list.
-/

namespace WebCodex.ProjectInventory

variable {before : InventoryRunner} {after : InventoryRunner × PageOutcome}
  {state : ProjectInventoryState} {generation : String} {sequence : ℕ}

/-! ### The fence -/

/-- The sequence of a generation is behind the fence: it is not above the highest one staged, and it
is not being staged. -/
def Stale (state : ProjectInventoryState) (generation : String) (sequence : ℕ) : Prop :=
  sequence ≤ state.highestSnapshotSequence ∧
    ∀ staging, state.staging = some staging →
      ¬(staging.generation = generation ∧ staging.snapshotSequence = sequence)

section Fence

variable {generation : String} {sequence : ℕ} {page : ShellProjectInventoryPage}

theorem Stale.quiet {before after : ProjectInventoryState}
    (hstale : Stale before generation sequence) (hquiet : Quiet before after) :
    Stale after generation sequence := by
  refine ⟨hquiet.highest ▸ hstale.1, fun staging hstaging ↦ ?_⟩
  rcases hquiet.staging with hkept | hgone
  · exact hstale.2 staging (hkept ▸ hstaging)
  · rw [hgone] at hstaging
    cases hstaging

@[simp] theorem startStaging_staging (state : ProjectInventoryState) (now : ℤ) :
    (startStaging state page now).staging = some (.begin page now) := rfl

@[simp] theorem startStaging_highest (state : ProjectInventoryState) (now : ℤ) :
    (startStaging state page now).highestSnapshotSequence = page.snapshotSequence := by
  unfold startStaging
  simp only [dropStaging_highest]
  split_ifs
  · split
    · split_ifs <;> simp
    · rfl
  · rfl

/-- A fresh staging area is above everything that is stale. -/
theorem Stale.starts {after : InventoryRunner}
    (hstale : Stale before.projectInventory generation sequence)
    (hstarts : Starts page before after) :
    Stale after.projectInventory generation sequence ∧ sequence < page.snapshotSequence := by
  have hbelow : sequence < page.snapshotSequence := hstale.1.trans_lt hstarts.above
  obtain ⟨now, rfl⟩ := hstarts.starts
  refine ⟨⟨by simpa using hbelow.le, ?_⟩, hbelow⟩
  intro staging hstaging hsame
  obtain rfl : ProjectInventoryStaging.begin page now = staging := by simpa using hstaging
  exact absurd hsame.2 hbelow.ne'

/-- The staging area of an extension belongs to the page, and so does the one it leaves. -/
theorem Extends.staging_generation
    (hextends : Extends page before after) {staging : ProjectInventoryStaging}
    (hstaging : after.1.projectInventory.staging = some staging) :
    staging.generation = page.generation ∧ staging.snapshotSequence = page.snapshotSequence := by
  obtain ⟨_, _, _, _, _, hgeneration, hsequence, -, rfl⟩ := hextends.continues
  unfold extendStaging at hstaging
  split_ifs at hstaging
  cases hstaging
  exact ⟨hgeneration, hsequence⟩

theorem Extends.highest
    (hextends : Extends page before after) :
    after.1.projectInventory.highestSnapshotSequence =
      before.projectInventory.highestSnapshotSequence := by
  obtain ⟨_, _, _, _, -, -, -, -, rfl⟩ := hextends.continues
  unfold extendStaging
  split_ifs <;> rfl

/-- A page that continues the staging area is not stale. -/
theorem Extends.not_stale
    (hextends : Extends page before after) :
    ¬Stale before.projectInventory page.generation page.snapshotSequence := by
  obtain ⟨staged, _, _, _, hstaged, hgeneration, hsequence, -, -⟩ := hextends.continues
  exact fun hstale ↦ hstale.2 staged hstaged ⟨hgeneration, hsequence⟩

theorem Stale.extends
    (hstale : Stale before.projectInventory generation sequence)
    (hextends : Extends page before after) :
    Stale after.1.projectInventory generation sequence := by
  refine ⟨hextends.highest ▸ hstale.1, fun _ hstaging hsame ↦ ?_⟩
  obtain ⟨hgeneration, hsequence⟩ := hextends.staging_generation hstaging
  refine hextends.not_stale ?_
  rwa [← hgeneration, ← hsequence, hsame.1, hsame.2]

end Fence

/-! ### Where the inventory comes from -/

/-- The pages 0 to n of one generation, of which the last is the complete one: they agree on what
they report, no project id occurs twice in them, and they hold as many projects as they report. -/
structure CompleteGeneration (pages : List ShellProjectInventoryPage)
    (last : ShellProjectInventoryPage) : Prop where
  indices : (pages ++ [last]).map (·.pageIndex) = List.range (pages.length + 1)
  generation : ∀ page ∈ pages, page.generation = last.generation ∧
    page.snapshotSequence = last.snapshotSequence ∧ page.totalReported = last.totalReported
  complete : last.complete = true ∧ ∀ page ∈ pages, page.complete = false
  distinct : (((pages ++ [last]).flatMap (·.projects)).map (·.id)).Nodup
  total : ((pages ++ [last]).flatMap (·.projects)).length = last.totalReported

/-- The staging area holds some pages of its generation, in the order they arrived. -/
structure Holds (staging : ProjectInventoryStaging) (pages : List ShellProjectInventoryPage) :
    Prop where
  projects : staging.projects = pages.flatMap (·.projects)
  seenIds : staging.seenIds = staging.projects.map (·.id)
  distinct : staging.seenIds.Nodup
  nextPageIndex : staging.nextPageIndex = pages.length
  indices : pages.map (·.pageIndex) = List.range pages.length
  generation : ∀ page ∈ pages, page.generation = staging.generation ∧
    page.snapshotSequence = staging.snapshotSequence ∧
    page.totalReported = staging.totalReported ∧ page.complete = false

theorem holds_begin (page : ShellProjectInventoryPage) (now : ℤ) : Holds (.begin page now) [] where
  projects := rfl
  seenIds := rfl
  distinct := List.nodup_nil
  nextPageIndex := rfl
  indices := by simp
  generation := by simp

/-- What the checks in front of the staging area establish about a page. -/
theorem stagingFault_none {staging : ProjectInventoryStaging} {page : ShellProjectInventoryPage}
    {bytes : ℕ} (hfault : stagingFault staging page bytes = none) :
    staging.nextPageIndex = page.pageIndex ∧ staging.totalReported = page.totalReported ∧
      (∀ project ∈ page.projects, project.id ∉ staging.seenIds) ∧
      (page.complete = true →
        staging.projects.length + page.projects.length = staging.totalReported) := by
  simp only [stagingFault] at hfault
  split_ifs at hfault with hindex htotal hseen hcompletion
  refine ⟨by simpa using hindex, by simpa using htotal, by simpa using hseen, fun hcomplete ↦ ?_⟩
  by_contra hlength
  simp [hcomplete, hlength] at hcompletion

section Staging

variable {staging : ProjectInventoryStaging} {pages : List ShellProjectInventoryPage}
  {page : ShellProjectInventoryPage} {bytes : ℕ}

theorem Holds.indices_append (hholds : Holds staging pages)
    (hfault : stagingFault staging page bytes = none) :
    (pages ++ [page]).map (·.pageIndex) = List.range (pages.length + 1) := by
  rw [List.map_append, hholds.indices, List.range_succ, ← hholds.nextPageIndex,
    (stagingFault_none hfault).1]
  rfl

theorem Holds.extend (hholds : Holds staging pages)
    (hgeneration : staging.generation = page.generation)
    (hsequence : staging.snapshotSequence = page.snapshotSequence)
    (hdistinct : (page.projects.map (·.id)).Nodup)
    (hfault : stagingFault staging page bytes = none) (hunfinished : page.complete = false) :
    Holds (staging.extend page bytes) (pages ++ [page]) := by
  obtain ⟨-, htotal, hfresh, -⟩ := stagingFault_none hfault
  constructor
  · simp [ProjectInventoryStaging.extend, hholds.projects]
  · simp [ProjectInventoryStaging.extend, hholds.seenIds]
  · refine List.nodup_append.mpr ⟨hholds.distinct, hdistinct, ?_⟩
    rintro id hseen other hother rfl
    obtain ⟨project, hproject, rfl⟩ := List.mem_map.mp hother
    exact hfresh project hproject hseen
  · simp [ProjectInventoryStaging.extend, hholds.nextPageIndex]
  · simpa using hholds.indices_append hfault
  · intro other hother
    rcases List.mem_append.mp hother with hold | hnew
    · exact hholds.generation other hold
    · obtain rfl := List.mem_singleton.mp hnew
      exact ⟨hgeneration.symm, hsequence.symm, htotal.symm, hunfinished⟩

/-- The last page completes its generation. -/
theorem Holds.completes (hholds : Holds staging pages)
    (hgeneration : staging.generation = page.generation)
    (hsequence : staging.snapshotSequence = page.snapshotSequence)
    (hdistinct : (page.projects.map (·.id)).Nodup)
    (hfault : stagingFault staging page bytes = none) (hcomplete : page.complete = true) :
    CompleteGeneration pages page := by
  obtain ⟨-, htotal, hfresh, hlength⟩ := stagingFault_none hfault
  constructor
  · exact hholds.indices_append hfault
  · intro other hother
    obtain ⟨hgen, hseq, htot, -⟩ := hholds.generation other hother
    exact ⟨hgen.trans hgeneration, hseq.trans hsequence, htot.trans htotal⟩
  · exact ⟨hcomplete, fun other hother ↦ (hholds.generation other hother).2.2.2⟩
  · rw [List.flatMap_append, ← hholds.projects, List.map_append, ← hholds.seenIds]
    refine List.nodup_append.mpr ⟨hholds.distinct, by simpa using hdistinct, ?_⟩
    rintro id hseen other hother rfl
    obtain ⟨project, hproject, rfl⟩ : ∃ project ∈ page.projects, project.id = id := by
      simpa using hother
    exact hfresh project hproject hseen
  · rw [List.flatMap_append, ← hholds.projects, List.length_append]
    simpa [htotal] using hlength hcomplete

end Staging

/-- Everything in an inventory comes from pages: the staging area from some that arrived since the
last mutation, its sequence being the highest one; the published generation and the retired ones
from pages that arrived at some time, and the retired ones are stale. -/
structure InventoryInvariant (recent delivered : List ShellProjectInventoryPage)
    (state : ProjectInventoryState) : Prop where
  staged : ∀ staging, state.staging = some staging →
    (∃ pages, pages.Sublist recent ∧ Holds staging pages) ∧
    staging.snapshotSequence = state.highestSnapshotSequence ∧
    ∃ page ∈ delivered, page.generation = staging.generation ∧
      page.snapshotSequence = staging.snapshotSequence
  named : ∀ generation, state.status.generation = some generation →
    ∃ page ∈ delivered, page.generation = generation ∧
      page.snapshotSequence ≤ state.highestSnapshotSequence
  retired : ∀ generation ∈ state.retiredGenerations,
    ∃ page ∈ delivered, page.generation = generation ∧ Stale state generation page.snapshotSequence

section Invariant

variable {recent delivered : List ShellProjectInventoryPage} {page : ShellProjectInventoryPage}

theorem InventoryInvariant.mono {recent' delivered' : List ShellProjectInventoryPage}
    (hinvariant : InventoryInvariant recent delivered state)
    (hrecent : recent.Sublist recent') (hdelivered : delivered ⊆ delivered') :
    InventoryInvariant recent' delivered' state := by
  constructor
  · intro staging hstaging
    obtain ⟨⟨pages, hsub, hholds⟩, hhighest, other, hother, hsame⟩ :=
      hinvariant.staged staging hstaging
    exact ⟨⟨pages, hsub.trans hrecent, hholds⟩, hhighest, other, hdelivered hother, hsame⟩
  · intro generation hnamed
    obtain ⟨other, hother, hsame⟩ := hinvariant.named generation hnamed
    exact ⟨other, hdelivered hother, hsame⟩
  · intro generation hretired
    obtain ⟨other, hother, hsame⟩ := hinvariant.retired generation hretired
    exact ⟨other, hdelivered hother, hsame⟩

/-- Without a staging area no recent page is needed. -/
theorem InventoryInvariant.forget
    (hinvariant : InventoryInvariant recent delivered state) (hstaging : state.staging = none) :
    InventoryInvariant [] delivered state :=
  ⟨by simp [hstaging], hinvariant.named, hinvariant.retired⟩

/-- Without a staging area everything that reached the fence is stale. -/
theorem stale_of_no_staging (hstaging : state.staging = none)
    (hsequence : sequence ≤ state.highestSnapshotSequence) :
    Stale state generation sequence :=
  ⟨hsequence, by simp [hstaging]⟩

theorem InventoryInvariant.quiet {before after : ProjectInventoryState}
    (hinvariant : InventoryInvariant recent delivered before) (hquiet : Quiet before after) :
    InventoryInvariant recent delivered after := by
  constructor
  · intro staging hstaging
    rcases hquiet.staging with hkept | hgone
    · rw [hquiet.highest]
      exact hinvariant.staged staging (hkept ▸ hstaging)
    · rw [hgone] at hstaging
      cases hstaging
  · intro generation hnamed
    rcases hquiet.named with hkept | hgone
    · rw [hquiet.highest]
      exact hinvariant.named generation (hkept ▸ hnamed)
    · rw [hgone] at hnamed
      cases hnamed
  · intro generation hretired
    rcases hquiet.retired generation hretired with
      hold | ⟨hgone, hnamed | ⟨staging, hstaging, rfl⟩⟩
    · obtain ⟨other, hother, hgeneration, hstale⟩ := hinvariant.retired generation hold
      exact ⟨other, hother, hgeneration, hstale.quiet hquiet⟩
    · obtain ⟨other, hother, hgeneration, hbelow⟩ := hinvariant.named generation hnamed
      exact ⟨other, hother, hgeneration, stale_of_no_staging hgone (hquiet.highest ▸ hbelow)⟩
    · obtain ⟨-, hhighest, other, hother, hgeneration, hsequence⟩ :=
        hinvariant.staged staging hstaging
      refine ⟨other, hother, hgeneration, stale_of_no_staging hgone ?_⟩
      rw [hquiet.highest, hsequence, hhighest]

/-- A fresh first page retires what was published and what was staged. -/
theorem mem_startStaging {now : ℤ}
    (hmem : generation ∈ (startStaging state page now).retiredGenerations) :
    generation ∈ state.retiredGenerations ∨ state.status.generation = some generation ∨
      ∃ staging, state.staging = some staging ∧ staging.generation = generation := by
  rcases mem_dropStaging hmem with hold | ⟨staging, hstaging, hgeneration⟩
  · split_ifs at hold
    · split at hold
      · next previous hprevious =>
        split_ifs at hold
        · rcases mem_retireGeneration hold with hold | rfl
          · exact .inl hold
          · exact .inr (.inl hprevious)
        · exact .inl hold
      · exact .inl hold
    · exact .inl hold
  · refine .inr (.inr ⟨staging, ?_, hgeneration⟩)
    split_ifs at hstaging
    · split at hstaging
      · split_ifs at hstaging <;> simpa using hstaging
      · exact hstaging
    · exact hstaging

@[simp] theorem startStaging_status (state : ProjectInventoryState) (now : ℤ) :
    (startStaging state page now).status = state.status := by
  simp only [startStaging, dropStaging_status]
  split_ifs
  · split
    · split_ifs <;> simp
    · rfl
  · rfl

theorem InventoryInvariant.starts {after : InventoryRunner}
    (hinvariant : InventoryInvariant recent delivered before.projectInventory)
    (hstarts : Starts page before after) (hpage : page ∈ delivered) :
    InventoryInvariant recent delivered after.projectInventory := by
  have habove := hstarts.above
  obtain ⟨now, rfl⟩ := hstarts.starts
  have hfresh : ∀ {generation sequence},
      sequence ≤ before.projectInventory.highestSnapshotSequence →
      Stale (startStaging before.projectInventory page now) generation sequence := by
    intro generation sequence hsequence
    refine ⟨by simpa using hsequence.trans habove.le, fun staging hstaging hsame ↦ ?_⟩
    obtain rfl : ProjectInventoryStaging.begin page now = staging := by simpa using hstaging
    have hequal : page.snapshotSequence = sequence := hsame.2
    omega
  constructor
  · intro staging hstaging
    obtain rfl : ProjectInventoryStaging.begin page now = staging := by simpa using hstaging
    exact ⟨⟨[], List.nil_sublist _, holds_begin page now⟩, by simp [ProjectInventoryStaging.begin],
      page, hpage, rfl, rfl⟩
  · intro generation hnamed
    obtain ⟨other, hother, hgeneration, hbelow⟩ :=
      hinvariant.named generation (by simpa using hnamed)
    exact ⟨other, hother, hgeneration, by simpa using hbelow.trans habove.le⟩
  · intro generation hretired
    rcases mem_startStaging hretired with hold | hnamed | ⟨staging, hstaging, hsame⟩
    · obtain ⟨other, hother, hgeneration, hstale⟩ := hinvariant.retired generation hold
      exact ⟨other, hother, hgeneration, hfresh hstale.1⟩
    · obtain ⟨other, hother, hgeneration, hbelow⟩ := hinvariant.named generation hnamed
      exact ⟨other, hother, hgeneration, hfresh hbelow⟩
    · obtain ⟨-, hhighest, other, hother, hgeneration, hsequence⟩ :=
        hinvariant.staged staging hstaging
      exact ⟨other, hother, hgeneration.trans hsame, hfresh (hsequence.trans hhighest).le⟩

/-- A page that continues the staging area: it is staged with the pages before it, or it publishes
the generation that they complete. -/
theorem InventoryInvariant.extends
    (hinvariant : InventoryInvariant recent delivered before.projectInventory)
    (hextends : Extends page before after) (hpage : page ∈ delivered) :
    InventoryInvariant (recent ++ [page]) delivered after.1.projectInventory ∧
      (after.2 = .published ∧ after.1.projectInventory.staging = none ∧
          page.snapshotSequence ≤ after.1.projectInventory.highestSnapshotSequence ∧
          (∃ pages, (pages ++ [page]).Sublist (recent ++ [page]) ∧ CompleteGeneration pages page ∧
            after.1.projects = sortById ((pages ++ [page]).flatMap (·.projects))) ∨
        after.2 = .staged ∧ after.1.projects = before.projects) := by
  have hhighest := hextends.highest
  have hstale : ∀ {generation sequence}, Stale before.projectInventory generation sequence →
      Stale after.1.projectInventory generation sequence := fun hold ↦ hold.extends hextends
  obtain ⟨staging, bytes, digest, now, hstaging, hgeneration, hsequence, hfault, rfl⟩ :=
    hextends.continues
  obtain ⟨⟨pages, hsub, hholds⟩, htop, -⟩ := hinvariant.staged staging hstaging
  have hretired : ∀ generation ∈ before.projectInventory.retiredGenerations, ∃ other ∈ delivered,
      other.generation = generation ∧
        Stale (extendStaging before staging page bytes digest now).1.projectInventory generation
          other.snapshotSequence := by
    intro generation hretired
    obtain ⟨other, hother, hsame, hold⟩ := hinvariant.retired generation hretired
    exact ⟨other, hother, hsame, hstale hold⟩
  cases hcomplete : page.complete with
  | true =>
    simp only [extendStaging, hcomplete, if_true] at hhighest hretired ⊢
    refine ⟨⟨by simp, ?_, hretired⟩, .inl ⟨trivial, trivial, (hsequence.symm.trans htop).le, pages,
      hsub.append (.refl _), hholds.completes hgeneration hsequence hextends.distinct hfault
        hcomplete, ?_⟩⟩
    · rintro generation ⟨⟩
      exact ⟨page, hpage, rfl, (hsequence.symm.trans htop).le⟩
    · simp [ProjectInventoryStaging.extend, hholds.projects]
  | false =>
    simp only [extendStaging, hcomplete, Bool.false_eq_true, if_false] at hhighest hretired ⊢
    refine ⟨⟨?_, ?_, hretired⟩, .inr ⟨trivial, trivial⟩⟩
    · rintro _ ⟨⟩
      refine ⟨⟨pages ++ [page], hsub.append (.refl _), hholds.extend hgeneration hsequence
        hextends.distinct hfault hcomplete⟩, htop, page, hpage, hgeneration.symm, hsequence.symm⟩
    · rintro generation ⟨⟩
      exact ⟨page, hpage, rfl, (hsequence.symm.trans htop).le⟩

end Invariant

/-! ### The published list -/

instance : Std.Total idLe := ⟨fun first second ↦ le_total first.id second.id⟩

instance : IsTrans RunnerProjectSummary idLe := ⟨fun _ _ _ ↦ le_trans⟩

theorem sortById_perm (projects : List RunnerProjectSummary) : (sortById projects).Perm projects :=
  List.perm_insertionSort idLe projects

/-- Projects with distinct ids are sorted strictly. -/
theorem sortById_strict {projects : List RunnerProjectSummary}
    (hdistinct : (projects.map (·.id)).Nodup) :
    (sortById projects).Pairwise fun first second ↦ first.id < second.id := by
  have hsorted : (sortById projects).Pairwise idLe := List.pairwise_insertionSort idLe projects
  have hne : (sortById projects).Pairwise fun first second ↦ first.id ≠ second.id := by
    rw [← List.pairwise_map]
    exact ((sortById_perm projects).map _).nodup_iff.mpr hdistinct
  exact hsorted.imp₂ (fun _ _ hle hother ↦ lt_of_le_of_ne hle hother) hne

/-- The page that an action hands to the runner. -/
def RunnerAction.delivers : RunnerAction → List ShellProjectInventoryPage
  | .page received _ _ => [received]
  | _ => []

def deliveredPages (acts : List RunnerAction) : List ShellProjectInventoryPage :=
  acts.flatMap (·.delivers)

/-- The pages since the last mutation, after one more action. -/
def RunnerAction.recentAfter (recent : List ShellProjectInventoryPage) :
    RunnerAction → List ShellProjectInventoryPage
  | .page received _ _ => recent ++ [received]
  | .mutate _ _ => []
  | _ => recent

section Publications

variable (encoding : Encoding)

/-- The pages that published something, in order. -/
def publications (runner : InventoryRunner) : List RunnerAction → List ShellProjectInventoryPage
  | [] => []
  | act :: acts =>
    (if act.outcome encoding runner = .published then act.delivers else []) ++
      publications (act.apply encoding runner) acts

/-- The ways in which an action may change the published list: a mutation changes it as it says; a
page that is handled as published replaces it by the sorted union of a complete generation, all of
whose pages arrived since the last mutation; everything else leaves it unchanged. -/
def ChangesOnlyCompletely (recent : List ShellProjectInventoryPage) (runner : InventoryRunner)
    (act : RunnerAction) : Prop :=
  match act with
  | .mutate mutation _ => (act.apply encoding runner).projects = mutation.apply runner.projects
  | .page received _ _ =>
    (act.outcome encoding runner = .published →
      ∃ pages, (pages ++ [received]).Sublist (recent ++ [received]) ∧
        CompleteGeneration pages received ∧
        (act.apply encoding runner).projects.Perm ((pages ++ [received]).flatMap (·.projects)) ∧
        (act.apply encoding runner).projects.Pairwise fun first second ↦ first.id < second.id) ∧
    (act.outcome encoding runner ≠ .published →
      (act.apply encoding runner).projects = runner.projects)
  | _ => (act.apply encoding runner).projects = runner.projects

variable {encoding} {recent delivered : List ShellProjectInventoryPage} {runner : InventoryRunner}

variable (encoding) in
/-- What one page preserves and how it may change the published list. -/
theorem InventoryInvariant.page
    (hinvariant : InventoryInvariant recent delivered runner.projectInventory)
    (received : ShellProjectInventoryPage) (concurrentStaging : ℕ) (now : ℤ) :
    InventoryInvariant (recent ++ [received]) (delivered ++ [received])
        (applyPage encoding runner concurrentStaging received now).1.projectInventory ∧
      ((applyPage encoding runner concurrentStaging received now).2 = .published ∧
          (∀ generation sequence, sequence ≤ received.snapshotSequence →
            Stale (applyPage encoding runner concurrentStaging received now).1.projectInventory
              generation sequence) ∧
          (∃ pages, (pages ++ [received]).Sublist (recent ++ [received]) ∧
            CompleteGeneration pages received ∧
            (applyPage encoding runner concurrentStaging received now).1.projects =
              sortById ((pages ++ [received]).flatMap (·.projects))) ∨
        (applyPage encoding runner concurrentStaging received now).2 ≠ .published ∧
          (applyPage encoding runner concurrentStaging received now).1.projects =
            runner.projects) := by
  have hreceived : received ∈ delivered ++ [received] := by simp
  obtain ⟨quiet, admitted, hquiet, hsame, hstarts, hrest⟩ :=
    applyPage_cases encoding runner concurrentStaging received now
  generalize applyPage encoding runner concurrentStaging received now = result at hrest ⊢
  have hbefore : InventoryInvariant recent (delivered ++ [received]) quiet.projectInventory :=
    (hinvariant.mono (.refl _) (List.subset_append_left _ _)).quiet hquiet
  have hadmitted : InventoryInvariant recent (delivered ++ [received]) admitted.projectInventory ∧
      admitted.projects = runner.projects := by
    rcases hstarts with rfl | hstarts
    · exact ⟨hbefore, hsame⟩
    · refine ⟨hbefore.starts hstarts hreceived, ?_⟩
      obtain ⟨_, rfl⟩ := hstarts.starts
      exact hsame
  rcases hrest with hextends | ⟨hquiet, hkept, houtcome⟩
  · obtain ⟨hafter, ⟨houtcome, hstaging, hhighest, hpages⟩ | ⟨houtcome, hkept⟩⟩ :=
      hadmitted.1.extends hextends hreceived
    · exact ⟨hafter, .inl ⟨houtcome, fun _ _ hsequence ↦
        stale_of_no_staging hstaging (hsequence.trans hhighest), hpages⟩⟩
    · exact ⟨hafter, .inr ⟨by simp [houtcome], hkept.trans hadmitted.2⟩⟩
  · exact ⟨(hadmitted.1.quiet hquiet).mono (List.sublist_append_left _ _) (List.Subset.refl _),
      .inr ⟨houtcome, hkept.trans hadmitted.2⟩⟩

variable (encoding) in
/-- One action preserves the invariant and changes the published list in one of the allowed ways. -/
theorem InventoryInvariant.action
    (hinvariant : InventoryInvariant recent delivered runner.projectInventory)
    (act : RunnerAction) :
    InventoryInvariant (act.recentAfter recent) (delivered ++ act.delivers)
        (act.apply encoding runner).projectInventory ∧
      ChangesOnlyCompletely encoding recent runner act := by
  cases act with
  | expire now =>
    refine ⟨?_, expireStaging_projects now runner⟩
    simpa [RunnerAction.recentAfter, RunnerAction.delivers, RunnerAction.apply] using
      hinvariant.quiet (quiet_expireStaging now runner)
  | page received concurrentStaging now =>
    obtain ⟨hafter, hchange⟩ := (hinvariant.quiet (quiet_expireStaging now runner)).page encoding
      received concurrentStaging now
    refine ⟨hafter, ?_, ?_⟩
    · rintro hpublished
      rcases hchange with ⟨-, -, pages, hsub, hcomplete, hprojects⟩ | ⟨houtcome, -⟩
      · simp only [RunnerAction.apply, hprojects]
        exact ⟨pages, hsub, hcomplete, sortById_perm _, sortById_strict hcomplete.distinct⟩
      · exact absurd hpublished houtcome
    · intro hunpublished
      rcases hchange with ⟨houtcome, -⟩ | ⟨-, hkept⟩
      · exact absurd houtcome hunpublished
      · exact hkept.trans (expireStaging_projects now runner)
  | mutate mutation now =>
    refine ⟨?_, rfl⟩
    have hquiet := quiet_reconcileDynamicProjection
      { runner with projects := mutation.apply runner.projects } now
    simpa [RunnerAction.recentAfter, RunnerAction.delivers, RunnerAction.apply] using
      (hinvariant.quiet hquiet).forget (reconcileDynamicProjection_staging _ now)
  | reconnect =>
    refine ⟨?_, rfl⟩
    simpa [RunnerAction.recentAfter, RunnerAction.delivers, RunnerAction.apply] using
      hinvariant.quiet (quiet_preserveAuthoritativePending _ _)
  | skip =>
    refine ⟨?_, rfl⟩
    simpa [RunnerAction.recentAfter, RunnerAction.delivers, RunnerAction.apply] using hinvariant

/-- The invariant along a run. -/
theorem InventoryInvariant.runActions
    (hinvariant : InventoryInvariant recent delivered runner.projectInventory)
    (acts : List RunnerAction) :
    InventoryInvariant (acts.foldl RunnerAction.recentAfter recent)
      (delivered ++ deliveredPages acts) (runActions encoding runner acts).projectInventory := by
  induction acts generalizing recent delivered runner with
  | nil => simpa [deliveredPages, ProjectInventory.runActions] using hinvariant
  | cons act _ ih =>
    simpa [deliveredPages, ProjectInventory.runActions] using ih (hinvariant.action encoding act).1

variable (encoding) in
/-- What is stale stays stale, and an action that publishes does not publish it. -/
theorem Stale.action
    (hstale : Stale runner.projectInventory generation sequence) (act : RunnerAction) :
    Stale (act.apply encoding runner).projectInventory generation sequence ∧
      (act.outcome encoding runner = .published → ∀ page ∈ act.delivers,
        ¬(page.generation = generation ∧ page.snapshotSequence = sequence)) := by
  cases act with
  | expire now =>
    exact ⟨hstale.quiet (quiet_expireStaging now runner), fun hpublished ↦ nomatch hpublished⟩
  | page received concurrentStaging now =>
    obtain ⟨quiet, admitted, hquiet, -, hstarts, hrest⟩ :=
      applyPage_cases encoding (expireStaging now runner) concurrentStaging received now
    have hadmitted : Stale admitted.projectInventory generation sequence := by
      have hbefore := (hstale.quiet (quiet_expireStaging now runner)).quiet hquiet
      rcases hstarts with rfl | hstarts
      · exact hbefore
      · exact (hbefore.starts hstarts).1
    rcases hrest with hextends | ⟨hquiet, -, houtcome⟩
    · refine ⟨hadmitted.extends hextends, fun _ page hpage hsame ↦ ?_⟩
      obtain rfl : page = received := by simpa [RunnerAction.delivers] using hpage
      exact hextends.not_stale (hsame.1 ▸ hsame.2 ▸ hadmitted)
    · exact ⟨hadmitted.quiet hquiet, fun hpublished ↦ absurd hpublished houtcome⟩
  | mutate mutation now =>
    exact ⟨hstale.quiet (quiet_reconcileDynamicProjection
      { runner with projects := mutation.apply runner.projects } now),
      fun hpublished ↦ nomatch hpublished⟩
  | reconnect =>
    exact ⟨hstale.quiet (quiet_preserveAuthoritativePending _ _),
      fun hpublished ↦ nomatch hpublished⟩
  | skip => exact ⟨hstale, fun hpublished ↦ nomatch hpublished⟩

/-- What is stale is not published by any later action. -/
theorem Stale.publications
    (hstale : Stale runner.projectInventory generation sequence) (acts : List RunnerAction) :
    ∀ page ∈ publications encoding runner acts,
      ¬(page.generation = generation ∧ page.snapshotSequence = sequence) := by
  induction acts generalizing runner with
  | nil => simp [ProjectInventory.publications]
  | cons act _ ih =>
    obtain ⟨hafter, hnow⟩ := hstale.action encoding act
    intro page hpage
    rcases List.mem_append.mp hpage with hfirst | hlater
    · split_ifs at hfirst with hpublished
      · exact hnow hpublished page hfirst
      · cases hfirst
    · exact ih hafter page hlater

variable (encoding) in
/-- Publishing a page leaves everything up to its sequence stale. -/
theorem InventoryInvariant.published
    (hinvariant : InventoryInvariant recent delivered runner.projectInventory) {act : RunnerAction}
    (hpublished : act.outcome encoding runner = .published) :
    ∀ page ∈ act.delivers, ∀ generation sequence, sequence ≤ page.snapshotSequence →
      Stale (act.apply encoding runner).projectInventory generation sequence := by
  cases act with
  | page received concurrentStaging now =>
    intro page hpage
    obtain rfl : page = received := by simpa [RunnerAction.delivers] using hpage
    obtain ⟨-, ⟨-, hstale, -⟩ | ⟨houtcome, -⟩⟩ :=
      (hinvariant.quiet (quiet_expireStaging now runner)).page encoding page concurrentStaging now
    · exact hstale
    · exact absurd hpublished houtcome
  | expire | mutate | reconnect | skip => simp [RunnerAction.delivers]

end Publications

/-! ### The registry -/

def received (page : ShellProjectInventoryPage) : InventoryEvent :=
  .page "client" "instance" none page 1

end WebCodex.ProjectInventory
