import Mathlib.Data.List.Chain
import WebCodex.AgentTasks.CodingRun
import WebCodex.Foundation.Newest

/-!
An observer is told snapshots late, more than once or not at all. Merging permits skipped
revisions (`Precedes`), with one exception: a run that had started may be lost and then turn out
not to have started, which an observer that still has it as started refuses. So the last snapshot
is retained unless that happens (`merging_ends_with_last_iff`).
-/

namespace WebCodex.AgentTasks

open Foundation

/-- What is retained after a snapshot was merged into it. -/
def retainSnapshot (stored incoming : CodingAgentRunSnapshot) :
    Except String CodingAgentRunSnapshot := do
  match ← mergeCodingAgentRunSnapshot stored incoming with
  | .advance => return incoming
  | .stale | .exactReplay => return stored

/-- The snapshots of one run, in the order of their revisions. -/
structure IsHistory (history : List CodingAgentRunSnapshot) : Prop where
  valid : ∀ run ∈ history, validateCodingAgentRunSnapshot run = .ok ()
  sameRun : ∀ first ∈ history, ∀ second ∈ history,
    validateCodingAgentRunIdentityTransition first second = .ok ()
  steps : history.IsChain fun earlier later ↦ validateCodingAgentRunTransition earlier later = .ok
    ()

/-- When the last snapshot says that the run did not start, every snapshot told before it that says
otherwise is older than one that does not say so. -/
def StartReconciled (last : CodingAgentRunSnapshot) (told : List CodingAgentRunSnapshot) : Prop :=
  last.executionState = .notStarted → ∀ run ∈ told.takeWhile (· ≠ last),
    run.executionState = .started →
      ∃ newer ∈ told.takeWhile (· ≠ last),
        run.observationRevision < newer.observationRevision ∧ newer.executionState ≠ .started

/-! ### States of valid snapshots -/

/-- The states of a run and of its execution that fit. -/
def statesFit : CodingAgentRunState → CodingAgentExecutionState → Bool
  | .starting, .notStarted => true
  | .running, .outcomeUnknown | .running, .started => true
  | .waitingPermission, .started => true
  | .completed, .completed => true
  | .failed, .notStarted | .failed, .completed => true
  | .cancelled, .notStarted | .cancelled, .completed => true
  | .lost, .outcomeUnknown => true
  | _, _ => false

variable {run earlier later first second last stored incoming : CodingAgentRunSnapshot}

theorem statesFit_failed (h : validateFailed run = .ok ()) :
    statesFit .failed run.executionState = true := by
  obtain ⟨terminal, -, h⟩ := bind_eq_ok.mp h
  cases hreason : terminal.stopReason with
  | some =>
    simp only [hreason] at h
    split at h
    · have hboth := ensure_eq_ok.mp h
      simp only [Bool.and_eq_true, beq_iff_eq] at hboth
      rw [hboth.1]
      rfl
    · cases h
  | none =>
    simp only [hreason] at h
    have hboth := ensure_eq_ok.mp h
    simp only [Bool.and_eq_true, Bool.or_eq_true, beq_iff_eq] at hboth
    rcases hboth.1 with hstate | hstate
    · rw [hstate]
      rfl
    · rw [hstate]
      rfl

theorem statesFit_cancelled (h : validateCancelled run = .ok ()) :
    statesFit .cancelled run.executionState = true := by
  obtain ⟨_, -, h⟩ := bind_eq_ok.mp h
  cases hstate : run.executionState with
  | notStarted | completed => rfl
  | started | outcomeUnknown => simp [hstate] at h

variable {executionState : CodingAgentExecutionState}

theorem executionState_of_terminalForState {terminal : CodingAgentTerminal}
    (h : terminalForState run executionState = .ok terminal) :
    run.executionState = executionState := by
  obtain ⟨_, hstate, -⟩ := bind_eq_ok.mp h
  simpa using ensure_eq_ok.mp hstate

theorem statesFit_of_validateRunState (h : validateRunState run = .ok ()) :
    statesFit run.state run.executionState = true := by
  cases hstate : run.state with
  | starting | waitingPermission =>
    simp only [validateRunState, hstate, ensure_eq_ok, Bool.and_eq_true, beq_iff_eq] at h
    rw [h.1]
    rfl
  | running =>
    simp only [validateRunState, hstate, ensure_eq_ok, Bool.and_eq_true, Bool.or_eq_true,
      beq_iff_eq] at h
    rcases h.1 with hexecution | hexecution
    · rw [hexecution]
      rfl
    · rw [hexecution]
      rfl
  | completed | lost =>
    simp only [validateRunState, hstate] at h
    obtain ⟨_, hterminal, -⟩ := bind_eq_ok.mp h
    rw [executionState_of_terminalForState hterminal]
    rfl
  | failed =>
    simp only [validateRunState, hstate] at h
    exact statesFit_failed h
  | cancelled =>
    simp only [validateRunState, hstate] at h
    exact statesFit_cancelled h

theorem statesFit_of_valid (h : validateCodingAgentRunSnapshot run = .ok ()) :
    statesFit run.state run.executionState = true := by
  simp only [validateCodingAgentRunSnapshot, bind_eq_ok] at h
  obtain ⟨_, -, _, -, _, -, _, -, _, -, _, -, _, -, hstate⟩ := h
  exact statesFit_of_validateRunState hstate

/-! ### What a snapshot may be followed by -/

/-- One snapshot comes before another in the history of a run. -/
structure Precedes (earlier later : CodingAgentRunSnapshot) : Prop where
  earlierFits : statesFit earlier.state earlier.executionState = true
  laterFits : statesFit later.state later.executionState = true
  revision : earlier.observationRevision < later.observationRevision
  unsettled : earlier.state.definitive = false
  lost : earlier.state = .lost → later.state = .lost ∨ later.state.definitive = true
  starting : later.state = .starting → earlier.state = .starting
  unknown : earlier.executionState = .started → later.executionState = .outcomeUnknown →
    later.state = .lost

variable {state : CodingAgentRunState}

/-- A run that did not start has nothing behind it, or is at its end. -/
theorem state_of_notStarted (hfits : statesFit state executionState = true)
    (h : executionState = .notStarted) :
    state = .starting ∨ state = .failed ∨ state = .cancelled := by
  cases state <;> simp_all [statesFit]

theorem state_of_completed (hfits : statesFit state executionState = true)
    (h : executionState = .completed) :
    state.definitive = true := by
  cases state <;> simp_all [statesFit, CodingAgentRunState.definitive]

theorem state_of_outcomeUnknown (hfits : statesFit state executionState = true)
    (h : executionState = .outcomeUnknown) : state.definitive = false := by
  cases state <;> simp_all [statesFit, CodingAgentRunState.definitive]

theorem executionState_of_starting (hfits : statesFit .starting executionState = true) :
    executionState = .notStarted := by
  cases executionState <;> simp_all [statesFit]

/-- Only what is at its end says of a run that was not starting that it did not start. -/
theorem Precedes.definitive_of_notStarted (h : Precedes earlier later)
    (hearlier : earlier.executionState ≠ .notStarted)
    (hlater : later.executionState = .notStarted) :
    later.state.definitive = true := by
  rcases state_of_notStarted h.laterFits hlater with hstate | hstate | hstate
  · have hstarting := h.starting hstate
    have hfits := h.earlierFits
    rw [hstarting] at hfits
    exact absurd (executionState_of_starting hfits) hearlier
  · rw [hstate]
    rfl
  · rw [hstate]
    rfl

theorem Precedes.trans {third : CodingAgentRunSnapshot} (hone : Precedes first second)
    (htwo : Precedes second third) : Precedes first third where
  earlierFits := hone.earlierFits
  laterFits := htwo.laterFits
  revision := hone.revision.trans htwo.revision
  unsettled := hone.unsettled
  lost := by
    intro hfirst
    rcases hone.lost hfirst with hsecond | hsecond
    · exact htwo.lost hsecond
    · rw [htwo.unsettled] at hsecond
      cases hsecond
  starting hthird := hone.starting (htwo.starting hthird)
  unknown := by
    intro hfirst hthird
    -- what follows a started run is still started, or lost; everything else is the end of it
    cases hsecond : second.executionState with
    | started => exact htwo.unknown hsecond hthird
    | outcomeUnknown =>
      rcases htwo.lost (hone.unknown hfirst hsecond) with hlost | hdefinitive
      · exact hlost
      · rw [state_of_outcomeUnknown htwo.laterFits hthird] at hdefinitive
        cases hdefinitive
    | notStarted =>
      have hdefinitive := hone.definitive_of_notStarted (by rw [hfirst]; decide) hsecond
      rw [htwo.unsettled] at hdefinitive
      cases hdefinitive
    | completed =>
      have hdefinitive := state_of_completed hone.laterFits hsecond
      rw [htwo.unsettled] at hdefinitive
      cases hdefinitive

instance : Trans Precedes Precedes Precedes where
  trans := Precedes.trans

/-- The order of the execution states, up to a run that had started and then did not start. -/
theorem executionTransitionValid_iff
    (hearlier : statesFit earlier.state earlier.executionState = true)
    (hlater : statesFit later.state later.executionState = true)
    (hunsettled : earlier.state.definitive = false)
    (hstarting : later.state = .starting → earlier.state = .starting) :
    executionTransitionValid earlier later = true ↔
      (earlier.executionState = .started → later.executionState = .outcomeUnknown →
        later.state = .lost) ∧
      ¬ (earlier.executionState = .started ∧ later.executionState = .notStarted) := by
  cases hstate : earlier.executionState with
  | notStarted => simp [executionTransitionValid, hstate]
  | started => cases hnext : later.executionState <;> simp [executionTransitionValid, hstate, hnext]
  | completed =>
    rw [state_of_completed hearlier hstate] at hunsettled
    cases hunsettled
  | outcomeUnknown =>
    cases hnext : later.executionState with
    | notStarted =>
      rcases state_of_notStarted hlater hnext with hend | hend | hend
      · rw [hstarting hend, hstate] at hearlier
        cases hearlier
      · simp [executionTransitionValid, hstate, hnext, hend]
      · simp [executionTransitionValid, hstate, hnext, hend]
    | started | outcomeUnknown | completed => simp [executionTransitionValid, hstate, hnext]

theorem validateCodingAgentRunTransition_iff
    (hearlier : statesFit earlier.state earlier.executionState = true)
    (hlater : statesFit later.state later.executionState = true) :
    validateCodingAgentRunTransition earlier later = .ok () ↔ Precedes earlier later ∧
        ¬ (earlier.executionState = .started ∧ later.executionState = .notStarted) := by
  constructor
  · intro h
    simp only [validateCodingAgentRunTransition, bind_eq_ok, ensure_eq_ok] at h
    obtain ⟨_, hrevision, _, hunsettled, _, hlost, _, hstarting, hexecution⟩ := h
    replace hunsettled : earlier.state.definitive = false := by simpa using hunsettled
    replace hstarting : later.state = .starting → earlier.state = .starting := by
      intro hstate
      simpa [hstate] using hstarting
    have hstates := (executionTransitionValid_iff hearlier hlater hunsettled hstarting).mp
      hexecution
    refine ⟨⟨hearlier, hlater, by simpa using hrevision, hunsettled, ?_, hstarting, hstates.1⟩,
      hstates.2⟩
    intro hstate
    simpa [hstate] using hlost
  · rintro ⟨h, hstates⟩
    have hexecution := (executionTransitionValid_iff hearlier hlater h.unsettled h.starting).mpr
      ⟨h.unknown, hstates⟩
    simp only [validateCodingAgentRunTransition, bind_eq_ok, ensure_eq_ok]
    refine ⟨(), by simpa using h.revision, (), by simp [h.unsettled], (), ?_, (), ?_, hexecution⟩
    · by_cases hlost : earlier.state = .lost
      · simpa [hlost] using h.lost hlost
      · simp [hlost]
    · by_cases hstarting : later.state = .starting
      · simp [hstarting, h.starting hstarting]
      · simp [hstarting]

/-! ### Members of a history -/

namespace IsHistory

variable {history : List CodingAgentRunSnapshot}

theorem fits (h : IsHistory history) (hrun : run ∈ history) :
    statesFit run.state run.executionState = true :=
  statesFit_of_valid (h.valid run hrun)

theorem pairwise_precedes (h : IsHistory history) : history.Pairwise Precedes := by
  refine List.isChain_iff_pairwise.mp (h.steps.imp_of_mem_imp ?_)
  intro _ _ hearlier hlater hstep
  exact ((validateCodingAgentRunTransition_iff (h.fits hearlier) (h.fits hlater)).mp hstep).1

/-- Any two snapshots of a history are the same or in order. -/
theorem eq_or_precedes (h : IsHistory history) (hfirst : first ∈ history)
    (hsecond : second ∈ history) :
    first = second ∨ Precedes first second ∨ Precedes second first := by
  refine List.Pairwise.forall_of_forall_of_flip
    (R := fun one two ↦ one = two ∨ Precedes one two ∨ Precedes two one) (fun _ _ ↦ Or.inl rfl)
    (h.pairwise_precedes.imp fun hprecedes ↦ Or.inr (Or.inl hprecedes))
    (h.pairwise_precedes.imp fun hprecedes ↦ Or.inr (Or.inr hprecedes)) hfirst hsecond

theorem precedes_of_lt (h : IsHistory history) (hfirst : first ∈ history)
    (hsecond : second ∈ history) (hlt : first.observationRevision < second.observationRevision) :
    Precedes first second := by
  rcases h.eq_or_precedes hfirst hsecond with rfl | hprecedes | hprecedes
  · exact absurd hlt (lt_irrefl _)
  · exact hprecedes
  · exact absurd hlt hprecedes.revision.not_gt

theorem eq_of_revision_eq (h : IsHistory history) (hfirst : first ∈ history)
    (hsecond : second ∈ history) (heq : first.observationRevision = second.observationRevision) :
    first = second := by
  rcases h.eq_or_precedes hfirst hsecond with hsame | hprecedes | hprecedes
  · exact hsame
  · exact absurd heq hprecedes.revision.ne
  · exact absurd heq hprecedes.revision.ne'

/-- The last snapshot has the greatest revision. -/
theorem revision_le_last (h : IsHistory history) (hlast : history.getLast? = some last)
    (hrun : run ∈ history) :
    run.observationRevision ≤ last.observationRevision := by
  obtain ⟨_, rfl⟩ := List.getLast?_eq_some_iff.mp hlast
  rcases List.mem_append.mp hrun with hmem | hmem
  · have hpairs := (List.pairwise_append.mp h.pairwise_precedes).2.2
    exact (hpairs run hmem last (List.mem_singleton_self last)).revision.le
  · rw [List.mem_singleton.mp hmem]

theorem precedes_last (h : IsHistory history) (hlast : history.getLast? = some last)
    (hrun : run ∈ history) (hne : run ≠ last) :
    Precedes run last := by
  have hmem := List.mem_of_getLast? hlast
  refine h.precedes_of_lt hrun hmem (lt_of_le_of_ne (h.revision_le_last hlast hrun) ?_)
  intro heq
  exact hne (h.eq_of_revision_eq hrun hmem heq)

/-- Only the last snapshot may say that a run which had started did not start. -/
theorem not_restarted (h : IsHistory history) (hlast : history.getLast? = some last)
    (hlater : later ∈ history) (hne : later ≠ last) (hprecedes : Precedes earlier later) :
    ¬ (earlier.executionState = .started ∧ later.executionState = .notStarted) := by
  rintro ⟨hstarted, hnot⟩
  have hdefinitive := hprecedes.definitive_of_notStarted (by rw [hstarted]; decide) hnot
  rw [(h.precedes_last hlast hlater hne).unsettled] at hdefinitive
  cases hdefinitive

/-! ### Merging snapshots of a history -/

theorem retain_of_le (h : IsHistory history) (hstored : stored ∈ history)
    (hincoming : incoming ∈ history)
    (hle : incoming.observationRevision ≤ stored.observationRevision) :
    retainSnapshot stored incoming = .ok stored := by
  rw [retainSnapshot, mergeCodingAgentRunSnapshot, h.valid stored hstored,
    h.valid incoming hincoming, h.sameRun stored hstored incoming hincoming]
  rcases hle.lt_or_eq with hlt | heq
  · rw [if_pos hlt]
    rfl
  · rw [if_neg heq.not_lt, if_pos heq, if_pos (h.eq_of_revision_eq hincoming hstored heq)]
    rfl

theorem retain_of_lt (h : IsHistory history) (hstored : stored ∈ history)
    (hincoming : incoming ∈ history)
    (hlt : stored.observationRevision < incoming.observationRevision)
    (hstates : ¬ (stored.executionState = .started ∧ incoming.executionState = .notStarted)) :
    retainSnapshot stored incoming = .ok incoming := by
  have hstep := (validateCodingAgentRunTransition_iff (h.fits hstored) (h.fits hincoming)).mpr
    ⟨h.precedes_of_lt hstored hincoming hlt, hstates⟩
  rw [retainSnapshot, mergeCodingAgentRunSnapshot, h.valid stored hstored,
    h.valid incoming hincoming, h.sameRun stored hstored incoming hincoming]
  rw [if_neg hlt.not_gt, if_neg hlt.ne', hstep]
  rfl

theorem retain_refused (h : IsHistory history) (hstored : stored ∈ history)
    (hincoming : incoming ∈ history)
    (hlt : stored.observationRevision < incoming.observationRevision)
    (hstarted : stored.executionState = .started) (hnot : incoming.executionState = .notStarted) :
    ∃ message, retainSnapshot stored incoming = .error message := by
  have hstep := validateCodingAgentRunTransition_iff (h.fits hstored) (h.fits hincoming)
  rw [retainSnapshot, mergeCodingAgentRunSnapshot, h.valid stored hstored,
    h.valid incoming hincoming, h.sameRun stored hstored incoming hincoming]
  rw [if_neg hlt.not_gt, if_neg hlt.ne']
  cases hresult : validateCodingAgentRunTransition stored incoming with
  | ok => exact absurd ⟨hstarted, hnot⟩ (hstep.mp hresult).2
  | error message => exact ⟨message, rfl⟩

/-- The last snapshot stays retained. -/
theorem foldlM_last (h : IsHistory history) (hlast : history.getLast? = some last)
    {rest : List CodingAgentRunSnapshot} (hrest : ∀ run ∈ rest, run ∈ history) :
    rest.foldlM retainSnapshot last = .ok last := by
  induction rest with
  | nil => rfl
  | cons run _ ih =>
    have hrun := hrest run List.mem_cons_self
    rw [List.foldlM_cons, h.retain_of_le (List.mem_of_getLast? hlast) hrun
      (h.revision_le_last hlast hrun), ok_bind]
    exact ih fun other hother ↦ hrest other (List.mem_cons_of_mem _ hother)

/-- Before the last snapshot is told, the newest one is retained. -/
theorem foldlM_newest (h : IsHistory history) (hlast : history.getLast? = some last)
    (hfirst : first ∈ history) (hne : first ≠ last) {rest : List CodingAgentRunSnapshot}
    (hrest : ∀ run ∈ rest, run ∈ history) (hnot : last ∉ rest) :
    ∃ newest, rest.foldlM retainSnapshot first = .ok newest ∧
      IsNewest CodingAgentRunSnapshot.observationRevision (first :: rest) newest := by
  refine foldlM_keeps_newest retainSnapshot
    (fun run ↦ run ∈ history ∧ run ≠ last) ?_ ?_ rest [first] first ⟨hfirst, hne⟩ ?_
    (IsNewest.single first)
  · intro kept run hkept hrun hle
    exact h.retain_of_le hkept.1 hrun.1 hle
  · intro kept run hkept hrun hlt
    exact h.retain_of_lt hkept.1 hrun.1 hlt
      (h.not_restarted hlast hrun.1 hrun.2 (h.precedes_of_lt hkept.1 hrun.1 hlt))
  · intro run hrun
    exact ⟨hrest run hrun, fun heq ↦ hnot (heq ▸ hrun)⟩

/-- The newest snapshot told before the last one decides whether the last one is accepted. -/
theorem startReconciled_iff (h : IsHistory history) {newest : CodingAgentRunSnapshot}
    {told before after : List CodingAgentRunSnapshot} (htold : told = before ++ last :: after)
    (hnot : last ∉ before) (hbefore : ∀ run ∈ before, run ∈ history)
    (hnewest : IsNewest CodingAgentRunSnapshot.observationRevision before newest) :
    StartReconciled last told ↔
      ¬ (newest.executionState = .started ∧ last.executionState = .notStarted) := by
  have htake : told.takeWhile (· ≠ last) = before := by
    rw [htold, List.takeWhile_append_of_pos, List.takeWhile_cons_of_neg, List.append_nil]
    · simp
    · intro run hrun
      simpa using fun heq : run = last ↦ hnot (heq ▸ hrun)
  rw [StartReconciled, htake]
  constructor
  · rintro hreconciled ⟨hstarted, hlast⟩
    obtain ⟨newer, hnewer, hlt, -⟩ := hreconciled hlast newest hnewest.mem hstarted
    exact absurd hlt (hnewest.le newer hnewer).not_gt
  · intro hstates hlast run hrun hstarted
    have hunstarted : newest.executionState ≠ .started := fun heq ↦ hstates ⟨heq, hlast⟩
    refine ⟨newest, hnewest.mem, lt_of_le_of_ne (hnewest.le run hrun) ?_, hunstarted⟩
    intro heq
    have hsame := h.eq_of_revision_eq (hbefore run hrun) (hbefore newest hnewest.mem) heq
    exact hunstarted (hsame ▸ hstarted)

end IsHistory

/-- Whatever an observer missed and in whatever order it was told the rest, it ends with the last
snapshot, unless that snapshot says of a run which the observer has as started that it did not
start. -/
theorem merging_ends_with_last_iff {history rest : List CodingAgentRunSnapshot}
    {first last : CodingAgentRunSnapshot} (h : IsHistory history)
    (hfirst : history.head? = some first)
    (hlast : history.getLast? = some last) (hrest : ∀ run ∈ rest, run ∈ history)
    (htold : last ∈ first :: rest) :
    rest.foldlM retainSnapshot first = .ok last ↔ StartReconciled last (first :: rest) := by
  have hmem := List.mem_of_head? hfirst
  by_cases heq : first = last
  · subst heq
    refine iff_of_true (h.foldlM_last hlast hrest) ?_
    intro _ run hrun
    simp at hrun
  · obtain ⟨before, after, rfl, hnot⟩ := List.eq_append_cons_of_mem
      ((List.mem_cons.mp htold).resolve_left (Ne.symm heq))
    have hbefore : ∀ run ∈ before, run ∈ history := fun run hrun ↦
      hrest run (List.mem_append_left _ hrun)
    have hafter : ∀ run ∈ after, run ∈ history := fun run hrun ↦
      hrest run (List.mem_append_right _ (List.mem_cons_of_mem _ hrun))
    obtain ⟨newest, hfold, hnewest⟩ := h.foldlM_newest hlast hmem heq hbefore hnot
    have hwithin : ∀ run ∈ first :: before, run ∈ history := by
      intro run hrun
      rcases List.mem_cons.mp hrun with rfl | hold
      · exact hmem
      · exact hbefore run hold
    have hnever : last ∉ first :: before := by
      rw [List.mem_cons, not_or]
      exact ⟨Ne.symm heq, hnot⟩
    have hne : newest ≠ last := fun hsame ↦ hnever (hsame ▸ hnewest.mem)
    have hlt := (h.precedes_last hlast (hwithin newest hnewest.mem) hne).revision
    have hlasts := List.mem_of_getLast? hlast
    rw [h.startReconciled_iff (List.cons_append ..).symm hnever hwithin hnewest, List.foldlM_append,
      hfold, ok_bind, List.foldlM_cons]
    constructor
    · rintro hfinal ⟨hstarted, hunstarted⟩
      obtain ⟨_, hrefused⟩ :=
        h.retain_refused (hwithin newest hnewest.mem) hlasts hlt hstarted hunstarted
      rw [hrefused] at hfinal
      cases hfinal
    · intro hstates
      rw [h.retain_of_lt (hwithin newest hnewest.mem) hlasts hlt hstates, ok_bind]
      exact h.foldlM_last hlast hafter

/-! ### A run that is lost and did not start -/

def sampleRun (state : CodingAgentRunState) (executionState : CodingAgentExecutionState)
    (observationRevision : ℕ) (terminal : Option CodingAgentTerminal) : CodingAgentRunSnapshot where
  runId := "wc_agent_run_1"
  intentFingerprint := "intent_1"
  authorityFingerprint := "auth_1"
  runtimeProjectId := "project"
  providerId := "provider"
  providerInstanceId := "provider_1"
  state := state
  executionState := executionState
  observationRevision := observationRevision
  createdAt := 1
  updatedAt := 1
  terminal := terminal

def sampleStarted : CodingAgentRunSnapshot := sampleRun .running .started 1 none

def sampleLost : CodingAgentRunSnapshot :=
  sampleRun .lost .outcomeUnknown 2 (some { errorCode := some "transport_lost", completedAt := 2 })

def sampleUnstarted : CodingAgentRunSnapshot :=
  sampleRun .failed .notStarted 3 (some { errorCode := some "not_dispatched", completedAt := 3 })

def sampleHistory : List CodingAgentRunSnapshot := [sampleStarted, sampleLost, sampleUnstarted]

theorem isHistory_sampleHistory : IsHistory sampleHistory where
  valid := by
    rw [sampleHistory, List.forall_mem_cons, List.forall_mem_cons, List.forall_mem_singleton]
    exact ⟨by rfl, by rfl, by rfl⟩
  sameRun := by
    rw [sampleHistory]
    simp only [List.forall_mem_cons, List.not_mem_nil, false_implies, implies_true, and_true]
    exact ⟨⟨by rfl, by rfl, by rfl⟩, ⟨by rfl, by rfl, by rfl⟩, ⟨by rfl, by rfl, by rfl⟩⟩
  steps := by
    rw [sampleHistory, List.isChain_cons_cons, List.isChain_pair]
    exact ⟨by rfl, by rfl⟩

/-- An observer that was told that the run was lost accepts that it did not start. -/
theorem sample_merging_ends_with_last :
    [sampleLost, sampleUnstarted, sampleStarted].foldlM retainSnapshot sampleStarted =
      .ok sampleUnstarted := by
  refine (merging_ends_with_last_iff isHistory_sampleHistory rfl rfl (by decide) (by decide)).mpr ?_
  intro _
  decide

/-- An observer that missed the snapshot in which the run was lost refuses the last one, so that
merging does not always end with it. -/
theorem missed_lost_snapshot_is_refused :
    ¬ ∀ (history rest : List CodingAgentRunSnapshot) (first last : CodingAgentRunSnapshot),
      IsHistory history → history.head? = some first → history.getLast? = some last →
      (∀ run ∈ rest, run ∈ history) → last ∈ first :: rest →
      rest.foldlM retainSnapshot first = .ok last := by
  intro h
  have hfold := h sampleHistory [sampleUnstarted] sampleStarted sampleUnstarted
    isHistory_sampleHistory rfl rfl (by decide) (by decide)
  cases hfold

end WebCodex.AgentTasks
