import WebCodex.Validation.Currency

/-!
A verdict of `passed` needs one proof, and no failure that a later proof has not resolved. A
canonical change at the end of a ledger stands after every start, so nothing is current then, and
the verdict says neither that the validations passed nor that they failed.
-/

namespace WebCodex.Validation

open Foundation

variable {D V : Type}

/-! ### The counts of a summary -/

section Counts

variable {readings : Readings D V} {events : List (SessionEvent D)} {limit : ℕ}

/-- Classification changes only what a failure says about itself. -/
theorem countP_classifiedEvents {property : ValidationEvent V → Bool}
    (hflag : ∀ event flag, property { event with unresolvedFailure := flag } = property event)
    (found : List (ValidationEvent V)) :
    (classifiedEvents found).countP property = found.countP property := by
  have hsame : ∀ pair : ValidationEvent V × ℕ, property (if pair.1.isFailure then
      { pair.1 with unresolvedFailure := !isResolvedFailure found pair.2 pair.1 } else pair.1) =
        property pair.1 := by
    intro pair
    by_cases hfailure : pair.1.isFailure = true
    · rw [if_pos hfailure]
      exact hflag _ _
    · rw [if_neg hfailure]
  unfold classifiedEvents
  rw [List.countP_map]
  calc (found.zipIdx).countP _ = (found.zipIdx).countP (property ∘ Prod.fst) :=
        List.countP_congr fun pair _ ↦ by simp [hsame]
    _ = (found.zipIdx.map Prod.fst).countP property := (List.countP_map).symm
    _ = found.countP property := by rw [List.zipIdx_map_fst]

theorem eventsTotal_eq : (validationSummaryFromEvents readings events limit).eventsTotal =
    (extractValidationEvents readings events).length := by
  unfold validationSummaryFromEvents
  by_cases hempty : (extractValidationEvents readings events).length = 0
  · simp [hempty]
  · simp [hempty]

theorem successes_eq : (validationSummaryFromEvents readings events limit).successes.getD 0 =
    (extractValidationEvents readings events).countP ValidationEvent.isProvenSuccess := by
  unfold validationSummaryFromEvents
  by_cases hempty : (extractValidationEvents readings events).length = 0
  · simp [List.length_eq_zero_iff.mp hempty]
  · simp only [hempty, if_false, Option.getD_some]
    exact countP_classifiedEvents (fun _ _ ↦ rfl) _

/-- A failure is resolved or not. -/
theorem count_classifyValidationFailures (found : List (ValidationEvent V)) :
    (classifyValidationFailures found).count = found.countP ValidationEvent.isFailure := by
  have hsplit := List.length_eq_countP_add_countP
    (fun pair : ValidationEvent V × ℕ ↦ isResolvedFailure found pair.2 pair.1)
    (l := found.zipIdx.filter fun pair ↦ pair.1.isFailure)
  simp only [Bool.not_eq_true, Bool.decide_eq_false] at hsplit
  unfold classifyValidationFailures
  simp only
  rw [← List.countP_eq_length_filter, ← List.countP_eq_length_filter, ← hsplit,
    ← List.countP_eq_length_filter]
  calc (found.zipIdx).countP _ = (found.zipIdx.map Prod.fst).countP ValidationEvent.isFailure :=
        (List.countP_map).symm
    _ = found.countP ValidationEvent.isFailure := by rw [List.zipIdx_map_fst]

theorem failures_eq : (validationSummaryFromEvents readings events limit).failures.getD 0 =
    (extractValidationEvents readings events).countP ValidationEvent.isFailure := by
  unfold validationSummaryFromEvents
  by_cases hempty : (extractValidationEvents readings events).length = 0
  · simp [List.length_eq_zero_iff.mp hempty]
  · simp only [hempty, if_false, Option.getD_some]
    exact count_classifyValidationFailures _

/-- Without unresolved failures every failure is followed by a proof of its key. -/
theorem exists_later_success {found : List (ValidationEvent V)}
    (hnone : (classifyValidationFailures found).unresolved = []) {index : ℕ}
    {failure : ValidationEvent V} (hfound : found[index]? = some failure)
    (hfailure : failure.isFailure = true) :
    ∃ later success, index < later ∧ found[later]? = some success ∧
      success.isProvenSuccess = true ∧ success.reconciliationKey = failure.reconciliationKey := by
  have hresolved : isResolvedFailure found index failure = true := by
    simp only [classifyValidationFailures, List.map_eq_nil_iff, List.filter_eq_nil_iff] at hnone
    have hmem : (failure, index) ∈ found.zipIdx.filter fun pair ↦ pair.1.isFailure :=
      List.mem_filter.mpr ⟨List.mem_zipIdx_iff_getElem?.mpr hfound, hfailure⟩
    simpa using hnone (failure, index) hmem
  unfold isResolvedFailure at hresolved
  rw [Bool.and_eq_true, Option.any_eq_true] at hresolved
  obtain ⟨-, later, hlatest, hlater⟩ := hresolved
  obtain ⟨⟨success, hsuccess, hmatch⟩, -⟩ := lastIndex_eq_some.mp hlatest
  simp only [Bool.and_eq_true, decide_eq_true_eq] at hmatch hlater
  exact ⟨later, success, hlater, hsuccess, hmatch.1, hmatch.2⟩

theorem unresolvedFailures_eq :
    (validationSummaryFromEvents readings events limit).unresolvedFailures =
      (classifyValidationFailures (extractValidationEvents readings events)).unresolved := by
  unfold validationSummaryFromEvents
  by_cases hempty : (extractValidationEvents readings events).length = 0
  · simp [List.length_eq_zero_iff.mp hempty, classifyValidationFailures]
  · simp [hempty]

end Counts

/-! ### The verdict -/

/-- What a verdict of `passed` was given for. -/
theorem of_evidenceStatus_eq_passed {current : ValidationSummary V} {reset : Bool} {stale : ℕ}
    (h : (evidenceStatus current reset stale).1 = .passed) :
    0 < current.eventsTotal ∧ current.unresolvedFailures = [] ∧ 0 < current.successes.getD 0 := by
  unfold evidenceStatus at h
  split_ifs at h with hfailed hpassed
  · refine ⟨hpassed.1, ?_, hpassed.2⟩
    rw [not_and, Nat.not_lt, Nat.le_zero] at hfailed
    exact List.length_eq_zero_iff.mp (hfailed hpassed.1)

/-- With nothing counted the validations are stale or have not been run. -/
theorem evidenceStatus_of_eventsTotal_eq_zero {current : ValidationSummary V} {reset : Bool}
    {stale : ℕ} (hzero : current.eventsTotal = 0) :
    (evidenceStatus current reset stale).1 = .stale ∨
      (evidenceStatus current reset stale).1 = .notRun := by
  unfold evidenceStatus
  simp only [hzero, Nat.lt_irrefl, false_and, if_false, if_true]
  split_ifs
  · exact Or.inl rfl
  · exact Or.inr rfl

section Projection

variable (readings : Readings D V) {summary : SessionSummary D} (limit : ℕ)

theorem evidence_of_incomplete (h : (currentAttemptEventView summary).complete = false) :
    (currentValidationEvidenceForSession readings summary limit).status = .unknown ∧
      (currentValidationEvidenceForSession readings summary limit).eventsTotal = 0 ∧
      (currentValidationEvidenceForSession readings summary limit).successes = 0 ∧
      (currentValidationEvidenceForSession readings summary limit).failures = 0 ∧
      countedValidations readings summary = [] := by
  simp [currentValidationEvidenceForSession, currentValidationEvidenceForEvents,
    countedValidations, h]

/-- The summary that the evidence of a complete attempt is read from. -/
def currentSummary (readings : Readings D V) (summary : SessionSummary D) (limit : ℕ) :
    ValidationSummary V :=
  validationSummaryFromEvents readings (currentEvents readings summary summary.events) limit

theorem evidence_of_complete (h : (currentAttemptEventView summary).complete = true) :
    (∃ stale, (currentValidationEvidenceForSession readings summary limit).status =
      (evidenceStatus (currentSummary readings summary limit) summary.reset.isSome stale).1) ∧
      (currentValidationEvidenceForSession readings summary limit).eventsTotal =
        (currentSummary readings summary limit).eventsTotal ∧
      (currentValidationEvidenceForSession readings summary limit).successes =
        (currentSummary readings summary limit).successes.getD 0 ∧
      (currentValidationEvidenceForSession readings summary limit).failures =
        (currentSummary readings summary limit).failures.getD 0 := by
  simp only [currentValidationEvidenceForSession, currentValidationEvidenceForEvents, h,
    Bool.true_eq_false, if_false, currentSummary, and_self, and_true]
  exact ⟨_, rfl⟩

/-- The numbers of the evidence count the validations of the second pass. -/
theorem evidence_counts : (currentValidationEvidenceForSession readings summary limit).eventsTotal =
        (countedValidations readings summary).length ∧
      (currentValidationEvidenceForSession readings summary limit).successes =
        (countedValidations readings summary).countP (fun record ↦ record.event.isProvenSuccess) ∧
      (currentValidationEvidenceForSession readings summary limit).failures =
        (countedValidations readings summary).countP (fun record ↦ record.event.isFailure) := by
  by_cases hcomplete : (currentAttemptEventView summary).complete = true
  · obtain ⟨-, htotal, hsuccesses, hfailures⟩ := evidence_of_complete readings limit hcomplete
    rw [htotal, hsuccesses, hfailures]
    unfold currentSummary countedValidations
    rw [if_pos hcomplete, eventsTotal_eq, successes_eq, failures_eq]
    unfold extractValidationEvents
    rw [List.length_map, List.countP_map, List.countP_map]
    exact ⟨rfl, rfl, rfl⟩
  · obtain ⟨-, htotal, hsuccesses, hfailures, hnone⟩ :=
      evidence_of_incomplete readings limit (Bool.eq_false_iff.mpr hcomplete)
    simp [htotal, hsuccesses, hfailures, hnone]

/-- A verdict of `passed` rests on a proof, and each failure is followed by one of its key. -/
theorem passed_of_status (h : (currentValidationEvidenceForSession readings summary limit).status =
    .passed) :
    (∃ record ∈ countedValidations readings summary, record.event.isProvenSuccess = true) ∧
      ∀ (index : ℕ) (failure : ExtractedValidationEvent V),
        (countedValidations readings summary)[index]? = some failure →
        failure.event.isFailure = true →
        ∃ (later : ℕ) (success : ExtractedValidationEvent V), index < later ∧
          (countedValidations readings summary)[later]? = some success ∧
          success.event.isProvenSuccess = true ∧
          success.event.reconciliationKey = failure.event.reconciliationKey := by
  have hcomplete : (currentAttemptEventView summary).complete = true := by
    by_contra hincomplete
    have hunknown := (evidence_of_incomplete readings limit (Bool.eq_false_iff.mpr hincomplete)).1
    rw [h] at hunknown
    exact absurd hunknown (by simp)
  obtain ⟨⟨_, hstatus⟩, -⟩ := evidence_of_complete readings limit hcomplete
  obtain ⟨-, hunresolved, hsuccesses⟩ := of_evidenceStatus_eq_passed (hstatus.symm.trans h)
  unfold currentSummary at hunresolved hsuccesses
  rw [unresolvedFailures_eq] at hunresolved
  rw [successes_eq] at hsuccesses
  have hcounted : (countedValidations readings summary).map ExtractedValidationEvent.event =
      extractValidationEvents readings (currentEvents readings summary summary.events) := by
    unfold countedValidations extractValidationEvents
    rw [if_pos hcomplete]
  rw [← hcounted] at hunresolved hsuccesses
  constructor
  · obtain ⟨validation, hmem, hproof⟩ := List.countP_pos_iff.mp hsuccesses
    obtain ⟨record, hrecord, rfl⟩ := List.mem_map.mp hmem
    exact ⟨record, hrecord, hproof⟩
  · intro index failure hindex hfailure
    have hfound :
      ((countedValidations readings summary).map ExtractedValidationEvent.event)[index]? =
        some failure.event := by
      rw [List.getElem?_map, hindex]
      rfl
    obtain ⟨later, validation, hlater, hsuccess, hproof, hkey⟩ :=
      exists_later_success hunresolved hfound hfailure
    rw [List.getElem?_map] at hsuccess
    obtain ⟨success, hget, rfl⟩ := Option.map_eq_some_iff.mp hsuccess
    exact ⟨later, success, hlater, hget, hproof, hkey⟩

/-! ### A change at the end of the ledger -/

/-- The summary of a session with one more event. -/
def SessionSummary.append (summary : SessionSummary D) (event : SessionEvent D) :
    SessionSummary D :=
  { summary with events := summary.events ++ [event] }

/-- A start that is found stands before the last event of the ledger. -/
theorem authoritativeValidationStartEventIndex_lt {ledger : List (SessionEvent D)}
    {record : ExtractedValidationEvent V} {start : ℕ}
    (h : authoritativeValidationStartEventIndex ledger record = some start) :
    start + 1 < ledger.length := by
  have hexact : ∀ {finish : ℕ} {finished : SessionEvent D}, finish < ledger.length →
      exactToolStartEventIndex ledger finish finished = some start → start + 1 < ledger.length := by
    intro finish finished _ hstart
    obtain ⟨_, -, hlast⟩ := Option.bind_eq_some_iff.mp hstart
    obtain ⟨_, -⟩ := lastIndex_take_eq_some.mp hlast
    omega
  unfold authoritativeValidationStartEventIndex at h
  simp only [bind, Option.bind_eq_some_iff] at h
  obtain ⟨_, -, _, hsource, hstart⟩ := h
  have hplace := (List.getElem?_eq_some_iff.mp hsource).1
  split at hstart
  · exact hexact hplace hstart
  · simp only [Option.bind_eq_some_iff] at hstart
    obtain ⟨_, -, _, -, _, haccepted, hstart⟩ := hstart
    exact hexact (List.getElem?_eq_some_iff.mp haccepted).1 hstart
  · exact absurd hstart (by simp)

/-- A pass over starts reads no validation. -/
theorem extractFrom_of_starts {canonicalIds : List String} {pass : Pass D}
    {events : List (SessionEvent D)} (h : ∀ event ∈ events, event.kind = .toolCallStarted) :
    extractFrom readings canonicalIds pass events = [] := by
  induction events generalizing pass with
  | nil => rfl
  | cons event _ ih =>
    simp only [extractFrom]
    rw [extractStep_of_start (h event List.mem_cons_self), List.nil_append]
    exact ih fun later hlater ↦ h later (List.mem_cons_of_mem _ hlater)

/-- The change is the boundary of the extended ledger. -/
theorem reset_append {change : SessionEvent D}
    (hcanonical : isCanonicalFinish (summary.events ++ [change]) change = true)
    (hmaterial : materialWorkspaceContentChange change = true) :
    (summary.append change).reset = some summary.events.length := by
  have hfinish : change.kind = .toolCallFinished := by
    simpa using isFinish_of_isCanonicalFinish hcanonical
  have hstart : (currentAttemptEventView (summary.append change)).attemptStart ≤
      summary.events.length := by
    refine attemptStart_le_iff.mpr fun place event hevent hkind ↦ ?_
    by_contra hge
    have hlt := (List.getElem?_eq_some_iff.mp hevent).1
    simp only [SessionSummary.append, List.length_append, List.length_singleton] at hlt
    obtain rfl : place = summary.events.length := by omega
    obtain rfl : change = event := by simpa [SessionSummary.append] using hevent
    rw [hfinish] at hkind
    exact absurd hkind (by simp)
  have hchange : isCanonicalChange (summary.events ++ [change]) change = true := by
    have hmem : change.eventId ∈ canonicalFinishedIds (summary.events ++ [change]) :=
      List.mem_map.mpr ⟨change, List.mem_filter.mpr ⟨by simp, hcanonical⟩, rfl⟩
    simp [isCanonicalChange, hmem, hmaterial]
  refine lastIndex_drop_eq_some.mpr ⟨hstart, ⟨change, by simp [SessionSummary.append], hchange⟩, ?_⟩
  intro _ event _ hevent
  have hlt := (List.getElem?_eq_some_iff.mp hevent).1
  simp only [SessionSummary.append, List.length_append, List.length_singleton] at hlt
  omega

/-- After a canonical change nothing is counted. -/
theorem status_append {change : SessionEvent D}
    (hcanonical : isCanonicalFinish (summary.events ++ [change]) change = true)
    (hmaterial : materialWorkspaceContentChange change = true) :
    (currentValidationEvidenceForSession readings (summary.append change) limit).status = .stale ∨
      (currentValidationEvidenceForSession readings (summary.append change) limit).status =
        .notRun ∨
      (currentValidationEvidenceForSession readings (summary.append change) limit).status =
        .unknown := by
  by_cases hcomplete : (currentAttemptEventView (summary.append change)).complete = true
  · have hnone : ∀ record : ExtractedValidationEvent V,
        (summary.append change).isCurrent record = false := by
      intro record
      rw [Bool.eq_false_iff]
      intro hcurrent
      unfold SessionSummary.isCurrent startedAfterBoundary SessionSummary.boundary at hcurrent
      rw [reset_append hcanonical hmaterial, Option.any_eq_true] at hcurrent
      obtain ⟨_, hstart, hafter⟩ := hcurrent
      have hlt := authoritativeValidationStartEventIndex_lt hstart
      simp only [SessionSummary.append, List.length_append, List.length_singleton] at hlt
      simp only [Option.some_or, Option.all_some, Bool.and_eq_true, decide_eq_true_eq] at hafter
      omega
    have hids : currentSourceEventIds readings (summary.append change)
        (summary.append change).events = [] := by
      unfold currentSourceEventIds
      rw [List.filter_eq_nil_iff.mpr fun record _ ↦ by simp [hnone record]]
      rfl
    have htotal : (currentSummary readings (summary.append change) limit).eventsTotal = 0 := by
      unfold currentSummary
      rw [eventsTotal_eq]
      unfold extractValidationEvents extractValidationEventRecords
      rw [extractFrom_of_starts]
      · rfl
      · intro _ hmem
        have hkept := (List.mem_filter.mp hmem).2
        rw [hids] at hkept
        simpa [SessionEvent.isKept] using hkept
    obtain ⟨⟨stale, hstatus⟩, -⟩ := evidence_of_complete readings limit hcomplete
    rw [hstatus]
    rcases evidenceStatus_of_eventsTotal_eq_zero htotal with hstale | hnotRun
    · exact Or.inl hstale
    · exact Or.inr (Or.inl hnotRun)
  · exact Or.inr
      (Or.inr (evidence_of_incomplete readings limit (Bool.eq_false_iff.mpr hcomplete)).1)

end Projection

/-- Every validation that counts began after the last canonical change of the attempt and after its
instruction, and these are all the extracted ones that did, when no two finishes that are kept are
taken for the two records of one request; that takes an invocation with three finishes. `passed`
needs a proof and, for every failure, a later proof of its key. A canonical change at the end of the
ledger leaves no verdict. -/
theorem current_evidence_follows_last_change (readings : Readings D V) (summary : SessionSummary D)
    (limit : ℕ) (hids : DistinctIds summary.events) :
    ((currentValidationEvidenceForSession readings summary limit).eventsTotal =
        (countedValidations readings summary).length ∧
      (currentValidationEvidenceForSession readings summary limit).successes =
        (countedValidations readings summary).countP (fun record ↦ record.event.isProvenSuccess) ∧
      (currentValidationEvidenceForSession readings summary limit).failures =
        (countedValidations readings summary).countP (fun record ↦ record.event.isFailure)) ∧
    (∀ record ∈ countedValidations readings summary, BeganAfterChange summary record) ∧
    ((currentAttemptEventView summary).complete = true → NoPairKept readings summary →
      ∃ isCurrent : ExtractedValidationEvent V → Bool,
        (∀ record, isCurrent record = true ↔ BeganAfterChange summary record) ∧
        countedValidations readings summary =
          (extractValidationEventRecords readings summary.events).filter isCurrent) ∧
    ((∀ logicalId, (correlated summary.events logicalId).length ≤ 2) →
      NoPairKept readings summary) ∧
    ((currentAttemptEventView summary).complete = false →
      (currentValidationEvidenceForSession readings summary limit).status = .unknown ∧
        countedValidations readings summary = []) ∧
    ((currentValidationEvidenceForSession readings summary limit).status = .passed →
      (∃ record ∈ countedValidations readings summary, record.event.isProvenSuccess = true) ∧
      ∀ (index : ℕ) (failure : ExtractedValidationEvent V),
        (countedValidations readings summary)[index]? = some failure →
        failure.event.isFailure = true →
        ∃ (later : ℕ) (success : ExtractedValidationEvent V), index < later ∧
          (countedValidations readings summary)[later]? = some success ∧
          success.event.isProvenSuccess = true ∧
          success.event.reconciliationKey = failure.event.reconciliationKey) ∧
    ∀ change, isCanonicalFinish (summary.events ++ [change]) change = true →
      materialWorkspaceContentChange change = true →
      (currentValidationEvidenceForSession readings (summary.append change) limit).status ∉
        [EvidenceStatus.passed, .failed, .expected] := by
  refine ⟨evidence_counts readings limit, ?_, ?_, noPairKept_of_length_le hids.eventIds, ?_,
    passed_of_status readings limit, ?_⟩
  · intro record hrecord
    exact (isCurrent_iff hids).mp (isCurrent_of_mem_counted hrecord)
  · intro hcomplete hpairs
    exact ⟨summary.isCurrent, fun record ↦ isCurrent_iff hids,
      countedValidations_eq hids hpairs hcomplete⟩
  · intro hincomplete
    obtain ⟨hunknown, -, -, -, hnone⟩ := evidence_of_incomplete readings limit hincomplete
    exact ⟨hunknown, hnone⟩
  · intro change hcanonical hmaterial
    rcases status_append readings limit hcanonical hmaterial with h | h | h <;> simp [h]

/-! ### Two ledgers -/

/-- A call of `cargo_check`. -/
def cargoCheckEvent (eventId callId : String) (kind : EventKind) : SessionEvent Unit :=
  { eventId := eventId
    callId := some callId
    logicalInvocationId := none
    logicalInvocationRole := none
    sessionId := "wfs_1"
    kind := kind
    toolName := "cargo_check"
    project := some "demo"
    resolvedProject := none
    startedAt := some 10
    status := if kind = .toolCallFinished then some .succeeded else none
    exitCode := if kind = .toolCallFinished then some 0 else none
    resultExpectation := none
    acceptedExitCodes := []
    failureExpectationResult := none
    changedPaths := []
    jobId := none
    effectEvidence := none
    inputSummary := none
    validationOutputSummary := none
    rest := () }

/-- The same call with a role in a logical invocation. -/
def SessionEvent.ofInvocation (event : SessionEvent Unit) (role : InvocationRole) :
    SessionEvent Unit :=
  { event with
    logicalInvocationId := some "wc_inv_0123456789abcdef0123456789abcdef"
    logicalInvocationRole := some role }

/-- The finish of an edit that changed a file. -/
def editFinish (eventId callId : String) (role : InvocationRole) : SessionEvent Unit :=
  SessionEvent.ofInvocation
    { cargoCheckEvent eventId callId .toolCallFinished with
      toolName := "write_project_file"
      exitCode := none
      changedPaths := ["src/lib.rs"]
      effectEvidence := some ⟨some true, none⟩ } role

/-- What is read of a `cargo_check` whose output was not kept. -/
def plainReadings : Readings Unit Unit :=
  { executionIdentity := fun _ _ _ ↦ "target:demo"
    testRunMetadata := fun _ _ ↦ (none, none)
    details := fun _ _ ↦ () }

/-- A logical invocation id on three finishes, one of them from an earlier attempt. -/
def reusedInvocation : SessionSummary Unit :=
  { events := [(cargoCheckEvent "e1" "old" .toolCallStarted).ofInvocation .business,
        (cargoCheckEvent "e2" "old" .toolCallFinished).ofInvocation .business,
        { cargoCheckEvent "e3" "" .taskInstruction with callId := none },
        (cargoCheckEvent "e4" "outer" .toolCallStarted).ofInvocation .recorder,
        (cargoCheckEvent "e5" "inner" .toolCallStarted).ofInvocation .business,
        (cargoCheckEvent "e6" "inner" .toolCallFinished).ofInvocation .business,
        (cargoCheckEvent "e7" "outer" .toolCallFinished).ofInvocation .recorder]
    eventsTruncated := false }

/-- An edit, and a validation after it. The second record of the edit has not been written yet. -/
def checkedEdit : SessionSummary Unit :=
  { events := [editFinish "e1" "inner" .business, cargoCheckEvent "e2" "check" .toolCallStarted,
        cargoCheckEvent "e3" "check" .toolCallFinished]
    eventsTruncated := false }

theorem distinctIds_checkedEdit : DistinctIds checkedEdit.events := by
  constructor <;> simp [checkedEdit, editFinish, cargoCheckEvent, SessionEvent.ofInvocation]

theorem distinctIds_reusedInvocation : DistinctIds reusedInvocation.events := by
  constructor <;> simp [reusedInvocation, cargoCheckEvent, SessionEvent.ofInvocation]

/-- A validation after an edit counts, and passes. -/
theorem current_evidence_checkedEdit :
    (currentValidationEvidenceForSession plainReadings checkedEdit 10).status = .passed ∧
      ∀ record ∈ countedValidations plainReadings checkedEdit,
        BeganAfterChange checkedEdit record :=
  ⟨by decide,
    (current_evidence_follows_last_change plainReadings checkedEdit 10 distinctIds_checkedEdit).2.1⟩

/-- With a logical invocation id on three finishes the second pass can leave out a current
validation that the first one extracts; and the second record of an edit, written after a
validation, is a material change that leaves the verdict at `passed`. -/
theorem evidence_of_reused_and_repeated_records :
    (DistinctIds reusedInvocation.events ∧
      (∀ record, reusedInvocation.isCurrent record = true ↔
        BeganAfterChange reusedInvocation (V := Unit) record) ∧
      countedValidations plainReadings reusedInvocation ≠
        (extractValidationEventRecords plainReadings reusedInvocation.events).filter
          reusedInvocation.isCurrent) ∧
    (DistinctIds (checkedEdit.append (editFinish "e4" "outer" .recorder)).events ∧
      materialWorkspaceContentChange (editFinish "e4" "outer" .recorder) = true ∧
      (currentValidationEvidenceForSession plainReadings
        (checkedEdit.append (editFinish "e4" "outer" .recorder)) 10).status = .passed) := by
  refine ⟨⟨distinctIds_reusedInvocation, fun record ↦ isCurrent_iff distinctIds_reusedInvocation,
    ?_⟩, ?_, by decide, by decide⟩
  · decide
  · constructor <;>
      simp [SessionSummary.append, checkedEdit, editFinish, cargoCheckEvent,
        SessionEvent.ofInvocation]

end WebCodex.Validation
