import WebCodex.Validation.TwoPasses

/-!
`OwnStart` says which start a validation has: that of its own call, and for a job that of the call
which handed the job over. `BeganAfterChange` says that this start stands after every canonical
change of the attempt and after the instruction that opened it. The code's test for a current
validation is this property (`isCurrent_iff`).
-/

namespace WebCodex.Validation

open Foundation

variable {D V : Type}

/-! ### The start of a validation -/

/-- The call that finished at one place began at another. -/
def BeginsAt (ledger : List (SessionEvent D)) (finish start : ℕ) : Prop :=
  start < finish ∧ ∃ finished started callId, ledger[finish]? = some finished ∧
    ledger[start]? = some started ∧ started.kind = .toolCallStarted ∧
    finished.callId = some callId ∧ started.callId = some callId ∧
    started.sessionId = finished.sessionId ∧ started.toolName = finished.toolName

def HandsOver (jobId : String) (event : SessionEvent D) : Prop :=
  event.kind = .toolCallFinished ∧ event.jobId = some jobId ∧ eventIsJobAcceptanceOnly event = true

/-- The last event before a place that handed a job over. -/
def LastHandover (ledger : List (SessionEvent D)) (jobId : String) (place handover : ℕ) : Prop :=
  handover < place ∧ (∃ event, ledger[handover]? = some event ∧ HandsOver jobId event) ∧
    ∀ later event, handover < later → later < place → ledger[later]? = some event →
      ¬ HandsOver jobId event

/-- The start of the execution that a validation reports. -/
def OwnStart (ledger : List (SessionEvent D)) (sourceEventId : String) (start : ℕ) : Prop :=
  ∃ place source, ledger[place]? = some source ∧ source.eventId = sourceEventId ∧
    (source.kind = .toolCallFinished ∧ BeginsAt ledger place start ∨
      source.kind = .validationJobTerminal ∧ ∃ jobId handover, source.jobId = some jobId ∧
        LastHandover ledger jobId place handover ∧ BeginsAt ledger handover start)

/-- A validation began after the changes of the attempt and after its instruction. -/
def BeganAfterChange (summary : SessionSummary D) (record : ExtractedValidationEvent V) : Prop :=
  ∃ start, OwnStart summary.events record.sourceEventId start ∧
    (∀ place event, summary.events[place]? = some event →
      (currentAttemptEventView summary).attemptStart ≤ place →
      isCanonicalFinish summary.events event = true → materialWorkspaceContentChange event = true →
      place < start) ∧
    ∀ place event, summary.events[place]? = some event → event.kind = .taskInstruction →
      place < start

variable {event : SessionEvent D} {start : ℕ} {record : ExtractedValidationEvent V}

section Starts

variable {ledger : List (SessionEvent D)}

/-- The event at a place is known by its id. -/
theorem DistinctIds.place_unique (hids : DistinctIds ledger) {first second : ℕ}
    {other : SessionEvent D} (hfirst : ledger[first]? = some event)
    (hsecond : ledger[second]? = some other)
    (hsame : event.eventId = other.eventId) :
    first = second := by
  have hmap : (ledger.map SessionEvent.eventId)[first]? =
      (ledger.map SessionEvent.eventId)[second]? := by
    simp [List.getElem?_map, hfirst, hsecond, hsame]
  have hlt : first < (ledger.map SessionEvent.eventId).length := by
    simpa using (List.getElem?_eq_some_iff.mp hfirst).1
  exact (List.getElem?_inj hlt hids.eventIds).mp hmap

/-- A start is known by its call id. -/
theorem DistinctIds.start_unique (hids : DistinctIds ledger) {first second : ℕ}
    {other : SessionEvent D}
    {callId : String} (hfirst : ledger[first]? = some event)
    (hsecond : ledger[second]? = some other)
    (hkind : event.kind = .toolCallStarted) (hother : other.kind = .toolCallStarted)
    (hcall : event.callId = some callId) (hsame : other.callId = some callId) : first = second := by
  obtain ⟨hlt, hget⟩ := List.getElem?_eq_some_iff.mp hfirst
  obtain ⟨hlt', hget'⟩ := List.getElem?_eq_some_iff.mp hsecond
  have hpairwise := List.pairwise_iff_getElem.mp hids.startCallIds
  by_contra hne
  rcases Nat.lt_or_gt_of_ne hne with hless | hless
  · have hapart := hpairwise first second hlt hlt' hless
    rw [hget, hget'] at hapart
    exact hapart hkind hother (by simp [hcall]) (by rw [hcall, hsame])
  · have hapart := hpairwise second first hlt' hlt hless
    rw [hget, hget'] at hapart
    exact hapart hother hkind (by simp [hsame]) (by rw [hcall, hsame])

theorem exactToolStartEventIndex_eq_some (hids : DistinctIds ledger) {finish : ℕ}
    {finished : SessionEvent D} (hfinished : ledger[finish]? = some finished) :
    exactToolStartEventIndex ledger finish finished = some start ↔
      BeginsAt ledger finish start := by
  constructor
  · intro h
    obtain ⟨callId, hcall, hlast⟩ := Option.bind_eq_some_iff.mp h
    obtain ⟨hlt, ⟨started, hstarted, hmatch⟩, -⟩ := lastIndex_take_eq_some.mp hlast
    simp only [Bool.and_eq_true, decide_eq_true_eq] at hmatch
    obtain ⟨⟨⟨hkind, hid⟩, hsession⟩, htool⟩ := hmatch
    exact ⟨hlt, finished, started, callId, hfinished, hstarted, hkind, hcall, hid, hsession, htool⟩
  · rintro ⟨hlt, other, started, callId, hother, hstarted, hkind, hcall, hid, hsession, htool⟩
    obtain rfl : finished = other := by
      rw [hfinished] at hother
      exact Option.some.inj hother
    refine Option.bind_eq_some_iff.mpr
      ⟨callId, hcall, lastIndex_take_eq_some.mpr ⟨hlt, ⟨started, hstarted, ?_⟩, ?_⟩⟩
    · simp [hkind, hid, hsession, htool]
    · intro _ _ _ _ hevent
      by_contra hmatch
      simp only [Bool.not_eq_false, Bool.and_eq_true, decide_eq_true_eq] at hmatch
      have heq := hids.start_unique hstarted hevent hkind hmatch.1.1.1 hid hmatch.1.1.2
      omega

/-- The search for a hand-over finds the last one. -/
theorem lastHandover_iff {jobId : String} {place handover : ℕ} :
    lastIndex (fun event : SessionEvent D ↦ event.isFinish && decide (event.jobId = some jobId) &&
        eventIsJobAcceptanceOnly event) (ledger.take place) = some handover ↔
      LastHandover ledger jobId place handover := by
  have hmatch : ∀ event : SessionEvent D, (event.isFinish && decide (event.jobId = some jobId) &&
      eventIsJobAcceptanceOnly event) = true ↔ HandsOver jobId event := by
    intro event
    simp [HandsOver, and_assoc]
  rw [lastIndex_take_eq_some]
  simp only [LastHandover, ← Bool.not_eq_true, hmatch]

/-- The code finds the start of a validation. -/
theorem authoritativeValidationStartEventIndex_eq_some (hids : DistinctIds ledger) :
    authoritativeValidationStartEventIndex ledger record = some start ↔
      OwnStart ledger record.sourceEventId start := by
  have hplace : ∀ place, (ledger.findIdx? fun event ↦
      decide (event.eventId = record.sourceEventId)) = some place ↔
        ∃ source, ledger[place]? = some source ∧ source.eventId = record.sourceEventId := by
    intro place
    rw [List.findIdx?_eq_some_iff_getElem]
    constructor
    · rintro ⟨hlt, hmatch, -⟩
      exact ⟨ledger[place], List.getElem?_eq_getElem hlt, by simpa using hmatch⟩
    · rintro ⟨source, hsource, hid⟩
      obtain ⟨hlt, hget⟩ := List.getElem?_eq_some_iff.mp hsource
      refine ⟨hlt, by simp [hget, hid], fun earlier _ hmatch ↦ ?_⟩
      have hearlier := List.getElem?_eq_getElem (by omega : earlier < ledger.length)
      have heq := hids.place_unique hearlier hsource (by rw [hid]; simpa using hmatch)
      omega
  unfold authoritativeValidationStartEventIndex OwnStart
  simp only [bind, Option.bind_eq_some_iff]
  constructor
  · rintro ⟨place, hfound, source, hsource, hstart⟩
    obtain ⟨other, hother, hid⟩ := (hplace place).mp hfound
    obtain rfl : source = other := Option.some.inj (hsource.symm.trans hother)
    refine ⟨place, source, hsource, hid, ?_⟩
    cases hkind : source.kind with
    | toolCallFinished =>
      rw [hkind] at hstart
      exact Or.inl ⟨rfl, (exactToolStartEventIndex_eq_some hids hsource).mp hstart⟩
    | validationJobTerminal =>
      rw [hkind] at hstart
      simp only [Option.bind_eq_some_iff] at hstart
      obtain ⟨jobId, hjob, handover, hhandover, accepted, haccepted, hstart⟩ := hstart
      exact Or.inr ⟨rfl, jobId, handover, hjob, lastHandover_iff.mp hhandover,
        (exactToolStartEventIndex_eq_some hids haccepted).mp hstart⟩
    | toolCallStarted | taskInstruction | other => simp [hkind] at hstart
  · rintro ⟨place, source, hsource, hid, hcase⟩
    refine ⟨place, (hplace place).mpr ⟨source, hsource, hid⟩, source, hsource, ?_⟩
    rcases hcase with ⟨hkind, hbegins⟩ | ⟨hkind, jobId, handover, hjob, hlast, hbegins⟩
    · rw [hkind]
      exact (exactToolStartEventIndex_eq_some hids hsource).mpr hbegins
    · rw [hkind]
      simp only [Option.bind_eq_some_iff]
      obtain ⟨accepted, haccepted, -⟩ := hlast.2.1
      exact ⟨jobId, hjob, handover, lastHandover_iff.mpr hlast, accepted, haccepted,
        (exactToolStartEventIndex_eq_some hids haccepted).mpr hbegins⟩

end Starts

/-! ### Which validations are current -/

variable {events : List (SessionEvent D)}

section Current

variable {summary : SessionSummary D} {record : ExtractedValidationEvent V}

/-- An attempt begins after every instruction. -/
theorem attemptStart_le_iff : (currentAttemptEventView summary).attemptStart ≤ start ↔
      ∀ place event, summary.events[place]? = some event → event.kind = .taskInstruction →
        place < start := by
  unfold currentAttemptEventView
  cases hlast : lastIndex (fun event : SessionEvent D ↦ decide (event.kind = .taskInstruction))
      summary.events with
  | none =>
    have hnone := lastIndex_eq_none.mp hlast
    simp only [Option.map_none, Option.getD_none, Nat.zero_le, true_iff]
    intro place event hevent hkind
    have := hnone event (List.mem_of_getElem? hevent)
    simp [hkind] at this
  | some index =>
    obtain ⟨⟨instruction, hinstruction, hkind⟩, hafter⟩ := lastIndex_eq_some.mp hlast
    simp only [Option.map_some, Option.getD_some]
    constructor
    · intro _ place event hevent hkind
      by_contra hge
      have := hafter place event (by omega) hevent
      simp [hkind] at this
    · intro hall
      exact hall index instruction hinstruction (by simpa using hkind)

/-- The events that reset the evidence are the canonical changes. -/
theorem isCanonicalChange_iff (hids : DistinctIds events) (hmem : event ∈ events) :
    isCanonicalChange events event = true ↔
      isCanonicalFinish events event = true ∧ materialWorkspaceContentChange event = true := by
  unfold isCanonicalChange
  rw [Bool.and_eq_true, Bool.or_eq_true, List.contains_iff_mem,
    mem_canonicalFinishedIds hids.eventIds hmem]
  constructor
  · rintro ⟨hcanonical, hchange⟩
    have hfinish : event.isFinish = true := by
      unfold materialWorkspaceContentChange at hchange
      simp only [Bool.and_eq_true] at hchange
      exact hchange.1.1
    rcases hcanonical with hno | hcanonical
    · simp [hfinish] at hno
    · exact ⟨hcanonical, hchange⟩
  · rintro ⟨hcanonical, hchange⟩
    exact ⟨Or.inr hcanonical, hchange⟩

/-- A place in the attempt stands after the last canonical change when it stands after all. -/
theorem reset_lt_iff (hids : DistinctIds summary.events) :
    (∀ reset, summary.reset = some reset → reset < start) ↔
      ∀ place event, summary.events[place]? = some event →
        (currentAttemptEventView summary).attemptStart ≤ place →
        isCanonicalFinish summary.events event = true →
        materialWorkspaceContentChange event = true → place < start := by
  have hchange : ∀ {place : ℕ} {event : SessionEvent D}, summary.events[place]? = some event →
      (isCanonicalChange summary.events event = true ↔
        isCanonicalFinish summary.events event = true ∧
          materialWorkspaceContentChange event = true) :=
    fun hevent ↦ isCanonicalChange_iff hids (List.mem_of_getElem? hevent)
  constructor
  · intro hreset place event hevent hattempt hcanonical hmaterial
    cases hlast : summary.reset with
    | none =>
      -- then the attempt has no canonical change
      have hnone := Option.map_eq_none_iff.mp hlast
      have hmem : event ∈ summary.events.drop (currentAttemptEventView summary).attemptStart := by
        refine List.mem_of_getElem? (i := place - (currentAttemptEventView summary).attemptStart) ?_
        rw [List.getElem?_drop, Nat.add_sub_cancel' hattempt]
        exact hevent
      have hno := lastIndex_eq_none.mp hnone event hmem
      rw [(hchange hevent).mpr ⟨hcanonical, hmaterial⟩] at hno
      exact absurd hno (by simp)
    | some reset =>
      obtain ⟨-, -, hafter⟩ := lastIndex_drop_eq_some.mp hlast
      have hle : place ≤ reset := by
        by_contra hgt
        have hno := hafter place event (by omega) hevent
        rw [(hchange hevent).mpr ⟨hcanonical, hmaterial⟩] at hno
        exact absurd hno (by simp)
      exact Nat.lt_of_le_of_lt hle (hreset reset hlast)
  · intro hall reset hlast
    obtain ⟨hattempt, ⟨event, hevent, hmatch⟩, -⟩ := lastIndex_drop_eq_some.mp hlast
    obtain ⟨hcanonical, hmaterial⟩ := (hchange hevent).mp hmatch
    exact hall reset event hevent hattempt hcanonical hmaterial

/-- The test of the code is the property: a current validation began after the changes of the
attempt and after its instruction. -/
theorem isCurrent_iff (hids : DistinctIds summary.events) :
    summary.isCurrent record = true ↔ BeganAfterChange summary record := by
  unfold SessionSummary.isCurrent startedAfterBoundary BeganAfterChange
  rw [Option.any_eq_true]
  refine exists_congr fun _ ↦ ?_
  rw [authoritativeValidationStartEventIndex_eq_some hids, Bool.and_eq_true, decide_eq_true_eq,
    ← attemptStart_le_iff, ← reset_lt_iff hids]
  refine and_congr_right fun _ ↦ ?_
  rw [and_comm]
  refine and_congr_left fun _ ↦ ?_
  rw [Option.all_eq_true]
  simp only [decide_eq_true_eq]
  unfold SessionSummary.boundary
  cases hreset : summary.reset with
  | some => simp
  | none =>
    -- without a change the boundary is the instruction, and the attempt begins after it
    simp only [Option.none_or, reduceCtorEq, IsEmpty.forall_iff, implies_true, iff_true]
    intro boundary hboundary
    have hstart : (currentAttemptEventView summary).attemptStart = boundary + 1 := by
      unfold currentAttemptEventView at hboundary ⊢
      simp only at hboundary
      simp [hboundary]
    omega

end Current

/-! ### The validations that are counted -/

/-- The validations of the second pass. Nothing is counted when the start of the attempt is
unknown. -/
def countedValidations (readings : Readings D V) (summary : SessionSummary D) :
    List (ExtractedValidationEvent V) :=
  if (currentAttemptEventView summary).complete then
    extractValidationEventRecords readings (currentEvents readings summary summary.events)
  else []

section Counted

variable {readings : Readings D V} {summary : SessionSummary D}

/-- A finish that adds something is canonical. -/
theorem mem_canonicalIds_of_extractStep {canonicalIds : List String} {pass : Pass D}
    (hkind : event.kind = .toolCallFinished)
    (h : (extractStep readings canonicalIds pass event).1 ≠ []) :
    event.eventId ∈ canonicalIds := by
  by_contra hnot
  apply h
  simp [extractStep, hkind, hnot]

/-- What a pass adds comes from an event that is no start, and that is canonical if it is a
finish. -/
theorem exists_source_of_mem_extractFrom {canonicalIds : List String} {pass : Pass D}
    (h : record ∈ extractFrom readings canonicalIds pass events) :
    ∃ event ∈ events, event.kind ≠ .toolCallStarted ∧ event.eventId = record.sourceEventId ∧
      (event.kind = .toolCallFinished → event.eventId ∈ canonicalIds) := by
  induction events generalizing pass with
  | nil => simp [extractFrom] at h
  | cons event _ ih =>
    simp only [extractFrom, List.mem_append] at h
    rcases h with h | h
    · refine ⟨event, List.mem_cons_self, ?_, (sourceEventId_of_mem_extractStep h).symm,
        fun hkind ↦ mem_canonicalIds_of_extractStep hkind (List.ne_nil_of_mem h)⟩
      intro hkind
      rw [extractStep_of_start hkind] at h
      simp at h
    · obtain ⟨source, hmem, hsource⟩ := ih h
      exact ⟨source, List.mem_cons_of_mem _ hmem, hsource⟩

/-- An id that is current names an extracted validation that is. -/
theorem mem_currentSourceEventIds {id : String} :
    id ∈ currentSourceEventIds readings summary events ↔
      ∃ record ∈ extractValidationEventRecords readings events,
        summary.isCurrent record = true ∧ record.sourceEventId = id := by
  simp [currentSourceEventIds, and_assoc]

/-- Whether a validation is current is decided by its source. -/
theorem isCurrent_congr {other : ExtractedValidationEvent V}
    (hsame : record.sourceEventId = other.sourceEventId) :
    summary.isCurrent record = summary.isCurrent other := by
  simp only [SessionSummary.isCurrent, startedAfterBoundary, authoritativeValidationStartEventIndex,
    hsame]

/-- A validation is current when its source is. -/
theorem isCurrent_eq_contains (hmem : record ∈ extractValidationEventRecords readings events) :
    summary.isCurrent record =
      (currentSourceEventIds readings summary events).contains record.sourceEventId := by
  rw [Bool.eq_iff_iff, List.contains_iff_mem, mem_currentSourceEventIds]
  constructor
  · exact fun hcurrent ↦ ⟨record, hmem, hcurrent, rfl⟩
  · rintro ⟨_, -, hcurrent, hsame⟩
    rwa [isCurrent_congr hsame.symm]

/-- Every validation that is counted is current. -/
theorem isCurrent_of_mem_counted (h : record ∈ countedValidations readings summary) :
    summary.isCurrent record = true := by
  unfold countedValidations at h
  split at h
  · obtain ⟨_, hmem, hkind, hid, -⟩ := exists_source_of_mem_extractFrom h
    have hkept := (List.mem_filter.mp hmem).2
    simp only [SessionEvent.isKept, hkind, decide_false, Bool.false_or,
      List.contains_iff_mem] at hkept
    obtain ⟨_, -, _, hsame⟩ := mem_currentSourceEventIds.mp hkept
    rwa [isCurrent_congr (hid.symm.trans hsame.symm)]
  · simp at h

/-- No two finishes that the second pass keeps are taken for the two records of one request. -/
def NoPairKept (readings : Readings D V) (summary : SessionSummary D) : Prop :=
  ∀ logicalId, canonicalBusiness
    (correlated (currentEvents readings summary summary.events) logicalId) = none

/-- Then every finish that is kept is canonical among those that are kept. -/
theorem NoPairKept.mem_canonicalFinishedIds (h : NoPairKept readings summary)
    (hmem : event ∈ currentEvents readings summary summary.events)
    (hkind : event.kind = .toolCallFinished) :
    event.eventId ∈ canonicalFinishedIds (currentEvents readings summary summary.events) := by
  refine List.mem_map.mpr ⟨event, List.mem_filter.mpr ⟨hmem, ?_⟩, rfl⟩
  cases hid : event.correlatedId with
  | none => exact isCanonicalFinish_of_correlatedId_eq_none (by simpa using hkind) hid
  | some logicalId => simp [isCanonicalFinish, hid, h logicalId, hkind]

/-- The ids of finishes that the second pass takes for the second record of a request. -/
def collapsedIds (readings : Readings D V) (summary : SessionSummary D) : List String :=
  ((currentEvents readings summary summary.events).filter fun event ↦ !event.countsIn
    (canonicalFinishedIds (currentEvents readings summary summary.events))).map SessionEvent.eventId

/-- A source counts: its validation is current, and it is not taken for a second record. -/
def countsSource (readings : Readings D V) (summary : SessionSummary D) (id : String) : Bool :=
  (currentSourceEventIds readings summary summary.events).contains id &&
    !(collapsedIds readings summary).contains id

/-- No finish that counts has the call id of an earlier finish that does not. -/
def CallsApart (readings : Readings D V) (summary : SessionSummary D) : Prop :=
  summary.events.Pairwise fun event later ↦ event.kind = .toolCallFinished →
    later.kind = .toolCallFinished → countsSource readings summary event.eventId = false →
    countsSource readings summary later.eventId = true → event.callId ≠ later.callId

section EventIds

variable (hids : (summary.events.map SessionEvent.eventId).Nodup)

include hids

/-- A current finish has a call id. -/
theorem callId_isSome_of_isCurrent (hcurrent : summary.isCurrent record = true)
    (hmem : event ∈ summary.events) (hid : event.eventId = record.sourceEventId)
    (hkind : event.kind = .toolCallFinished) : event.callId.isSome := by
  obtain ⟨_, hstart, -⟩ := (Option.any_eq_true _ _).mp hcurrent
  unfold authoritativeValidationStartEventIndex at hstart
  simp only [bind, Option.bind_eq_some_iff] at hstart
  obtain ⟨_, hplace, source, hsource, hstart⟩ := hstart
  obtain ⟨hlt, hmatch, -⟩ := List.findIdx?_eq_some_iff_getElem.mp hplace
  rw [List.getElem?_eq_getElem hlt, Option.some.injEq] at hsource
  obtain rfl : source = event := by
    refine List.inj_on_of_nodup_map hids (hsource ▸ List.getElem_mem hlt) hmem ?_
    rw [hid, ← hsource]
    simpa using hmatch
  rw [hkind] at hstart
  obtain ⟨callId, hcall, -⟩ := Option.bind_eq_some_iff.mp hstart
  rw [hcall, Option.isSome_some]

/-- A finish that is kept is canonical in the whole ledger. -/
theorem isCanonicalFinish_of_kept
    (hmem : event ∈ currentEvents readings summary summary.events)
    (hkind : event.kind = .toolCallFinished) :
    isCanonicalFinish summary.events event = true := by
  obtain ⟨hevent, hkept⟩ := List.mem_filter.mp hmem
  simp only [SessionEvent.isKept, hkind, reduceCtorEq, decide_false, Bool.false_or,
    List.contains_iff_mem] at hkept
  obtain ⟨_, hrecord, -, hid⟩ := mem_currentSourceEventIds.mp hkept
  obtain ⟨source, hsource, -, hsourceId, hcanonical⟩ := exists_source_of_mem_extractFrom hrecord
  obtain rfl : source = event :=
    List.inj_on_of_nodup_map hids hsource hevent (hsourceId.trans hid)
  exact (WebCodex.Validation.mem_canonicalFinishedIds hids hevent).mp (hcanonical hkind)

/-- A logical invocation on at most two finishes is never split: had the second pass kept both
records of a request, the first one would not have extracted the recorder's. -/
theorem noPairKept_of_length_le
    (hsmall : ∀ logicalId, (correlated summary.events logicalId).length ≤ 2) :
    NoPairKept readings summary := by
  intro logicalId
  by_contra hpair
  obtain ⟨_, hbusiness⟩ := Option.ne_none_iff_exists'.mp hpair
  have hsublist : (correlated (currentEvents readings summary summary.events) logicalId).Sublist
      (correlated summary.events logicalId) := List.filter_sublist.filter _
  have hlength : (correlated (currentEvents readings summary summary.events) logicalId).length =
      2 := by
    by_contra hne
    rw [canonicalBusiness, if_neg hne] at hbusiness
    exact absurd hbusiness (by simp)
  have hsame := hsublist.eq_of_length_le (by rw [hlength]; exact hsmall logicalId)
  obtain ⟨_, hrecorder, hrole, hbusinessRole⟩ := exists_recorder_of_canonicalBusiness hbusiness
  obtain ⟨hkept, hmatch⟩ := List.mem_filter.mp hrecorder
  simp only [Bool.and_eq_true, isFinish_eq_true, decide_eq_true_eq] at hmatch
  have hcanonical := isCanonicalFinish_of_kept hids hkept hmatch.1
  rw [hsame] at hbusiness
  simp [isCanonicalFinish, hmatch.2, hbusiness, hrole, hbusinessRole] at hcanonical

theorem notMem_collapsedIds
    (hmem : event ∈ currentEvents readings summary summary.events) :
    event.eventId ∉ collapsedIds readings summary ↔ event.countsIn
        (canonicalFinishedIds (currentEvents readings summary summary.events)) = true := by
  unfold collapsedIds
  simp only [List.mem_map, List.mem_filter, Bool.not_eq_true', not_exists, not_and]
  constructor
  · intro h
    by_contra hnot
    exact h event ⟨hmem, Bool.eq_false_iff.mpr hnot⟩ rfl
  · rintro h other ⟨hother, hfalse⟩ hsame
    obtain rfl : other = event := List.inj_on_of_nodup_map hids
      (List.mem_filter.mp hother).1 (List.mem_filter.mp hmem).1 hsame
    exact absurd (h.symm.trans hfalse) (by simp)

/-- The second pass sees the starts and the sources that count. -/
theorem filter_countsIn_currentEvents :
    (currentEvents readings summary summary.events).filter (SessionEvent.countsIn
        (canonicalFinishedIds (currentEvents readings summary summary.events))) =
      summary.events.filter (SessionEvent.isKept (countsSource readings summary)) := by
  generalize hcanonical : canonicalFinishedIds (currentEvents readings summary summary.events) = ids
  rw [currentEvents, List.filter_filter]
  refine List.filter_congr fun event hevent ↦ ?_
  by_cases hkind : event.kind = .toolCallStarted
  · simp [SessionEvent.isKept, SessionEvent.countsIn, SessionEvent.isFinish, hkind]
  · by_cases hsource :
      (currentSourceEventIds readings summary summary.events).contains event.eventId = true
    · have hkept : event ∈ currentEvents readings summary summary.events :=
        List.mem_filter.mpr ⟨hevent, by rw [SessionEvent.isKept, hsource, Bool.or_true]⟩
      have hcounts := notMem_collapsedIds hids hkept
      rw [hcanonical] at hcounts
      rw [Bool.eq_iff_iff]
      simp only [SessionEvent.isKept, countsSource, hkind, hsource, decide_false, Bool.false_or,
        Bool.and_true, Bool.true_and, Bool.not_eq_true', ← hcounts, ← List.contains_iff_mem,
        Bool.not_eq_true]
    · simp only [SessionEvent.isKept, countsSource, hkind, Bool.eq_false_iff.mpr hsource,
        decide_false, Bool.false_or, Bool.and_false, Bool.false_and]

/-- The validations that are counted are the extracted ones whose source counts. -/
theorem countedValidations_eq_filter (hcalls : CallsApart readings summary)
    (hcomplete : (currentAttemptEventView summary).complete = true) :
    countedValidations readings summary =
      (extractValidationEventRecords readings summary.events).filter fun record ↦
        countsSource readings summary record.sourceEventId := by
  have haligned : Aligned readings (canonicalFinishedIds summary.events)
      (canonicalFinishedIds (currentEvents readings summary summary.events))
      (countsSource readings summary) ⟨[], []⟩ ⟨[], []⟩ summary.events := by
    refine ⟨hids, hcalls, ?_, ?_, fun _ _ _ _ ↦ rfl, fun _ h ↦ h⟩
    · intro event _ hcurrent
      obtain ⟨record, hrecord, -, hid⟩ := mem_currentSourceEventIds.mp
        (List.contains_iff_mem.mp (Bool.and_eq_true_iff.mp hcurrent).1)
      exact ⟨record, hrecord, hid⟩
    · intro event hmem hkind hcurrent
      obtain ⟨hsource, hcounts⟩ := Bool.and_eq_true_iff.mp hcurrent
      have hkept : event ∈ currentEvents readings summary summary.events :=
        List.mem_filter.mpr ⟨hmem, by rw [SessionEvent.isKept, hsource, Bool.or_true]⟩
      obtain ⟨record, -, hrecord, hid⟩ :=
        mem_currentSourceEventIds.mp (List.contains_iff_mem.mp hsource)
      have hcanonical := (notMem_collapsedIds hids hkept).mp (by simpa using hcounts)
      simp only [SessionEvent.countsIn, isFinish_eq_true.mpr hkind, Bool.not_true, Bool.false_or,
        List.contains_iff_mem] at hcanonical
      exact ⟨hcanonical, callId_isSome_of_isCurrent hids hrecord hmem hid.symm hkind⟩
  unfold countedValidations extractValidationEventRecords
  rw [if_pos hcomplete, ← extractFrom_filter_countsIn, filter_countsIn_currentEvents hids]
  exact extractFrom_filter haligned

end EventIds

/-- Call ids that tell finishes apart tell those that count from the others. -/
theorem DistinctIds.callsApart (hids : DistinctIds summary.events) :
    CallsApart readings summary := by
  refine hids.finishCallIds.imp_of_mem fun {event later} _ hlater hapart hfinish hlaterFinish _
    hcounts ↦ ?_
  obtain ⟨_, -, hcurrent, hid⟩ := mem_currentSourceEventIds.mp
    (List.contains_iff_mem.mp (Bool.and_eq_true_iff.mp hcounts).1)
  have hcall := callId_isSome_of_isCurrent hids.eventIds hcurrent hlater hid.symm hlaterFinish
  intro hsame
  exact hapart hfinish hlaterFinish (by rw [hsame]; exact hcall) hsame

/-- Without pairs among the kept finishes they are the extracted ones that are current. -/
theorem countedValidations_eq (hids : DistinctIds summary.events)
    (hpairs : NoPairKept readings summary)
    (hcomplete : (currentAttemptEventView summary).complete = true) :
    countedValidations readings summary =
      (extractValidationEventRecords readings summary.events).filter summary.isCurrent := by
  have hcollapsed : collapsedIds readings summary = [] := by
    rw [collapsedIds, List.map_eq_nil_iff, List.filter_eq_nil_iff]
    intro event hkept
    by_cases hkind : event.kind = .toolCallFinished
    · simp [SessionEvent.countsIn, hpairs.mem_canonicalFinishedIds hkept hkind]
    · simp [SessionEvent.countsIn, SessionEvent.isFinish, hkind]
  rw [countedValidations_eq_filter hids.eventIds hids.callsApart hcomplete]
  refine List.filter_congr fun _ hrecord ↦ ?_
  rw [isCurrent_eq_contains hrecord, countsSource, hcollapsed]
  simp

end Counted

end WebCodex.Validation
