import WebCodex.Validation.Evidence

/-!
The second pass sees all starts but only some of the other events, and still finds the same start
for a finish. So when what is left out is no source of current validations, and the finishes that
are kept are canonical among themselves, it reads exactly the current validations of the first
pass (`extractFrom_filter`).
-/

namespace WebCodex.Validation

variable {D V : Type}

/-- Ids tell events apart, and call ids tell starts and finishes apart. -/
structure DistinctIds (events : List (SessionEvent D)) : Prop where
  eventIds : (events.map SessionEvent.eventId).Nodup
  startCallIds : events.Pairwise fun first second ↦ first.kind = .toolCallStarted →
    second.kind = .toolCallStarted → first.callId.isSome → first.callId ≠ second.callId
  finishCallIds : events.Pairwise fun first second ↦ first.kind = .toolCallFinished →
    second.kind = .toolCallFinished → first.callId.isSome → first.callId ≠ second.callId

variable {record : ExtractedValidationEvent V}

section Steps

variable {readings : Readings D V} {canonicalIds : List String} {pass : Pass D}
  {event : SessionEvent D}

theorem mem_extracted {source : SessionEvent D} {validation : Option (ValidationEvent V)} :
    record ∈ extracted source validation ↔
      record.sourceEventId = source.eventId ∧ validation = some record.event := by
  cases validation with
  | none => simp [extracted]
  | some found =>
    constructor
    · intro h
      obtain rfl : record = ⟨source.eventId, found⟩ := by simpa [extracted] using h
      exact ⟨rfl, rfl⟩
    · rintro ⟨hid, hfound⟩
      cases record with
      | mk =>
        simp only [Option.some.injEq] at hfound
        simp only at hid
        simp [extracted, hid, hfound]

/-- What a step adds comes from its event. -/
theorem sourceEventId_of_mem_extractStep
    (h : record ∈ (extractStep readings canonicalIds pass event).1) :
    record.sourceEventId = event.eventId := by
  unfold extractStep at h
  split at h
  · split at h <;> simp at h
  · split at h
    · simp at h
    · exact (mem_extracted.mp h).1
  · split at h
    · simp at h
    · split at h
      · simp at h
      · exact (mem_extracted.mp h).1
  · simp at h
  · simp at h

/-- What a pass adds comes from the events that it sees. -/
theorem sourceEventId_mem_of_mem_extractFrom {events : List (SessionEvent D)}
    (h : record ∈ extractFrom readings canonicalIds pass events) :
    record.sourceEventId ∈ events.map SessionEvent.eventId := by
  induction events generalizing pass with
  | nil => simp [extractFrom] at h
  | cons _ _ ih =>
    simp only [extractFrom, List.mem_append] at h
    rw [List.map_cons, List.mem_cons]
    rcases h with h | h
    · exact Or.inl (sourceEventId_of_mem_extractStep h)
    · exact Or.inr (ih h)

/-- A start only adds itself to those that wait. -/
theorem extractStep_of_start (hkind : event.kind = .toolCallStarted) :
    extractStep readings canonicalIds pass event = ([], { pass with started := pass.started ++
        if (executionPurpose event).isSome then [event] else [] }) := by
  by_cases hpurpose : (executionPurpose event).isSome = true
  · simp [extractStep, hkind, hpurpose]
  · simp only [Bool.not_eq_true] at hpurpose
    simp [extractStep, hkind, hpurpose]

/-- An event that is no start takes at most the start that belongs to it, and no job is
forgotten. -/
theorem extractStep_pass (readings : Readings D V) (canonicalIds : List String) (pass : Pass D)
    (hkind : event.kind ≠ .toolCallStarted) :
    ((extractStep readings canonicalIds pass event).2.started = pass.started ∨
      event.kind = .toolCallFinished ∧ (extractStep readings canonicalIds pass event).2.started =
          pass.started.eraseP (startMatches event)) ∧
      pass.terminalJobs ⊆ (extractStep readings canonicalIds pass event).2.terminalJobs := by
  unfold extractStep
  split
  · exact absurd ‹_› hkind
  · split
    · exact ⟨Or.inl rfl, fun _ h ↦ h⟩
    · exact ⟨Or.inr ⟨‹_›, rfl⟩, fun _ h ↦ h⟩
  · split
    · exact ⟨Or.inl rfl, fun _ h ↦ h⟩
    · split
      · exact ⟨Or.inl rfl, fun _ h ↦ h⟩
      · exact ⟨Or.inl rfl, fun _ h ↦ List.mem_cons_of_mem _ h⟩
  · exact ⟨Or.inl rfl, fun _ h ↦ h⟩
  · exact ⟨Or.inl rfl, fun _ h ↦ h⟩

end Steps

/-- A finish counts when it is canonical, any other event in any case. -/
def SessionEvent.countsIn (ids : List String) (event : SessionEvent D) : Bool :=
  !event.isFinish || ids.contains event.eventId

section Pass

variable {readings : Readings D V} {ids : List String} {pass : Pass D}

/-- A finish that is not canonical changes nothing, so a pass may leave it out. -/
theorem extractFrom_filter_countsIn (events : List (SessionEvent D)) :
    extractFrom readings ids pass (events.filter (SessionEvent.countsIn ids)) =
      extractFrom readings ids pass events := by
  induction events generalizing pass with
  | nil => rfl
  | cons event _ ih =>
    by_cases hkeep : event.countsIn ids = true
    · rw [List.filter_cons_of_pos hkeep]
      simp only [extractFrom]
      rw [ih]
    · rw [List.filter_cons_of_neg hkeep, ih]
      simp only [SessionEvent.countsIn, Bool.or_eq_true, Bool.not_eq_true', not_or,
        Bool.not_eq_false, isFinish_eq_true, List.contains_iff_mem] at hkeep
      have hstep : extractStep readings ids pass event = ([], pass) := by
        simp [extractStep, hkeep.1, hkeep.2]
      simp [extractFrom, hstep]

end Pass

/-- Removing an element leaves a filter alone that does not keep such an element. -/
theorem filter_eraseP_of_disjoint {A : Type*} {p q : A → Bool}
    (hdisjoint : ∀ a, p a = true → q a = false) (items : List A) :
    (items.eraseP p).filter q = items.filter q := by
  induction items with
  | nil => rfl
  | cons item _ ih =>
    by_cases hp : p item = true
    · simp [List.eraseP_cons_of_pos hp, hdisjoint item hp]
    · rw [List.eraseP_cons_of_neg hp, List.filter_cons, List.filter_cons, ih]

/-- Of the elements that are kept, the first one is removed. -/
theorem filter_eraseP_self {A : Type*} (p : A → Bool) (items : List A) :
    (items.eraseP p).filter p = (items.filter p).tail := by
  induction items with
  | nil => rfl
  | cons item _ ih =>
    by_cases hp : p item = true
    · rw [List.eraseP_cons_of_pos hp, List.filter_cons_of_pos hp, List.tail_cons]
    · rw [List.eraseP_cons_of_neg hp, List.filter_cons_of_neg hp, List.filter_cons_of_neg hp, ih]

/-- The start of one finish does not belong to another finish with a call id. -/
theorem startMatches_disjoint {first second : SessionEvent D} (hcall : second.callId.isSome)
    (hne : first.callId ≠ second.callId) (start : SessionEvent D)
    (h : startMatches first start = true) : startMatches second start = false := by
  obtain ⟨secondId, hsecond⟩ := Option.isSome_iff_exists.mp hcall
  have hstart : start.callId = first.callId := by
    cases hfirst : first.callId with
    | none =>
      simp only [startMatches, hfirst, Bool.and_eq_true, decide_eq_true_eq] at h
      exact h.1.1.1
    | some => simpa [startMatches, hfirst] using h
  have hother : start.callId ≠ some secondId := by
    rw [hstart, ← hsecond]
    exact hne
  simp [startMatches, hsecond, hother]

/-! ### The second pass -/

section SecondPass

variable {readings : Readings D V} {wholeIds keptIds : List String} {current : String → Bool}

/-- A step that adds the validation of a current event does so in the second pass as well. -/
theorem extractStep_of_current {first second : Pass D} {event : SessionEvent D}
    (hproduced : (extractStep readings wholeIds first event).1 ≠ [])
    (hcanonical : event.kind = .toolCallFinished → event.eventId ∈ keptIds)
    (hstart : event.kind = .toolCallFinished →
      second.started.find? (startMatches event) = first.started.find? (startMatches event))
    (hjobs : second.terminalJobs ⊆ first.terminalJobs) :
    (extractStep readings keptIds second event).1 = (extractStep readings wholeIds first event).1 ∧
      (extractStep readings keptIds second event).2.terminalJobs ⊆
        (extractStep readings wholeIds first event).2.terminalJobs := by
  cases hkind : event.kind with
  | toolCallStarted => simp [extractStep_of_start hkind] at hproduced
  | toolCallFinished =>
    by_cases hskip : (!wholeIds.contains event.eventId || eventIsJobAcceptanceOnly event) = true
    · simp only [extractStep, hkind, hskip, if_true] at hproduced
      exact absurd rfl hproduced
    · have hacceptance : eventIsJobAcceptanceOnly event = false := by
        simp only [Bool.or_eq_true, not_or, Bool.not_eq_true] at hskip
        exact hskip.2
      have hkeep : ¬ (!keptIds.contains event.eventId || eventIsJobAcceptanceOnly event) =
          true := by
        simp [hcanonical hkind, hacceptance]
      simp only [extractStep, hkind, hskip, hkeep, matchingStart, hstart hkind]
      exact ⟨rfl, hjobs⟩
  | validationJobTerminal =>
    cases hjob : event.jobId with
    | none =>
      simp only [extractStep, hkind, hjob] at hproduced
      exact absurd rfl hproduced
    | some jobId =>
      by_cases hseen : first.terminalJobs.contains jobId = true
      · simp only [extractStep, hkind, hjob, hseen, if_true] at hproduced
        exact absurd rfl hproduced
      · have hfresh : ¬ second.terminalJobs.contains jobId = true := by
          intro hmem
          exact hseen (by simpa using hjobs (by simpa using hmem))
        simp only [extractStep, hkind, hjob, hseen, hfresh]
        exact ⟨rfl, List.cons_subset_cons jobId hjobs⟩
  | taskInstruction | other =>
    simp only [extractStep, hkind] at hproduced
    exact absurd rfl hproduced

/-- A step on an event that is no start leaves the waiting starts of a later finish alone, unless
the two have one call id. -/
theorem filter_started_extractStep {ids : List String} {pass : Pass D}
    {event later : SessionEvent D} (hkind : event.kind ≠ .toolCallStarted)
    (hlater : later.callId.isSome)
    (hapart : event.kind = .toolCallFinished → event.callId ≠ later.callId) :
    (extractStep readings ids pass event).2.started.filter (startMatches later) =
      pass.started.filter (startMatches later) := by
  obtain ⟨hsame | ⟨hfinish, herase⟩, -⟩ := extractStep_pass readings ids pass hkind
  · rw [hsame]
  · rw [herase]
    exact filter_eraseP_of_disjoint (startMatches_disjoint hlater (hapart hfinish)) _

/-- A finish that adds a validation takes the first of the starts that belong to it, which are also
those of a later finish with its call id. -/
theorem filter_started_of_ne_nil {ids : List String} {pass : Pass D} {event later : SessionEvent D}
    (hkind : event.kind = .toolCallFinished) (hlater : later.callId.isSome)
    (hsame : event.callId = later.callId)
    (hproduced : (extractStep readings ids pass event).1 ≠ []) :
    (extractStep readings ids pass event).2.started.filter (startMatches later) =
      (pass.started.filter (startMatches later)).tail := by
  obtain ⟨callId, hcall⟩ := Option.isSome_iff_exists.mp hlater
  have hmatches : startMatches event = startMatches later := by
    funext start
    simp [startMatches, hsame, hcall]
  simp only [extractStep, hkind] at hproduced ⊢
  split_ifs at hproduced ⊢
  · exact absurd rfl hproduced
  · rw [matchingStart, hmatches]
    exact filter_eraseP_self _ _

/-- The two passes stand before the same events. Every current event ahead is going to be the source
of a validation; a current finish is canonical for the second pass too, has a call id, and finds the
same starts in both; no finish before it that is not current has its call id; and the second pass
has seen no job that the first has not. -/
structure Aligned (readings : Readings D V) (wholeIds keptIds : List String)
    (current : String → Bool) (first second : Pass D) (events : List (SessionEvent D)) : Prop where
  eventIds : (events.map SessionEvent.eventId).Nodup
  callsApart : events.Pairwise fun event later ↦ event.kind = .toolCallFinished →
    later.kind = .toolCallFinished → current event.eventId = false → current later.eventId = true →
    event.callId ≠ later.callId
  produced : ∀ event ∈ events, current event.eventId = true →
    ∃ record ∈ extractFrom readings wholeIds first events, record.sourceEventId = event.eventId
  canonical : ∀ event ∈ events, event.kind = .toolCallFinished → current event.eventId = true →
    event.eventId ∈ keptIds ∧ event.callId.isSome
  starts : ∀ event ∈ events, event.kind = .toolCallFinished → current event.eventId = true →
    second.started.filter (startMatches event) = first.started.filter (startMatches event)
  jobs : second.terminalJobs ⊆ first.terminalJobs

namespace Aligned

variable {first second next : Pass D} {event : SessionEvent D} {rest : List (SessionEvent D)}

theorem notMem_rest (h : Aligned readings wholeIds keptIds current first second (event :: rest)) :
    event.eventId ∉ rest.map SessionEvent.eventId := by
  have hids := h.eventIds
  exact (List.nodup_cons.mp hids).1

/-- A current event is the source of what its own step adds. -/
theorem step_ne_nil (h : Aligned readings wholeIds keptIds current first second (event :: rest))
    (hcurrent : current event.eventId = true) :
    (extractStep readings wholeIds first event).1 ≠ [] := by
  obtain ⟨_, hrecord, hsource⟩ := h.produced event List.mem_cons_self hcurrent
  simp only [extractFrom, List.mem_append] at hrecord
  rcases hrecord with hrecord | hrecord
  · exact List.ne_nil_of_mem hrecord
  · have hmem := sourceEventId_mem_of_mem_extractFrom hrecord
    rw [hsource] at hmem
    exact absurd hmem h.notMem_rest

/-- The first pass takes a step and the second one follows in some way. -/
theorem advance (h : Aligned readings wholeIds keptIds current first second (event :: rest))
    (hstarts : ∀ later ∈ rest, later.kind = .toolCallFinished → current later.eventId = true →
      next.started.filter (startMatches later) =
        (extractStep readings wholeIds first event).2.started.filter (startMatches later))
    (hjobs : next.terminalJobs ⊆ (extractStep readings wholeIds first event).2.terminalJobs) :
    Aligned readings wholeIds keptIds current (extractStep readings wholeIds first event).2 next
      rest where
  eventIds := by
    have hids := h.eventIds
    exact (List.nodup_cons.mp hids).2
  callsApart := (List.pairwise_cons.mp h.callsApart).2
  produced := by
    intro later hlater hcurrent
    obtain ⟨record, hrecord, hsource⟩ := h.produced later (List.mem_cons_of_mem _ hlater) hcurrent
    simp only [extractFrom, List.mem_append] at hrecord
    rcases hrecord with hrecord | hrecord
    · have hsame := sourceEventId_of_mem_extractStep hrecord
      have hmem : event.eventId ∈ rest.map SessionEvent.eventId :=
        List.mem_map.mpr ⟨later, hlater, by rw [← hsource, hsame]⟩
      exact absurd hmem h.notMem_rest
    · exact ⟨record, hrecord, hsource⟩
  canonical := fun later hlater ↦ h.canonical later (List.mem_cons_of_mem _ hlater)
  starts := hstarts
  jobs := hjobs

/-- Both passes put a start on their list. -/
theorem start (h : Aligned readings wholeIds keptIds current first second (event :: rest))
    (hkind : event.kind = .toolCallStarted) :
    Aligned readings wholeIds keptIds current (extractStep readings wholeIds first event).2
      (extractStep readings keptIds second event).2 rest := by
  refine h.advance ?_ ?_
  · intro later hlater hfinish hcurrent
    rw [extractStep_of_start hkind, extractStep_of_start hkind]
    simp only [List.filter_append]
    rw [h.starts later (List.mem_cons_of_mem _ hlater) hfinish hcurrent]
  · rw [extractStep_of_start hkind, extractStep_of_start hkind]
    exact h.jobs

/-- Both passes read a validation from a current event, the same one. -/
theorem read (h : Aligned readings wholeIds keptIds current first second (event :: rest))
    (hkind : event.kind ≠ .toolCallStarted) (hcurrent : current event.eventId = true) :
    (extractStep readings keptIds second event).1 = (extractStep readings wholeIds first event).1 ∧
      Aligned readings wholeIds keptIds current (extractStep readings wholeIds first event).2
        (extractStep readings keptIds second event).2 rest := by
  have hproduced := h.step_ne_nil hcurrent
  obtain ⟨hsame, hjobs⟩ := extractStep_of_current hproduced
    (fun hfinish ↦ (h.canonical event List.mem_cons_self hfinish hcurrent).1)
    (fun hfinish ↦ by rw [← List.head?_filter, ← List.head?_filter,
      h.starts event List.mem_cons_self hfinish hcurrent]) h.jobs
  refine ⟨hsame, h.advance ?_ hjobs⟩
  intro later hlater hfinish hlaterCurrent
  have hmem := List.mem_cons_of_mem event hlater
  have hcall := (h.canonical later hmem hfinish hlaterCurrent).2
  by_cases hshared : event.kind = .toolCallFinished ∧ event.callId = later.callId
  · rw [filter_started_of_ne_nil hshared.1 hcall hshared.2 (by rw [hsame]; exact hproduced),
      filter_started_of_ne_nil hshared.1 hcall hshared.2 hproduced,
      h.starts later hmem hfinish hlaterCurrent]
  · have hapart := fun hkindFinish hcallSame ↦ hshared ⟨hkindFinish, hcallSame⟩
    rw [filter_started_extractStep hkind hcall hapart,
      filter_started_extractStep hkind hcall hapart, h.starts later hmem hfinish hlaterCurrent]

/-- The second pass does not see the event. -/
theorem skip (h : Aligned readings wholeIds keptIds current first second (event :: rest))
    (hkind : event.kind ≠ .toolCallStarted) (hcurrent : current event.eventId = false) :
    Aligned readings wholeIds keptIds current (extractStep readings wholeIds first event).2 second
      rest := by
  obtain ⟨-, hjobs⟩ := extractStep_pass readings wholeIds first hkind
  refine h.advance ?_ (fun _ hmem ↦ hjobs (h.jobs hmem))
  intro later hlater hfinish hlaterCurrent
  have hmem := List.mem_cons_of_mem event hlater
  rw [filter_started_extractStep hkind (h.canonical later hmem hfinish hlaterCurrent).2
    fun hkindFinish ↦ (List.pairwise_cons.mp h.callsApart).1 later hlater hkindFinish hfinish
      hcurrent hlaterCurrent]
  exact h.starts later hmem hfinish hlaterCurrent

end Aligned

/-- What a step adds is current when its event is. -/
theorem filter_extractStep (pass : Pass D) (event : SessionEvent D) :
    (extractStep readings wholeIds pass event).1.filter
    (fun record ↦ current record.sourceEventId) =
      if current event.eventId then (extractStep readings wholeIds pass event).1 else [] := by
  by_cases hcurrent : current event.eventId = true
  · rw [if_pos hcurrent]
    refine List.filter_eq_self.mpr fun record hrecord ↦ ?_
    rw [sourceEventId_of_mem_extractStep hrecord]
    exact hcurrent
  · rw [if_neg hcurrent]
    refine List.filter_eq_nil_iff.mpr fun record hrecord ↦ ?_
    rw [sourceEventId_of_mem_extractStep hrecord]
    exact hcurrent

/-- The second pass reads the current validations of the first. -/
theorem extractFrom_filter {events : List (SessionEvent D)} {first second : Pass D}
    (h : Aligned readings wholeIds keptIds current first second events) :
    extractFrom readings keptIds second (events.filter (SessionEvent.isKept current)) =
      (extractFrom readings wholeIds first events).filter fun record ↦
        current record.sourceEventId := by
  induction events generalizing first second with
  | nil => rfl
  | cons event _ ih =>
    simp only [extractFrom, List.filter_append, filter_extractStep]
    by_cases hkind : event.kind = .toolCallStarted
    · have hkeep : event.isKept current = true := by simp [SessionEvent.isKept, hkind]
      rw [List.filter_cons_of_pos hkeep]
      simp only [extractFrom]
      rw [ih (h.start hkind)]
      simp [extractStep_of_start hkind]
    · by_cases hcurrent : current event.eventId = true
      · have hkeep : event.isKept current = true := by simp [SessionEvent.isKept, hcurrent]
        obtain ⟨hsame, haligned⟩ := h.read hkind hcurrent
        rw [List.filter_cons_of_pos hkeep, if_pos hcurrent]
        simp only [extractFrom]
        rw [hsame, ih haligned]
      · have hdrop : ¬ event.isKept current = true := by
          simp [SessionEvent.isKept, hkind, hcurrent]
        rw [List.filter_cons_of_neg hdrop, if_neg hcurrent, List.nil_append]
        exact ih (h.skip hkind (Bool.eq_false_iff.mpr hcurrent))

end SecondPass

end WebCodex.Validation
