import WebCodex.WorkflowSession.BoardInvariant
import WebCodex.WorkflowSession.ContextCheckpoints

/-!
The revisions of the checkpoints in a ledger are the last ones that were given out, and the
context revision is the last of all (`KeepsContext`). Every operation keeps this. So checkpoint
results count up from one, and a call is handed exactly the checkpoints after the one that it
acknowledges, or is told that some are gone (`context_recovery_is_complete`).
-/

namespace WebCodex.WorkflowSession

open Foundation.Text Foundation.Numbering

variable {C : Type}

/-! ### Runs -/

/-- The operations on one session. Events of other kinds and the starts of calls are pushed, results
for the model go through the context. -/
inductive SessionOperation (C : Type)
  | pushEvent (now : ℤ) (suffix : Str) (timestamp : ℤ) (content : C)
  | amendEvent (now : Option ℤ) (isAmended : SessionEvent C → Bool) (amend : C → C)
  | mutateOther (updatedAt : ℤ)
  | close (now : ℤ) (suffix : Str) (content : C)
  | pushModelFacing (suffix : Str) (timestamp : ℤ) (content : C) (start : ToolCallStart)
  | restart (maxEvents : ℕ)

/-- One session of a store, with the bound of its ledger. A session that cannot be restored is
gone. -/
structure SessionState (C : Type) where
  maxEvents : ℕ
  stored : Option (StoredSession C)

/-- One operation, and what it reports for the model. -/
def SessionOperation.apply (tidy : C → C) (sessionId : Str) (operation : SessionOperation C)
    (state : SessionState C) : SessionState C × Option (RecordedModelFacingToolCall C) :=
  match state.stored with
  | none => (state, none)
  | some stored =>
    match operation with
    | .pushEvent now suffix timestamp content =>
      let event := newEvent sessionId suffix timestamp content
      (⟨state.maxEvents, some (stored.pushEvent tidy state.maxEvents now event)⟩, none)
    | .amendEvent now isAmended amend =>
      (⟨state.maxEvents, some (stored.amendEvent tidy state.maxEvents now isAmended amend)⟩, none)
    | .mutateOther updatedAt =>
      (⟨state.maxEvents, some (stored.mutateOther tidy state.maxEvents updatedAt)⟩, none)
    | .close now suffix content =>
      let event := newEvent sessionId suffix now content
      (⟨state.maxEvents, some (stored.close state.maxEvents now event)⟩, none)
    | .pushModelFacing suffix timestamp content start =>
      let event := newEvent sessionId suffix timestamp content
      match stored.pushModelFacing tidy state.maxEvents event start with
      | some (recorded, next) => (⟨state.maxEvents, some next⟩, some recorded)
      | none => (state, none)
    | .restart maxEvents => (⟨maxEvents, stored.restart tidy state.maxEvents maxEvents⟩, none)

/-- A run, with the results that it recorded for the model. -/
def runOperations (tidy : C → C) (sessionId : Str) (state : SessionState C) :
    List (SessionOperation C) → SessionState C × List (RecordedModelFacingToolCall C)
  | [] => (state, [])
  | operation :: rest =>
    let (next, recorded) := operation.apply tidy sessionId state
    let (last, results) := runOperations tidy sessionId next rest
    (last, recorded.toList ++ results)

def openedSession (sessionId authority : Str) (maxEvents : ℕ) (now : ℤ) : SessionState C where
  maxEvents := maxEvents
  stored := some (.hot
    { sessionId := sessionId
      ownerAuthorityFingerprint := authority
      lifecycle := .active
      createdAt := now
      updatedAt := now
      events := []
      eventsObserved := 0
      contextRevision := 0 })

/-- The revisions that were given to checkpoint results. -/
def issuedRevisions (results : List (RecordedModelFacingToolCall C)) : List ℕ :=
  (results.filter RecordedModelFacingToolCall.checkpointAdvanced).map
    RecordedModelFacingToolCall.contextRevision

/-! ### Records that keep their context -/

/-- The events were written by this session, the ledger keeps its bound, and the checkpoints in it
are the last ones. -/
structure KeepsContext (sessionId : Str) (maxEvents : ℕ) (record : SessionRecord C) : Prop where
  session : record.sessionId = sessionId
  own : ∀ event ∈ record.events, event.sessionId = sessionId ∧
    eventIdPrefix.isPrefixOf event.eventId = true
  retained : IsRetained SessionEvent.contextRevision record.contextRevision record.events
  bounded : record.events.length ≤ maxEvents

/-- A cold session has a known authority besides. -/
def StoredSession.KeepsContext (sessionId : Str) (maxEvents : ℕ) : StoredSession C → Prop
  | .hot record => WorkflowSession.KeepsContext sessionId maxEvents record
  | .cold persisted => WorkflowSession.KeepsContext sessionId maxEvents persisted ∧
      isLowerHexSha256 persisted.ownerAuthorityFingerprint = true

def tidied (tidy : C → C) (events : List (SessionEvent C)) : List (SessionEvent C) :=
  events.map fun event ↦ { event with content := tidy event.content }

/-- The events that a session holds, as they are read: those of a cold one are sanitised. -/
def StoredSession.retainedEvents (tidy : C → C) : StoredSession C → List (SessionEvent C)
  | .hot record => record.events
  | .cold persisted => tidied tidy persisted.events

variable {events : List (SessionEvent C)} {tidy : C → C} {start : ToolCallStart}

section Records

variable {sessionId : Str} {maxEvents : ℕ} {record : SessionRecord C}

theorem retainedContextRevision_le {last : ℕ}
    (h : IsRetained SessionEvent.contextRevision last events) :
    retainedContextRevision events ≤ last := by
  unfold retainedContextRevision
  cases hmax : (events.filterMap SessionEvent.contextRevision).max? with
  | none => exact Nat.zero_le _
  | some => exact (h.mem_le (List.max?_mem hmax)).2

/-- Sanitising drops no event of the session. -/
theorem filterMap_sanitize
    (h : ∀ event ∈ events, event.sessionId = sessionId ∧
      eventIdPrefix.isPrefixOf event.eventId = true) :
    events.filterMap (sanitizePersistedEvent tidy sessionId) = tidied tidy events := by
  rw [tidied, ← List.filterMap_eq_map]
  refine List.filterMap_congr fun event hevent ↦ ?_
  simp [sanitizePersistedEvent, (h event hevent).1, (h event hevent).2]

theorem numbers_tidied (events : List (SessionEvent C)) :
    numbers SessionEvent.contextRevision (tidied tidy events) =
      numbers SessionEvent.contextRevision events := by
  unfold numbers tidied
  rw [List.filterMap_map]
  rfl

namespace KeepsContext

theorem push (h : KeepsContext sessionId maxEvents record) (suffix : Str) (timestamp : ℤ)
    (content : C) :
    KeepsContext sessionId maxEvents
      (record.pushBack maxEvents (newEvent sessionId suffix timestamp content)) := by
  refine ⟨h.session, ?_, (h.retained.push_none rfl).drop _, length_newest_le _⟩
  intro event hevent
  rcases List.mem_append.mp (List.mem_of_mem_drop hevent) with hold | hnew
  · exact h.own event hold
  · obtain rfl := List.mem_singleton.mp hnew
    exact ⟨rfl, by simp [newEvent]⟩

/-- Changes of fields that the context does not depend on. -/
theorem of_eq {other : SessionRecord C} (h : KeepsContext sessionId maxEvents record)
    (hsession : other.sessionId = record.sessionId) (hevents : other.events = record.events)
    (hrevision : other.contextRevision = record.contextRevision) :
    KeepsContext sessionId maxEvents other := by
  refine ⟨hsession.trans h.session, ?_, ?_, ?_⟩
  · rw [hevents]
    exact h.own
  · rw [hevents, hrevision]
    exact h.retained
  · rw [hevents]
    exact h.bounded

/-- A record in its persisted form is the record. -/
theorem persisted_eq (h : KeepsContext sessionId maxEvents record) :
    record.persisted maxEvents = record := by
  unfold SessionRecord.persisted
  rw [newest_eq_self h.bounded]

theorem tidied_newest (h : KeepsContext sessionId maxEvents record) (tidy : C → C)
    (newMaxEvents : ℕ) :
    IsRetained SessionEvent.contextRevision record.contextRevision
      (newest newMaxEvents (tidied tidy record.events)) :=
  (h.retained.congr (numbers_tidied record.events)).drop _

/-- A persisted record with a known authority is restored with all its newest events. -/
theorem intoRecord_eq (h : KeepsContext sessionId maxEvents record) (tidy : C → C)
    (hsession : isValidSessionId sessionId = true) (newMaxEvents : ℕ) :
    PersistedSessionRecord.intoRecord tidy newMaxEvents record =
      if isLowerHexSha256 record.ownerAuthorityFingerprint = false then none
      else some { record with
        updatedAt := max record.updatedAt record.createdAt
        events := newest newMaxEvents (tidied tidy record.events)
        eventsObserved := max record.eventsObserved
          (newest newMaxEvents (tidied tidy record.events)).length } := by
  have hrevision := max_eq_left (retainedContextRevision_le (h.tidied_newest tidy newMaxEvents))
  simp [PersistedSessionRecord.intoRecord, h.session, trim_of_isValidSessionId hsession, hsession,
    filterMap_sanitize h.own, hrevision]

/-- The restored record keeps its context. -/
theorem restored (h : KeepsContext sessionId maxEvents record)
    (hsession : isValidSessionId sessionId = true) {newMaxEvents : ℕ} {next : SessionRecord C}
    (hnext : PersistedSessionRecord.intoRecord tidy newMaxEvents record = some next) :
    KeepsContext sessionId newMaxEvents next ∧ next.contextRevision = record.contextRevision ∧
      isLowerHexSha256 next.ownerAuthorityFingerprint = true ∧
      next.events = newest newMaxEvents (tidied tidy record.events) := by
  rw [h.intoRecord_eq tidy hsession] at hnext
  split_ifs at hnext with hauthority
  obtain rfl := Option.some.inj hnext
  refine ⟨⟨h.session, ?_, h.tidied_newest tidy newMaxEvents, length_newest_le _⟩, rfl, ?_, rfl⟩
  · intro _ hevent
    obtain ⟨source, hsource, rfl⟩ := List.mem_map.mp (List.mem_of_mem_drop hevent)
    exact h.own source hsource
  · simpa using hauthority

end KeepsContext

/-- What a result for the model changes: a checkpoint takes the next revision, and nothing else
moves it. -/
theorem pushModelFacing_keeps {suffix : Str} {timestamp : ℤ} {content : C}
    {recorded : RecordedModelFacingToolCall C} {next : SessionRecord C}
    (h : KeepsContext sessionId maxEvents record)
    (hpush : record.pushModelFacing maxEvents (newEvent sessionId suffix timestamp content) start =
      some (recorded, next)) :
    KeepsContext sessionId maxEvents next ∧
      next.ownerAuthorityFingerprint = record.ownerAuthorityFingerprint ∧
      recorded.checkpointAdvanced = start.advancesContextCheckpoint ∧
      recorded.contextRevision = next.contextRevision ∧
      next.contextRevision =
        record.contextRevision + if start.advancesContextCheckpoint then 1 else 0 := by
  have hown : ∀ (event : SessionEvent C), event.sessionId = sessionId →
      eventIdPrefix.isPrefixOf event.eventId = true →
      ∀ other ∈ newest maxEvents (record.events ++ [event]), other.sessionId = sessionId ∧
        eventIdPrefix.isPrefixOf other.eventId = true := by
    intro event hsession hid other hother
    rcases List.mem_append.mp (List.mem_of_mem_drop hother) with hold | hnew
    · exact h.own other hold
    · obtain rfl := List.mem_singleton.mp hnew
      exact ⟨hsession, hid⟩
  unfold SessionRecord.pushModelFacing at hpush
  split_ifs at hpush with hpast hadvances
  · simp only [checkedSucc, bind, Option.bind_eq_some_iff, Option.some.injEq,
      Prod.mk.injEq] at hpush
    obtain ⟨_, hrevision, rfl, rfl⟩ := hpush
    split_ifs at hrevision
    obtain rfl := Option.some.inj hrevision
    refine ⟨⟨h.session, hown _ rfl (by simp [newEvent]), ?_, length_newest_le _⟩, rfl, rfl,
      rfl, by simp [SessionRecord.pushBack, hadvances]⟩
    exact (h.retained.push_next rfl).drop _
  · simp only [bind, Option.bind_some, Option.some.injEq, Prod.mk.injEq] at hpush
    obtain ⟨rfl, rfl⟩ := hpush
    refine ⟨⟨h.session, hown _ rfl (by simp [newEvent]), ?_, length_newest_le _⟩, rfl, rfl,
      rfl, by simp [SessionRecord.pushBack, hadvances]⟩
    exact (h.retained.push_none rfl).drop _

end Records

/-! ### Stored sessions -/

namespace StoredSession

variable {sessionId : Str} {maxEvents : ℕ} {stored : StoredSession C} {record : SessionRecord C}

/-- The session keeps its context, and its revision is still the same. -/
def Keeps (sessionId : Str) (maxEvents revision : ℕ) (stored : StoredSession C) : Prop :=
  stored.KeepsContext sessionId maxEvents ∧ stored.contextRevision = revision

theorem coldSession_keeps {persisted : PersistedSessionRecord C} {cold : StoredSession C}
    (h : WorkflowSession.KeepsContext sessionId maxEvents persisted)
    (hcold : coldSessionFromPersisted persisted = some cold) :
    cold.Keeps sessionId maxEvents persisted.contextRevision := by
  unfold coldSessionFromPersisted at hcold
  split_ifs at hcold with hauthority
  obtain rfl := Option.some.inj hcold
  exact ⟨⟨h, hauthority⟩, rfl⟩

theorem coldify_keeps (h : WorkflowSession.KeepsContext sessionId maxEvents record) :
    ((hot record).coldify maxEvents).Keeps sessionId maxEvents record.contextRevision := by
  simp only [coldify]
  split_ifs
  · exact ⟨h, rfl⟩
  · rw [h.persisted_eq]
    cases hcold : coldSessionFromPersisted record with
    | none => exact ⟨h, rfl⟩
    | some => exact coldSession_keeps h hcold

/-- A change that keeps the context of records keeps that of the session, hot or cold. -/
theorem change_keeps {mutate : SessionRecord C → Option (SessionRecord C)}
    (hsession : isValidSessionId sessionId = true) (h : stored.KeepsContext sessionId maxEvents)
    (hmutate : ∀ record next, WorkflowSession.KeepsContext sessionId maxEvents record →
      mutate record = some next → WorkflowSession.KeepsContext sessionId maxEvents next ∧
        next.contextRevision = record.contextRevision) :
    (stored.change tidy maxEvents mutate).Keeps sessionId maxEvents stored.contextRevision := by
  cases stored with
  | hot record =>
    simp only [change]
    cases hnext : mutate record with
    | none => exact ⟨h, rfl⟩
    | some next =>
      obtain ⟨hkeeps, hrevision⟩ := hmutate record next h hnext
      have hcold := coldify_keeps hkeeps
      rwa [hrevision] at hcold
  | cold persisted =>
    simp only [change, rewriteCold]
    cases hrewritten : (do
        let record ← PersistedSessionRecord.intoRecord tidy maxEvents persisted
        let next ← mutate record
        coldSessionFromPersisted (next.persisted maxEvents)) with
    | none => exact ⟨h, rfl⟩
    | some rewritten =>
      simp only [bind, Option.bind_eq_some_iff] at hrewritten
      obtain ⟨record, hrecord, next, hnext, hcold⟩ := hrewritten
      obtain ⟨hkeeps, hrevision, -, -⟩ := h.1.restored hsession hrecord
      obtain ⟨hkeeps, hsame⟩ := hmutate record next hkeeps hnext
      rw [hkeeps.persisted_eq] at hcold
      have hresult := coldSession_keeps hkeeps hcold
      rwa [hsame, hrevision] at hresult

theorem pushEvent_keeps (hsession : isValidSessionId sessionId = true)
    (h : stored.KeepsContext sessionId maxEvents) (now : ℤ) (suffix : Str) (timestamp : ℤ)
    (content : C) :
    (stored.pushEvent tidy maxEvents now (newEvent sessionId suffix timestamp content)).Keeps
      sessionId maxEvents stored.contextRevision := by
  refine change_keeps hsession h fun _ _ hkeeps hnext ↦ ?_
  obtain rfl := Option.some.inj hnext
  refine ⟨WorkflowSession.KeepsContext.push ?_ suffix timestamp content, rfl⟩
  exact hkeeps.of_eq rfl rfl rfl

theorem mutateOther_keeps (hsession : isValidSessionId sessionId = true)
    (h : stored.KeepsContext sessionId maxEvents) (updatedAt : ℤ) :
    (stored.mutateOther tidy maxEvents updatedAt).Keeps sessionId maxEvents
      stored.contextRevision := by
  refine change_keeps hsession h fun _ _ hkeeps hnext ↦ ?_
  obtain rfl := Option.some.inj hnext
  exact ⟨hkeeps.of_eq rfl rfl rfl, rfl⟩

/-- An amended ledger has the ids and the revisions of the ledger before. -/
theorem map_amended {B : Type} {view : SessionEvent C → B} {isAmended : SessionEvent C → Bool}
    {amend : C → C}
    (hview : ∀ event : SessionEvent C, view { event with content := amend event.content } =
      view event)
    (events : List (SessionEvent C)) :
    ((updateFirst isAmended (fun event ↦ { event with content := amend event.content })
      events.reverse).reverse).map view = events.map view := by
  rw [List.map_reverse, map_updateFirst hview, List.map_reverse, List.reverse_reverse]

theorem amendEvent_keeps (hsession : isValidSessionId sessionId = true)
    (h : stored.KeepsContext sessionId maxEvents) (now : Option ℤ)
    (isAmended : SessionEvent C → Bool)
    (amend : C → C) :
    (stored.amendEvent tidy maxEvents now isAmended amend).Keeps sessionId maxEvents
      stored.contextRevision := by
  refine change_keeps hsession h fun record _ hkeeps hnext ↦ ?_
  split_ifs at hnext
  obtain rfl := Option.some.inj hnext
  refine ⟨⟨hkeeps.session, ?_, ?_, ?_⟩, rfl⟩
  · let ids : SessionEvent C → Str × Str := fun event ↦ (event.sessionId, event.eventId)
    have hview : ∀ event : SessionEvent C,
        ids { event with content := amend event.content } = ids event := fun _ ↦ rfl
    intro event hevent
    have hmem := List.mem_map_of_mem (f := ids) hevent
    rw [map_amended hview] at hmem
    obtain ⟨source, hsource, hsame⟩ := List.mem_map.mp hmem
    obtain ⟨hsameSession, hsameId⟩ := Prod.mk.inj hsame
    rw [← hsameSession, ← hsameId]
    exact hkeeps.own source hsource
  · exact hkeeps.retained.congr (numbers_of_map_eq (map_amended (fun _ ↦ rfl) record.events))
  · simpa using hkeeps.bounded

theorem close_keeps (h : stored.KeepsContext sessionId maxEvents) (now : ℤ) (suffix : Str)
    (content : C) :
    (stored.close maxEvents now (newEvent sessionId suffix now content)).Keeps sessionId maxEvents
      stored.contextRevision := by
  cases stored with
  | hot =>
    simp only [close]
    split_ifs
    · refine coldify_keeps (WorkflowSession.KeepsContext.push ?_ suffix now content)
      exact WorkflowSession.KeepsContext.of_eq h rfl rfl rfl
    · exact coldify_keeps h
  | cold => exact ⟨h, rfl⟩

/-- A restored record is held hot or cold. -/
theorem restored_keeps {next : StoredSession C}
    (h : WorkflowSession.KeepsContext sessionId maxEvents record)
    (hnext : (if record.lifecycle.allowsMutation then some (hot record)
      else (coldSessionFromPersisted (record.persisted maxEvents)).or (some (hot record))) =
        some next) : next.Keeps sessionId maxEvents record.contextRevision := by
  split_ifs at hnext
  · obtain rfl := Option.some.inj hnext
    exact ⟨h, rfl⟩
  · rw [h.persisted_eq] at hnext
    rcases Option.or_eq_some_iff.mp hnext with hcold | ⟨-, hhot⟩
    · exact coldSession_keeps h hcold
    · obtain rfl := Option.some.inj hhot
      exact ⟨h, rfl⟩

theorem restart_keeps {newMaxEvents : ℕ} {next : StoredSession C}
    (hsession : isValidSessionId sessionId = true) (h : stored.KeepsContext sessionId maxEvents)
    (hnext : stored.restart tidy maxEvents newMaxEvents = some next) :
    next.Keeps sessionId newMaxEvents stored.contextRevision := by
  cases stored with
  | hot =>
    simp only [restart, WorkflowSession.KeepsContext.persisted_eq h, bind,
      Option.bind_eq_some_iff] at hnext
    obtain ⟨restored, hrestored, hnext⟩ := hnext
    obtain ⟨hkeeps, hrevision, -, -⟩ := WorkflowSession.KeepsContext.restored h hsession hrestored
    have hheld := restored_keeps hkeeps hnext
    rwa [hrevision] at hheld
  | cold =>
    simp only [restart, bind, Option.bind_eq_some_iff] at hnext
    obtain ⟨restored, hrestored, hnext⟩ := hnext
    obtain ⟨hkeeps, hrevision, -, -⟩ := h.1.restored hsession hrestored
    have hheld := restored_keeps hkeeps hnext
    rwa [hrevision] at hheld

/-- The record in the form in which the session is held. -/
def rewrap : StoredSession C → SessionRecord C → StoredSession C
  | hot _, next => hot next
  | cold _, next => cold next

/-- A result for the model is recorded in a record with the revision and the events of the
session. -/
theorem exists_record (tidy : C → C) (hsession : isValidSessionId sessionId = true)
    (h : stored.KeepsContext sessionId maxEvents) :
    ∃ record : SessionRecord C, WorkflowSession.KeepsContext sessionId maxEvents record ∧
      record.contextRevision = stored.contextRevision ∧
      record.events = stored.retainedEvents tidy ∧
      (∀ next : SessionRecord C, WorkflowSession.KeepsContext sessionId maxEvents next →
        next.ownerAuthorityFingerprint = record.ownerAuthorityFingerprint →
        (stored.rewrap next).Keeps sessionId maxEvents next.contextRevision) ∧
      ∀ suffix timestamp content start,
        stored.pushModelFacing tidy maxEvents (newEvent sessionId suffix timestamp content) start =
          (record.pushModelFacing maxEvents (newEvent sessionId suffix timestamp content)
            start).map fun result ↦ (result.1, stored.rewrap result.2) := by
  cases stored with
  | hot record =>
    refine ⟨record, h, rfl, rfl, fun next hnext _ ↦ ⟨hnext, rfl⟩,
      fun suffix timestamp content start ↦ ?_⟩
    simp only [pushModelFacing, rewrap]
    cases record.pushModelFacing maxEvents (newEvent sessionId suffix timestamp content) start with
    | none | some => rfl
  | cold persisted =>
    obtain ⟨hpersisted, hauthority⟩ := h
    have hinto := hpersisted.intoRecord_eq tidy hsession maxEvents
    rw [if_neg (by simp [hauthority])] at hinto
    obtain ⟨hkeeps, hrevision, -, _⟩ := hpersisted.restored hsession hinto
    have hlength : (tidied tidy persisted.events).length ≤ maxEvents := by
      simpa [tidied] using hpersisted.bounded
    refine ⟨_, hkeeps, hrevision, newest_eq_self hlength,
      fun next hnext howner ↦ ⟨⟨hnext, howner ▸ hauthority⟩, rfl⟩,
      fun suffix timestamp content start ↦ ?_⟩
    simp only [pushModelFacing, hinto, rewrap, bind, Option.bind_some]
    generalize hrecord : ({ persisted with
      updatedAt := _, events := _, eventsObserved := _ } : SessionRecord C) = record at hkeeps
    have hauthority' : isLowerHexSha256 record.ownerAuthorityFingerprint = true := by
      rw [← hrecord]
      exact hauthority
    cases hpush : record.pushModelFacing maxEvents (newEvent sessionId suffix timestamp content)
      start with
    | none => rfl
    | some result =>
      obtain ⟨_, next⟩ := result
      obtain ⟨hnext, howner, -⟩ := pushModelFacing_keeps hkeeps hpush
      simp [hnext.persisted_eq, coldSessionFromPersisted, howner, hauthority']

end StoredSession

/-! ### Steps and runs -/

section Runs

variable {tidy : C → C} {sessionId : Str} {state : SessionState C}

def SessionState.Keeps (sessionId : Str) (state : SessionState C) : Prop :=
  ∀ stored, state.stored = some stored → stored.KeepsContext sessionId state.maxEvents

/-- The revisions issued from a session on count up from its own, and its own is the last of
them. -/
def Counts (state next : SessionState C) (results : List (RecordedModelFacingToolCall C)) : Prop :=
  ∀ stored, state.stored = some stored → issuedRevisions results =
        List.range' (stored.contextRevision + 1) (issuedRevisions results).length ∧
      ∀ last, next.stored = some last →
        last.contextRevision = stored.contextRevision + (issuedRevisions results).length

theorem issuedRevisions_append (results more : List (RecordedModelFacingToolCall C)) :
    issuedRevisions (results ++ more) = issuedRevisions results ++ issuedRevisions more := by
  simp [issuedRevisions]

/-- Operations that record no result. -/
theorem counts_of_keeps {next : SessionState C}
    (h : ∀ stored last, state.stored = some stored → next.stored = some last →
      last.Keeps sessionId next.maxEvents stored.contextRevision)
    (hsome : ∀ last, next.stored = some last → state.stored.isSome) :
    next.Keeps sessionId ∧ Counts state next [] := by
  constructor
  · intro last hlast
    obtain ⟨stored, hstored⟩ := Option.isSome_iff_exists.mp (hsome last hlast)
    exact (h stored last hstored hlast).1
  · intro stored hstored
    exact ⟨rfl, fun last hlast ↦ (h stored last hstored hlast).2⟩

theorem apply_keeps (hsession : isValidSessionId sessionId = true) (h : state.Keeps sessionId)
    (operation : SessionOperation C) :
    (operation.apply tidy sessionId state).1.Keeps sessionId ∧
      Counts state (operation.apply tidy sessionId state).1
        (operation.apply tidy sessionId state).2.toList := by
  unfold SessionOperation.apply
  cases hstored : state.stored with
  | none => exact ⟨h, fun stored hsome ↦ absurd (hsome.symm.trans hstored) (by simp)⟩
  | some stored =>
    have hkeeps := h stored hstored
    have hquiet : ∀ (maxEvents : ℕ) (next : Option (StoredSession C)),
        (∀ last, next = some last → last.Keeps sessionId maxEvents stored.contextRevision) →
        SessionState.Keeps sessionId ⟨maxEvents, next⟩ ∧ Counts state ⟨maxEvents, next⟩ [] := by
      intro maxEvents next hnext
      refine counts_of_keeps (fun first last hfirst hlast ↦ ?_) fun last hlast ↦ by simp [hstored]
      obtain rfl := Option.some.inj (hstored.symm.trans hfirst)
      exact hnext last hlast
    cases operation with
    | pushEvent now suffix timestamp content =>
      refine hquiet _ _ fun last hlast ↦ ?_
      obtain rfl := Option.some.inj hlast
      exact StoredSession.pushEvent_keeps hsession hkeeps now suffix timestamp content
    | amendEvent now isAmended amend =>
      refine hquiet _ _ fun last hlast ↦ ?_
      obtain rfl := Option.some.inj hlast
      exact StoredSession.amendEvent_keeps hsession hkeeps now isAmended amend
    | mutateOther updatedAt =>
      refine hquiet _ _ fun last hlast ↦ ?_
      obtain rfl := Option.some.inj hlast
      exact StoredSession.mutateOther_keeps hsession hkeeps updatedAt
    | close now suffix content =>
      refine hquiet _ _ fun last hlast ↦ ?_
      obtain rfl := Option.some.inj hlast
      exact StoredSession.close_keeps hkeeps now suffix content
    | restart =>
      exact hquiet _ _ fun last hlast ↦ StoredSession.restart_keeps hsession hkeeps hlast
    | pushModelFacing suffix timestamp content start =>
      obtain ⟨record, hrecord, hrevision, -, hrewrap, hpush⟩ :=
        StoredSession.exists_record tidy hsession hkeeps
      simp only [hpush]
      cases hresult : record.pushModelFacing state.maxEvents
        (newEvent sessionId suffix timestamp content) start with
      | none =>
        refine ⟨h, fun first hfirst ↦ ⟨rfl, fun last hlast ↦ ?_⟩⟩
        obtain rfl := Option.some.inj (hfirst.symm.trans hlast)
        rfl
      | some result =>
        obtain ⟨recorded, next⟩ := result
        obtain ⟨hnext, howner, hadvanced, hsame, hcount⟩ := pushModelFacing_keeps hrecord hresult
        obtain ⟨hkept, hheld⟩ := hrewrap next hnext howner
        refine ⟨?_, fun first hfirst ↦ ?_⟩
        · intro last hlast
          obtain rfl := Option.some.inj hlast
          exact hkept
        · obtain rfl := Option.some.inj (hstored.symm.trans hfirst)
          have hissued : issuedRevisions [recorded] =
              if start.advancesContextCheckpoint then [stored.contextRevision + 1] else [] := by
            simp only [issuedRevisions, List.filter_singleton, hadvanced]
            by_cases hadvances : start.advancesContextCheckpoint = true
            · simp [hadvances, hsame, hcount, hrevision]
            · simp [hadvances]
          simp only [Option.map_some, Option.toList_some, hissued]
          constructor
          · split_ifs <;> rfl
          · intro last hlast
            obtain rfl := Option.some.inj hlast
            rw [hheld, hcount, hrevision]
            split_ifs <;> rfl

theorem Counts.trans {middle next : SessionState C}
    {results more : List (RecordedModelFacingToolCall C)}
    (hfirst : Counts state middle results) (hsecond : Counts middle next more)
    (hlost : middle.stored = none → more = [] ∧ next.stored = none) :
    Counts state next (results ++ more) := by
  intro stored hstored
  obtain ⟨hissued, hlast⟩ := hfirst stored hstored
  rw [issuedRevisions_append, List.length_append]
  cases hmiddle : middle.stored with
  | none =>
    obtain ⟨rfl, hnone⟩ := hlost hmiddle
    refine ⟨by simpa [issuedRevisions] using hissued, fun last hsome ↦ ?_⟩
    rw [hnone] at hsome
    cases hsome
  | some held =>
    have hheld := hlast held hmiddle
    obtain ⟨hmore, hend⟩ := hsecond held hmiddle
    constructor
    · rw [hheld] at hmore
      conv_lhs => rw [hissued, hmore]
      rw [Nat.add_right_comm, List.range'_append_1]
    · intro last hsome
      rw [hend last hsome, hheld, Nat.add_assoc]

/-- Nothing happens to a session that is gone. -/
theorem runOperations_of_none (hnone : state.stored = none)
    (operations : List (SessionOperation C)) :
    runOperations tidy sessionId state operations = (state, []) := by
  induction operations with
  | nil => rfl
  | cons operation _ ih =>
    have hstep : operation.apply tidy sessionId state = (state, none) := by
      simp [SessionOperation.apply, hnone]
    simp [runOperations, hstep, ih]

theorem run_keeps (hsession : isValidSessionId sessionId = true) (h : state.Keeps sessionId)
    (operations : List (SessionOperation C)) :
    (runOperations tidy sessionId state operations).1.Keeps sessionId ∧
      Counts state (runOperations tidy sessionId state operations).1
        (runOperations tidy sessionId state operations).2 := by
  induction operations generalizing state with
  | nil =>
    refine ⟨h, fun stored hstored ↦ ⟨rfl, fun _ hlast ↦ ?_⟩⟩
    obtain rfl := Option.some.inj (hstored.symm.trans hlast)
    rfl
  | cons operation rest ih =>
    obtain ⟨hnext, hstep⟩ := apply_keeps hsession h operation
    obtain ⟨hlast, hrest⟩ := ih hnext
    refine ⟨hlast, hstep.trans hrest fun hnone ↦ ?_⟩
    have hgone : runOperations tidy sessionId (operation.apply tidy sessionId state).1 rest =
        ((operation.apply tidy sessionId state).1, []) := runOperations_of_none hnone rest
    exact ⟨congrArg Prod.snd hgone, (congrArg (fun run ↦ run.1.stored) hgone).trans hnone⟩

theorem runOperations_append (operations more : List (SessionOperation C)) :
    runOperations tidy sessionId state (operations ++ more) =
      ((runOperations tidy sessionId (runOperations tidy sessionId state operations).1 more).1,
        (runOperations tidy sessionId state operations).2 ++
          (runOperations tidy sessionId (runOperations tidy sessionId state operations).1
            more).2) := by
  induction operations generalizing state with
  | nil => rfl
  | cons _ _ ih => simp only [List.cons_append, runOperations, ih, List.append_assoc]

theorem openedSession_keeps (sessionId authority : Str) (maxEvents : ℕ) (now : ℤ) :
    (openedSession (C := C) sessionId authority maxEvents now).Keeps sessionId := by
  intro _ hstored
  obtain rfl := Option.some.inj hstored
  exact ⟨rfl, nofun, isRetained_nil, Nat.zero_le _⟩

/-- The caller has acknowledged a revision that it may know. -/
theorem provenRevision_eq {acknowledged : ℕ}
    (hack : start.ackSessionContextRevision = .revision acknowledged)
    (hle : acknowledged ≤ start.preCallContextRevision) :
    start.provenRevision = some acknowledged := by
  simp [ToolCallStart.provenRevision, hack, hle]

/-- What is recorded for a caller that has acknowledged a revision. -/
theorem exists_recorded {stored : StoredSession C} {maxEvents : ℕ}
    (hsession : isValidSessionId sessionId = true) (h : stored.KeepsContext sessionId maxEvents)
    {acknowledged : ℕ} (hpast : start.preCallContextRevision ≤ stored.contextRevision)
    (hroom : start.advancesContextCheckpoint = true → stored.contextRevision + 1 < 2 ^ 64)
    (hproven : start.provenRevision = some acknowledged) (suffix : Str) (timestamp : ℤ)
    (content : C) :
    ∃ recorded next, stored.pushModelFacing tidy maxEvents
        (newEvent sessionId suffix timestamp content) start = some (recorded, next) ∧
      recorded.preResponseContextRevision = stored.contextRevision ∧
      recorded.contextRevision =
        (stored.contextRevision + if start.advancesContextCheckpoint then 1 else 0) ∧
      recorded.recoveryEvents = between SessionEvent.contextRevision acknowledged
        stored.contextRevision (stored.retainedEvents tidy) ∧
      (recorded.historyLost = true ↔
        recorded.recoveryEvents.length < stored.contextRevision - acknowledged) := by
  obtain ⟨_, -, hrevision, hevents, -, hpush⟩ := StoredSession.exists_record tidy hsession h
  rw [← hrevision] at hpast hroom ⊢
  rw [← hevents]
  simp only [hpush, SessionRecord.pushModelFacing, if_neg (Nat.not_lt.mpr hpast), hproven]
  by_cases hadvances : start.advancesContextCheckpoint = true
  · simp only [hadvances, if_true, checkedSucc, hroom hadvances, bind, Option.bind_some,
      Option.map_some, Option.some.injEq, Prod.mk.injEq, Option.getD_some]
    exact ⟨_, _, ⟨rfl, rfl⟩, rfl, rfl, rfl, decide_eq_true_iff⟩
  · simp only [Bool.not_eq_true] at hadvances
    simp only [hadvances, Bool.false_eq_true, if_false, bind, Option.bind_some, Option.map_some,
      Option.some.injEq, Prod.mk.injEq, Option.getD_some]
    exact ⟨_, _, ⟨rfl, rfl⟩, rfl, rfl, rfl, decide_eq_true_iff⟩

end Runs

/-- The checkpoint results of a session have the revisions from one on. A call that starts after the
operations `before` and acknowledges a revision of that time, and whose result comes after the
operations `meanwhile`, is recorded with the revision before it, and with the next one when it is a
checkpoint. It is handed the checkpoints above the acknowledged revision that the session holds, in
the order of their revisions, and is told that history is lost exactly when the session has issued a
revision above the acknowledged one and no longer holds its event. -/
theorem context_recovery_is_complete (tidy : C → C) (sessionId authority : Str) (maxEvents : ℕ)
    (now : ℤ) (hsession : isValidSessionId sessionId = true)
    (before meanwhile : List (SessionOperation C)) :
    let start := openedSession sessionId authority maxEvents now
    let started := runOperations tidy sessionId start before
    let run := runOperations tidy sessionId start (before ++ meanwhile)
    issuedRevisions run.2 = List.range' 1 (issuedRevisions run.2).length ∧
    ∀ first stored, started.1.stored = some first → run.1.stored = some stored →
      stored.contextRevision = (issuedRevisions run.2).length ∧
      ∀ startedAt startEvent ack contract acknowledged suffix timestamp content,
        let call :=
          (recordToolCallStarted tidy started.1.maxEvents startedAt startEvent ack contract first).1
        call.ackSessionContextRevision = .revision acknowledged →
        acknowledged ≤ first.contextRevision →
        (call.advancesContextCheckpoint = true → stored.contextRevision + 1 < 2 ^ 64) →
        ∃ recorded next, stored.pushModelFacing tidy run.1.maxEvents
            (newEvent sessionId suffix timestamp content) call = some (recorded, next) ∧
          recorded.preResponseContextRevision = stored.contextRevision ∧
          recorded.contextRevision =
            (stored.contextRevision + if call.advancesContextCheckpoint then 1 else 0) ∧
          recorded.recoveryEvents = between SessionEvent.contextRevision acknowledged
            stored.contextRevision (stored.retainedEvents tidy) ∧
          (numbers SessionEvent.contextRevision recorded.recoveryEvents).Pairwise (· < ·) ∧
          (recorded.historyLost = true ↔ ∃ revision ∈ issuedRevisions run.2,
            acknowledged < revision ∧ ∀ event ∈ stored.retainedEvents tidy,
              event.contextRevision ≠ some revision) := by
  intro start started run
  have hopened : SessionState.Keeps sessionId start :=
    openedSession_keeps sessionId authority maxEvents now
  obtain ⟨hissued, hcount⟩ :
      issuedRevisions run.2 = List.range' 1 (issuedRevisions run.2).length ∧
        ∀ last, run.1.stored = some last →
          last.contextRevision = (issuedRevisions run.2).length := by
    have hcounts : Counts start run.1 run.2 :=
      (run_keeps hsession hopened (before ++ meanwhile)).2
    simpa only [StoredSession.contextRevision, Nat.zero_add] using hcounts _ rfl
  refine ⟨hissued, fun first stored hfirst hstored ↦ ?_⟩
  have hrevision : stored.contextRevision = (issuedRevisions run.2).length := hcount stored hstored
  refine ⟨hrevision, ?_⟩
  intro startedAt startEvent ack contract acknowledged suffix timestamp content call hack hle hroom
  have hkeeps : stored.KeepsContext sessionId run.1.maxEvents :=
    (run_keeps hsession hopened (before ++ meanwhile)).1 stored hstored
  -- The revision has not gone down since the call started.
  have hpast : call.preCallContextRevision ≤ stored.contextRevision := by
    have hstarted : SessionState.Keeps sessionId started.1 :=
      (run_keeps hsession hopened before).1
    have hsplit : run.1 = (runOperations tidy sessionId started.1 meanwhile).1 := by
      simp only [run, runOperations_append]
      rfl
    have hcounts : Counts started.1 (runOperations tidy sessionId started.1 meanwhile).1
        (runOperations tidy sessionId started.1 meanwhile).2 :=
      (run_keeps hsession hstarted meanwhile).2
    have hlater := (hcounts first hfirst).2 stored (hsplit ▸ hstored)
    exact hlater ▸ Nat.le_add_right _ _
  have hproven : call.provenRevision = some acknowledged := provenRevision_eq hack hle
  obtain ⟨recorded, next, hpush, hbefore, hafter, hrecovery, hlost⟩ :=
    exists_recorded hsession hkeeps hpast hroom hproven suffix timestamp content
  obtain ⟨_, hrecord, hsame, hevents, -⟩ := StoredSession.exists_record tidy hsession hkeeps
  have hretained : IsRetained SessionEvent.contextRevision stored.contextRevision
      (stored.retainedEvents tidy) := by
    rw [← hsame, ← hevents]
    exact hrecord.retained
  refine ⟨recorded, next, hpush, hbefore, hafter, hrecovery, ?_, ?_⟩
  · rw [hrecovery, numbers_between]
    exact hretained.pairwise_lt.filter _
  · rw [hlost, hrecovery, length_between_lt_iff hretained, hissued, ← hrevision]
    simp only [List.mem_range'_1]
    constructor
    · rintro ⟨revision, hlow, _, hleft⟩
      exact ⟨revision, by omega, hlow, hleft⟩
    · rintro ⟨revision, _, hlow, hleft⟩
      exact ⟨revision, hlow, by omega, hleft⟩

/-- With room for one event, a caller that knows no checkpoint is told of the second one only. -/
theorem crowded_ledger_loses_history :
    let checkpoint : SessionOperation Unit :=
      .pushModelFacing "1".toList 0 () ⟨0, true, .unsupported⟩
    let run := runOperations id "wc_sess_1".toList
      (openedSession "wc_sess_1".toList [] 1 0) [checkpoint, checkpoint]
    issuedRevisions run.2 = [1, 2] ∧ ∃ stored recorded next, run.1.stored = some stored ∧
      stored.pushModelFacing id 1 (newEvent "wc_sess_1".toList "2".toList 0 ())
        ⟨2, true, .revision 0⟩ = some (recorded, next) ∧
      numbers SessionEvent.contextRevision recorded.recoveryEvents = [2] ∧
      recorded.historyLost = true := by
  intro checkpoint run
  obtain ⟨hissued, hcalls⟩ := context_recovery_is_complete id "wc_sess_1".toList [] 1 0
    (by decide +kernel) [checkpoint, checkpoint] []
  obtain ⟨-, hcall⟩ := hcalls _ _ rfl rfl
  obtain ⟨recorded, next, hpush, -, -, hevents, -, hlost⟩ :=
    hcall 0 (newEvent "wc_sess_1".toList "2".toList 0 ()) (.revision 0)
      ⟨true, true⟩ 0 "2".toList 0 () rfl (by decide) (by decide)
  refine ⟨hissued, _, recorded, next, rfl, hpush, ?_, hlost.mpr ⟨1, by decide, by decide, ?_⟩⟩
  · rw [hevents]
    decide
  · decide

end WebCodex.WorkflowSession
