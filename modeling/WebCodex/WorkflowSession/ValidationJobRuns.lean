import WebCodex.WorkflowSession.Sanitized
import WebCodex.WorkflowSession.ValidationJobs

/-!
Turning a cold session back into a record and restoring it from the ledger file keep its marks,
because those were checked when they were set (`KeepsMarks`). So in every run in which an ended job
that the runner has dropped never comes back, the event of each job is appended once, at the first
valid call that names the project of the session (`validation_jobs_enter_once`).
-/

namespace WebCodex.WorkflowSession

open Foundation Foundation.Text

variable {C : Type}

/-! ### Runs -/

inductive MarkedOperation (C : Type)
  | record (call : ValidationJobTerminal C)
  | other (mutation : SessionMutation C)
  | close (now : ℤ) (suffix : Str) (content : C)
  | restart (maxEvents : ℕ)

/-- One session of a store, with the bound of its ledger. A session that cannot be restored is
gone. -/
structure MarkedState (C : Type) where
  maxEvents : ℕ
  stored : Option (StoredMarked C)

/-- The ended jobs that the runner keeps, as far as the operation says. -/
def MarkedOperation.snapshot : MarkedOperation C → Option (List Str)
  | record call => some call.retainedTerminalJobIds
  | _ => none

/-- One operation, and the job whose event it appended. -/
def MarkedOperation.apply (tidy : C → C) (sessionId : Str) (operation : MarkedOperation C)
    (state : MarkedState C) : MarkedState C × Option Str :=
  match state.stored with
  | none => (state, none)
  | some stored =>
    match operation with
    | .record call =>
      let (next, appended) := stored.recordValidationJobTerminal tidy state.maxEvents sessionId call
      (⟨state.maxEvents, some next⟩, if appended then some (trim call.jobId) else none)
    | .other mutation =>
      (⟨state.maxEvents, some (stored.mutateOther tidy state.maxEvents mutation)⟩, none)
    | .close now suffix content =>
      let event := newEvent sessionId suffix now content
      (⟨state.maxEvents, some (stored.close state.maxEvents now event)⟩, none)
    | .restart maxEvents => (⟨maxEvents, stored.restart tidy state.maxEvents maxEvents⟩, none)

/-- A run, with the jobs whose events it appended, one for each event. -/
def runMarked (tidy : C → C) (sessionId : Str) (state : MarkedState C) :
    List (MarkedOperation C) → MarkedState C × List Str
  | [] => (state, [])
  | operation :: rest =>
    let (next, appended) := operation.apply tidy sessionId state
    let (last, results) := runMarked tidy sessionId next rest
    (last, appended.toList ++ results)

def snapshots (operations : List (MarkedOperation C)) : List (List Str) :=
  operations.filterMap MarkedOperation.snapshot

def openedMarked (sessionId authority : Str) (project : Option Str) (maxEvents : ℕ) (now : ℤ) :
    MarkedState C where
  maxEvents := maxEvents
  stored := some (.hot
    { session :=
        { sessionId := sessionId
          ownerAuthorityFingerprint := authority
          lifecycle := .active
          createdAt := now
          updatedAt := now
          events := []
          eventsObserved := 0
          contextRevision := 0 }
      project := project
      materializedValidationJobIds := [] })

namespace StoredMarked

/-- The record of a session as it is read and changed. -/
def view (tidy : C → C) (maxEvents : ℕ) : StoredMarked C → Option (MarkedRecord C)
  | hot record => some record
  | cold persisted => persisted.intoRecord tidy maxEvents

def held : StoredMarked C → MarkedRecord C
  | hot record => record
  | cold persisted => persisted

end StoredMarked

/-- The session is there, and the project is its own. -/
def MarkedState.ownsProject (tidy : C → C) (project : Option Str) (state : MarkedState C) : Prop :=
  ∃ stored record, state.stored = some stored ∧ stored.view tidy state.maxEvents = some record ∧
    record.project = project

def IsMark (mark : Str) : Prop := trim mark = mark ∧ isSafeJobId mark = true

theorem newestMarks_eq_self {values : List Str} :
    ∀ {seen : List Str}, (∀ value ∈ values, IsMark value) →
    values.Nodup → (∀ value ∈ values, value ∉ seen) → newestMarks seen values = values := by
  induction values with
  | nil =>
    intro seen _ _ _
    rfl
  | cons value _ ih =>
    intro seen hmarks hnodup hnew
    obtain ⟨htrim, hsafe⟩ := hmarks value List.mem_cons_self
    obtain ⟨hfirst, hrest⟩ := List.nodup_cons.mp hnodup
    have hunseen : value ∉ seen := hnew value List.mem_cons_self
    rw [newestMarks, if_neg (by simp [htrim, hsafe, hunseen]), ih]
    · exact fun other hother ↦ hmarks other (List.mem_cons_of_mem _ hother)
    · exact hrest
    · intro other hother
      rw [List.mem_cons, not_or]
      exact ⟨fun heq ↦ hfirst (heq ▸ hother), hnew other (List.mem_cons_of_mem _ hother)⟩

/-- Marks that were checked, each once and within the bound, are all restored. -/
theorem sanitizeMarks_eq_self {marks : List Str} (hmarks : ∀ mark ∈ marks, IsMark mark)
    (hnodup : marks.Nodup) (hlength : marks.length ≤ maxMaterializedValidationJobIds) :
    sanitizeMaterializedValidationJobIds marks = marks := by
  rw [sanitizeMaterializedValidationJobIds, newestMarks_eq_self, List.take_of_length_le,
    List.reverse_reverse]
  · rwa [List.length_reverse]
  · simpa using hmarks
  · exact List.nodup_reverse.mpr hnodup
  · exact fun _ _ ↦ List.not_mem_nil

/-! ### Sessions that keep their marks -/

/-- The marks were checked and follow the inventories seen; a cold session can be turned back. -/
structure KeepsMarks (sessionId : Str) (inventories : List (List Str)) (handled : List Str)
    (stored : StoredMarked C) : Prop where
  handledOnce : HandledOnce maxMaterializedValidationJobIds inventories handled
    stored.held.materializedValidationJobIds
  marks : ∀ mark ∈ stored.held.materializedValidationJobIds, IsMark mark
  session : stored.held.session.sessionId = sessionId
  authority : ∀ persisted, stored = .cold persisted →
    isLowerHexSha256 persisted.session.ownerAuthorityFingerprint = true

section Changes

variable {tidy : C → C} {sessionId : Str} {maxEvents : ℕ} {inventories : List (List Str)}
  {handled : List Str} {stored : StoredMarked C}

variable (tidy maxEvents) in
/-- The record of a session has the marks, the id and the owner that are held of it. -/
theorem KeepsMarks.exists_view (h : KeepsMarks sessionId inventories handled stored)
    (hsession : isValidSessionId sessionId = true) :
    ∃ record, stored.view tidy maxEvents = some record ∧
      record.materializedValidationJobIds = stored.held.materializedValidationJobIds ∧
      record.session.sessionId = sessionId ∧
      record.session.ownerAuthorityFingerprint = stored.held.session.ownerAuthorityFingerprint := by
  cases stored with
  | hot record => exact ⟨record, rfl, rfl, h.session, rfl⟩
  | cold persisted =>
    have hid : persisted.session.sessionId = sessionId := h.session
    have hvalid : ¬ (isValidSessionId (trim persisted.session.sessionId) = false ∨
        isLowerHexSha256 persisted.session.ownerAuthorityFingerprint = false) := by
      rw [hid, trim_of_isValidSessionId hsession, hsession, h.authority persisted rfl]
      simp
    simp only [StoredMarked.view, MarkedRecord.intoRecord, PersistedSessionRecord.intoRecord,
      if_neg hvalid, Option.bind_eq_bind, Option.bind_some, pure]
    refine ⟨_, rfl, sanitizeMarks_eq_self h.marks h.handledOnce.nodup h.handledOnce.bounded,
      ?_, rfl⟩
    exact (congrArg trim hid).trans (trim_of_isValidSessionId hsession)

/-- Writing back what became of the record of a session. -/
def StoredMarked.write (maxEvents : ℕ) (next : MarkedRecord C) :
    StoredMarked C → Option (StoredMarked C)
  | hot _ => some (coldify maxEvents next)
  | cold _ => coldMarked (next.persisted maxEvents)

theorem change_eq_write {record : MarkedRecord C} (hview : stored.view tidy maxEvents = some record)
    (mutate : MarkedRecord C → Option (MarkedRecord C)) :
    stored.change tidy maxEvents mutate =
      (mutate record).bind fun next ↦ stored.write maxEvents next := by
  cases stored with
  | hot old =>
    obtain rfl : old = record := Option.some.inj hview
    cases hmutate : mutate old <;> simp [StoredMarked.change, StoredMarked.write, hmutate]
  | cold =>
    simp only [StoredMarked.view] at hview
    simp only [StoredMarked.change, hview, Option.bind_eq_bind, Option.bind_some]
    rfl

section Keeps

variable {next : MarkedRecord C} {written : StoredMarked C}
  (hhandled : HandledOnce maxMaterializedValidationJobIds inventories handled
    next.materializedValidationJobIds)
  (hmarks : ∀ mark ∈ next.materializedValidationJobIds, IsMark mark)
  (hid : next.session.sessionId = sessionId)

include hhandled hmarks hid

/-- A record that may be made cold keeps its marks. -/
theorem keepsMarks_coldMarked (h : coldMarked (next.persisted maxEvents) = some written) :
    KeepsMarks sessionId inventories handled written := by
  rw [coldMarked] at h
  split_ifs at h with hauthority
  obtain rfl := Option.some.inj h
  refine ⟨hhandled, hmarks, hid, ?_⟩
  intro persisted heq
  rw [← StoredMarked.cold.inj heq]
  exact hauthority

theorem keepsMarks_hot : KeepsMarks sessionId inventories handled (.hot next) :=
  ⟨hhandled, hmarks, hid, fun _ heq ↦ by cases heq⟩

theorem keepsMarks_coldify :
    KeepsMarks sessionId inventories handled (StoredMarked.coldify maxEvents next) := by
  rw [StoredMarked.coldify]
  split_ifs
  · exact keepsMarks_hot hhandled hmarks hid
  · cases hcold : coldMarked (next.persisted maxEvents) with
    | none => exact keepsMarks_hot hhandled hmarks hid
    | some => exact keepsMarks_coldMarked hhandled hmarks hid hcold

theorem keepsMarks_write (h : stored.write maxEvents next = some written) :
    KeepsMarks sessionId inventories handled written := by
  cases stored with
  | hot =>
    obtain rfl := Option.some.inj h
    exact keepsMarks_coldify hhandled hmarks hid
  | cold => exact keepsMarks_coldMarked hhandled hmarks hid h

end Keeps

variable (maxEvents) in
/-- What has the owner of the session can be written back. -/
theorem KeepsMarks.exists_write (h : KeepsMarks sessionId inventories handled stored)
    {next : MarkedRecord C} (hauthority : next.session.ownerAuthorityFingerprint =
      stored.held.session.ownerAuthorityFingerprint) :
    ∃ written, stored.write maxEvents next = some written := by
  cases stored with
  | hot => exact ⟨_, rfl⟩
  | cold persisted =>
    refine ⟨.cold (next.persisted maxEvents), ?_⟩
    have hnext : isLowerHexSha256 (next.persisted maxEvents).session.ownerAuthorityFingerprint =
        true :=
      (congrArg isLowerHexSha256 hauthority).trans (h.authority persisted rfl)
    rw [StoredMarked.write, coldMarked, if_pos hnext]

/-! ### What each operation keeps -/

theorem KeepsMarks.see (h : KeepsMarks sessionId inventories handled stored)
    (inventory : List Str) :
    KeepsMarks sessionId (inventories ++ [inventory]) handled stored :=
  ⟨h.handledOnce.see inventory, h.marks, h.session, h.authority⟩

theorem KeepsMarks.mutateOther (h : KeepsMarks sessionId inventories handled stored)
    (hsession : isValidSessionId sessionId = true) (mutation : SessionMutation C) :
    KeepsMarks sessionId inventories handled (stored.mutateOther tidy maxEvents mutation) := by
  obtain ⟨record, hview, hids, hid, -⟩ := h.exists_view tidy maxEvents hsession
  rw [StoredMarked.mutateOther, change_eq_write hview]
  cases hmutate : mutation.apply maxEvents record.session with
  | none => exact h
  | some session =>
    simp only [Option.map_some, Option.bind_some]
    cases hwrite : stored.write maxEvents { record with session := session } with
    | none => exact h
    | some =>
      refine keepsMarks_write ?_ ?_ ?_ hwrite
      · rw [hids]
        exact h.handledOnce
      · rw [hids]
        exact h.marks
      · exact (mutation.keeps _ _ _ hmutate).1.trans hid

theorem KeepsMarks.close (h : KeepsMarks sessionId inventories handled stored) (now : ℤ)
    (event : SessionEvent C) :
    KeepsMarks sessionId inventories handled (stored.close maxEvents now event) := by
  cases stored with
  | hot =>
    rw [StoredMarked.close]
    split_ifs
    · exact keepsMarks_coldify h.handledOnce h.marks h.session
    · exact keepsMarks_coldify h.handledOnce h.marks h.session
  | cold => exact h

/-- A restart restores the marks, or nothing of the session. -/
theorem KeepsMarks.restart (h : KeepsMarks sessionId inventories handled stored)
    (hsession : isValidSessionId sessionId = true) (newMaxEvents : ℕ) {restored : StoredMarked C}
    (hrestored : stored.restart tidy maxEvents newMaxEvents = some restored) :
    KeepsMarks sessionId inventories handled restored := by
  have hintoRecord : ∀ (persisted : MarkedRecord C) {record : MarkedRecord C},
      persisted.materializedValidationJobIds = stored.held.materializedValidationJobIds →
      persisted.session.sessionId = sessionId →
      persisted.intoRecord tidy newMaxEvents = some record →
      record.materializedValidationJobIds = stored.held.materializedValidationJobIds ∧
        record.session.sessionId = sessionId := by
    intro persisted record hids hid hrecord
    simp only [MarkedRecord.intoRecord, PersistedSessionRecord.intoRecord, Option.bind_eq_bind,
      Option.bind_eq_some_iff, pure, Option.some.injEq] at hrecord
    obtain ⟨session, hinto, rfl⟩ := hrecord
    split_ifs at hinto
    obtain rfl := Option.some.inj hinto
    refine ⟨?_, ?_⟩
    · simp only [hids]
      exact sanitizeMarks_eq_self h.marks h.handledOnce.nodup h.handledOnce.bounded
    · exact (congrArg trim hid).trans (trim_of_isValidSessionId hsession)
  simp only [StoredMarked.restart, Option.bind_eq_bind, Option.bind_eq_some_iff] at hrestored
  obtain ⟨record, hrecord, hfinish⟩ := hrestored
  obtain ⟨hids, hid⟩ : record.materializedValidationJobIds =
    stored.held.materializedValidationJobIds ∧
      record.session.sessionId = sessionId := by
    cases stored with
    | hot old => exact hintoRecord (old.persisted maxEvents) rfl h.session hrecord
    | cold persisted => exact hintoRecord persisted rfl h.session hrecord
  have hhandled := h.handledOnce
  have hmarks := h.marks
  rw [← hids] at hhandled hmarks
  split_ifs at hfinish
  · obtain rfl := Option.some.inj hfinish
    exact keepsMarks_hot hhandled hmarks hid
  · cases hcold : coldMarked (record.persisted newMaxEvents) with
    | none =>
      rw [hcold, Option.none_or, Option.some.injEq] at hfinish
      rw [← hfinish]
      exact keepsMarks_hot hhandled hmarks hid
    | some =>
      rw [hcold, Option.some_or, Option.some.injEq] at hfinish
      rw [← hfinish]
      exact keepsMarks_coldMarked hhandled hmarks hid hcold

/-! ### The end of a job -/

theorem accepted_eq_some {call : ValidationJobTerminal C} {timestamp : ℤ}
    (h : call.accepted sessionId = some timestamp) :
    isSafeJobId (trim call.jobId) = true ∧
      call.retainedTerminalJobIds.length ≤ maxMaterializedValidationJobIds ∧
      trim call.jobId ∈ call.retainedTerminalJobIds := by
  simp only [ValidationJobTerminal.accepted, Option.bind_eq_bind, Option.bind_eq_some_iff] at h
  obtain ⟨_, -, _, -, h⟩ := h
  split_ifs at h with hvalid
  simp only [Bool.and_eq_true, decide_eq_true_eq, List.contains_eq_mem] at hvalid
  obtain ⟨⟨⟨⟨⟨⟨⟨_, hsafe⟩, hlength⟩, _⟩, hmem⟩, _⟩, _⟩, _⟩ := hvalid
  exact ⟨hsafe, hlength, by simpa using hmem⟩

/-- The event is appended when the project is the session's own and the job has no mark but room for
one. -/
theorem appendValidationJobTerminal_eq_some {record next : MarkedRecord C} {jobId : Str}
    {retained : List Str} {project : Option Str} {event : SessionEvent C} {timestamp : ℤ} :
    record.appendValidationJobTerminal jobId retained project event timestamp maxEvents =
      some next ↔
      record.project = project ∧ jobId ∉ record.materializedValidationJobIds ∧
      ∃ room, makeRoom maxMaterializedValidationJobIds retained
        record.materializedValidationJobIds =
        some room ∧
        { record with
          session := { record.session with
            updatedAt := max record.session.updatedAt timestamp }.pushBack maxEvents event
          materializedValidationJobIds := room ++ [jobId] } = next := by
  rw [MarkedRecord.appendValidationJobTerminal]
  by_cases hproject : record.project = project
  · by_cases hmark : jobId ∈ record.materializedValidationJobIds
    · simp [hproject, hmark]
    · rw [if_neg (by simp [hproject, hmark])]
      simp only [hproject, hmark, not_false_eq_true, true_and, Option.bind_eq_bind,
        Option.bind_eq_some_iff, pure, Option.some.injEq]
  · simp [hproject]

/-- A valid call always finds room for the mark of its job. -/
theorem KeepsMarks.exists_room (h : KeepsMarks sessionId inventories handled stored)
    {call : ValidationJobTerminal C} (haccepted : (call.accepted sessionId).isSome = true)
    (hnew : trim call.jobId ∉ stored.held.materializedValidationJobIds) :
    ∃ room, makeRoom maxMaterializedValidationJobIds call.retainedTerminalJobIds
      stored.held.materializedValidationJobIds = some room := by
  obtain ⟨_, htimestamp⟩ := Option.isSome_iff_exists.mp haccepted
  obtain ⟨-, hlength, hmem⟩ := accepted_eq_some htimestamp
  exact exists_makeRoom h.handledOnce.nodup h.handledOnce.bounded hlength hmem hnew

/-- A call that is answered with true was accepted, and has written back a record with its event. -/
theorem exists_write_of_answer {call : ValidationJobTerminal C} {record : MarkedRecord C}
    (hview : stored.view tidy maxEvents = some record)
    (hanswer : (stored.recordValidationJobTerminal tidy maxEvents sessionId call).2 = true) :
    ∃ timestamp next, call.accepted sessionId = some timestamp ∧
      record.appendValidationJobTerminal (trim call.jobId) call.retainedTerminalJobIds call.project
        (newEvent sessionId call.suffix timestamp call.content) timestamp maxEvents = some next ∧
      stored.write maxEvents next =
        some (stored.recordValidationJobTerminal tidy maxEvents sessionId call).1 := by
  simp only [StoredMarked.recordValidationJobTerminal, change_eq_write hview] at hanswer ⊢
  cases haccepted : call.accepted sessionId with
  | none => simp [haccepted] at hanswer
  | some timestamp =>
    simp only [haccepted] at hanswer ⊢
    split at hanswer
    · next written hwritten =>
      obtain ⟨next, happend, hwrite⟩ := Option.bind_eq_some_iff.mp hwritten
      refine ⟨timestamp, next, rfl, happend, ?_⟩
      simp [hwrite]
    · simp at hanswer

variable (tidy) in
/-- A call that is answered with false changes nothing. -/
theorem eq_of_not_recorded (call : ValidationJobTerminal C)
    (hanswer : (stored.recordValidationJobTerminal tidy maxEvents sessionId call).2 = false) :
    (stored.recordValidationJobTerminal tidy maxEvents sessionId call).1 = stored := by
  simp only [StoredMarked.recordValidationJobTerminal] at hanswer ⊢
  split
  · rfl
  · next haccepted =>
    simp only [haccepted] at hanswer
    split at hanswer
    · simp at hanswer
    · next hnone => simp only

variable (tidy maxEvents) in
/-- A call that is answered with true has set the mark of its job. -/
theorem KeepsMarks.record (h : KeepsMarks sessionId inventories handled stored)
    (hsession : isValidSessionId sessionId = true) (call : ValidationJobTerminal C)
    (hreturns : NeverReturns (inventories ++ [call.retainedTerminalJobIds]))
    (hanswer : (stored.recordValidationJobTerminal tidy maxEvents sessionId call).2 = true) :
    KeepsMarks sessionId (inventories ++ [call.retainedTerminalJobIds])
      (handled ++ [trim call.jobId])
      (stored.recordValidationJobTerminal tidy maxEvents sessionId call).1 := by
  obtain ⟨record, hview, hids, hid, -⟩ := h.exists_view tidy maxEvents hsession
  obtain ⟨_, _, haccepted, happend, hwrite⟩ := exists_write_of_answer hview hanswer
  obtain ⟨hsafe, _, hmem⟩ := accepted_eq_some haccepted
  obtain ⟨-, hnew, _, hroom, rfl⟩ := appendValidationJobTerminal_eq_some.mp happend
  rw [hids] at hroom hnew
  refine keepsMarks_write ?_ ?_ ?_ hwrite
  · exact h.handledOnce.handle hreturns hmem hnew hroom
  rotate_left
  · exact hid
  intro mark hmark
  rcases List.mem_append.mp hmark with hold | hlast
  · exact h.marks mark ((makeRoom_eq_some hroom).1.subset hold)
  · rw [List.mem_singleton.mp hlast]
    exact ⟨trim_trim _, hsafe⟩

/-- A valid call for a job without a mark, of the session's own project, appends its event. -/
theorem KeepsMarks.record_new (h : KeepsMarks sessionId inventories handled stored)
    (hsession : isValidSessionId sessionId = true) {call : ValidationJobTerminal C}
    (haccepted : (call.accepted sessionId).isSome = true) {record : MarkedRecord C}
    (hview : stored.view tidy maxEvents = some record) (hproject : record.project = call.project)
    (hnew : trim call.jobId ∉ stored.held.materializedValidationJobIds) :
    (stored.recordValidationJobTerminal tidy maxEvents sessionId call).2 = true := by
  obtain ⟨room, hroom⟩ := h.exists_room haccepted hnew
  obtain ⟨timestamp, htimestamp⟩ := Option.isSome_iff_exists.mp haccepted
  obtain ⟨viewed, hviewed, hids, -, hauthority⟩ := h.exists_view tidy maxEvents hsession
  obtain rfl : record = viewed := Option.some.inj (hview.symm.trans hviewed)
  rw [← hids] at hroom hnew
  obtain ⟨next, happend⟩ : ∃ next, record.appendValidationJobTerminal (trim call.jobId)
      call.retainedTerminalJobIds call.project
      (newEvent sessionId call.suffix timestamp call.content) timestamp maxEvents = some next :=
    ⟨_, appendValidationJobTerminal_eq_some.mpr ⟨hproject, hnew, room, hroom, rfl⟩⟩
  have howner : next.session.ownerAuthorityFingerprint =
      stored.held.session.ownerAuthorityFingerprint := by
    obtain ⟨-, -, _, -, rfl⟩ := appendValidationJobTerminal_eq_some.mp happend
    exact hauthority
  obtain ⟨_, hwritten⟩ := h.exists_write maxEvents howner
  simp [StoredMarked.recordValidationJobTerminal, htimestamp, change_eq_write hview, happend,
    hwritten]

variable (maxEvents) in
/-- What is held of a session after a record was written back has the events of the record. -/
theorem events_write {next : MarkedRecord C} {written : StoredMarked C}
    (hbounded : newest maxEvents next.session.events = next.session.events)
    (h : stored.write maxEvents next = some written) :
    written.held.session.events = next.session.events ∧
      written.held.session.eventsObserved = next.session.eventsObserved := by
  have hcold : ∀ {cold : StoredMarked C}, coldMarked (next.persisted maxEvents) = some cold →
      cold.held.session.events = next.session.events ∧
        cold.held.session.eventsObserved = next.session.eventsObserved := by
    intro cold hcold
    rw [coldMarked] at hcold
    split_ifs at hcold
    obtain rfl := Option.some.inj hcold
    exact ⟨hbounded, rfl⟩
  cases stored with
  | cold => exact hcold h
  | hot =>
    obtain rfl := Option.some.inj h
    rw [StoredMarked.coldify]
    split_ifs
    · exact ⟨rfl, rfl⟩
    · cases hwritten : coldMarked (next.persisted maxEvents) with
      | none => exact ⟨rfl, rfl⟩
      | some => exact hcold hwritten

variable (tidy maxEvents sessionId) in
/-- The event that is built from a call comes to the events of the session, and no other. -/
def Pushes (call : ValidationJobTerminal C) (stored next : StoredMarked C) : Prop :=
  ∃ record timestamp, stored.view tidy maxEvents = some record ∧
    call.finishedAt = some timestamp ∧
    next.held.session.events = newest maxEvents (record.session.events ++
      [newEvent sessionId call.suffix timestamp call.content]) ∧
    next.held.session.eventsObserved = saturatingSucc record.session.eventsObserved

/-- A call that is answered with true has pushed its event. -/
theorem KeepsMarks.pushes (h : KeepsMarks sessionId inventories handled stored)
    (hsession : isValidSessionId sessionId = true) {call : ValidationJobTerminal C}
    (hanswer : (stored.recordValidationJobTerminal tidy maxEvents sessionId call).2 = true) :
    Pushes tidy sessionId maxEvents call stored
      (stored.recordValidationJobTerminal tidy maxEvents sessionId call).1 := by
  obtain ⟨record, hview, -⟩ := h.exists_view tidy maxEvents hsession
  obtain ⟨timestamp, _, haccepted, happend, hwrite⟩ := exists_write_of_answer hview hanswer
  obtain ⟨-, -, _, -, rfl⟩ := appendValidationJobTerminal_eq_some.mp happend
  obtain ⟨hevents, hobserved⟩ :=
    events_write maxEvents (newest_eq_self (length_newest_le _)) hwrite
  refine ⟨record, timestamp, hview, ?_, hevents, hobserved⟩
  simp only [ValidationJobTerminal.accepted, Option.bind_eq_bind,
    Option.bind_eq_some_iff] at haccepted
  obtain ⟨_, hfinished, _, -, hvalid⟩ := haccepted
  split_ifs at hvalid
  rw [hfinished, hvalid]

end Changes

/-! ### Runs -/

/-- A session that is gone has no marks; the others keep them. -/
structure StateKeepsMarks (sessionId : Str) (inventories : List (List Str)) (handled : List Str)
    (state : MarkedState C) : Prop where
  once : handled.Nodup
  kept : ∀ stored, state.stored = some stored → KeepsMarks sessionId inventories handled stored

section Runs

variable {tidy : C → C} {sessionId : Str} {inventories : List (List Str)} {handled : List Str}
  {state : MarkedState C}

theorem StateKeepsMarks.apply (tidy : C → C)
    (h : StateKeepsMarks sessionId inventories handled state)
    (hsession : isValidSessionId sessionId = true) (operation : MarkedOperation C)
    (hreturns : NeverReturns (inventories ++ operation.snapshot.toList)) :
    StateKeepsMarks sessionId (inventories ++ operation.snapshot.toList)
      (handled ++ (operation.apply tidy sessionId state).2.toList)
      (operation.apply tidy sessionId state).1 := by
  cases hstored : state.stored with
  | none =>
    simp only [MarkedOperation.apply, hstored, Option.toList_none, List.append_nil]
    exact ⟨h.once, fun stored hsome ↦ by simp [hstored] at hsome⟩
  | some stored =>
    have hkept := h.kept stored hstored
    cases operation with
    | record call =>
      simp only [MarkedOperation.apply, hstored]
      cases hresult :
          (stored.recordValidationJobTerminal tidy state.maxEvents sessionId call).2 with
      | true =>
        have hnext := hkept.record tidy state.maxEvents hsession call hreturns hresult
        refine ⟨?_, fun next hsome ↦ ?_⟩
        · simpa [hresult] using hnext.handledOnce.once
        · obtain rfl := Option.some.inj hsome
          simpa [hresult, MarkedOperation.snapshot] using hnext
      | false =>
        refine ⟨by simpa [hresult] using h.once, fun next hsome ↦ ?_⟩
        obtain rfl := Option.some.inj hsome
        rw [eq_of_not_recorded tidy call hresult]
        simpa [hresult, MarkedOperation.snapshot] using hkept.see call.retainedTerminalJobIds
    | other mutation =>
      simp only [MarkedOperation.apply, hstored, MarkedOperation.snapshot, Option.toList_none,
        List.append_nil]
      refine ⟨h.once, fun next hsome ↦ ?_⟩
      obtain rfl := Option.some.inj hsome
      exact hkept.mutateOther hsession mutation
    | close now =>
      simp only [MarkedOperation.apply, hstored, MarkedOperation.snapshot, Option.toList_none,
        List.append_nil]
      refine ⟨h.once, fun next hsome ↦ ?_⟩
      obtain rfl := Option.some.inj hsome
      exact hkept.close now _
    | restart newMaxEvents =>
      simp only [MarkedOperation.apply, hstored, MarkedOperation.snapshot, Option.toList_none,
        List.append_nil]
      exact ⟨h.once, fun next hsome ↦ hkept.restart hsession newMaxEvents hsome⟩

theorem StateKeepsMarks.run (tidy : C → C) (hsession : isValidSessionId sessionId = true)
    (operations : List (MarkedOperation C)) : ∀ {inventories : List (List Str)} {handled : List Str}
      {state : MarkedState C}, StateKeepsMarks sessionId inventories handled state →
      NeverReturns (inventories ++ snapshots operations) →
      StateKeepsMarks sessionId (inventories ++ snapshots operations)
        (handled ++ (runMarked tidy sessionId state operations).2)
        (runMarked tidy sessionId state operations).1 := by
  induction operations with
  | nil =>
    intro inventories handled state h _
    simpa [snapshots, runMarked] using h
  | cons operation rest ih =>
    intro inventories handled state h hreturns
    have hsplit : snapshots (operation :: rest) = operation.snapshot.toList ++ snapshots rest := by
      cases hsnapshot : operation.snapshot <;> simp [snapshots, hsnapshot]
    rw [hsplit, ← List.append_assoc] at hreturns ⊢
    have hnext := ih (h.apply tidy hsession operation hreturns.of_append) hreturns
    simpa [runMarked, List.append_assoc] using hnext

theorem stateKeepsMarks_opened (sessionId authority : Str) (project : Option Str) (maxEvents : ℕ)
    (now : ℤ) : StateKeepsMarks sessionId [] []
      (openedMarked sessionId authority project maxEvents now : MarkedState C) where
  once := List.nodup_nil
  kept := by
    intro _ hstored
    obtain rfl := Option.some.inj hstored
    exact keepsMarks_hot (.start _) (fun _ hmark ↦ absurd hmark List.not_mem_nil) rfl

end Runs

/-- No job has entered twice, the marks are within their bound and differ, and a valid call for a
job of the session's own project finds room for its mark and enters, unless the job has entered
before. A call pushes the event that is built from it when it is answered with true, and changes
nothing otherwise. -/
structure EntersOnce (tidy : C → C) (sessionId : Str) (entered : List Str) (state : MarkedState C) :
    Prop where
  once : entered.Nodup
  marks : ∀ stored, state.stored = some stored → stored.held.materializedValidationJobIds.Nodup ∧
      stored.held.materializedValidationJobIds.length ≤ maxMaterializedValidationJobIds
  room : ∀ stored, state.stored = some stored → ∀ call : ValidationJobTerminal C,
    (call.accepted sessionId).isSome = true →
    trim call.jobId ∉ stored.held.materializedValidationJobIds →
    (makeRoom maxMaterializedValidationJobIds call.retainedTerminalJobIds
      stored.held.materializedValidationJobIds).isSome = true
  first : ∀ call : ValidationJobTerminal C, (call.accepted sessionId).isSome = true →
    state.ownsProject tidy call.project → trim call.jobId ∉ entered →
    ((MarkedOperation.record call).apply tidy sessionId state).2 = some (trim call.jobId)
  pushes : ∀ stored, state.stored = some stored → ∀ call : ValidationJobTerminal C,
    (stored.recordValidationJobTerminal tidy state.maxEvents sessionId call).2 = true →
    Pushes tidy sessionId state.maxEvents call stored
      (stored.recordValidationJobTerminal tidy state.maxEvents sessionId call).1
  leaves : ∀ stored, state.stored = some stored → ∀ call : ValidationJobTerminal C,
    (stored.recordValidationJobTerminal tidy state.maxEvents sessionId call).2 = false →
    (stored.recordValidationJobTerminal tidy state.maxEvents sessionId call).1 = stored

/-- In every run in which an ended job that the runner has dropped never comes back, each job enters
the ledger once, at the first valid call for it that names the session's own project. A call that
enters it pushes the event of the job and no other; all other calls change nothing. -/
theorem validation_jobs_enter_once (tidy : C → C) {sessionId : Str} (authority : Str)
    (project : Option Str) (maxEvents : ℕ) (now : ℤ) (operations : List (MarkedOperation C))
    (hsession : isValidSessionId sessionId = true)
    (hreturns : NeverReturns (snapshots operations)) :
    EntersOnce tidy sessionId
      (runMarked tidy sessionId (openedMarked sessionId authority project maxEvents now)
        operations).2
      (runMarked tidy sessionId (openedMarked sessionId authority project maxEvents now)
        operations).1 := by
  have hrun := StateKeepsMarks.run tidy hsession operations
    (stateKeepsMarks_opened sessionId authority project maxEvents now) (by simpa using hreturns)
  refine ⟨hrun.once, ?_, ?_, ?_, fun stored hstored call ↦
    (hrun.kept stored hstored).pushes hsession, fun stored _ call ↦ eq_of_not_recorded tidy call⟩
  · intro stored hstored
    have hkept := (hrun.kept stored hstored).handledOnce
    exact ⟨hkept.nodup, hkept.bounded⟩
  · intro stored hstored call haccepted hnew
    exact Option.isSome_iff_exists.mpr ((hrun.kept stored hstored).exists_room haccepted hnew)
  · rintro call haccepted ⟨stored, _, hstored, hview, hproject⟩ hnew
    have hkept := hrun.kept stored hstored
    have hunmarked : trim call.jobId ∉ stored.held.materializedValidationJobIds := fun hmark ↦
      hnew (hkept.handledOnce.recorded _ hmark)
    have happended := hkept.record_new hsession haccepted hview hproject hunmarked
    simp [MarkedOperation.apply, hstored, happended]

/-- The end of a job of a project, as the only one that its runner keeps. -/
def sampleTerminal : ValidationJobTerminal Unit where
  jobId := "job".toList
  retainedTerminalJobIds := ["job".toList]
  toolName := "cargo_test"
  project := some "project".toList
  validationTargetId := "target:0123456789abcdef01234567".toList
  jobStatus := "completed"
  finishedAt := some 5
  suffix := "1".toList
  content := ()

/-- It is reported after another event, before the session is closed and again after a restart. -/
def sampleMarkedRun : List (MarkedOperation Unit) :=
  [.other (.pushEvent 4 (newEvent "wc_sess_1".toList "0".toList 4 ())), .record sampleTerminal,
    .close 6 "2".toList (), .restart 200, .record sampleTerminal]

/-- The job is recorded, and recorded again after a restart: it is listed once, and the first of the
two calls pushes its event. -/
theorem sample_validation_job_enters_once :
    EntersOnce id "wc_sess_1".toList
      (runMarked id "wc_sess_1".toList (openedMarked "wc_sess_1".toList (List.replicate 64 'a')
        (some "project".toList) 200 1) sampleMarkedRun).2
      (runMarked id "wc_sess_1".toList (openedMarked "wc_sess_1".toList (List.replicate 64 'a')
        (some "project".toList) 200 1) sampleMarkedRun).1 :=
  validation_jobs_enter_once id _ _ _ _ _ (by decide) fun _ _ _ hsub ↦
    (Nat.not_le.mpr (Nat.lt_succ_self 2) hsub.length_le).elim

example : (runMarked id "wc_sess_1".toList (openedMarked "wc_sess_1".toList (List.replicate 64 'a')
    (some "project".toList) 200 1) sampleMarkedRun).2 = ["job".toList] := by decide +kernel

end WebCodex.WorkflowSession
