import WebCodex.Foundation.Watermark
import WebCodex.TaskStore.History
import WebCodex.TaskStore.SingleExecution

/-!
Guidance for a task is an event of its timeline. The owner claims it in batches, and a watermark in
the row of the task keeps how far the claims have come. The events are numbered from one without a
gap, so the watermark separates the guidance that has been claimed from the guidance that has not
(`Delivered`).
-/

namespace WebCodex.TaskStore

open Foundation
open Foundation.Watermark (Ascending upTo above)

def TaskRows.guidance (rows : TaskRows) : List ConnectorTaskEvent :=
  rows.events.filter fun event ↦ event.body.isGuidance

namespace TaskRows

variable {rows : TaskRows}

/-- The events are numbered from one without a gap. -/
structure Numbered (rows : TaskRows) : Prop where
  cursor : rows.eventCursor = rows.events.length
  numbers : rows.events.map ConnectorTaskEvent.sequence = List.range' 1 rows.events.length

theorem map_sequence_numbered (bodies : List EventBody) (now : ℤ) (cursor : ℕ) :
    (numbered cursor bodies now).map ConnectorTaskEvent.sequence =
      List.range' (cursor + 1) bodies.length := by
  induction bodies generalizing cursor with
  | nil => rfl
  | cons _ _ ih =>
    rw [numbered, List.map_cons, ih, List.length_cons, List.range'_succ]

theorem length_numbered (bodies : List EventBody) (now : ℤ) (cursor : ℕ) :
    (numbered cursor bodies now).length = bodies.length := by
  have hlength := congrArg List.length (map_sequence_numbered bodies now cursor)
  simpa using hlength

/-- What an operation adds to the timeline goes on with the numbers. -/
theorem Numbered.append {after : TaskRows} {bodies : List EventBody} {now : ℤ} (h : Numbered rows)
    (hevents : after.events = rows.events ++ numbered rows.eventCursor bodies now) :
    Numbered after where
  cursor := by
    have hcursor : after.eventCursor = (rows.logs bodies now).eventCursor := by
      rw [eventCursor, eventCursor, hevents]
      rfl
    rw [hcursor, eventCursor_logs, hevents, List.length_append, length_numbered, h.cursor]
  numbers := by
    rw [hevents, List.map_append, List.length_append, map_sequence_numbered, h.numbers, h.cursor,
      length_numbered, Nat.add_comm rows.events.length 1, List.range'_append_1]

theorem Numbered.ascending (h : Numbered rows) :
    Ascending ConnectorTaskEvent.sequence rows.events := by
  have hnumbers : (rows.events.map ConnectorTaskEvent.sequence).Pairwise (· < ·) := by
    rw [h.numbers]
    exact List.pairwise_lt_range'
  exact List.pairwise_map.mp hnumbers

theorem Numbered.le_length (h : Numbered rows) {event : ConnectorTaskEvent}
    (hmem : event ∈ rows.events) : event.sequence ≤ rows.events.length := by
  rw [← h.cursor]
  exact sequence_le_eventCursor hmem

theorem Numbered.guidance (h : Numbered rows) :
    Ascending ConnectorTaskEvent.sequence rows.guidance :=
  h.ascending.sublist List.filter_sublist

/-- The guidance that waits is the guidance above the watermark. -/
theorem pendingGuidance_eq :
    rows.pendingGuidance = above ConnectorTaskEvent.sequence rows.guidanceSeenSeq
      rows.guidance := by
  rw [pendingGuidance, above, guidance, List.filter_filter]
  refine List.filter_congr fun _ _ ↦ ?_
  exact Bool.and_comm _ _

end TaskRows

/-! ### Claims -/

def claimedBy : TaskRequest × Answer → List ConnectorTaskEvent
  | (.owner (.claimGuidance _), .claimed events) => events
  | _ => []

/-- The number and the payload of the guidance that a call has recorded. -/
def recordedBy : TaskRequest × Answer → Option (ℕ × String)
  | (.owner (.append (.humanGuidance payload) _), .sequence number) => some (number, payload)
  | (.owner (.guide payload _), .sequence number) => some (number, payload)
  | _ => none

/-- The claims of a history, one after the other. -/
def claims (past : List (TaskRequest × Answer)) : List ConnectorTaskEvent := past.flatMap claimedBy

/-- The guidance up to the watermark is what has been claimed. -/
structure Delivered (claims : List ConnectorTaskEvent) (rows : TaskRows) : Prop where
  numbered : rows.Numbered
  seen : rows.guidanceSeenSeq ≤ rows.events.length
  claimed : claims = upTo ConnectorTaskEvent.sequence rows.guidanceSeenSeq rows.guidance

namespace Delivered

variable {claimed : List ConnectorTaskEvent} {rows after : TaskRows}

theorem started (task : NewConnectorTask) (mode : ConnectorTaskMode) :
    Delivered [] (TaskRows.started task mode) where
  numbered := ⟨rfl, rfl⟩
  seen := Nat.zero_le _
  claimed := rfl

/-- New events leave the claims alone. -/
theorem append {bodies : List EventBody} {now : ℤ} (h : Delivered claimed rows)
    (hevents : after.events = rows.events ++ TaskStore.numbered rows.eventCursor bodies now)
    (hseen : after.guidanceSeenSeq = rows.guidanceSeenSeq) : Delivered claimed after where
  numbered := h.numbered.append hevents
  seen := by
    rw [hseen, hevents, List.length_append]
    exact h.seen.trans (Nat.le_add_right _ _)
  claimed := by
    have hguidance : after.guidance = rows.guidance ++
        (TaskStore.numbered rows.eventCursor bodies now).filter fun event ↦
            event.body.isGuidance := by
      rw [TaskRows.guidance, hevents, List.filter_append]
      rfl
    have hnew : ∀ event ∈ (TaskStore.numbered rows.eventCursor bodies now).filter
        (fun event ↦ event.body.isGuidance), rows.guidanceSeenSeq < event.sequence := by
      intro event hmem
      have hsequence := List.mem_map_of_mem (f := ConnectorTaskEvent.sequence)
        (List.mem_of_mem_filter hmem)
      rw [TaskRows.map_sequence_numbered, List.mem_range'_1, h.numbered.cursor] at hsequence
      exact lt_of_le_of_lt h.seen (Nat.lt_of_succ_le hsequence.1)
    rw [hseen, hguidance, Watermark.upTo_append, Watermark.upTo_eq_nil hnew, List.append_nil]
    exact h.claimed

/-- The items that a limit lets through come first. -/
theorem limited_append {A : Type} (limit : ℕ) (items : List A) :
    ∃ rest, items = TaskRows.limited limit items ++ rest := by
  unfold TaskRows.limited
  split_ifs
  · exact ⟨items.drop limit, (List.take_append_drop limit items).symm⟩
  · exact ⟨[], (List.append_nil items).symm⟩

/-- What waits stands in the order of its numbers already, so a claim answers with its beginning. -/
theorem sorted_pending (h : Delivered claimed rows) :
    rows.pendingGuidance.insertionSort (fun first second ↦ first.sequence ≤ second.sequence) =
      rows.pendingGuidance := by
  refine List.Pairwise.insertionSort_eq ?_
  rw [TaskRows.pendingGuidance_eq]
  exact (h.numbered.guidance.sublist List.filter_sublist).imp fun hlt ↦ hlt.le

theorem claimed_eq (h : Delivered claimed rows) (maxGuidance : ℕ) :
    (rows.claimPendingConnectorGuidance maxGuidance).2 =
      TaskRows.limited maxGuidance rows.pendingGuidance := by
  rw [TaskRows.claimPendingConnectorGuidance, h.sorted_pending]
  split <;> rfl

/-- A claim takes what waits from the front. -/
theorem claim (h : Delivered claimed rows) (maxGuidance : ℕ) :
    Delivered (claimed ++ (rows.claimPendingConnectorGuidance maxGuidance).2)
      (rows.claimPendingConnectorGuidance maxGuidance).1 := by
  unfold TaskRows.claimPendingConnectorGuidance
  simp only [h.sorted_pending]
  obtain ⟨_, hsplit⟩ := limited_append maxGuidance rows.pendingGuidance
  generalize TaskRows.limited maxGuidance rows.pendingGuidance = taken at hsplit ⊢
  cases hlast : (taken.map fun event ↦ event.sequence).max? with
  | none =>
    have hnil : taken = [] := by simpa using hlast
    rw [hnil, List.append_nil]
    exact h
  | some =>
    obtain ⟨hmem, hmax⟩ := List.max?_eq_some_iff.mp hlast
    rw [TaskRows.pendingGuidance_eq] at hsplit
    obtain ⟨hupTo, _⟩ := Watermark.upTo_max h.numbered.guidance hsplit hmem
      fun event hevent ↦ hmax _ (List.mem_map_of_mem hevent)
    refine ⟨⟨h.numbered.cursor, h.numbered.numbers⟩, ?_, ?_⟩
    · obtain ⟨event, hevent, rfl⟩ := List.mem_map.mp hmem
      refine max_le h.seen (h.numbered.le_length ?_)
      have hwaits : event ∈ above ConnectorTaskEvent.sequence rows.guidanceSeenSeq
          rows.guidance := by
        rw [hsplit]
        exact List.mem_append_left _ hevent
      exact List.mem_of_mem_filter (Watermark.mem_above.mp hwaits).1
    · rw [h.claimed]
      exact hupTo.symm

end Delivered

/-! ### Requests -/

namespace TaskRows

variable {keys : Keys} {rows after : TaskRows} {request : TaskRequest} {answer : Answer}

/-- Only a claim moves the watermark. -/
theorem guidanceSeenSeq_handle (hclaim : request.isClaim = false)
    (h : rows.handle keys request = .ok (after, answer)) :
    after.guidanceSeenSeq = rows.guidanceSeenSeq := by
  by_cases happroval : request.isApproval = true
  · rcases handle_cases h with ⟨_, _, _, _, _, hchange⟩ |
      ⟨approvalId, approve, actor, reason, now, result, _, _, _, hchange⟩ | ⟨hquiet, _⟩
    · cases hchange <;> rfl
    · cases hchange <;> rfl
    · rw [hquiet] at happroval
      cases happroval
  · cases (handle_effect ⟨by simpa using happroval, hclaim⟩ h).change <;> rfl

theorem claimedBy_of_not_claim (hclaim : request.isClaim = false) (answer : Answer) :
    claimedBy (request, answer) = [] := by
  cases request with
  | owner request =>
    cases request with
    | claimGuidance => cases hclaim
    | _ => rfl
  | _ => rfl

/-- The timeline only grows. -/
theorem mem_guidance_handle (h : rows.handle keys request = .ok (after, answer))
    {event : ConnectorTaskEvent} (hmem : event ∈ rows.guidance) : event ∈ after.guidance := by
  obtain ⟨_, _, hevents⟩ := events_move (handle_move h)
  rw [guidance, hevents, List.filter_append]
  exact List.mem_append_left _ hmem

/-- Guidance that was recorded is on the timeline, under the number of the answer. -/
theorem mem_guidance_of_recorded (h : rows.handle keys request = .ok (after, answer)) {number : ℕ}
    {payload : String} (hrecorded : recordedBy (request, answer) = some (number, payload)) :
    ∃ event ∈ after.guidance, event.sequence = number ∧ event.body = .humanGuidance payload := by
  have hlogged : ∀ now time, after = (rows.logs [.humanGuidance payload] now).touch time →
      number = rows.eventCursor + 1 →
      ∃ event ∈ after.guidance, event.sequence = number ∧ event.body = .humanGuidance payload := by
    rintro now time rfl rfl
    refine ⟨⟨rows.eventCursor + 1, .humanGuidance payload, now⟩, ?_, rfl, rfl⟩
    exact List.mem_filter.mpr ⟨List.mem_append_right _ (List.mem_singleton_self _), rfl⟩
  cases request with
  | owner request =>
    cases request with
    | append entry now =>
      obtain ⟨value, happend, rfl⟩ := map_eq_ok h
      cases entry with
      | capability => cases hrecorded
      | humanGuidance =>
        obtain ⟨rfl, rfl⟩ := Prod.mk.inj (Option.some.inj hrecorded)
        simp only [appendConnectorTaskEvent, bind_eq_ok, insertEvent_cursor rfl, Except.ok.injEq,
          exists_eq_left'] at happend
        obtain ⟨_, _, hafter⟩ := happend
        obtain ⟨rfl, rfl⟩ := Prod.mk.inj (Except.ok.inj hafter)
        exact hlogged now now rfl rfl
    | guide _ now =>
      obtain ⟨value, happend, rfl⟩ := map_eq_ok h
      obtain ⟨rfl, rfl⟩ := Prod.mk.inj (Option.some.inj hrecorded)
      simp only [appendConnectorDecisionGuidance, bind_eq_ok, insertEvent_cursor rfl,
        Except.ok.injEq, exists_eq_left'] at happend
      obtain ⟨rfl, rfl⟩ := Prod.mk.inj (Except.ok.inj happend)
      exact hlogged now now rfl rfl
    | _ => cases hrecorded
  | _ => cases hrecorded

end TaskRows

/-- A request keeps the claims in step with the watermark. -/
theorem Delivered.handle {past : List (TaskRequest × Answer)} {keys : Keys} {rows after : TaskRows}
    {request : TaskRequest} {answer : Answer} (h : Delivered (claims past) rows)
    (hhandle : rows.handle keys request = .ok (after, answer)) :
    Delivered (claims (past ++ [(request, answer)])) after := by
  rw [claims, List.flatMap_append, List.flatMap_singleton]
  by_cases hclaim : request.isClaim = true
  · cases request with
    | owner request =>
      cases request with
      | claimGuidance maxGuidance =>
        obtain ⟨rfl, rfl⟩ := Prod.mk.inj (Except.ok.inj hhandle)
        exact h.claim maxGuidance
      | _ => cases hclaim
    | _ => cases hclaim
  · have hquiet : request.isClaim = false := by simpa using hclaim
    rw [TaskRows.claimedBy_of_not_claim hquiet, List.append_nil]
    obtain ⟨_, _, hevents⟩ := events_move (TaskRows.handle_move hhandle)
    exact h.append hevents (TaskRows.guidanceSeenSeq_handle hquiet hhandle)

/-! ### Runs -/

/-- The guidance of a history that has not been claimed. -/
def unclaimed (past : List (TaskRequest × Answer)) (rows : TaskRows) : List ConnectorTaskEvent :=
  rows.guidance.filter fun event ↦ decide (event ∉ claims past)

/-- What a claim of the owner is answered with. -/
def claimAnswer (database : Database) (taskId : String) (rows : TaskRows) (maxGuidance : ℕ) :
    Fallible Answer :=
  (step database (.owner taskId rows.projectId rows.ownerSubjectId
    (.claimGuidance maxGuidance))).answer

structure GuidanceDelivered (database : Database) (taskId : String)
    (past : List (TaskRequest × Answer)) (rows : TaskRows) : Prop where
  /-- The events are numbered one, two, three. -/
  numbers : rows.events.map ConnectorTaskEvent.sequence = List.range' 1 rows.events.length
  /-- What was claimed comes first, the rest is still there. -/
  order : rows.guidance = claims past ++ unclaimed past rows
  once : (claims past).Nodup
  /-- A claim delivers the first of the rest, as many events as the batch allows. -/
  batch : ∀ maxGuidance < 2 ^ 63, claimAnswer database taskId rows maxGuidance =
    .ok (.claimed ((unclaimed past rows).take maxGuidance))
  /-- A larger batch is negative as a limit of the query, and takes the whole rest. -/
  whole : ∀ maxGuidance ≥ 2 ^ 63, claimAnswer database taskId rows maxGuidance =
    .ok (.claimed (unclaimed past rows))
  /-- Guidance that was recorded is there, under its number. -/
  recorded : ∀ call ∈ past, ∀ number payload, recordedBy call = some (number, payload) →
    ∃ event ∈ rows.guidance, event.sequence = number ∧ event.body = .humanGuidance payload
  unread : rows.unreadGuidance = (unclaimed past rows).length
  lastPending : rows.connectorGuidanceReadState.lastPendingSeq =
    ((unclaimed past rows).map ConnectorTaskEvent.sequence).max?

/-- In every run the claims are in step with the watermark, and recorded guidance is there. -/
theorem delivered_run (operations : List Operation) {taskId : String} {rows : TaskRows}
    (hrows : (run {} operations).tasks.lookup taskId = some rows) :
    Delivered (claims (history taskId {} operations)) rows ∧
      ∀ call ∈ history taskId {} operations, ∀ number payload,
        recordedBy call = some (number, payload) → ∃ event ∈ rows.guidance,
        event.sequence = number ∧
            event.body = .humanGuidance payload := by
  refine history_run (P := fun past rows ↦ Delivered (claims past) rows ∧
    ∀ call ∈ past, ∀ number payload, recordedBy call = some (number, payload) →
      ∃ event ∈ rows.guidance, event.sequence = number ∧ event.body = .humanGuidance payload)
    ?_ ?_ ?_ operations hrows
  · intro task mode
    exact ⟨Delivered.started task mode, fun _ hmem ↦ absurd hmem List.not_mem_nil⟩
  · intro keys past rows request after answer _ hinv hhandle
    refine ⟨hinv.1.handle hhandle, fun call hcall number payload hrecorded ↦ ?_⟩
    rcases List.mem_append.mp hcall with hold | hnew
    · obtain ⟨event, hmem, hevent⟩ := hinv.2 call hold number payload hrecorded
      exact ⟨event, TaskRows.mem_guidance_handle hhandle hmem, hevent⟩
    · rw [List.mem_singleton.mp hnew] at hrecorded
      exact TaskRows.mem_guidance_of_recorded hhandle hrecorded
  · intro keys past rows request after answer _ hinv hcall hhandle
    have hquiet : request.isClaim = false := by
      cases request with
      | owner | host => cases hcall
      | _ => rfl
    obtain ⟨_, _, hevents⟩ := events_move (TaskRows.handle_move hhandle)
    refine ⟨hinv.1.append hevents (TaskRows.guidanceSeenSeq_handle hquiet hhandle), ?_⟩
    intro call hold number payload hrecorded
    obtain ⟨event, hmem, hevent⟩ := hinv.2 call hold number payload hrecorded
    exact ⟨event, TaskRows.mem_guidance_handle hhandle hmem, hevent⟩

/-- What waits is what has not been claimed. -/
theorem Delivered.pendingGuidance_eq_unclaimed {past : List (TaskRequest × Answer)}
    {rows : TaskRows} (h : Delivered (claims past) rows) :
    rows.pendingGuidance = unclaimed past rows := by
  rw [TaskRows.pendingGuidance_eq, unclaimed, above]
  refine List.filter_congr fun _ hmem ↦ ?_
  rw [h.claimed, decide_eq_decide, Watermark.mem_upTo]
  constructor
  · intro hwaits hclaimed
    exact absurd hclaimed.2 (not_le.mpr hwaits)
  · intro hunclaimed
    exact not_le.mp fun hle ↦ hunclaimed ⟨hmem, hle⟩

/-- The owner of a task is heard, and gets the beginning of what waits. -/
theorem Delivered.claimAnswer_eq {claimed : List ConnectorTaskEvent} {database : Database}
    {taskId : String} {rows : TaskRows} (h : Delivered claimed rows)
    (hrows : database.tasks.lookup taskId = some rows) (maxGuidance : ℕ) :
    claimAnswer database taskId rows maxGuidance =
      .ok (.claimed (TaskRows.limited maxGuidance rows.pendingGuidance)) := by
  rw [claimAnswer, step, Database.request, hrows, Option.filter_some, if_pos (by simp),
    ← h.claimed_eq]
  rfl

/-- In every run the events of a task are numbered without a gap, its guidance is claimed once and
in order, a claim delivers the first of what waits, and the views report what has not been
claimed. -/
theorem guidance_is_delivered_once (operations : List Operation) (taskId : String) (rows : TaskRows)
    (hrows : (run {} operations).tasks.lookup taskId = some rows) :
    GuidanceDelivered (run {} operations) taskId (history taskId {} operations) rows := by
  obtain ⟨h, hrecorded⟩ := delivered_run operations hrows
  have hpending := h.pendingGuidance_eq_unclaimed
  refine ⟨h.numbered.numbers, ?_, ?_, fun _ hbatch ↦ ?_, fun _ hbatch ↦ ?_, hrecorded, ?_, ?_⟩
  · rw [← hpending, TaskRows.pendingGuidance_eq, h.claimed]
    exact (Watermark.upTo_append_above h.numbered.guidance _).symm
  · rw [h.claimed]
    have hdistinct : rows.guidance.Nodup := h.numbered.guidance.imp fun hlt heq ↦ by
      rw [heq] at hlt
      exact lt_irrefl _ hlt
    exact hdistinct.sublist List.filter_sublist
  · rw [h.claimAnswer_eq hrows, TaskRows.limited, if_pos hbatch, hpending]
  · rw [h.claimAnswer_eq hrows, TaskRows.limited, if_neg (not_lt.mpr hbatch), hpending]
  · rw [TaskRows.unreadGuidance, hpending]
  · rw [TaskRows.connectorGuidanceReadState, hpending]

/-- Guidance is recorded for the task, and one piece of it is claimed. -/
def surveyGuided : List Operation := surveyStarted ++
    [.owner "survey" "atlas" "client" (.append (.humanGuidance "use the index") 10),
      .owner "survey" "atlas" "client" (.append (.capability "files_read" "README.md") 11),
      .owner "survey" "atlas" "client" (.guide "stop soon" 12),
      .owner "survey" "atlas" "client" (.claimGuidance 1)]

/-- The claim delivers the first piece, and a larger batch delivers the other one next. -/
theorem guidance_is_delivered_once_survey :
    ∃ rows, (run {} surveyGuided).tasks.lookup "survey" = some rows ∧
      GuidanceDelivered (run {} surveyGuided) "survey" (history "survey" {} surveyGuided) rows ∧
      claims (history "survey" {} surveyGuided) = [⟨2, .humanGuidance "use the index", 10⟩] ∧
      claimAnswer (run {} surveyGuided) "survey" rows 5 =
        .ok (.claimed [⟨4, .humanGuidance "stop soon", 12⟩]) := by
  have hthere : ((run {} surveyGuided).tasks.lookup "survey").isSome = true := by decide +kernel
  obtain ⟨rows, hrows⟩ := Option.isSome_iff_exists.mp hthere
  have h := guidance_is_delivered_once surveyGuided "survey" rows hrows
  have hclaims : claims (history "survey" {} surveyGuided) =
      [⟨2, .humanGuidance "use the index", 10⟩] := by decide +kernel
  have hrest : ((run {} surveyGuided).tasks.lookup "survey").map
      (unclaimed (history "survey" {} surveyGuided)) =
        some [⟨4, .humanGuidance "stop soon", 12⟩] := by decide +kernel
  rw [hrows] at hrest
  refine ⟨rows, hrows, h, hclaims, ?_⟩
  rw [h.batch 5 (by decide), Option.some.inj hrest]
  rfl

example : ((run {} surveyGuided).tasks.lookup "survey").map (fun rows ↦
    (rows.unreadGuidance, rows.connectorGuidanceReadState.lastPendingSeq)) = some (1, some 4) := by
  decide +kernel

end WebCodex.TaskStore
