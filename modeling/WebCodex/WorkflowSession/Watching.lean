import WebCodex.WorkflowSession.Observation

/-!
`Watch` is a board with an observer of it, who keeps a copy of the messages and passes the token of
its last answer each time. A run of it (`WatchStep`) mixes message operations, restarts and
observations in any order. The copy is up to date after an answer that has no more
(`observer_keeps_up`).
-/

namespace WebCodex.WorkflowSession

open Foundation Foundation.Text

/-- The board of a session that has just been created. -/
def MessageBoard.opened (sessionId : Str) (now : ℤ) : MessageBoard :=
  { sessionId := sessionId
    lifecycle := .active
    createdAt := now
    updatedAt := now
    messages := []
    messageObservationRevision := 0
    messageObservationFloor := 0
    messageObservationRevisions := ∅
    assignmentHistoryFloors := ∅
    assignmentHistoryTrackingComplete := true
    completionAssignmentFenceFingerprints := ∅
    completionAssignmentFenceTrackingComplete := true }

def MessageBoard.revisionOf (board : MessageBoard) (message : SessionMessage) : ℕ :=
  (board.messageObservationRevisions.lookup message.messageId).getD 0

/-- Messages are applied to a copy by their ids. -/
def applyMessages (copy : Table Str SessionMessage) (messages : List SessionMessage) :
    Table Str SessionMessage :=
  messages.foldl (fun known message ↦ known.insert message.messageId message) copy

/-- An observer: its last token, its copy, and whether it was told that history is lost. For what is
said about it, it also has the board at its first token and the versions that it was given. -/
structure Observer where
  first : MessageBoard
  token : Str
  copy : Table Str SessionMessage
  delivered : List (Str × ℕ)
  historyLost : Bool

/-- An observer who has called once, without a token. -/
def Observer.start (board : MessageBoard) (token : Str) : Observer := ⟨board, token, ∅, [], false⟩

def Observer.receive (observer : Observer) (board : MessageBoard)
    (outcome : SessionMessageObservationOutcome) : Observer :=
  { observer with
    token := outcome.observationToken
    copy := applyMessages observer.copy outcome.messages
    delivered := observer.delivered ++
      outcome.messages.map fun message ↦ (message.messageId, board.revisionOf message)
    historyLost := observer.historyLost || outcome.historyLost }

structure Watch where
  board : MessageBoard
  observer : Option Observer

/-- What happens to a board that is observed. A restart reads back the board that was written
last. -/
inductive WatchStep (functions : TokenFunctions) (fences : Fences) : Watch → Watch → Prop where
  | operate (board : MessageBoard) (observer : Option Observer) (draw : Draw)
      (operation : MessageOperation) (hdraw : draw.Valid) (hfresh : draw.IsFresh board) :
      WatchStep functions fences ⟨board, observer⟩ ⟨(operation.run fences draw board).1, observer⟩
  | restart (board restored : MessageBoard) (observer : Option Observer)
      (h : (PersistedBoard.fromRecord board).intoRecord fences = some restored) :
      WatchStep functions fences ⟨board, observer⟩ ⟨restored, observer⟩
  | start (board : MessageBoard) (observer : Option Observer) (limit : Option ℕ)
      (outcome : SessionMessageObservationOutcome)
      (h : observeMessages functions board none limit = .ok outcome) :
      WatchStep functions fences ⟨board, observer⟩
        ⟨board, some (Observer.start board outcome.observationToken)⟩
  | observe (board : MessageBoard) (observer : Observer) (limit : Option ℕ)
      (outcome : SessionMessageObservationOutcome)
      (h : observeMessages functions board (some observer.token) limit = .ok outcome) :
      WatchStep functions fences ⟨board, some observer⟩
        ⟨board, some (observer.receive board outcome)⟩

def WatchRun (functions : TokenFunctions) (fences : Fences) (sessionId : Str) (now : ℤ)
    (watch : Watch) : Prop :=
  Relation.ReflTransGen (WatchStep functions fences) ⟨MessageBoard.opened sessionId now, none⟩ watch

theorem lookup_applyMessages_of_notMem {copy : Table Str SessionMessage}
    {messages : List SessionMessage} {id : Str} (h : ∀ message ∈ messages, message.messageId ≠ id) :
    (applyMessages copy messages).lookup id = copy.lookup id := by
  induction messages generalizing copy with
  | nil => rfl
  | cons message _ ih =>
    have hrest := @ih (copy.insert message.messageId message)
      fun other hother ↦ h other (by simp [hother])
    refine hrest.trans ?_
    rw [Table.lookup_insert_eq, if_neg (h message (by simp)).symm]

theorem lookup_applyMessages_of_mem {copy : Table Str SessionMessage}
    {messages : List SessionMessage} (hids : (messages.map SessionMessage.messageId).Nodup)
    {message : SessionMessage} (hmem : message ∈ messages) :
    (applyMessages copy messages).lookup message.messageId = some message := by
  induction messages generalizing copy with
  | nil => simp at hmem
  | cons _ rest ih =>
    rw [List.map_cons, List.nodup_cons] at hids
    rcases List.mem_cons.mp hmem with rfl | hrest
    · have hnone : ∀ other ∈ rest, other.messageId ≠ message.messageId := by
        intro other hother hsame
        exact hids.1 (List.mem_map.mpr ⟨other, hother, hsame⟩)
      refine (lookup_applyMessages_of_notMem hnone).trans ?_
      rw [Table.lookup_insert_eq, if_pos rfl]
    · exact ih hids.2 hrest

/-! ### Runs -/

variable {board : MessageBoard} {observer : Observer} {mark : ℕ}

section Runs

variable {functions : TokenFunctions} {fences : Fences} {sessionId : Str} {now : ℤ}

theorem BoardInvariant.opened (hsession : isValidSessionId sessionId = true) (now : ℤ) :
    BoardInvariant fences (MessageBoard.opened sessionId now) where
  session := hsession
  valid := by simp [MessageBoard.opened]
  bounded := by simp [MessageBoard.opened]
  observation := by
    constructor <;> simp [MessageBoard.opened]
  assignment := by
    constructor <;> simp [MessageBoard.opened]

structure Observes (functions : TokenFunctions) (board : MessageBoard) (observer : Observer)
    (mark : ℕ) : Prop where
  token : observer.token = tokenText functions board.sessionId mark
  follows : Versions.Follows observer.first.versions board.versions mark
    fun id ↦ observer.copy.lookup id
  delivered : ∀ entry ∈ observer.delivered, entry.2 ≤ mark

structure WatchInvariant (functions : TokenFunctions) (fences : Fences) (watch : Watch) : Prop where
  board : BoardInvariant fences watch.board
  room : watch.board.HasRoom 0
  observer : ∀ observer, watch.observer = some observer →
    ∃ mark, Observes functions watch.board observer mark

theorem Observes.advance {next : MessageBoard} (h : Observes functions board observer mark)
    (hadvances : BoardAdvances board next) :
    Observes functions next observer mark where
  token := by
    rw [hadvances.session]
    exact h.token
  follows := h.follows.advance hadvances.versions
  delivered := h.delivered

/-- What an answer does for an observer. -/
theorem BoardInvariant.answer (h : BoardInvariant fences board) (hfunctions : functions.Lawful)
    (hroom : board.HasRoom 0) (hobserves : Observes functions board observer mark)
    (limit : Option ℕ) :
    ∃ snapshot outcome, observeMessages functions board (some observer.token) limit = .ok outcome ∧
      IsSnapshot board mark snapshot ∧ outcome.messages = snapshot.messages ∧
      outcome.hasMore = snapshot.hasMore ∧
      outcome.observationToken = tokenText functions board.sessionId snapshot.nextRevision := by
  have hmark : mark ≤ board.messageObservationRevision := hobserves.follows.marked
  have hparse := parseObservationToken_tokenText board.sessionId hfunctions
    (lt_of_le_of_lt hmark hroom)
  obtain ⟨snapshot, hsnapshot, his⟩ := h.observation.snapshot hmark
    (show 0 < max 1 (min (limit.getD defaultMessageListLimit) maxMessageListLimit) by omega)
  refine ⟨snapshot, ⟨snapshot.messages, tokenText functions board.sessionId snapshot.nextRevision,
    snapshot.changed, snapshot.historyLost, snapshot.hasMore⟩, ?_, his, rfl, rfl, rfl⟩
  simp only [observeMessages, hobserves.token, bind_eq_ok]
  exact ⟨mark, hparse, snapshot, hsnapshot, _, encodeObservationToken_eq _ hfunctions _, rfl⟩

/-- The observer after an answer. -/
theorem Observes.receive (h : Observes functions board observer mark)
    {snapshot : MessageObservationSnapshot} {outcome : SessionMessageObservationOutcome}
    (hsnapshot : IsSnapshot board mark snapshot) (hmessages : outcome.messages = snapshot.messages)
    (htoken : outcome.observationToken = tokenText functions board.sessionId
      snapshot.nextRevision) :
    Observes functions board (observer.receive board outcome) snapshot.nextRevision where
  token := htoken
  follows := by
    refine h.follows.deliver hsnapshot.next.2 ?_ ?_
    · rintro id message revision ⟨hmem, rfl, hlookup⟩ hlater hle
      refine lookup_applyMessages_of_mem (by rw [hmessages]; exact hsnapshot.distinct) ?_
      rw [hmessages]
      exact hsnapshot.complete _ _ _ ⟨hmem, rfl, hlookup⟩ hlater hle
    · rintro id message revision ⟨hmem, rfl, hlookup⟩ hle
      refine lookup_applyMessages_of_notMem fun other hother hsame ↦ ?_
      rw [hmessages] at hother
      obtain ⟨_, ⟨-, -, hfound⟩, hlater, -⟩ := hsnapshot.returned other hother
      rw [hsame, hlookup, Option.some.injEq] at hfound
      omega
  delivered := by
    intro entry hentry
    rcases List.mem_append.mp hentry with hold | hnew
    · exact (h.delivered entry hold).trans hsnapshot.next.1
    · obtain ⟨message, hmessage, rfl⟩ := List.mem_map.mp hnew
      rw [hmessages] at hmessage
      obtain ⟨revision, ⟨-, -, hlookup⟩, -, hle⟩ := hsnapshot.returned message hmessage
      simp only [MessageBoard.revisionOf, hlookup, Option.getD_some]
      exact hle

theorem WatchInvariant.step (hfunctions : functions.Lawful) (hfences : fences.FingerprintsValid)
    {watch next : Watch} (h : WatchInvariant functions fences watch)
    (hstep : WatchStep functions fences watch next) : WatchInvariant functions fences next := by
  cases hstep with
  | operate board observer _ operation hdraw hfresh =>
    have hadvances := h.board.run_advances hfences hdraw hfresh operation
    refine ⟨h.board.run hfences hdraw hfresh operation, ?_, ?_⟩
    · exact h.board.changes_room hfences hdraw (run_changes h.board hdraw hfresh operation) h.room
    · intro observer hobserver
      obtain ⟨mark, hobserves⟩ := h.observer observer hobserver
      exact ⟨mark, hobserves.advance hadvances⟩
  | restart board _ observer hrestored =>
    rw [intoRecord_fromRecord h.board, Option.some.injEq] at hrestored
    subst hrestored
    refine ⟨h.board.setUpdatedAt _, h.room, ?_⟩
    intro observer hobserver
    obtain ⟨mark, hobserves⟩ := h.observer observer hobserver
    exact ⟨mark, hobserves.advance (setUpdatedAt_advances _)⟩
  | start board observer _ _ houtcome =>
    refine ⟨h.board, h.room, ?_⟩
    rintro observer hobserver
    obtain rfl := Option.some.inj hobserver
    simp only [observeMessages, encodeObservationToken_eq _ hfunctions] at houtcome
    obtain rfl := Except.ok.inj houtcome
    exact ⟨board.messageObservationRevision, rfl, Versions.Follows.start _
      _, by simp [Observer.start]⟩
  | observe board observer limit _ houtcome =>
    refine ⟨h.board, h.room, ?_⟩
    rintro _ hreceived
    obtain rfl := Option.some.inj hreceived
    obtain ⟨mark, hobserves⟩ := h.observer observer rfl
    obtain ⟨_, answer, hanswer, hsnapshot, hmessages, -, htoken⟩ :=
      h.board.answer hfunctions h.room hobserves limit
    obtain rfl := Except.ok.inj (hanswer.symm.trans houtcome)
    exact ⟨_, hobserves.receive hsnapshot hmessages htoken⟩

theorem WatchInvariant.run (hfunctions : functions.Lawful) (hfences : fences.FingerprintsValid)
    (hsession : isValidSessionId sessionId = true) {watch : Watch}
    (hrun : WatchRun functions fences sessionId now watch) :
    WatchInvariant functions fences watch := by
  induction hrun with
  | refl =>
    refine ⟨BoardInvariant.opened hsession now, ?_, by simp⟩
    show 0 + 0 < 2 ^ 64
    decide
  | tail _ hstep ih => exact ih.step hfunctions hfences hstep

/-! ### What an observer may rely on -/

/-- A message was created, or given a new revision, after a board was seen. -/
def ChangedSince (first board : MessageBoard) (message : SessionMessage) : Prop :=
  ¬ (message ∈ first.messages ∧ first.messageObservationRevisions.lookup message.messageId =
    board.messageObservationRevisions.lookup message.messageId)

structure GoodAnswer (functions : TokenFunctions) (board : MessageBoard) (observer : Observer)
    (outcome : SessionMessageObservationOutcome) : Prop where
  current : outcome.hasMore = false → (observer.receive board outcome).historyLost = false →
    ∀ message ∈ board.messages, ChangedSince observer.first board message →
      (observer.receive board outcome).copy.lookup message.messageId = some message
  forward : ∃ before next, parseObservationToken functions board.sessionId observer.token =
    .ok before ∧
    parseObservationToken functions board.sessionId outcome.observationToken = .ok next ∧
      before ≤ next
  once : (outcome.messages.map SessionMessage.messageId).Nodup ∧ ∀ message ∈ outcome.messages,
    (message.messageId, board.revisionOf message) ∉ observer.delivered

/-- A restart that reads back the board as it is changes nothing that can be observed. -/
def UnchangedByRestart (functions : TokenFunctions) (fences : Fences) (board : MessageBoard) :
    Prop :=
  ∃ restored, (PersistedBoard.fromRecord board).intoRecord fences = some restored ∧
    restored.messages = board.messages ∧
    restored.messageObservationRevisions = board.messageObservationRevisions ∧
    ∀ token limit, observeMessages functions restored token limit =
      observeMessages functions board token limit

theorem Observes.goodAnswer (h : Observes functions board observer mark)
    (hfunctions : functions.Lawful) (hboard : ObservationInvariant board) (hroom : board.HasRoom 0)
    {snapshot : MessageObservationSnapshot}
    {outcome : SessionMessageObservationOutcome} (hsnapshot : IsSnapshot board mark snapshot)
    (hmessages : outcome.messages = snapshot.messages) (hmore : outcome.hasMore = snapshot.hasMore)
    (htoken : outcome.observationToken = tokenText functions board.sessionId
      snapshot.nextRevision) :
    GoodAnswer functions board observer outcome where
  current := by
    intro hlast _ message hmem hchanged
    have hreceived := h.receive hsnapshot hmessages htoken
    rw [hmore] at hlast
    obtain ⟨revision, hlookup⟩ := hboard.known message hmem
    have hle : revision ≤ snapshot.nextRevision := by
      rw [hsnapshot.last hlast]
      exact (hboard.retained _ _ hlookup).2.2
    rcases hreceived.follows.copied _ _ _ ⟨hmem, rfl, hlookup⟩ hle with ⟨hfirst, -, hold⟩ | hcopied
    · exact absurd ⟨hfirst, hold.trans hlookup.symm⟩ hchanged
    · exact hcopied
  forward := by
    refine ⟨mark, snapshot.nextRevision, ?_, ?_, hsnapshot.next.1⟩
    · rw [h.token]
      exact parseObservationToken_tokenText _ hfunctions (lt_of_le_of_lt h.follows.marked hroom)
    · rw [htoken]
      exact parseObservationToken_tokenText _ hfunctions (lt_of_le_of_lt hsnapshot.next.2 hroom)
  once := by
    refine ⟨by rw [hmessages]; exact hsnapshot.distinct, fun message hmessage hdelivered ↦ ?_⟩
    rw [hmessages] at hmessage
    obtain ⟨revision, ⟨-, -, hlookup⟩, _, -⟩ := hsnapshot.returned message hmessage
    have hle := h.delivered _ hdelivered
    simp only [MessageBoard.revisionOf, hlookup, Option.getD_some] at hle
    omega

theorem BoardInvariant.unchangedByRestart (h : BoardInvariant fences board) :
    UnchangedByRestart functions fences board :=
  ⟨board.restarted, intoRecord_fromRecord h, rfl, rfl, fun _ _ ↦ rfl⟩

/-- After every run, whatever limit the observer asks for, it has an answer; and every answer is
right. A restart changes nothing. -/
theorem observer_keeps_up (hfunctions : functions.Lawful) (hfences : fences.FingerprintsValid)
    (hsession : isValidSessionId sessionId = true) {watch : Watch}
    (hrun : WatchRun functions fences sessionId now watch) :
    (∀ observer, watch.observer = some observer → ∀ limit, ∃ outcome,
        observeMessages functions watch.board (some observer.token) limit = .ok outcome ∧
          GoodAnswer functions watch.board observer outcome) ∧
      UnchangedByRestart functions fences watch.board := by
  have h := WatchInvariant.run hfunctions hfences hsession hrun
  refine ⟨?_, h.board.unchangedByRestart⟩
  intro observer hobserver limit
  obtain ⟨_, hobserves⟩ := h.observer observer hobserver
  obtain ⟨_, outcome, houtcome, hsnapshot, hmessages, hmore, htoken⟩ :=
    h.board.answer hfunctions h.room hobserves limit
  exact ⟨outcome, houtcome,
    hobserves.goodAnswer hfunctions h.board.observation h.room hsnapshot hmessages hmore htoken⟩

end Runs

/-! ### A session -/

/-- The digests of the session `wc_sess_1`, with the tags of its revisions 0, 1, 2 and 4. -/
def sampleDigest (domain : DigestDomain) (_ : Str) (extra : List UInt8) : List UInt8 :=
  match domain, extra with
  | .binding, _ => [171, 146, 96, 15, 206, 106, 17, 199, 92, 95, 164, 17, 55, 225, 131, 4, 63, 239,
    105, 63, 10, 179, 160, 21, 242, 130, 133, 246, 205, 57, 133, 21]
  | .mask, _ => [250, 241, 178, 122, 75, 232, 61, 159, 87, 145, 199, 0, 246, 174, 185, 35, 8, 69,
    124, 121, 136, 167, 125, 42, 180, 62, 175, 238, 46, 8, 253, 165]
  | .tag, [250, 241, 178, 122, 75, 232, 61, 159] =>
    [9, 64, 93, 24, 20, 44, 160, 37, 60, 185, 152, 136, 81, 142, 145, 73, 235, 97, 205, 184, 189,
      206, 104, 59, 29, 232, 156, 81, 10, 148, 86, 108]
  | .tag, [250, 241, 178, 122, 75, 232, 61, 158] =>
    [243, 31, 105, 215, 66, 137, 20, 79, 55, 170, 250, 53, 224, 130, 69, 39, 69, 189, 240, 65, 137,
      20, 54, 103, 185, 26, 4, 230, 205, 28, 71, 250]
  | .tag, [250, 241, 178, 122, 75, 232, 61, 157] =>
    [219, 103, 164, 220, 6, 209, 247, 233, 106, 83, 78, 240, 237, 210, 48, 199, 27, 21, 141, 210,
      192, 186, 200, 87, 72, 91, 143, 69, 166, 244, 111, 138]
  | .tag, [250, 241, 178, 122, 75, 232, 61, 155] =>
    [136, 232, 45, 191, 139, 3, 98, 60, 122, 206, 137, 209, 242, 41, 55, 217, 172, 9, 103, 130, 87,
      250, 84, 25, 27, 200, 211, 120, 199, 118, 56, 10]
  | .tag, _ => List.replicate 32 0

def sampleTokens : TokenFunctions := ⟨sampleDigest, urlSafeEncode, urlSafeDecode⟩

theorem sampleTokens_lawful : sampleTokens.Lawful where
  digest domain sessionId extra := by
    simp only [sampleTokens]
    unfold sampleDigest
    split <;> rfl
  length := length_urlSafeEncode
  ascii := urlSafeEncode_ascii
  decode := urlSafeDecode_encode

/-- Fences that no completion of the session uses. -/
def sampleFences : Fences :=
  ⟨fun _ _ _ _ ↦ [], fun _ ↦ List.replicate 64 'a', fun _ ↦ false, isValidCompletionId⟩

theorem sampleFences_valid : sampleFences.FingerprintsValid :=
  fun _ ↦ show isValidCompletionId (List.replicate 64 'a') = true by decide +kernel

def sampleSessionId : Str := "wc_sess_1".toList

def sampleMessageId : Str := "wc_msg_1".toList

def sampleResolve (text : Str) : MessageOperation := .resolve sampleMessageId (some text)

def sampleDraw : Draw := ⟨2, "wc_msg_2".toList⟩

/-- A question is posted, and then resolved several times. -/
def sampleBoard (resolutions : List Str) : MessageBoard :=
  resolutions.foldl (fun board text ↦ ((sampleResolve text).run sampleFences sampleDraw board).1)
    ((MessageOperation.post ⟨.question, "why".toList, [], none, .normal⟩ false).run sampleFences
      ⟨1, sampleMessageId⟩ (MessageBoard.opened sampleSessionId 1)).1

/-- The question, resolved as `a`. -/
def sampleQuestion : SessionMessage :=
  { newMessage sampleSessionId sampleMessageId 1 .question .normal "why".toList [] none false with
    status := .resolved
    resolvedAt := some 2
    resolution := some "a".toList }

/-- An observer who has called when the question was posted. -/
def startedObserver : Observer :=
  Observer.start (sampleBoard []) (tokenText sampleTokens sampleSessionId 1)

theorem sampleResolve_step (resolutions : List Str) (text : Str) (observer : Option Observer)
    (hfresh : sampleDraw.IsFresh (sampleBoard resolutions)) :
    WatchStep sampleTokens sampleFences ⟨sampleBoard resolutions, observer⟩
      ⟨sampleBoard (resolutions ++ [text]), observer⟩ := by
  have hstep := @WatchStep.operate sampleTokens sampleFences (sampleBoard resolutions) observer
    sampleDraw (sampleResolve text) ⟨by decide, by decide +kernel⟩ hfresh
  simpa [sampleBoard] using hstep

/-- The question is posted, the observer calls for the first time, and the question is resolved. -/
theorem startedObserver_run :
    WatchRun sampleTokens sampleFences sampleSessionId 1
      ⟨sampleBoard ["a".toList], some startedObserver⟩ := by
  have hposted : WatchStep sampleTokens sampleFences ⟨MessageBoard.opened sampleSessionId 1, none⟩
      ⟨sampleBoard [], none⟩ :=
    .operate _ none ⟨1, sampleMessageId⟩
      (MessageOperation.post ⟨.question, "why".toList, [], none, .normal⟩ false)
      ⟨by decide, by decide +kernel⟩ (by simp [Draw.IsFresh, MessageBoard.opened])
  have hstarted : WatchStep sampleTokens sampleFences ⟨sampleBoard [], none⟩
      ⟨sampleBoard [], some startedObserver⟩ :=
    .start _ none none ⟨[], tokenText sampleTokens sampleSessionId 1, false, false, false⟩
      (toOption_eq_some.mp (by decide +kernel))
  exact .tail (.tail (.single hposted) hstarted)
    (sampleResolve_step [] "a".toList _ (by decide +kernel))

/-- A second message comes after the resolution. -/
def fuller : MessageOperation := .post ⟨.question, "when".toList, [], none, .normal⟩ false

def fullerBoard : MessageBoard :=
  (fuller.run sampleFences ⟨3, "wc_msg_3".toList⟩ (sampleBoard ["a".toList])).1

/-- A page of one message, the question resolved as `a`. -/
def firstPage : SessionMessageObservationOutcome :=
  ⟨[sampleQuestion], tokenText sampleTokens sampleSessionId 2, true, false, true⟩

/-- Between the two pages of an observer the session is restarted. -/
theorem observer_keeps_up_paged :
    (∀ observer, some (startedObserver.receive fullerBoard firstPage) = some observer →
      ∀ limit, ∃ outcome,
        observeMessages sampleTokens fullerBoard.restarted (some observer.token) limit =
          .ok outcome ∧
          GoodAnswer sampleTokens fullerBoard.restarted observer outcome) ∧
      UnchangedByRestart sampleTokens sampleFences fullerBoard.restarted := by
  refine @observer_keeps_up sampleTokens sampleFences sampleSessionId 1 sampleTokens_lawful
    sampleFences_valid (by decide +kernel)
    ⟨fullerBoard.restarted, some (startedObserver.receive fullerBoard firstPage)⟩ ?_
  have hposted : WatchStep sampleTokens sampleFences
      ⟨sampleBoard ["a".toList], some startedObserver⟩ ⟨fullerBoard, some startedObserver⟩ :=
    .operate _ _ ⟨3, "wc_msg_3".toList⟩ fuller ⟨by decide, by decide +kernel⟩ (by decide +kernel)
  have hpage : WatchStep sampleTokens sampleFences ⟨fullerBoard, some startedObserver⟩
      ⟨fullerBoard, some (startedObserver.receive fullerBoard firstPage)⟩ :=
    .observe _ _ (some 1) firstPage (toOption_eq_some.mp (by decide +kernel))
  have hpaged := (startedObserver_run.tail hposted).tail hpage
  have hboard := (WatchInvariant.run sampleTokens_lawful sampleFences_valid
    (by decide +kernel) hpaged).board
  exact hpaged.tail (.restart _ _ _ (intoRecord_fromRecord hboard))

/-- An observer who has seen the question resolved as `a`. -/
def sampleObserver : Observer :=
  startedObserver.receive (sampleBoard ["a".toList])
    ⟨[sampleQuestion], tokenText sampleTokens sampleSessionId 2, true, false, false⟩

/-- A message that was resolved as `a`, as `b` and as `a` again is delivered a second time in a
state that the observer already holds. -/
theorem delivers_restored_state_again :
    ∃ watch observer outcome, WatchRun sampleTokens sampleFences sampleSessionId 1 watch ∧
      watch.observer = some observer ∧
      observeMessages sampleTokens watch.board (some observer.token) none = .ok outcome ∧
      ∃ message ∈ outcome.messages, observer.copy.lookup message.messageId = some message := by
  refine ⟨⟨sampleBoard ["a".toList, "b".toList, "a".toList], some sampleObserver⟩, sampleObserver,
    ⟨[sampleQuestion], tokenText sampleTokens sampleSessionId 4, true, false, false⟩, ?_, rfl,
    toOption_eq_some.mp (by decide +kernel), sampleQuestion, by simp, by decide +kernel⟩
  have hseen : WatchStep sampleTokens sampleFences
      ⟨sampleBoard ["a".toList], some startedObserver⟩
      ⟨sampleBoard ["a".toList], some sampleObserver⟩ :=
    .observe _ _ none ⟨[sampleQuestion], tokenText sampleTokens sampleSessionId 2, true,
      false, false⟩ (toOption_eq_some.mp (by decide +kernel))
  refine .tail (.tail (startedObserver_run.tail hseen) ?_)
    (sampleResolve_step ["a".toList, "b".toList] "a".toList _ (by decide +kernel))
  exact sampleResolve_step ["a".toList] "b".toList _ (by decide +kernel)

end WebCodex.WorkflowSession
