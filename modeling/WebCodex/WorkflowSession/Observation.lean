import Mathlib.Data.List.Sort
import Mathlib.Data.Prod.Lex
import Mathlib.Data.List.Lex
import WebCodex.Foundation.Revisions
import WebCodex.WorkflowSession.ObservationToken
import WebCodex.WorkflowSession.Restart

/-!
`observe_messages` returns the messages that have changed since the revision of a token, the
earliest change first, up to a limit. If there are more, its token is for the last change on the
page, else for the current revision. A call that waits for a change looks again later, so its
answer is that of a call without waiting.
-/

namespace WebCodex.WorkflowSession

open Foundation Foundation.Text

def defaultMessageListLimit : ℕ := 50
def maxMessageListLimit : ℕ := 100

/-- The messages that have changed after a revision, with their own. -/
def observationCandidates (board : MessageBoard) (afterRevision : ℕ) : List (ℕ × SessionMessage) :=
  board.messages.filterMap fun message ↦
    let revision := (board.messageObservationRevisions.lookup message.messageId).getD 0
    if afterRevision < revision then some (revision, message) else none

/-- Candidates are in the order of their revisions, and then of their ids. -/
def observationOrder (candidate : ℕ × SessionMessage) : ℕ ×ₗ Str :=
  toLex (candidate.1, candidate.2.messageId)

def sortedCandidates (board : MessageBoard) (afterRevision : ℕ) : List (ℕ × SessionMessage) :=
  (observationCandidates board afterRevision).insertionSort fun left right ↦
    observationOrder left ≤ observationOrder right

structure MessageObservationSnapshot where
  messages : List SessionMessage
  nextRevision : ℕ
  (changed historyLost hasMore : Bool)
deriving DecidableEq

def messageObservationSnapshot (board : MessageBoard) (afterRevision limit : ℕ) :
    Except SessionMessageObservationError MessageObservationSnapshot := do
  ensure (decide (afterRevision ≤ board.messageObservationRevision)) .futureRevision
  let candidates := sortedCandidates board afterRevision
  let hasMore := decide (limit < candidates.length)
  let page := candidates.take limit
  pure
    { messages := page.map Prod.snd
      nextRevision := if hasMore then (page.getLast?.map Prod.fst).getD afterRevision
        else board.messageObservationRevision
      changed := decide (afterRevision < board.messageObservationRevision)
      historyLost := decide (afterRevision < board.messageObservationFloor)
      hasMore := hasMore }

structure SessionMessageObservationOutcome where
  messages : List SessionMessage
  observationToken : Str
  (changed historyLost hasMore : Bool)
deriving DecidableEq

/-- `observe_messages`, and `observation_outcome` for its answer. -/
def observeMessages (functions : TokenFunctions) (board : MessageBoard)
    (afterObservationToken : Option Str) (limit : Option ℕ) :
    Except SessionMessageObservationError SessionMessageObservationOutcome :=
  let limit := max 1 (min (limit.getD defaultMessageListLimit) maxMessageListLimit)
  match afterObservationToken with
  | none => do
    let token ← encodeObservationToken functions board.sessionId board.messageObservationRevision
    pure ⟨[], token, false, false, false⟩
  | some token => do
    let afterRevision ← parseObservationToken functions board.sessionId token
    let snapshot ← messageObservationSnapshot board afterRevision limit
    let next ← encodeObservationToken functions board.sessionId snapshot.nextRevision
    pure ⟨snapshot.messages, next, snapshot.changed, snapshot.historyLost, snapshot.hasMore⟩

/-! ### Versions of a board -/

/-- The messages of a board with their revisions. -/
def MessageBoard.versions (board : MessageBoard) : Versions Str SessionMessage ℕ where
  has id message revision := message ∈ board.messages ∧ message.messageId = id ∧
    board.messageObservationRevisions.lookup id = some revision
  current := board.messageObservationRevision

section Candidates

variable {fences : Fences} {board : MessageBoard} {afterRevision : ℕ}

/-- The candidates are the messages with a later revision. -/
theorem mem_sortedCandidates {candidate : ℕ × SessionMessage} :
    candidate ∈ sortedCandidates board afterRevision ↔
      board.versions.has candidate.2.messageId candidate.2 candidate.1 ∧
        afterRevision < candidate.1 := by
  unfold sortedCandidates
  rw [List.mem_insertionSort, observationCandidates, List.mem_filterMap]
  constructor
  · rintro ⟨message, hmem, hsome⟩
    by_cases hlater : afterRevision <
        (board.messageObservationRevisions.lookup message.messageId).getD 0
    · rw [if_pos hlater, Option.some.injEq] at hsome
      subst hsome
      refine ⟨⟨hmem, rfl, ?_⟩, hlater⟩
      cases hlookup : board.messageObservationRevisions.lookup message.messageId with
      | none =>
        rw [hlookup] at hlater
        exact absurd hlater (Nat.not_lt_zero _)
      | some => rfl
    · rw [if_neg hlater] at hsome
      exact absurd hsome (by simp)
  · rintro ⟨⟨hmem, -, hlookup⟩, hlater⟩
    refine ⟨candidate.2, hmem, ?_⟩
    simp only [hlookup, Option.getD_some]
    exact if_pos hlater

theorem sortedCandidates_pairwise :
    (sortedCandidates board afterRevision).Pairwise fun left right ↦ left.1 ≤ right.1 := by
  have hsorted := List.pairwise_insertionSort
    (fun left right : ℕ × SessionMessage ↦ observationOrder left ≤ observationOrder right)
    (observationCandidates board afterRevision)
  refine hsorted.imp fun hle ↦ ?_
  rcases Prod.Lex.le_iff.mp hle with hlt | ⟨hsame, -⟩
  · exact hlt.le
  · exact hsame.le

/-- Two messages of a board with the same revision are the same. -/
theorem ObservationInvariant.eq_of_revision (h : ObservationInvariant board)
    {first second : ℕ × SessionMessage}
    (hfirst : board.versions.has first.2.messageId first.2 first.1)
    (hsecond : board.versions.has second.2.messageId second.2 second.1)
    (hsame : first.1 = second.1) : first = second := by
  obtain ⟨hmem, -, hlookup⟩ := hfirst
  obtain ⟨hmemOther, -, hlookupOther⟩ := hsecond
  rw [← hsame] at hlookupOther
  have hid := h.distinct _ _ _ hlookup hlookupOther
  exact Prod.ext hsame (List.inj_on_of_nodup_map h.ids hmem hmemOther hid)

/-- The messages of a page have different ids. -/
theorem ObservationInvariant.page_nodup (h : ObservationInvariant board) (afterRevision limit : ℕ) :
    ((((sortedCandidates board afterRevision).take limit).map Prod.snd).map
      SessionMessage.messageId).Nodup := by
  have hcandidates : ((observationCandidates board afterRevision).map Prod.snd).Sublist
      board.messages := by
    unfold observationCandidates
    generalize board.messages = messages
    induction messages with
    | nil => exact List.Sublist.refl _
    | cons message rest ih =>
      simp only [List.filterMap_cons]
      split
      · exact ih.cons _
      · rename_i candidate hcandidate
        split at hcandidate
        · obtain rfl := Option.some.inj hcandidate
          exact ih.cons_cons _
        · exact absurd hcandidate (by simp)
  have hsorted : ((sortedCandidates board afterRevision).map Prod.snd).Perm
      ((observationCandidates board afterRevision).map Prod.snd) :=
    (List.perm_insertionSort _ _).map _
  have hnodup : (((sortedCandidates board afterRevision).map Prod.snd).map
      SessionMessage.messageId).Nodup :=
    (hsorted.map _).nodup_iff.mpr (h.ids.sublist (hcandidates.map _))
  exact hnodup.sublist (((List.take_sublist _ _).map _).map _)

/-- What an answer says, for a token that can be given out. -/
structure IsSnapshot (board : MessageBoard) (afterRevision : ℕ)
    (snapshot : MessageObservationSnapshot) : Prop where
  /-- the mark goes on, but not beyond what there is -/
  next : afterRevision ≤ snapshot.nextRevision ∧
    snapshot.nextRevision ≤ board.messageObservationRevision
  /-- what is returned has changed, and not after the new mark -/
  returned : ∀ message ∈ snapshot.messages, ∃ revision,
    board.versions.has message.messageId message revision ∧ afterRevision < revision ∧
      revision ≤ snapshot.nextRevision
  /-- what has changed up to the new mark is returned -/
  complete : ∀ id message revision, board.versions.has id message revision →
    afterRevision < revision → revision ≤ snapshot.nextRevision → message ∈ snapshot.messages
  /-- the last page goes up to the current revision -/
  last : snapshot.hasMore = false → snapshot.nextRevision = board.messageObservationRevision
  distinct : (snapshot.messages.map SessionMessage.messageId).Nodup

theorem ObservationInvariant.snapshot (h : ObservationInvariant board)
    (hafter : afterRevision ≤ board.messageObservationRevision) {limit : ℕ} (hlimit : 0 < limit) :
    ∃ snapshot, messageObservationSnapshot board afterRevision limit = .ok snapshot ∧
      IsSnapshot board afterRevision snapshot := by
  refine ⟨_, by simp only [messageObservationSnapshot, decide_eq_true hafter]; rfl, ?_⟩
  have hcurrent : ∀ candidate ∈ sortedCandidates board afterRevision,
      candidate.1 ≤ board.messageObservationRevision := by
    intro candidate hcandidate
    exact (h.retained _ _ (mem_sortedCandidates.mp hcandidate).1.2.2).2.2
  by_cases hmore : limit < (sortedCandidates board afterRevision).length
  · -- the page ends at its last candidate
    have hne : (sortedCandidates board afterRevision).take limit ≠ [] := by
      intro hnil
      have hlength := congrArg List.length hnil
      rw [List.length_take, List.length_nil] at hlength
      omega
    obtain ⟨last, hlast⟩ := List.getLast?_isSome.mpr hne |> Option.isSome_iff_exists.mp
    have hlastMem : last ∈ (sortedCandidates board afterRevision).take limit :=
      List.mem_of_getLast? hlast
    have hlastSorted := List.mem_of_mem_take hlastMem
    have hsplit := List.take_append_drop limit (sortedCandidates board afterRevision)
    have hpairwise := @sortedCandidates_pairwise board afterRevision
    rw [← hsplit] at hpairwise
    obtain ⟨hpage, -, hrest⟩ := List.pairwise_append.mp hpairwise
    have hupTo : ∀ candidate ∈ (sortedCandidates board afterRevision).take limit,
        candidate.1 ≤ last.1 := by
      intro candidate hcandidate
      obtain ⟨_, hbefore⟩ := List.getLast?_eq_some_iff.mp hlast
      rw [hbefore] at hcandidate hpage
      rcases List.mem_append.mp hcandidate with hearlier | hsame
      · exact (List.pairwise_append.mp hpage).2.2 candidate hearlier last (by simp)
      · rw [List.mem_singleton.mp hsame]
    simp only [hmore, decide_true, if_true, hlast, Option.map_some, Option.getD_some]
    refine ⟨⟨?_, hcurrent last hlastSorted⟩, ?_, ?_, by simp, h.page_nodup afterRevision limit⟩
    · exact (mem_sortedCandidates.mp hlastSorted).2.le
    · intro message hmessage
      obtain ⟨candidate, hcandidate, rfl⟩ := List.mem_map.mp hmessage
      obtain ⟨hhas, hlater⟩ := mem_sortedCandidates.mp (List.mem_of_mem_take hcandidate)
      exact ⟨candidate.1, hhas, hlater, hupTo candidate hcandidate⟩
    · intro id message revision hhas hlater hle
      obtain ⟨hmem, rfl, hlookup⟩ := hhas
      have hcandidate : (revision, message) ∈ sortedCandidates board afterRevision :=
        mem_sortedCandidates.mpr ⟨⟨hmem, rfl, hlookup⟩, hlater⟩
      refine List.mem_map.mpr ⟨(revision, message), ?_, rfl⟩
      rw [← hsplit, List.mem_append] at hcandidate
      rcases hcandidate with hpageMem | hrestMem
      · exact hpageMem
      · -- a later candidate with a revision of the page would be the last one
        have hge := hrest last hlastMem (revision, message) hrestMem
        have heq : (revision, message) = last :=
          h.eq_of_revision ⟨hmem, rfl, hlookup⟩ (mem_sortedCandidates.mp hlastSorted).1
            (le_antisymm hle hge)
        rw [heq]
        exact hlastMem
  · have htake : (sortedCandidates board afterRevision).take limit =
        sortedCandidates board afterRevision :=
      List.take_of_length_le (Nat.le_of_not_lt hmore)
    have hdistinct := h.page_nodup afterRevision limit
    rw [htake] at hdistinct
    simp only [hmore, decide_false, Bool.false_eq_true, if_false, htake]
    refine ⟨⟨hafter, le_rfl⟩, ?_, ?_, fun _ ↦ rfl, hdistinct⟩
    · intro message hmessage
      obtain ⟨candidate, hcandidate, rfl⟩ := List.mem_map.mp hmessage
      obtain ⟨hhas, hlater⟩ := mem_sortedCandidates.mp hcandidate
      exact ⟨candidate.1, hhas, hlater, hcurrent candidate hcandidate⟩
    · intro id message revision hhas hlater hle
      obtain ⟨hmem, rfl, hlookup⟩ := hhas
      exact List.mem_map.mpr
        ⟨(revision, message), mem_sortedCandidates.mpr ⟨⟨hmem, rfl, hlookup⟩, hlater⟩, rfl⟩

end Candidates

/-! ### Operations advance the versions -/

section Advances

variable {fences : Fences} {draw : Draw} {board next : MessageBoard}

/-- Messages change with a new revision only, and the session stays the same. -/
structure BoardAdvances (board next : MessageBoard) : Prop where
  versions : Versions.Advances board.versions next.versions
  session : next.sessionId = board.sessionId

theorem BoardAdvances.refl (board : MessageBoard) : BoardAdvances board board :=
  ⟨Versions.Advances.refl _, rfl⟩

theorem BoardAdvances.trans {first second third : MessageBoard} (hone : BoardAdvances first second)
    (htwo : BoardAdvances second third) : BoardAdvances first third :=
  ⟨hone.versions.trans htwo.versions, htwo.session.trans hone.session⟩

theorem setUpdatedAt_advances (time : ℤ) : BoardAdvances board (board.setUpdatedAt time) :=
  ⟨⟨le_rfl, fun _ _ _ hhas _ ↦ hhas⟩, rfl⟩

theorem revise_advances (h : ObservationInvariant board) (id : Str)
    (f : SessionMessage → SessionMessage)
    (hf : ∀ message, (f message).messageId = message.messageId) :
    BoardAdvances board (board.revise id f) := by
  refine ⟨⟨Nat.le_succ _, ?_⟩, rfl⟩
  rintro _ message _ ⟨hmem, rfl, hlookup⟩ hle
  rw [lookup_revise] at hlookup
  by_cases hsame : message.messageId = id
  · rw [if_pos hsame, Option.some.injEq] at hlookup
    exact absurd (hlookup ▸ hle) (Nat.not_succ_le_self _)
  · rw [if_neg hsame] at hlookup
    rcases (mem_revise h.ids).mp hmem with ⟨hold, -⟩ | ⟨original, -, hid, rfl⟩
    · exact ⟨hold, rfl, hlookup⟩
    · exact absurd ((hf original).trans hid) hsame

theorem push_advances (message : SessionMessage) : BoardAdvances board (board.push message) := by
  refine ⟨⟨Nat.le_succ _, ?_⟩, rfl⟩
  rintro _ other _ ⟨hmem, rfl, hlookup⟩ hle
  have hinsert : (board.push message).messageObservationRevisions.lookup other.messageId =
      if other.messageId = message.messageId then some (board.messageObservationRevision + 1)
      else board.messageObservationRevisions.lookup other.messageId :=
        Table.lookup_insert_eq _ _ _ _
  rw [hinsert] at hlookup
  by_cases hsame : other.messageId = message.messageId
  · rw [if_pos hsame, Option.some.injEq] at hlookup
    exact absurd (hlookup ▸ hle) (Nat.not_succ_le_self _)
  · rw [if_neg hsame] at hlookup
    rcases List.mem_append.mp hmem with hold | hlast
    · exact ⟨hold, rfl, hlookup⟩
    · exact absurd (congrArg SessionMessage.messageId (List.mem_singleton.mp hlast)) hsame

theorem Overfull.evict_advances {isProtected : SessionMessage → Bool} (h : Overfull fences board)
    (hfew : board.messages.countP isProtected ≤ defaultMaxMessagesPerSession) :
    BoardAdvances board (board.evict isProtected).1 := by
  rcases h.evict_cases hfew with ⟨-, hevict⟩ | ⟨evicted, hfind, hevict⟩
  · rw [hevict]
    exact BoardAdvances.refl board
  · rw [hevict]
    obtain ⟨_, hfound⟩ := h.observation.known evicted (List.mem_of_find?_eq_some hfind)
    have hcurrent : (board.remove isProtected evicted).messageObservationRevision =
        board.messageObservationRevision := by
      rw [remove_eq hfound]
    refine ⟨⟨hcurrent.ge, ?_⟩, by rw [remove_eq hfound]⟩
    rintro _ message _ ⟨hmem, rfl, hlookup⟩ -
    obtain ⟨hold, hne⟩ := (mem_remove h.observation hfind).mp hmem
    have herase : (board.remove isProtected evicted).messageObservationRevisions.lookup
        message.messageId = board.messageObservationRevisions.lookup message.messageId := by
      rw [remove_eq hfound]
      exact (Table.lookup_erase_eq _ _ _).trans (if_neg hne)
    exact ⟨hold, rfl, herase.symm.trans hlookup⟩

theorem replacedBoard_advances (h : BoardInvariant fences board)
    (original : SessionMessage) (text : Str) :
    BoardAdvances board (replacedBoard draw text original board) := by
  have hrevised := revise_advances h.observation original.messageId
    (superseded draw.now draw.freshId) fun _ ↦ rfl
  exact hrevised.trans (push_advances _)

theorem completedBoard_advances (h : BoardInvariant fences board) (text : Str)
    (tags : List Str) (input : CompleteSessionMessageInput) :
    BoardAdvances board (completedBoard fences draw text tags input board) := by
  have hrevised := revise_advances h.observation input.messageId
    (completedBy draw.now draw.freshId input.completionId) fun _ ↦ rfl
  have hpushed := hrevised.trans
    (push_advances (answerFor draw.now draw.freshId board.sessionId text tags input))
  exact ⟨⟨hpushed.versions.current, hpushed.versions.kept⟩, rfl⟩

theorem BoardInvariant.change_advances (h : BoardInvariant fences board)
    (hfences : fences.FingerprintsValid) (hdraw : draw.Valid)
    (hchange : BoardChange fences draw board next) : BoardAdvances board next := by
  cases hchange with
  | updated time => exact setUpdatedAt_advances time
  | amended message f _ _ hf =>
    exact revise_advances h.observation message.messageId f fun other ↦ (hf.keeps other).1
  | posted message _ hfresh hnew =>
    have hother : ∀ other ∈ board.messages, other.messageId ≠ message.messageId := by
      rw [hnew.id]
      exact hfresh
    have hover := h.push hnew.valid hnew.status hother
    exact (push_advances message).trans (hover.evict_advances (by simp))
  | replaced original text _ hfresh hmem hopen hunclosed htext =>
    have hover := h.replacedBoard hdraw hfresh hmem hopen hunclosed htext
    have hfew := hover.countP_replaced original.messageId draw.freshId
    have hevicted := (replacedBoard_advances h original text).trans (hover.evict_advances hfew)
    obtain ⟨hfound, -⟩ := hover.evict hfew
    unfold WorkflowSession.replacedBoard at hevicted hfound
    unfold WorkflowSession.commitReplacement
    simp only [hfound, if_true]
    exact hevicted.trans (setUpdatedAt_advances draw.now)
  | completed input text tags _ _ hfresh hcompletes =>
    have hover := h.completedBoard hfences hdraw hfresh hcompletes
    have hfew := hcompletes.countP_completed hover
    have hevicted := (completedBoard_advances h text tags input).trans (hover.evict_advances hfew)
    obtain ⟨hfound, -⟩ := hover.evict hfew
    unfold WorkflowSession.completedBoard at hevicted hfound
    unfold WorkflowSession.commitCompletion
    simp only [hfound, if_true]
    exact hevicted.trans (setUpdatedAt_advances draw.now)

theorem Overfull.evict_revision {isProtected : SessionMessage → Bool} (h : Overfull fences board)
    (hfew : board.messages.countP isProtected ≤ defaultMaxMessagesPerSession) :
    (board.evict isProtected).1.messageObservationRevision = board.messageObservationRevision := by
  rcases h.evict_cases hfew with ⟨-, hevict⟩ | ⟨evicted, hfind, hevict⟩
  · rw [hevict]
  · obtain ⟨_, hfound⟩ := h.observation.known evicted (List.mem_of_find?_eq_some hfind)
    rw [hevict, remove_eq hfound]

/-- The revision of a board stays within 64 bits. -/
theorem BoardInvariant.change_room (h : BoardInvariant fences board)
    (hfences : fences.FingerprintsValid) (hdraw : draw.Valid)
    (hchange : BoardChange fences draw board next) (hroom : board.HasRoom 0) : next.HasRoom 0 := by
  cases hchange with
  | updated => exact hroom
  | amended _ _ hone => exact hone
  | posted message hone hfresh hnew =>
    have hother : ∀ other ∈ board.messages, other.messageId ≠ message.messageId := by
      rw [hnew.id]
      exact hfresh
    have hover := h.push hnew.valid hnew.status hother
    unfold MessageBoard.HasRoom
    rw [hover.evict_revision (by simp)]
    exact hone
  | replaced original _ htwo hfresh hmem hopen hunclosed htext =>
    have hover := h.replacedBoard hdraw hfresh hmem hopen hunclosed htext
    have hfew := hover.countP_replaced original.messageId draw.freshId
    have hrevision := hover.evict_revision hfew
    obtain ⟨hfound, -⟩ := hover.evict hfew
    unfold WorkflowSession.replacedBoard at hrevision hfound
    unfold WorkflowSession.commitReplacement MessageBoard.HasRoom
    simp only [hfound, if_true, MessageBoard.setUpdatedAt, hrevision]
    exact htwo
  | completed _ _ _ _ htwo hfresh hcompletes =>
    have hover := h.completedBoard hfences hdraw hfresh hcompletes
    have hfew := hcompletes.countP_completed hover
    have hrevision := hover.evict_revision hfew
    obtain ⟨hfound, -⟩ := hover.evict hfew
    unfold WorkflowSession.completedBoard at hrevision hfound
    unfold WorkflowSession.commitCompletion MessageBoard.HasRoom
    simp only [hfound, if_true, MessageBoard.setUpdatedAt, hrevision]
    exact htwo

theorem BoardInvariant.changes_room (h : BoardInvariant fences board)
    (hfences : fences.FingerprintsValid) (hdraw : draw.Valid)
    (hchanges : BoardChanges fences draw board next) (hroom : board.HasRoom 0) :
    next.HasRoom 0 := by
  induction hchanges with
  | refl => exact hroom
  | tail hbefore hlast ih =>
    exact (h.changes hfences hdraw hbefore).change_room hfences hdraw hlast ih

theorem BoardInvariant.changes_advances (h : BoardInvariant fences board)
    (hfences : fences.FingerprintsValid) (hdraw : draw.Valid)
    (hchanges : BoardChanges fences draw board next) : BoardAdvances board next := by
  induction hchanges with
  | refl => exact BoardAdvances.refl board
  | tail hbefore hlast ih =>
    exact ih.trans ((h.changes hfences hdraw hbefore).change_advances hfences hdraw hlast)

/-- Every operation advances the versions of the board. -/
theorem BoardInvariant.run_advances (h : BoardInvariant fences board)
    (hfences : fences.FingerprintsValid) (hdraw : draw.Valid) (hfresh : draw.IsFresh board)
    (operation : MessageOperation) : BoardAdvances board (operation.run fences draw board).1 :=
  h.changes_advances hfences hdraw (run_changes h hdraw hfresh operation)

end Advances

end WebCodex.WorkflowSession
