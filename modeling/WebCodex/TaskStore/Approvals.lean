import WebCodex.TaskStore.History
import WebCodex.TaskStore.SingleExecution

/-!
An action that needs an approval is asked for, decided by the host, and then used once. The
history is read off the answers of the store (`ledger`), and a row that is pending or approved
tells how it ends (`Tracked`). So every use comes right after a decision, and that right after a
request (`Vouched`). A row that is asked for again after its time ran out keeps the reason of the
earlier decision and nothing else of it.
-/

namespace WebCodex.TaskStore

open Foundation

/-- What an answer says about the approval of an action. A request is on record with the time at
which its approval expires. -/
inductive ApprovalEntry
  | requested (expiresAt : ℤ)
  | decided (approve : Bool) (now : ℤ)
  | authorized (now : ℤ)
  deriving DecidableEq

/-- Every use comes right after an approving decision, that right after the latest request, and the
approval has not expired. -/
def Vouched (entries : List ApprovalEntry) : Prop :=
  ∀ before now after, entries = before ++ .authorized now :: after → ∃ earlier expiresAt decidedAt,
      before = earlier ++ [.requested expiresAt, .decided true decidedAt] ∧ now < expiresAt

namespace Vouched

variable {entries : List ApprovalEntry}

theorem nil : Vouched [] := by
  intro _ _ _ hsplit
  simp at hsplit

theorem concat (h : Vouched entries) {entry : ApprovalEntry}
    (hentry : ∀ now, entry = .authorized now → ∃ earlier expiresAt decidedAt,
      entries = earlier ++ [.requested expiresAt, .decided true decidedAt] ∧ now < expiresAt) :
    Vouched (entries ++ [entry]) := by
  intro before now after hsplit
  -- The use is the last entry or lies before it.
  rcases List.eq_nil_or_concat after with rfl | ⟨rest, last, rfl⟩
  · obtain ⟨rfl, hlast⟩ := List.append_inj' hsplit rfl
    exact hentry now (List.cons.inj hlast).1
  · have hshape : entries ++ [entry] = (before ++ .authorized now :: rest) ++ [last] := by
      simpa using hsplit
    obtain ⟨hentries, _⟩ := List.append_inj' hshape rfl
    exact h before now rest hentries

end Vouched

/-- What a request and its answer say about the approval of an action. -/
def approvalEntry : TaskRequest → Answer → Option (String × ApprovalEntry)
  | .owner (.approval request), .gate (.pending approval) =>
    some (request.actionHash, .requested approval.expiresAt)
  | .owner (.approval request), .gate (.authorized _) =>
    some (request.actionHash, .authorized request.now)
  | .host (.decideApproval _ approve _ _ now), .decision (.ok approval) =>
    some (approval.actionHash, .decided approve now)
  | _, _ => none

theorem approvalEntry_of_quiet {request : TaskRequest} (h : request.isApproval = false)
    (answer : Answer) : approvalEntry request answer = none := by
  unfold approvalEntry
  split <;> first | rfl | cases h

/-! ### Requests -/

/-- A request does not renew an approval that carries the reason of a decision. -/
def TaskRequest.renewsPlain (rows : TaskRows) : TaskRequest → Bool
  | owner (.approval request) =>
    (rows.loadApprovalByHash request.actionHash).all fun approval ↦
      approval.state != .expired || approval.decisionReason.isNone
  | _ => true

/-- What a request does to the approvals of its task, and what its answer says about them. -/
inductive ApprovalEffect (keys : Keys) (rows : TaskRows) (request : TaskRequest) :
    List ConnectorApproval → Option (String × ApprovalEntry) → Prop
  | quiet (g : ConnectorApproval → ConnectorApproval)
      (hg : ∀ approval, g approval = approval ∨ g approval = approval.expire) :
      ApprovalEffect keys rows request (rows.approvals.map g) none
  | polled (approval : ConnectorApproval) (hmem : approval ∈ rows.approvals)
      (hstate : approval.state = .pending) :
      ApprovalEffect keys rows request rows.approvals
        (some (approval.actionHash, .requested approval.expiresAt))
  | requested (wanted : ApprovalRequest)
      (hnone : ∀ approval ∈ rows.approvals, approval.actionHash ≠ wanted.actionHash)
      (hnew : wanted.approvalId ∉ keys.approvalIds) :
      ApprovalEffect keys rows request (rows.approvals ++ [wanted.row])
        (some (wanted.actionHash, .requested wanted.expiresAt))
  | renewed (approval : ConnectorApproval) (now expiresAt : ℤ) (hmem : approval ∈ rows.approvals)
      (hplain : request.renewsPlain rows = true → approval.decisionReason = none) :
      ApprovalEffect keys rows request
        (rows.approvals.map (updateRow ConnectorApproval.approvalId approval.approvalId
          (·.renew now expiresAt)))
        (some (approval.actionHash, .requested expiresAt))
  | decided (approval : ConnectorApproval) (approve : Bool) (actor : String)
      (reason : Option String) (now : ℤ) (hmem : approval ∈ rows.approvals)
      (hstate : approval.state = .pending) :
      ApprovalEffect keys rows request
        (rows.approvals.map (updateRow ConnectorApproval.approvalId approval.approvalId
          (·.decide approve actor reason now)))
        (some (approval.actionHash, .decided approve now))
  | consumed (approval : ConnectorApproval) (now : ℤ) (hmem : approval ∈ rows.approvals)
      (hstate : approval.state = .approved) (htime : now < approval.expiresAt) :
      ApprovalEffect keys rows request
        (rows.approvals.map (updateRow ConnectorApproval.approvalId approval.approvalId
          (·.consume now)))
        (some (approval.actionHash, .authorized now))

variable {approval : ConnectorApproval}

namespace TaskRows

variable {keys : Keys} {rows after : TaskRows} {request : TaskRequest} {answer : Answer}

theorem of_loadApprovalByHash {actionHash : String}
    (h : rows.loadApprovalByHash actionHash = some approval) :
    approval ∈ rows.approvals ∧ approval.actionHash = actionHash := by
  refine ⟨List.mem_of_find?_eq_some h, ?_⟩
  simpa using List.find?_some h

theorem of_loadApproval {approvalId : String} (h : rows.loadApproval approvalId = some approval) :
    approval ∈ rows.approvals ∧ approval.approvalId = approvalId := by
  refine ⟨List.mem_of_find?_eq_some h, ?_⟩
  simpa using List.find?_some h

/-- The course of a task leaves its approvals alone or lets the open ones expire. -/
theorem approvals_change (h : Change keys rows request after) :
    after.approvals = rows.approvals ∨ after.approvals = rows.expireApprovals.approvals := by
  cases h with
  | lost | stopped | cancelled | restartedIdle | restarted | finished | abandoned =>
    exact Or.inr rfl
  | _ => exact Or.inl rfl

theorem approvalEffect_of_eq (h : after.approvals = rows.approvals) :
    ApprovalEffect keys rows request after.approvals none := by
  rw [h, ← List.map_id rows.approvals]
  exact .quiet id fun _ ↦ Or.inl rfl

theorem approvalEffect_expire (approvalId : String) : ApprovalEffect keys rows request
      (rows.setApproval approvalId ConnectorApproval.expire).approvals none := by
  refine .quiet _ fun approval ↦ ?_
  by_cases hsame : (approval.approvalId == approvalId) = true
  · exact Or.inr (if_pos hsame)
  · exact Or.inl (if_neg hsame)

theorem handle_approvals (h : rows.handle keys request = .ok (after, answer)) :
    ApprovalEffect keys rows request after.approvals (approvalEntry request answer) := by
  rcases handle_cases h with ⟨wanted, gate, rfl, rfl, _, hchange⟩ |
    ⟨approvalId, approve, actor, reason, now, result, rfl, rfl, _, hchange⟩ | ⟨hquiet, hchange⟩
  · cases hchange with
    | requested _ hload hnew =>
      refine .requested wanted (fun approval hmem ↦ ?_) hnew
      simpa using List.find?_eq_none.mp hload approval hmem
    | unchanged _ hgate hpending =>
      cases gate with
      | authorized approval => exact absurd rfl (hgate approval)
      | pending approval =>
        obtain ⟨hload, hstate⟩ := hpending approval rfl
        obtain ⟨hmem, hhash⟩ := of_loadApprovalByHash hload
        rw [approvalEntry, ← hhash]
        exact .polled approval hmem hstate
      | _ => exact approvalEffect_of_eq rfl
    | expired approval => exact approvalEffect_expire approval.approvalId
    | consumed approval _ hload hstate htime =>
      obtain ⟨hmem, hhash⟩ := of_loadApprovalByHash hload
      rw [approvalEntry, ← hhash]
      exact .consumed approval wanted.now hmem hstate htime
    | renewed approval _ hload hstate =>
      obtain ⟨hmem, hhash⟩ := of_loadApprovalByHash hload
      rw [approvalEntry, ← hhash]
      refine .renewed approval wanted.now wanted.expiresAt hmem fun hplain ↦ ?_
      simpa [TaskRequest.renewsPlain, hload, hstate] using hplain
  · cases hchange with
    | expired => exact approvalEffect_expire approvalId
    | decided approval actor reason _ hload hstate =>
      obtain ⟨hmem, rfl⟩ := of_loadApproval hload
      exact .decided approval approve actor reason now hmem hstate
  · rw [approvalEntry_of_quiet hquiet]
    rcases hchange with hchange | ⟨seen, rfl⟩
    · rcases approvals_change hchange with hsame | hswept
      · exact approvalEffect_of_eq hsame
      · rw [hswept]
        refine .quiet _ fun approval ↦ ?_
        by_cases hopen : (approval.state == .pending || approval.state == .approved) = true
        · exact Or.inr (if_pos hopen)
        · exact Or.inl (if_neg hopen)
    · exact approvalEffect_of_eq rfl

end TaskRows

/-- The approvals of a task have ids of their own, and each is for another action. -/
structure ApprovalKeys (approvals : List ConnectorApproval) : Prop where
  ids : (approvals.map ConnectorApproval.approvalId).Nodup
  actions : (approvals.map ConnectorApproval.actionHash).Nodup

variable {f : ConnectorApproval → ConnectorApproval}

namespace ApprovalKeys

variable {keys : Keys} {rows : TaskRows} {request : TaskRequest}
  {approvals : List ConnectorApproval} {entry : Option (String × ApprovalEntry)}

/-- What keeps the ids and actions of the rows. -/
theorem of_views {after : List ConnectorApproval} (h : ApprovalKeys approvals)
    (hids : after.map ConnectorApproval.approvalId = approvals.map ConnectorApproval.approvalId)
    (hactions : after.map ConnectorApproval.actionHash =
      approvals.map ConnectorApproval.actionHash) :
    ApprovalKeys after := by
  constructor
  · rw [hids]
    exact h.ids
  · rw [hactions]
    exact h.actions

theorem update (h : ApprovalKeys approvals) {target : String}
    (hf : ∀ approval, (f approval).approvalId = approval.approvalId ∧
      (f approval).actionHash = approval.actionHash) :
    ApprovalKeys (approvals.map (updateRow ConnectorApproval.approvalId target f)) :=
  h.of_views (map_view_updateRow (fun approval ↦ (hf approval).1) approvals)
    (map_view_updateRow (fun approval ↦ (hf approval).2) approvals)

theorem effect (h : ApprovalKeys rows.approvals) (hcovers : Covers keys rows)
    (heffect : ApprovalEffect keys rows request approvals entry) : ApprovalKeys approvals := by
  cases heffect with
  | quiet _ hg =>
    refine h.of_views ?_ ?_
    · rw [List.map_map]
      refine List.map_congr_left fun approval _ ↦ ?_
      rcases hg approval with hsame | hexpired
      · rw [Function.comp_apply, hsame]
      · rw [Function.comp_apply, hexpired]
        rfl
    · rw [List.map_map]
      refine List.map_congr_left fun approval _ ↦ ?_
      rcases hg approval with hsame | hexpired
      · rw [Function.comp_apply, hsame]
      · rw [Function.comp_apply, hexpired]
        rfl
  | polled => exact h
  | requested _ hnone hnew =>
    constructor
    · refine nodup_map_concat h.ids fun hused ↦ ?_
      obtain ⟨approval, hmem, hid⟩ := List.mem_map.mp hused
      have hused := hcovers.approvals approval hmem
      rw [hid] at hused
      exact hnew hused
    · refine nodup_map_concat h.actions fun hused ↦ ?_
      obtain ⟨approval, hmem, hhash⟩ := List.mem_map.mp hused
      exact hnone approval hmem hhash
  | renewed | decided | consumed =>
    exact h.update fun _ ↦ ⟨rfl, rfl⟩

end ApprovalKeys

/-! ### Rows and ledger -/

def entriesFor (actionHash : String) : Option (String × ApprovalEntry) → List ApprovalEntry
  | some (other, entry) => if other == actionHash then [entry] else []
  | none => []

/-- How the ledger of an action ends when its row is open. -/
structure Tracked (actionHash : String) (entries : List ApprovalEntry)
    (approvals : List ConnectorApproval) : Prop where
  vouched : Vouched entries
  pending : ∀ approval ∈ approvals, approval.actionHash = actionHash → approval.state = .pending →
    ∃ earlier, entries = earlier ++ [.requested approval.expiresAt]
  approved : ∀ approval ∈ approvals, approval.actionHash = actionHash → approval.state = .approved →
    ∃ earlier now, entries = earlier ++ [.requested approval.expiresAt, .decided true now]

namespace Tracked

variable {keys : Keys} {rows : TaskRows} {request : TaskRequest} {actionHash : String}
  {entries : List ApprovalEntry} {approvals : List ConnectorApproval}

/-- Rows that have only become less. -/
theorem of_subset (h : Tracked actionHash entries approvals) {after : List ConnectorApproval}
    (hafter : ∀ approval ∈ after, approval ∈ approvals ∨ approval.state = .expired) :
    Tracked actionHash entries after where
  vouched := h.vouched
  pending := by
    intro approval hmem hhash hstate
    rcases hafter approval hmem with hold | hexpired
    · exact h.pending approval hold hhash hstate
    · rw [hexpired] at hstate
      cases hstate
  approved := by
    intro approval hmem hhash hstate
    rcases hafter approval hmem with hold | hexpired
    · exact h.approved approval hold hhash hstate
    · rw [hexpired] at hstate
      cases hstate

/-- An entry about the row of an action. -/
theorem update (h : Tracked actionHash entries approvals) (hkeys : ApprovalKeys approvals)
    {entry : ApprovalEntry} (hmem : approval ∈ approvals)
    (hf : ∀ approval, (f approval).actionHash = approval.actionHash)
    (hvouched : approval.actionHash = actionHash → Vouched (entries ++ [entry]))
    (hpending : (f approval).state = .pending → entry = .requested (f approval).expiresAt)
    (happroved : approval.actionHash = actionHash → (f approval).state = .approved →
      ∃ earlier now, entries ++ [entry] = earlier ++
        [.requested (f approval).expiresAt, .decided true now]) :
    Tracked actionHash (entries ++ entriesFor actionHash (some (approval.actionHash, entry)))
      (approvals.map (updateRow ConnectorApproval.approvalId approval.approvalId f)) := by
  by_cases hsame : approval.actionHash = actionHash
  · have hentries : entriesFor actionHash (some (approval.actionHash, entry)) = [entry] :=
      if_pos (by simpa using hsame)
    rw [hentries]
    -- The row of the action is the one that was updated.
    have honly : ∀ other ∈ approvals.map
        (updateRow ConnectorApproval.approvalId approval.approvalId f),
            other.actionHash = actionHash → other = f approval := by
      intro other hother hhash
      rcases mem_updateRow hkeys.ids hmem hother with hnew | ⟨hold, hne⟩
      · exact hnew
      · exact absurd (List.inj_on_of_nodup_map hkeys.actions hold hmem (hhash.trans hsame.symm)) hne
    refine ⟨hvouched hsame, ?_, ?_⟩
    · intro other hother hhash hstate
      obtain rfl := honly other hother hhash
      exact ⟨entries, by rw [hpending hstate]⟩
    · intro other hother hhash hstate
      obtain rfl := honly other hother hhash
      exact happroved hsame hstate
  · have hentries : entriesFor actionHash (some (approval.actionHash, entry)) = [] :=
      if_neg (by simpa using hsame)
    rw [hentries, List.append_nil]
    have hold : ∀ other ∈ approvals.map
        (updateRow ConnectorApproval.approvalId approval.approvalId f),
            other.actionHash = actionHash → other ∈ approvals := by
      intro other hother hhash
      rcases mem_updateRow hkeys.ids hmem hother with rfl | ⟨hold, _⟩
      · exact absurd ((hf approval).symm.trans hhash) hsame
      · exact hold
    exact ⟨h.vouched, fun other hother hhash ↦ h.pending other (hold other hother hhash) hhash,
      fun other hother hhash ↦ h.approved other (hold other hother hhash) hhash⟩

theorem effect (h : Tracked actionHash entries rows.approvals) (hkeys : ApprovalKeys rows.approvals)
    {entry : Option (String × ApprovalEntry)}
    (heffect : ApprovalEffect keys rows request approvals entry) :
    Tracked actionHash (entries ++ entriesFor actionHash entry) approvals := by
  cases heffect with
  | quiet _ hg =>
    rw [entriesFor, List.append_nil]
    refine h.of_subset fun approval hmem ↦ ?_
    obtain ⟨before, hbefore, rfl⟩ := List.mem_map.mp hmem
    rcases hg before with hsame | hexpired
    · rw [hsame]
      exact Or.inl hbefore
    · rw [hexpired]
      exact Or.inr rfl
  | polled approval hmem hstate =>
    have hsame : rows.approvals.map
        (updateRow ConnectorApproval.approvalId approval.approvalId id) = rows.approvals := by
      have hid : updateRow ConnectorApproval.approvalId approval.approvalId id = id := by
        ext1 other
        exact ite_self _
      rw [hid, List.map_id]
    rw [← hsame]
    refine h.update hkeys hmem (fun _ ↦ rfl) (fun _ ↦ h.vouched.concat (by simp)) (fun _ ↦ rfl) ?_
    intro _ happroved
    rw [id, hstate] at happroved
    cases happroved
  | requested wanted hnone =>
    by_cases hsame : wanted.actionHash = actionHash
    · have hentries : entriesFor actionHash (some (wanted.actionHash,
          .requested wanted.expiresAt)) = [.requested wanted.expiresAt] :=
        if_pos (by simpa using hsame)
      rw [hentries]
      have honly : ∀ other ∈ rows.approvals ++ [wanted.row], other.actionHash = actionHash →
          other = wanted.row := by
        intro other hother hhash
        rcases List.mem_append.mp hother with hold | hadded
        · exact absurd (hhash.trans hsame.symm) (hnone other hold)
        · exact List.mem_singleton.mp hadded
      refine ⟨h.vouched.concat (by simp), ?_, ?_⟩
      · intro other hother hhash _
        obtain rfl := honly other hother hhash
        exact ⟨entries, rfl⟩
      · intro other hother hhash hstate
        obtain rfl := honly other hother hhash
        cases hstate
    · have hentries : entriesFor actionHash (some (wanted.actionHash,
          .requested wanted.expiresAt)) = [] :=
        if_neg (by simpa using hsame)
      rw [hentries, List.append_nil]
      have hold : ∀ other ∈ rows.approvals ++ [wanted.row], other.actionHash = actionHash →
          other ∈ rows.approvals := by
        intro other hother hhash
        rcases List.mem_append.mp hother with hold | hadded
        · exact hold
        · rw [List.mem_singleton.mp hadded] at hhash
          exact absurd hhash hsame
      exact ⟨h.vouched, fun other hother hhash ↦ h.pending other (hold other hother hhash) hhash,
        fun other hother hhash ↦ h.approved other (hold other hother hhash) hhash⟩
  | renewed _ _ _ hmem =>
    refine h.update hkeys hmem (fun _ ↦ rfl) (fun _ ↦ h.vouched.concat (by simp)) (fun _ ↦ rfl) ?_
    intro _ happroved
    cases happroved
  | decided approval approve _ _ now hmem hstate =>
    refine h.update hkeys hmem (fun _ ↦ rfl) (fun _ ↦ h.vouched.concat (by simp)) ?_ ?_
    · intro hpending
      cases approve <;> cases hpending
    · intro hhash happroved
      obtain ⟨earlier, hentries⟩ := h.pending approval hmem hhash hstate
      cases approve with
      | false => cases happroved
      | true => exact ⟨earlier, now, by rw [hentries, List.append_assoc]; rfl⟩
  | consumed approval _ hmem hstate htime =>
    refine h.update hkeys hmem (fun _ ↦ rfl) ?_ (fun hpending ↦ by cases hpending)
      (fun _ happroved ↦ by cases happroved)
    intro hhash
    obtain ⟨earlier, decidedAt, hentries⟩ := h.approved approval hmem hhash hstate
    refine h.vouched.concat fun _ hused ↦ ?_
    obtain rfl := ApprovalEntry.authorized.inj hused
    exact ⟨earlier, approval.expiresAt, decidedAt, hentries, htime⟩

end Tracked

/-! ### The lifecycle of a task -/

/-- A task is active until it has a result, and a decision is about a result. -/
structure Coherent (rows : TaskRows) : Prop where
  lifecycle : rows.lifecycle = .active ↔ rows.result = none
  intent : rows.intent.isSome = true → rows.result.isSome = true

variable {rows : TaskRows}

theorem Coherent.move {keys : Keys} {after : TaskRows} {asked : TaskRequest} (h : Coherent rows)
    (hmove : Move keys rows asked after) : Coherent after := by
  have hframe : after.lifecycle = rows.lifecycle → after.intent = rows.intent →
      after.result.isSome = rows.result.isSome → Coherent after := by
    intro hlifecycle hintent hresult
    constructor
    · rw [hlifecycle, h.lifecycle, ← Option.not_isSome_iff_eq_none, ← Option.not_isSome_iff_eq_none,
        hresult]
    · rw [hintent, hresult]
      exact h.intent
  cases hmove with
  | approvals | claimed => exact hframe rfl rfl rfl
  | change hchange =>
    cases hchange with
    | noted _ _ result _ _ _ _ hresult =>
      refine hframe rfl rfl ?_
      show result.isSome = rows.result.isSome
      rw [← Option.isSome_map (f := ConnectorTaskResult.core), hresult, Option.isSome_map]
    | finished | abandoned =>
      exact ⟨by simp [TaskRows.expireApprovals], fun _ ↦ rfl⟩
    | begun _ _ hresult =>
      exact ⟨h.lifecycle, fun _ ↦ by simp [hresult]⟩
    | aborted =>
      refine ⟨h.lifecycle, fun hsome ↦ h.intent ?_⟩
      cases hintent : rows.intent with
      | none => simp [TaskRows.abortConnectorResultDecision, hintent] at hsome
      | some => rfl
    | quarantined intent _ _ _ _ hintent =>
      exact ⟨h.lifecycle, fun _ ↦ h.intent (by simp [hintent])⟩
    | finalized intent result settled finishedAt bodies now hintent hstate hresult hpending
        hintentId hid hsettled hbodies =>
      refine ⟨?_, fun hsome ↦ by cases hsome⟩
      show intent.decision.lifecycle = .active ↔ some settled = none
      cases intent.decision <;> simp [ConnectorResultDecision.lifecycle]
    | _ => exact hframe rfl rfl rfl

/-- The approval waits for a decision or for its use. -/
def ConnectorApproval.isOpen (approval : ConnectorApproval) : Bool :=
  approval.state == .pending || approval.state == .approved

structure Runs (rows : TaskRows) : Prop where
  run : rows.run.status = .running
  cancelled : rows.cancelled = false
  result : rows.result = none

/-- Only a task that runs has open approvals. -/
def OpenWhileRunning (rows : TaskRows) : Prop :=
  ∀ approval ∈ rows.approvals, approval.isOpen = true → Runs rows

namespace OpenWhileRunning

variable {keys : Keys} {rows after : TaskRows} {asked : TaskRequest}

/-- Nothing is open after a sweep. -/
theorem of_swept (h : after.approvals = rows.expireApprovals.approvals) :
    OpenWhileRunning after := by
  intro _ hmem hopen
  rw [h] at hmem
  obtain ⟨_, _, rfl⟩ := List.mem_map.mp hmem
  split_ifs at hopen with hbefore
  · cases hopen
  · exact absurd hopen hbefore

/-- Nothing is open when the task does not run. -/
theorem of_closed (h : OpenWhileRunning rows) (happrovals : after.approvals = rows.approvals)
    (hclosed : ¬ Runs rows) : OpenWhileRunning after := by
  intro approval hmem hopen
  rw [happrovals] at hmem
  exact absurd (h approval hmem hopen) hclosed

theorem move (h : OpenWhileRunning rows) (hcoherent : Coherent rows)
    (hmove : Move keys rows asked after) : OpenWhileRunning after := by
  have hframe : after.approvals = rows.approvals → after.run.status = rows.run.status →
      after.cancelled = rows.cancelled → (rows.result = none → after.result = none) →
      OpenWhileRunning after := by
    intro happrovals hrun hcancelled hresult approval hmem hopen
    rw [happrovals] at hmem
    have hruns := h approval hmem hopen
    exact ⟨hrun.trans hruns.run, hcancelled.trans hruns.cancelled, hresult hruns.result⟩
  cases hmove with
  | approvals _ _ now _ hrunning hbodies =>
    obtain ⟨hrun, hcancelled, hlifecycle⟩ := TaskRows.running_of_requireRunning hrunning
    intro _ _ _
    exact ⟨hrun, (cancelled_of_uncancelling rfl hbodies now).trans hcancelled,
      hcoherent.lifecycle.mp hlifecycle⟩
  | claimed => exact hframe rfl rfl rfl id
  | change hchange =>
    cases hchange with
    | unchanged => exact h
    | noted _ _ _ _ now _ hrun hresult hbodies =>
      refine hframe rfl hrun (cancelled_of_uncancelling rfl hbodies now) fun hnone ↦ ?_
      rw [hnone] at hresult
      exact Option.map_eq_none_iff.mp hresult
    | reserved _ _ _ _ _ _ _ _ hbodies =>
      exact hframe rfl rfl (cancelled_of_uncancelling rfl hbodies _) id
    | updated _ _ _ now _ _ _ _ hbodies =>
      exact hframe rfl rfl (cancelled_of_uncancelling rfl hbodies now) id
    | resumed _ _ hrun =>
      refine h.of_closed rfl fun hruns ↦ ?_
      have hstopped := TaskRows.interrupted_of_runStatus hrun
      rw [hruns.run] at hstopped
      cases hstopped
    | begun | aborted => exact hframe rfl rfl rfl id
    | quarantined intent _ _ _ _ hintent =>
      refine h.of_closed rfl fun hruns ↦ ?_
      have hsome := hcoherent.intent (by simp [hintent])
      rw [hruns.result] at hsome
      cases hsome
    | finalized intent result settled finishedAt bodies now hintent hstate hresult hpending
        hintentId hid hsettled hbodies =>
      refine h.of_closed rfl fun hruns ↦ ?_
      have hnone := hruns.result
      rw [hresult] at hnone
      cases hnone
    | _ => exact of_swept rfl

end OpenWhileRunning

structure Undecided (approval : ConnectorApproval) : Prop where
  decidedBy : approval.decidedBy = none
  decidedAt : approval.decidedAt = none
  consumedAt : approval.consumedAt = none
  decisionReason : approval.decisionReason = none

/-- A row that waits for a decision carries nothing of an earlier one. -/
def PendingUndecided (approvals : List ConnectorApproval) : Prop :=
  ∀ approval ∈ approvals, approval.state = .pending → Undecided approval

namespace PendingUndecided

variable {keys : Keys} {rows : TaskRows} {request : TaskRequest}
  {approvals : List ConnectorApproval} {entry : Option (String × ApprovalEntry)}

theorem update (h : PendingUndecided approvals) (hkeys : ApprovalKeys approvals)
    (hmem : approval ∈ approvals) (hf : (f approval).state = .pending → Undecided (f approval)) :
    PendingUndecided
      (approvals.map (updateRow ConnectorApproval.approvalId approval.approvalId f)) := by
  intro other hother hstate
  rcases mem_updateRow hkeys.ids hmem hother with rfl | ⟨hold, _⟩
  · exact hf hstate
  · exact h other hold hstate

theorem effect (h : PendingUndecided rows.approvals) (hkeys : ApprovalKeys rows.approvals)
    (hplain : request.renewsPlain rows = true)
    (heffect : ApprovalEffect keys rows request approvals entry) : PendingUndecided approvals := by
  cases heffect with
  | quiet _ hg =>
    intro approval hmem hstate
    obtain ⟨before, hbefore, rfl⟩ := List.mem_map.mp hmem
    rcases hg before with hsame | hexpired
    · rw [hsame] at hstate ⊢
      exact h before hbefore hstate
    · rw [hexpired] at hstate
      cases hstate
  | polled => exact h
  | requested =>
    intro approval hmem hstate
    rcases List.mem_append.mp hmem with hold | hadded
    · exact h approval hold hstate
    · rw [List.mem_singleton.mp hadded]
      exact ⟨rfl, rfl, rfl, rfl⟩
  | renewed _ _ _ hmem hreason =>
    refine h.update hkeys hmem fun _ ↦ ⟨rfl, rfl, rfl, ?_⟩
    exact hreason hplain
  | decided _ approve _ _ _ hmem =>
    refine h.update hkeys hmem fun hpending ↦ ?_
    cases approve <;> cases hpending
  | consumed _ _ hmem =>
    refine h.update hkeys hmem fun hpending ↦ ?_
    cases hpending

end PendingUndecided

/-! ### Runs -/

/-- The requests, decisions and uses of an action in a run, in their order. -/
def ledger (taskId actionHash : String) (operations : List Operation) : List ApprovalEntry :=
  (history taskId {} operations).flatMap fun call ↦
    entriesFor actionHash (approvalEntry call.1 call.2)

/-- In every run the ledger of an action goes with its row. -/
theorem tracked_run (operations : List Operation) {taskId : String}
    (hrows : (run {} operations).tasks.lookup taskId = some rows) (actionHash : String) :
    Tracked actionHash (ledger taskId actionHash operations) rows.approvals := by
  have hboth : ApprovalKeys rows.approvals ∧
      Tracked actionHash (ledger taskId actionHash operations) rows.approvals := by
    refine history_run (P := fun past rows ↦ ApprovalKeys rows.approvals ∧
      Tracked actionHash
        (past.flatMap fun call ↦ entriesFor actionHash (approvalEntry call.1 call.2))
          rows.approvals) ?_ ?_ ?_ operations hrows
    · intro _ _
      exact ⟨⟨List.nodup_nil, List.nodup_nil⟩, ⟨Vouched.nil, by simp [TaskRows.started],
        by simp [TaskRows.started]⟩⟩
    · intro keys past rows request after answer hcovers hinv hhandle
      have heffect := TaskRows.handle_approvals hhandle
      refine ⟨hinv.1.effect hcovers heffect, ?_⟩
      rw [List.flatMap_append, List.flatMap_singleton]
      exact hinv.2.effect hinv.1 heffect
    · intro keys past rows request after answer hcovers hinv hquiet hhandle
      have heffect := TaskRows.handle_approvals hhandle
      refine ⟨hinv.1.effect hcovers heffect, ?_⟩
      have hsilent : request.isApproval = false := by
        cases request with
        | owner | host => cases hquiet
        | _ => rfl
      have htracked := hinv.2.effect hinv.1 heffect
      rwa [approvalEntry_of_quiet hsilent, entriesFor, List.append_nil] at htracked
  exact hboth.2

theorem vouched_ledger (operations : List Operation) (taskId actionHash : String) :
    Vouched (ledger taskId actionHash operations) := by
  cases hrows : (run {} operations).tasks.lookup taskId with
  | none =>
    rw [ledger, history_of_none hrows]
    exact Vouched.nil
  | some => exact (tracked_run operations hrows actionHash).vouched

/-- Between two uses lies another approving decision. -/
theorem Vouched.once {entries before between after : List ApprovalEntry} {first second : ℤ}
    (h : Vouched entries)
    (hentries : entries = before ++ .authorized first :: between ++ .authorized second :: after) :
    ∃ now, .decided true now ∈ between := by
  obtain ⟨earlier, expiresAt, decidedAt, hbefore, _⟩ := h _ second after hentries
  refine ⟨decidedAt, ?_⟩
  rcases List.eq_nil_or_concat between with rfl | ⟨rest, last, rfl⟩
  · have hlast := congrArg List.getLast? hbefore
    simp at hlast
  · have hends : (before ++ .authorized first :: rest) ++ [last] =
        (earlier ++ [.requested expiresAt]) ++ [.decided true decidedAt] := by
      simpa using hbefore
    obtain ⟨_, hlast⟩ := List.append_inj' hends rfl
    rw [(List.cons.inj hlast).1]
    simp

/-- The operation does not renew an approval that carries the reason of a decision. -/
def renewsPlain (database : Database) : Operation → Bool
  | .owner taskId _ _ request =>
    (database.tasks.lookup taskId).all fun rows ↦ TaskRequest.renewsPlain rows (.owner request)
  | _ => true

theorem renewsPlain_of_reaches {database : Database} {operation : Operation} {taskId : String}
    {request : TaskRequest} (hplain : renewsPlain database operation = true)
    (hrows : database.tasks.lookup taskId = some rows)
    (hreaches : operation.reaches database taskId rows = some request) :
    request.renewsPlain rows = true := by
  cases request with
  | owner =>
    obtain ⟨_, _, rfl⟩ := owner_of_reaches hreaches
    simpa [renewsPlain, hrows] using hplain
  | _ => rfl

/-- In every run only a task that runs has open approvals. -/
theorem openWhileRunning_run (operations : List Operation) :
    ∀ taskId rows, (run {} operations).tasks.lookup taskId = some rows →
      Coherent rows ∧ OpenWhileRunning rows := by
  refine invariant_of_moves ?_ ?_ operations
  · intro _ _
    exact ⟨⟨by simp [TaskRows.started], by simp [TaskRows.started]⟩, by simp [OpenWhileRunning,
      TaskRows.started]⟩
  · intro _ rows _ _ _ hinv hmove
    exact ⟨hinv.1.move hmove, hinv.2.move hinv.1 hmove⟩

/-- In a run without such a renewal a row that waits for a decision is undecided. -/
theorem pendingUndecided_run {operations : List Operation}
    (h : Along (fun database operation ↦ renewsPlain database operation = true) {} operations) :
    ∀ taskId rows, (run {} operations).tasks.lookup taskId = some rows →
      ApprovalKeys rows.approvals ∧ PendingUndecided rows.approvals := by
  refine invariant_run ?_ ?_ (fun _ _ hnone ↦ ?_) operations h
  · intro _ _
    exact ⟨⟨List.nodup_nil, List.nodup_nil⟩, by simp [PendingUndecided, TaskRows.started]⟩
  · intro database operation taskId rows _ _ _ hplain hrows hreaches hinv hhandle
    have heffect := TaskRows.handle_approvals hhandle
    exact ⟨hinv.1.effect (covers_of_lookup hrows) heffect,
      hinv.2.effect hinv.1 (renewsPlain_of_reaches hplain hrows hreaches) heffect⟩
  · simp at hnone

/-- Approvals are used once, each after its own decision, are closed with the run of their task, and
carry nothing of a decision while they wait for one. -/
structure ApprovalsSafe (operations : List Operation) : Prop where
  vouched : ∀ taskId actionHash, Vouched (ledger taskId actionHash operations)
  once : ∀ taskId actionHash before between after first second,
    ledger taskId actionHash operations =
        before ++ .authorized first :: between ++ .authorized second :: after →
      ∃ now, .decided true now ∈ between
  closed : ∀ taskId rows, (run {} operations).tasks.lookup taskId = some rows →
    ∀ approval ∈ rows.approvals, approval.state = .pending ∨ approval.state = .approved →
      rows.taskStatus = .active ∧ rows.runStatus = .running ∧ rows.result = none
  undecided : ∀ taskId rows, (run {} operations).tasks.lookup taskId = some rows →
    ∀ approval ∈ rows.approvals, approval.state = .pending → Undecided approval

/-- As long as no request renews an expired approval that carries the reason of a decision,
approvals are safe: each is decided once and authorizes one use, for the action that it was asked
for. -/
theorem approvals_are_single_use (operations : List Operation)
    (hplain : Along (fun database operation ↦ renewsPlain database operation = true) {}
      operations) :
    ApprovalsSafe operations where
  vouched := vouched_ledger operations
  once taskId actionHash before between after first second hledger :=
    (vouched_ledger operations taskId actionHash).once hledger
  closed taskId rows hrows approval hmem hstate := by
    obtain ⟨hcoherent, hopen⟩ := openWhileRunning_run operations taskId rows hrows
    have hruns := hopen approval hmem (by
      rcases hstate with hstate | hstate <;> simp [ConnectorApproval.isOpen, hstate])
    refine ⟨?_, ?_, hruns.result⟩
    · simp [TaskRows.taskStatus, effectiveTaskState, hruns.cancelled, hruns.result, hruns.run,
        hcoherent.lifecycle.mpr hruns.result]
    · simp [TaskRows.runStatus, effectiveRunState, hruns.cancelled, hruns.run]
  undecided taskId rows hrows := (pendingUndecided_run hplain taskId rows hrows).2

def surveyAsks (now expiresAt : ℤ) : Operation := .owner "survey" "atlas" "client" (.approval
    { approvalId := "push-approval"
      actionKind := "push"
      actionHash := "push-main"
      actionSummary := "push to main"
      now := now
      expiresAt := expiresAt })

def surveyGrants (reason : Option String) (now : ℤ) : Operation :=
  .host "survey" "atlas" (.decideApproval "push-approval" true "host" reason now)

/-- An approval is asked for, granted, and used up by the next request. -/
theorem approvals_are_single_use_survey :
    ApprovalsSafe (surveyStarted ++ [surveyAsks 10 20, surveyGrants none 11, surveyAsks 12 22]) :=
  approvals_are_single_use _ ⟨rfl, rfl, by decide +kernel, by decide +kernel, by decide +kernel,
    trivial⟩

example : ledger "survey" "push-main"
    (surveyStarted ++ [surveyAsks 10 20, surveyGrants none 11, surveyAsks 12 22]) =
      [.requested 20, .decided true 11, .authorized 12] := by
  decide +kernel

/-- The approval is granted with a reason, runs out, and is asked for again. -/
def renewedApproval : List Operation := surveyStarted ++
    [surveyAsks 10 20, surveyGrants (some "looks fine") 11, surveyAsks 30 40, surveyAsks 31 41]

/-- It waits for a decision and still has the reason of the earlier one. -/
theorem renewed_approval_keeps_its_reason : ¬ ApprovalsSafe renewedApproval := by
  intro h
  have hreason : ((run {} renewedApproval).tasks.lookup "survey").any (fun rows ↦
      rows.approvals.any fun approval ↦ approval.state == .pending &&
        approval.decisionReason == some "looks fine") = true := by
    decide +kernel
  obtain ⟨rows, hrows, hany⟩ := (Option.any_eq_true _ _).mp hreason
  obtain ⟨approval, hmem, hpending⟩ := List.any_eq_true.mp hany
  simp only [Bool.and_eq_true, beq_iff_eq] at hpending
  have hnone := (h.undecided "survey" rows hrows approval hmem hpending.1).decisionReason
  rw [hpending.2] at hnone
  cases hnone

end WebCodex.TaskStore
