import WebCodex.AgentWake.DispatchFence

/-!
A committed transaction leaves tables that satisfy the constraints of the schema
(`constraints_run`). What is left to ask of a call is whether it can fail with one, and only a
preparation can (`keepsConstraints_iff_unblocked`): of two wakes of its agent that an endpoint has
claimed, the second one fails in the database.
-/

namespace WebCodex.AgentWake

open Foundation
open AgentTasks (CommunicationPrincipal Fallible)

namespace Store

variable {s : Store}

/-- The tables that a statement leaves satisfy the constraints, whether it was expected to or
not. -/
theorem ends_checkTables_any (s : Store) : Ends (fun _ ↦ True) Constraints (checkTables s) := by
  unfold checkTables
  split_ifs with hs
  · exact hs
  · exact trivial

theorem Constraints.withIdempotency (h : s.Constraints) (principal : CommunicationPrincipal)
    (request : IdempotentRequest) (key resource : String) :
    (s.recordIdempotentResource principal request key resource).Constraints :=
  ⟨h.wakes, h.attempts, h.carriers, h.endpoints, h.events⟩

theorem settles_claim (h : s.Constraints) (principal : CommunicationPrincipal)
    (asserted : EndpointAssertion) (adapterKind : String) (new : NewClaim) (clock : Clock) :
    Ends (fun _ ↦ True) (fun result ↦ result.1.Constraints)
      (s.claimNextAgentWake principal asserted adapterKind new clock) := by
  refine (Ends.any _).skip fun _ ↦ (Ends.any _).skip fun _ ↦ (Ends.any _).skip fun _ ↦
    (Ends.any _).skip fun _ ↦ (Ends.any _).skip fun _ ↦ (Ends.any _).skip fun _ ↦ ?_
  refine ((ends_releaseExpiredClaimsForAgent h asserted.agentId clock.now).allow
    fun _ _ ↦ trivial).bind fun _ h₁ ↦ ?_
  refine ((ends_retireStaleAgentTaskWakesForAgent h₁.constraints asserted.agentId clock.now).allow
    fun _ _ ↦ trivial).bind fun _ h₂ ↦ ?_
  split_ifs
  · exact .pure h₂.constraints
  · split
    · exact .pure h₂.constraints
    · refine (Ends.any _).skip fun s₃ ↦ ?_
      have hclaimed (wake : AgentWakeRecord) (kind : String) :
          Ends (fun _ ↦ True) (fun result ↦ result.1.Constraints)
            (s₃.claimWake wake asserted kind new clock.now) := by
        exact (Ends.any _).skip fun _ ↦ (ends_checkTables_any _).bind fun _ h₄ ↦ (Ends.any _).skip
          fun _ ↦ .pure h₄
      exact (hclaimed _ _).bind fun _ h₄ ↦ .pure h₄

/-- A preparation that succeeds leaves the constraints, whether or not it was allowed to run into
them. -/
theorem settles_prepare (h : s.Constraints) (call : Preparation) :
    Ends (fun _ ↦ True) (fun result ↦ result.1.Constraints) (s.prepareAgentWakeDispatch call) := by
  refine (Ends.any _).skip fun wake ↦ ?_
  split_ifs
  · exact ((ends_retireAgentTaskWakePreDispatch h _ _).allow fun _ _ ↦ trivial).bind
      fun _ h₁ ↦ .pure h₁.constraints
  · have hcrossed : Ends (fun _ ↦ True) (fun result ↦ result.1.Constraints)
        (s.crossDispatchFence call wake) := by
      exact (Ends.any _).skip fun _ ↦ (ends_checkTables_any _).bind fun _ h₁ ↦ (Ends.any _).skip
        fun _ ↦ (Ends.any _).skip fun _ ↦ .pure h₁
    exact (Ends.any _).skip fun _ ↦ hcrossed.bind fun _ h₁ ↦ .pure h₁

theorem settles_activate (h : s.Constraints) (principal : CommunicationPrincipal)
    (asserted : EndpointAssertion) (wakeId activationKey : String) (new : NewClaim)
    (clock : Clock) :
    Ends (fun _ ↦ True) (fun result ↦ result.1.Constraints)
      (s.acceptExplicitAgentWakeActivation principal asserted wakeId activationKey new clock) := by
  refine (Ends.any _).skip fun _ ↦ (Ends.any _).skip fun _ ↦ (Ends.any _).skip fun _ ↦
    (Ends.any _).skip fun _ ↦ (Ends.any _).skip fun _ ↦ (Ends.any _).skip fun _ ↦ ?_
  split
  · exact (Ends.any _).skip fun _ ↦ (Ends.any _).skip fun _ ↦ .pure h
  · refine (Ends.any _).skip fun _ ↦ (Ends.any _).skip fun _ ↦ (Ends.any _).skip fun _ ↦
      (Ends.any _).skip fun _ ↦ (Ends.any _).skip fun _ ↦ (Ends.any _).skip fun _ ↦
      (Ends.any _).skip fun _ ↦ (ends_checkTables_any _).bind fun _ h₁ ↦
        (Ends.any _).skip fun _ ↦ ?_
    exact .pure (h₁.withIdempotency _ _ _ _)

theorem settles_coalesce (s : Store) (recipient : Recipient) (message : PostedMessage)
    (watermark now : ℤ) :
    Ends (fun _ ↦ True) Constraints
      (s.coalesceAgentWakeForDelivery recipient message watermark now) := by
  unfold coalesceAgentWakeForDelivery
  split <;> exact ends_checkTables_any _

theorem settles_post (h : s.Constraints) (admitted : Fallible Unit) (message : PostedMessage)
    (recipients : List Recipient) (now : ℤ) :
    Ends (fun _ ↦ True) Constraints
      (s.postConversationMessage admitted message recipients now) := by
  refine (Ends.any _).skip fun _ ↦ Ends.foldlM (fun _ recipient _ ↦ ?_) recipients h
  exact (Ends.any _).skip fun _ ↦ settles_coalesce _ recipient message _ now

theorem settles_consumeDeliveries (principal : CommunicationPrincipal)
    (asserted : EndpointAssertion) (deliveryIds : List String) (clock : Clock) :
    Ends (fun _ ↦ True) (fun result ↦ result.1.Constraints)
      (s.consumeAgentDeliveries principal asserted deliveryIds clock) := by
  refine (Ends.any _).skip fun _ ↦ (Ends.any _).skip fun _ ↦ (Ends.any _).skip fun _ ↦
    (Ends.any _).skip fun _ ↦ (Ends.any _).skip fun _ ↦ (Ends.any _).skip fun _ ↦ ?_
  exact (ends_checkTables_any _).bind fun _ h₁ ↦ .pure h₁

theorem settles_attach (h : s.Constraints) (principal : CommunicationPrincipal)
    (input : NewAgentEndpoint) (endpointId : String) (now : ℤ) :
    Ends (fun _ ↦ True) (fun result ↦ result.1.Constraints)
      (s.attachAgentEndpoint principal input endpointId now) := by
  refine (Ends.any _).skip fun _ ↦ (Ends.any _).skip fun _ ↦ (Ends.any _).skip fun _ ↦
    (Ends.any _).skip fun _ ↦ (Ends.any _).skip fun _ ↦ (Ends.any _).skip fun _ ↦ ?_
  split
  · exact (Ends.any _).skip fun _ ↦ .pure h
  · refine (Ends.any _).skip fun _ ↦ (Ends.any _).skip fun _ ↦ (Ends.any _).skip fun _ ↦
      (Ends.any _).skip fun _ ↦ (Ends.any _).skip fun _ ↦
        (ends_checkTables_any _).bind fun _ h₁ ↦ ?_
    exact .pure (h₁.withIdempotency _ _ _ _)

theorem settles_recover (h : s.Constraints) (principal : CommunicationPrincipal)
    (asserted : EndpointAssertion) (clientWindowKey replacementId : String) (now : ℤ) :
    Ends (fun _ ↦ True) (fun result ↦ result.1.Constraints)
      (s.recoverExpiredMcpAppEndpoint principal asserted clientWindowKey replacementId now) := by
  refine (Ends.any _).skip fun _ ↦ (Ends.any _).skip fun _ ↦ (Ends.any _).skip fun _ ↦
    (Ends.any _).skip fun _ ↦ (Ends.any _).skip fun _ ↦ (Ends.any _).skip fun _ ↦ ?_
  split
  · exact (Ends.any _).skip fun _ ↦ .pure h
  · refine (Ends.any _).skip fun _ ↦ ?_
    split_ifs
    · exact .pure h
    · refine (Ends.any _).skip fun _ ↦ (Ends.any _).skip fun _ ↦ (Ends.any _).skip fun _ ↦
        (ends_checkTables_any _).bind fun _ h₁ ↦ ?_
      exact .pure (h₁.withIdempotency _ _ _ _)

theorem settles_detach (h : s.Constraints) (principal : CommunicationPrincipal)
    (endpointId : String) (now : ℤ) :
    Ends (fun _ ↦ True) (fun result ↦ result.1.Constraints)
      (s.detachAgentEndpoint principal endpointId now) := by
  refine (Ends.any _).skip fun _ ↦ (Ends.any _).skip fun _ ↦ (Ends.any _).skip fun _ ↦ ?_
  split_ifs
  · exact .pure h
  · exact (Ends.any _).skip fun _ ↦ (ends_checkTables_any _).bind fun _ h₁ ↦ .pure h₁

theorem settles_renew (principal : CommunicationPrincipal) (endpointId : String)
    (controllerGeneration : ℤ) (clock : Clock) :
    Ends (fun _ ↦ True) (fun result ↦ result.1.Constraints)
      (s.renewAgentEndpoint principal endpointId controllerGeneration clock) := by
  refine (Ends.any _).skip fun _ ↦ (Ends.any _).skip fun _ ↦ (Ends.any _).skip fun _ ↦
    (Ends.any _).skip fun _ ↦ (Ends.any _).skip fun _ ↦ ?_
  exact (ends_checkTables_any _).bind fun _ h₁ ↦ .pure h₁

theorem settles_bind (h : s.Constraints) (principal : CommunicationPrincipal)
    (asserted : EndpointAssertion) (wakeCapable : Bool)
    (recoveryFingerprint clientWindowKey : Option String) (clock : Clock) :
    Ends (fun _ ↦ True) (fun result ↦ result.1.Constraints)
      (s.setAgentEndpointBindingProjection principal asserted wakeCapable recoveryFingerprint
        clientWindowKey clock) := by
  refine (Ends.any _).skip fun _ ↦ (Ends.any _).skip fun _ ↦ (Ends.any _).skip fun _ ↦
    (Ends.any _).skip fun _ ↦ ?_
  split
  · exact .pure h
  · exact (Ends.any _).skip fun _ ↦ (ends_checkTables_any _).bind fun _ h₁ ↦ .pure h₁

theorem settles_retirePreDispatch (attemptId : String) (now : ℤ) :
    Ends (fun _ ↦ True) Constraints
      (s.retirePreDispatchEndpointExecutionForAttempt attemptId now) :=
  (Ends.any _).skip fun _ ↦ (Ends.any _).skip fun _ ↦ ends_checkTables_any _

theorem settles_retireExpired (h : s.Constraints) (rows : AgentTasks.AgentTaskRows) (now : ℤ) :
    Ends (fun _ ↦ True) Constraints (s.retireExpired rows now) := by
  unfold retireExpired
  split
  · exact h
  · split_ifs
    · exact settles_retirePreDispatch _ _
    · exact h

theorem settles_createAttention (h : s.Constraints) (principal : CommunicationPrincipal)
    (taskId attemptId : String) (rows : AgentTasks.AgentTaskRows) (now : ℤ)
    (drawn : List NewAttention) :
    Ends (fun _ ↦ True) Constraints
      (s.createAgentTaskTerminalAttention principal taskId attemptId rows now drawn) :=
  (Ends.any _).skip fun _ ↦
    Ends.foldlM (fun _ _ _ ↦ (Ends.any _).skip fun _ ↦ ends_checkTables_any _) _ h

theorem settles_followTask (h : s.Constraints) (principal : CommunicationPrincipal)
    (taskId : String) (now : ℤ) (request : AgentTasks.TaskRequest) (answer : AgentTasks.Answer)
    (before after : AgentTasks.AgentTaskRows) (drawn : List NewAttention) :
    Ends (fun _ ↦ True) Constraints
      (s.followTask principal taskId now request answer before after drawn) := by
  unfold followTask
  split
  · exact settles_retireExpired h before now
  · exact settles_retireExpired h before now
  · exact (Ends.any _).skip fun _ ↦ ends_checkTables_any _
  · exact (settles_retirePreDispatch _ _).bind
      fun _ h₁ ↦ settles_createAttention h₁ principal taskId _ after now drawn
  · exact settles_createAttention h principal taskId _ after now drawn
  · exact h

theorem settles_task (h : s.Constraints) (operation : AgentTasks.Operation)
    (drawn : List NewAttention) :
    Ends (fun _ ↦ True) (fun result ↦ result.1.Constraints) (s.performTask operation drawn) := by
  refine (Ends.any _).skip fun ⟨tasks, answer⟩ ↦ ?_
  dsimp only
  split
  · split
    · exact (settles_followTask (h.withTasks tasks) _ _ _ _ _ _ _ drawn).bind fun _ h₁ ↦ .pure h₁
    · exact .pure (h.withTasks tasks)
  · exact .pure (h.withTasks tasks)

/-- An operation leaves tables that satisfy the constraints. -/
theorem settles_perform (h : s.Constraints) (operation : Operation) :
    Ends (fun _ ↦ True) (fun result ↦ result.1.Constraints) (s.perform operation) := by
  cases operation with
  | task operation drawn => exact (settles_task h operation drawn).map fun _ h₁ ↦ h₁
  | correlate => exact .pure ⟨h.wakes, h.attempts, h.carriers, h.endpoints, h.events⟩
  | attach => exact (settles_attach h _ _ _ _).map fun _ h₁ ↦ h₁
  | recover =>
    exact (settles_recover h _ _ _ _ _).map fun _ h₁ ↦ h₁
  | detach => exact (settles_detach h _ _ _).map fun _ h₁ ↦ h₁
  | renew => exact (settles_renew _ _ _ _).map fun _ h₁ ↦ h₁
  | bind =>
    exact (settles_bind h _ _ _ _ _ _).map fun _ h₁ ↦ h₁
  | takeover owns now =>
    exact ((ends_recoverAgentWakesForServerTakeover h owns now).allow fun _ _ ↦ trivial).map
      fun _ h₁ ↦ h₁
  | claim => exact (settles_claim h _ _ _ _ _).map fun _ h₁ ↦ h₁
  | release =>
    exact ((ends_releaseAgentWakeClaim h _ _ _ _).allow fun _ _ ↦ trivial).map fun _ h₁ ↦ h₁
  | prepare call => exact (settles_prepare h call).map fun _ h₁ ↦ h₁
  | finish =>
    exact ((ends_finishAgentWakeDelivery h _ _ _ _ _).allow fun _ _ ↦ trivial).map fun _ h₁ ↦ h₁
  | consume =>
    exact ((ends_consumeAgentWake h _ _ _ _ _).allow fun _ _ ↦ trivial).map fun _ h₁ ↦ h₁
  | activate =>
    exact (settles_activate h _ _ _ _ _ _).map fun _ h₁ ↦ h₁
  | post => exact (settles_post h _ _ _ _).map fun _ h₁ ↦ h₁
  | consumeDeliveries =>
    exact (settles_consumeDeliveries _ _ _ _).map fun _ h₁ ↦ h₁

theorem constraints_empty : ({} : Store).Constraints := by decide

/-- The constraints hold after every run. -/
theorem constraints_run (operations : List Operation) : (run {} operations).Constraints := by
  refine run_induction (fun _ operation _ _ h hperform ↦ ?_) constraints_empty operations
  have hafter := settles_perform h operation
  rw [hperform] at hafter
  exact hafter

end Store

namespace Operation

/-- The operation is a call on wakes or on inboxes. -/
def onWakes : Operation → Bool
  | takeover _ _ | claim _ _ _ _ _ | release _ _ _ _ | prepare _ | finish _ _ _ _ _
  | consume _ _ _ _ _ | activate _ _ _ _ _ _ | post _ _ _ _ => true
  | _ => false

/-- The random ids that the operation draws are new. -/
def DrawsFresh (s : Store) : Operation → Prop
  | claim _ _ _ new _ | activate _ _ _ _ new _ =>
    new.attemptId ∉ s.attempts.map AgentWakeAttempt.attemptId
  | post _ _ recipients _ => s.FreshWakes recipients
  | _ => True

end Operation

namespace Store

/-- The call does not fail with a constraint, and the rows that it leaves satisfy them all. -/
def KeepsConstraints (s : Store) (operation : Operation) : Prop :=
  s.perform operation ≠ .error .constraint ∧
    ∀ after answer, s.perform operation = .ok (after, answer) → after.Constraints

/-- No wake of the agent is dispatched when the checks of a preparation pass. -/
def Unblocked (s : Store) : Operation → Prop
  | .prepare call => s.PreparationPasses call → s.hasDispatched call.asserted.agentId = false
  | _ => True

variable {s : Store}

theorem map_eq_error {E A B : Type} {f : A → B} {x : Except E A} {error : E} :
    f <$> x = .error error ↔ x = .error error := by
  cases x <;> simp [Functor.map, Except.map]

/-- No call on wakes fails with a constraint, unless it is a preparation while a wake of the agent
is dispatched. -/
theorem perform_ne_constraint (h : s.Constraints) {operation : Operation}
    (hwakes : operation.onWakes = true) (hfresh : operation.DrawsFresh s)
    (hunblocked : s.Unblocked operation) : s.perform operation ≠ .error .constraint := by
  intro hfails
  cases operation with
  | takeover owns now =>
    exact (ends_recoverAgentWakesForServerTakeover h owns now).of_eq_error
      (map_eq_error.mp hfails) rfl
  | claim principal asserted kind _ clock =>
    exact (ends_claimNextAgentWake h principal asserted kind hfresh clock).of_eq_error
      (map_eq_error.mp hfails) rfl
  | release principal asserted claim clock =>
    exact (ends_releaseAgentWakeClaim h principal asserted claim clock).of_eq_error
      (map_eq_error.mp hfails) rfl
  | prepare =>
    exact (ends_prepareAgentWakeDispatch h hunblocked).of_eq_error (map_eq_error.mp hfails) rfl
  | finish principal asserted claim delivered clock =>
    exact (ends_finishAgentWakeDelivery h principal asserted claim delivered clock).of_eq_error
      (map_eq_error.mp hfails) rfl
  | consume principal asserted wakeId token clock =>
    exact (ends_consumeAgentWake h principal asserted wakeId token clock).of_eq_error
      (map_eq_error.mp hfails) rfl
  | activate principal asserted wakeId key _ clock =>
    exact (ends_acceptExplicitAgentWakeActivation h principal asserted wakeId key hfresh
      clock).of_eq_error (map_eq_error.mp hfails) rfl
  | post admitted message _ now =>
    exact (ends_postConversationMessage h admitted message hfresh now).of_eq_error
      (map_eq_error.mp hfails) rfl
  | task _ _ | correlate _ | attach _ _ _ _ | recover _ _ _ _ _ | detach _ _ _ | renew _ _ _ _
  | bind _ _ _ _ _ _ | consumeDeliveries _ _ _ _ => cases hwakes

/-- After every run, a call on wakes keeps the constraints of the schema exactly when it is no
preparation whose checks pass while a wake of the agent is dispatched. -/
theorem keepsConstraints_iff_unblocked (operations : List Operation) (operation : Operation)
    (hwakes : operation.onWakes = true) (hfresh : operation.DrawsFresh (run {} operations)) :
    (run {} operations).KeepsConstraints operation ↔ (run {} operations).Unblocked operation := by
  have h := constraints_run operations
  constructor
  · rintro ⟨hkeeps, -⟩
    cases operation with
    | prepare call =>
      intro hpasses
      by_contra hdispatched
      rw [Bool.not_eq_false] at hdispatched
      exact hkeeps
        (map_eq_error.mpr ((preparation_constraint_iff h call).mpr ⟨hpasses, hdispatched⟩))
    | _ => exact trivial
  · intro hunblocked
    refine ⟨perform_ne_constraint h hwakes hfresh hunblocked, fun _ _ hperform ↦ ?_⟩
    have hafter := settles_perform h operation
    rw [hperform] at hafter
    exact hafter

end Store

namespace TwoClaims

def hexId (start : String) (digit : Char) : String :=
  start ++ String.ofList (List.replicate 31 '0' ++ [digit])

def owner : CommunicationPrincipal :=
  ⟨"human", "wc_commprincipal_" ++ String.ofList (List.replicate 64 'a')⟩

def agentId : String := hexId "wc_dagent_" '1'

def taskId : String := hexId "wc_agent_task_" '1'

def attempt : AgentTasks.AttemptAssertion :=
  ⟨hexId "wc_agent_task_attempt_" '1', agentId, hexId "wc_agent_task_fence_" '1', 1⟩

def endpoint : EndpointAssertion := ⟨agentId, hexId "wc_endpoint_" '1', 1⟩

def drawnClaim (digit : Char) : NewClaim :=
  ⟨hexId "wc_wake_attempt_" digit, hexId "wc_wake_claim_" digit, hexId "wc_wake_consume_" digit⟩

def claim (digit : Char) : Operation := .claim owner endpoint "mcp_app" (drawnClaim digit) ⟨0, 0⟩

def prepare (digit : Char) : Operation :=
  .prepare ⟨owner, endpoint, ⟨hexId "wc_wake_" digit, (drawnClaim digit).attemptId,
    (drawnClaim digit).claimFence⟩, (drawnClaim digit).consumeToken, ⟨0, 0⟩⟩

/-- An agent has a task, with an attempt that is continued at its endpoint, and a message. -/
def queued : List Operation := [.task (.register agentId owner) [], .task (.create owner
      { title := "title", instruction := "text", assigneeAgentId := some agentId,
        idempotencyKey := "a" }
      (.ok ()) taskId 0) [],
    .task (.task owner taskId 0 (.start agentId "b" ⟨attempt.attemptId, attempt.attemptFence⟩)) [],
    .task (.task owner taskId 0 (.continueEndpoint attempt (hexId "wc_wake_" '1'))) [],
    .attach owner { agentId := agentId, host := "host", wakeCapable := true, idempotencyKey := "c" }
      endpoint.endpointId 0,
    .post (.ok ()) ⟨"message", "conversation"⟩ [⟨agentId, "delivery", hexId "wc_wake_" '2'⟩] 0]

end TwoClaims

open TwoClaims in
/-- An endpoint that has claimed two wakes can prepare the first of them: no wake of its agent is
dispatched yet. -/
theorem first_preparation_keepsConstraints :
    (Store.run {} (queued ++ [claim '1', claim '2'])).KeepsConstraints (prepare '1') :=
  (Store.keepsConstraints_iff_unblocked (queued ++ [claim '1', claim '2']) (prepare '1') rfl
    trivial).mpr fun _ ↦ by decide +kernel

def breaksConstraint {A : Type} : Attempted A → Bool
  | .error .constraint => true
  | _ => false

theorem eq_of_breaksConstraint {A : Type} {x : Attempted A} (h : breaksConstraint x = true) :
    x = .error .constraint := by
  unfold breaksConstraint at h
  split at h
  · rfl
  · cases h

open TwoClaims in
/-- An endpoint claims the wake of a task attempt and an inbox wake, prepares the one, and cannot
prepare the other. -/
theorem second_preparation_breaks_constraint :
    ¬ (Store.run {} (queued ++ [claim '1', claim '2', prepare '1'])).KeepsConstraints
      (prepare '2') :=
  fun h ↦ h.1 (eq_of_breaksConstraint (by decide +kernel))

end WebCodex.AgentWake
