import WebCodex.RunnerWire.Wire

/-!
The decoder finds the family of an encoded operation under its kind (`ofKind_wireKind`). Typed
jobs differ: the decoder wants more of the recovery context of a process or a script than the
encoder checks (`RunnerJobOperation.Described`). Such a job is admitted by the server and refused
by the runner, and there is no other such operation (`decodeInvocation_fromOperation_iff`).
-/

namespace WebCodex.RunnerWire

open Foundation Registry

variable {P : NestedPayloads}

def RunnerJobOperation.kind : RunnerJobOperation → JobKind
  | .startShell _ => .start
  | .startValidation _ => .startValidation
  | .startProcess _ => .startProcess
  | .startDetachedProcess _ => .startDetachedProcess
  | .startScript _ => .startScript
  | .stop _ => .stop

/-- The family under which the decoder should find an operation. -/
def RunnerOperation.family : RunnerOperation P → WireFamily
  | .runShell _ => .runShell
  | .runProcess _ => .runProcess
  | .runScript _ => .runScript false
  | .runInternalPosixScript _ => .runScript true
  | .job operation => .job operation.kind
  | .file _ => .file
  | .project operation => .project operation.kind
  | .computer operation => .computer operation.kind
  | .validation _ _ => .validation
  | .lsp _ _ => .lsp
  | .persistentShell _ => .persistentShell
  | .mcpGateway _ => .mcpGateway
  | .pluginGateway _ => .pluginGateway
  | .codingAgent _ => .codingAgent
  | .configuredSkillRoots _ => .configuredSkillRoots
  | .skillStore _ => .skillStore
  | .sshResource _ => .sshResource
  | .runnerConfig _ => .runnerConfig

theorem ofKind_file (kind : RunnerFileOperationKind) :
    WireFamily.ofKind kind.wireKind = some .file := by
  cases kind <;> rfl

theorem ofKind_project (kind : RunnerProjectOperationKind) :
    WireFamily.ofKind kind.wireKind = some (.project kind) := by
  cases kind <;> rfl

theorem ofKind_computer (kind : RunnerComputerOperationKind) :
    WireFamily.ofKind kind.wireKind = some (.computer kind) := by
  cases kind <;> rfl

/-- The decoder looks for an operation in the family that it was encoded for. -/
theorem ofKind_wireKind (operation : RunnerOperation P) :
    WireFamily.ofKind operation.wireKind = some operation.family := by
  cases operation with
  | job operation => cases operation <;> rfl
  | file operation => exact ofKind_file operation.kind
  | project operation => exact ofKind_project operation.kind
  | computer operation => exact ofKind_computer operation.kind
  | _ =>
    simp only [RunnerOperation.wireKind, RunnerOperation.family]
    rfl

variable {wire : RunnerRequest P}

theorem decodeOperation_eq (operation : RunnerOperation P)
    (hkind : wire.kind = operation.wireKind) :
    wire.decodeOperation = wire.decodeFamily operation.family := by
  unfold RunnerRequest.decodeOperation
  rw [hkind, ofKind_wireKind]
  rfl

namespace RunnerRequest

variable {wire : RunnerRequest P}

@[simp] theorem ensureNoFileFieldsExceptMaxBytes_eq_ok {value : Unit} :
    wire.ensureNoFileFieldsExceptMaxBytes = .ok value ↔
      wire.hasFileFieldsExceptMaxBytes = false := by
  simp [ensureNoFileFieldsExceptMaxBytes]

@[simp] theorem ensureNoFileFields_eq_ok {value : Unit} :
    wire.ensureNoFileFields = .ok value ↔
      wire.hasFileFieldsExceptMaxBytes = false ∧ wire.maxBytes = none := by
  simp [ensureNoFileFields]

@[simp] theorem ensureSpecialPayloadsAbsent_eq_ok {value : Unit} :
    wire.ensureSpecialPayloadsAbsent = .ok value ↔
      wire.process = none ∧ wire.script = none ∧ wire.hasTypedPayloadExcept none = false := by
  simp [ensureSpecialPayloadsAbsent, and_assoc]

@[simp] theorem ensureOnlyProcessPayload_eq_ok {value : Unit} :
    wire.ensureOnlyProcessPayload = .ok value ↔
      wire.script = none ∧ wire.hasTypedPayloadExcept none = false := by
  simp [ensureOnlyProcessPayload]

@[simp] theorem ensureOnlyScriptPayload_eq_ok {value : Unit} :
    wire.ensureOnlyScriptPayload = .ok value ↔
      wire.process = none ∧ wire.hasTypedPayloadExcept none = false := by
  simp [ensureOnlyScriptPayload]

@[simp] theorem ensureOnlyPayload_eq_ok {allowed : TypedPayload} {value : Unit} :
    wire.ensureOnlyPayload allowed = .ok value ↔
      wire.process = none ∧ wire.script = none ∧
        wire.hasTypedPayloadExcept (some allowed) = false := by
  simp [ensureOnlyPayload, and_assoc]

end RunnerRequest

attribute [local simp] RunnerRequest.hasFileFieldsExceptMaxBytes RunnerRequest.hasTypedPayloadExcept
  RunnerRequest.ensureEmptyGenericExecutionFields
  RunnerRequest.ensureLspLegacyCompatibleGenericFields RunnerRequest.decodeFamily
  RunnerOperation.family emptyWire labelled_eq_ok bind_eq_ok

/-! ### Operations other than jobs -/

variable {operation : RunnerScriptOperation} {timeoutSecs : ℕ}

section Operations

variable {metadata : RunnerInvocationMetadata} {wire : RunnerRequest P}

theorem decode_runShell {operation : RunnerShellOperation}
    (h : encodeOperation metadata (.runShell operation) = .ok wire) :
    wire.decodeOperation = .ok (.runShell operation) := by
  simp only [encodeOperation, bind_eq_ok, pure_eq_ok] at h
  obtain ⟨_, hvalid, rfl⟩ := h
  rw [decodeOperation_eq (.runShell operation) rfl]
  simp [hvalid, pure, Except.pure]

theorem decode_runProcess {operation : RunnerProcessOperation}
    (h : encodeOperation metadata (.runProcess operation) = .ok wire) :
    wire.decodeOperation = .ok (.runProcess operation) := by
  simp only [encodeOperation, bind_eq_ok, pure_eq_ok] at h
  obtain ⟨_, hvalid, rfl⟩ := h
  rw [decodeOperation_eq (.runProcess operation) rfl]
  simp [hvalid, pure, Except.pure]

theorem decode_runScript (h : encodeOperation metadata (.runScript operation) = .ok wire) :
    wire.decodeOperation = .ok (.runScript operation) := by
  simp only [encodeOperation, bind_eq_ok, pure_eq_ok] at h
  obtain ⟨_, hvalid, rfl⟩ := h
  rw [decodeOperation_eq (.runScript operation) rfl]
  simp [RunnerRequest.decodeScript, hvalid, pure, Except.pure]

theorem stdin_of_validateInternal (h : validateDirectScript operation true = .ok ()) :
    operation.stdin = none := by
  simp only [validateDirectScript, bind_eq_ok, ensure_eq_ok] at h
  obtain ⟨_, _, _, _, hinternal⟩ := h
  simp only [Bool.true_and, Bool.not_eq_true', Bool.or_eq_false_iff] at hinternal
  exact Option.isSome_eq_false_iff.mp hinternal.1.1 |> Option.isNone_iff_eq_none.mp

/-- The request of an internal script leaves its input out. The validator has seen that there is
none. -/
theorem decode_runInternalPosixScript
    (h : encodeOperation metadata (.runInternalPosixScript operation) = .ok wire) :
    wire.decodeOperation = .ok (.runInternalPosixScript operation) := by
  simp only [encodeOperation, bind_eq_ok, pure_eq_ok] at h
  obtain ⟨_, hvalid, rfl⟩ := h
  have hstdin := stdin_of_validateInternal hvalid
  rw [decodeOperation_eq (.runInternalPosixScript operation) rfl]
  obtain ⟨_, _, _, _⟩ := operation
  subst hstdin
  simp [RunnerRequest.decodeScript, hvalid, pure, Except.pure]

theorem decode_file {operation : RunnerFileOperation}
    (h : encodeOperation metadata (.file operation) = .ok wire) :
    wire.decodeOperation = .ok (.file operation) := by
  simp only [encodeOperation, bind_eq_ok, pure_eq_ok] at h
  obtain ⟨_, hvalid, rfl⟩ := h
  rw [decodeOperation_eq (.file operation) rfl]
  simp [RunnerRequest.decodeFile, RunnerOperation.wireKind,
    RunnerFileOperationKind.fromWire_wireKind, hvalid, pure, Except.pure]

theorem decode_project {operation : RunnerProjectOperation}
    (h : encodeOperation metadata (.project operation) = .ok wire) :
    wire.decodeOperation = .ok (.project operation) := by
  simp only [encodeOperation, bind_eq_ok, pure_eq_ok] at h
  obtain ⟨_, hvalid, rfl⟩ := h
  rw [decodeOperation_eq (.project operation) rfl]
  simp [RunnerRequest.decodeStdinPayload, hvalid, pure, Except.pure]

theorem decode_computer {operation : RunnerComputerOperation}
    (htimeout : 1 ≤ operation.timeoutSecs)
    (h : encodeOperation metadata (.computer operation) = .ok wire) :
    wire.decodeOperation = .ok (.computer operation) := by
  simp only [encodeOperation, bind_eq_ok, pure_eq_ok] at h
  obtain ⟨_, hvalid, rfl⟩ := h
  rw [decodeOperation_eq (.computer operation) rfl]
  simp [RunnerRequest.decodeStdinPayload, hvalid, htimeout, pure, Except.pure]

theorem decode_validation {payload : P.ValidationBridgeRequest}
    (h : encodeOperation metadata (.validation payload timeoutSecs) = .ok wire) :
    wire.decodeOperation = .ok (.validation payload timeoutSecs) := by
  simp only [encodeOperation, bind_eq_ok, pure_eq_ok] at h
  obtain ⟨_, hvalid, rfl⟩ := h
  rw [decodeOperation_eq (.validation payload timeoutSecs) rfl]
  simp [RunnerRequest.decodeTyped, hvalid, pure, Except.pure]

theorem decode_lsp {payload : P.RunnerLspPayload} (htimeout : 1 ≤ timeoutSecs)
    (h : encodeOperation metadata (.lsp payload timeoutSecs) = .ok wire) :
    wire.decodeOperation = .ok (.lsp payload timeoutSecs) := by
  cases h
  rw [decodeOperation_eq (.lsp payload timeoutSecs) rfl]
  simp [htimeout, pure, Except.pure]

theorem decode_persistentShell {operation : RunnerPersistentShellOperation}
    (h : encodeOperation metadata (.persistentShell operation) = .ok wire) :
    wire.decodeOperation = .ok (.persistentShell operation) := by
  simp only [encodeOperation, bind_eq_ok, pure_eq_ok] at h
  obtain ⟨_, hvalid, rfl⟩ := h
  rw [decodeOperation_eq (.persistentShell operation) rfl]
  simp [RunnerRequest.decodePersistentShell, hvalid, pure, Except.pure]

theorem decode_mcpGateway {operation : P.McpGatewayRequest}
    (h : encodeOperation metadata (.mcpGateway operation) = .ok wire) :
    wire.decodeOperation = .ok (.mcpGateway operation) := by
  simp only [encodeOperation, bind_eq_ok, labelled_eq_ok, pure_eq_ok] at h
  obtain ⟨_, hvalid, rfl⟩ := h
  rw [decodeOperation_eq (.mcpGateway operation) rfl]
  simp [RunnerRequest.decodeTyped, hvalid, pure, Except.pure]

theorem decode_pluginGateway {operation : P.PluginGatewayRequest}
    (h : encodeOperation metadata (.pluginGateway operation) = .ok wire) :
    wire.decodeOperation = .ok (.pluginGateway operation) := by
  simp only [encodeOperation, bind_eq_ok, labelled_eq_ok, pure_eq_ok] at h
  obtain ⟨_, hvalid, rfl⟩ := h
  rw [decodeOperation_eq (.pluginGateway operation) rfl]
  simp [RunnerRequest.decodeTyped, hvalid, pure, Except.pure]

theorem decode_codingAgent {operation : P.CodingAgentRequest}
    (h : encodeOperation metadata (.codingAgent operation) = .ok wire) :
    wire.decodeOperation = .ok (.codingAgent operation) := by
  simp only [encodeOperation, bind_eq_ok, labelled_eq_ok, pure_eq_ok] at h
  obtain ⟨_, hvalid, rfl⟩ := h
  rw [decodeOperation_eq (.codingAgent operation) rfl]
  simp [RunnerRequest.decodeTyped, hvalid, pure, Except.pure]

/-- A payload that travels as text is read back from it. The decoder refuses a NUL that the
encoder does not look for; the serializer writes none. -/
theorem decodeContent_encodeContent {A : Type} {codec : JsonCodec A} {kind name : String}
    {maxBytes start : ℕ} {operation : A} (label : String)
    (h : encodeContent (emptyWire metadata kind start) name codec maxBytes timeoutSecs operation =
      .ok wire) :
    wire.decodeContent label name codec maxBytes = .ok operation ∧ wire.kind = kind := by
  simp only [encodeContent, bind_eq_ok, labelled_eq_ok, ensure_eq_ok, decide_eq_true_eq,
    pure_eq_ok] at h
  obtain ⟨_, hencode, _, hbound, rfl⟩ := h
  have hnul := codec.noNul hencode
  have hdecode := codec.decode_encode hencode
  constructor
  · simp [RunnerRequest.decodeContent, RunnerRequest.boundedContent, hbound, hnul, hdecode, pure,
      Except.pure]
  · rfl

theorem decode_skillStore {operation : P.SkillStoreRequest}
    (h : encodeOperation metadata (.skillStore operation) = .ok wire) :
    wire.decodeOperation = .ok (.skillStore operation) := by
  obtain ⟨hcontent, hkind⟩ := decodeContent_encodeContent "skill_store" h
  rw [decodeOperation_eq (.skillStore operation) hkind]
  simp [hcontent, pure, Except.pure]

theorem decode_configuredSkillRoots {operation : P.ConfiguredSkillRootsRequest}
    (h : encodeOperation metadata (.configuredSkillRoots operation) = .ok wire) :
    wire.decodeOperation = .ok (.configuredSkillRoots operation) := by
  simp only [encodeOperation, bind_eq_ok, labelled_eq_ok] at h
  obtain ⟨_, hvalid, hencode⟩ := h
  obtain ⟨hcontent, hkind⟩ := decodeContent_encodeContent "configured_skill_roots" hencode
  rw [decodeOperation_eq (.configuredSkillRoots operation) hkind]
  simp [hcontent, hvalid, pure, Except.pure]

theorem decode_sshResource {operation : P.SshResourceRequest}
    (h : encodeOperation metadata (.sshResource operation) = .ok wire) :
    wire.decodeOperation = .ok (.sshResource operation) := by
  simp only [encodeOperation, bind_eq_ok, labelled_eq_ok] at h
  obtain ⟨_, hvalid, hencode⟩ := h
  obtain ⟨hcontent, hkind⟩ := decodeContent_encodeContent "ssh_resource" hencode
  rw [decodeOperation_eq (.sshResource operation) hkind]
  simp [hcontent, hvalid, pure, Except.pure]

theorem decode_runnerConfig {operation : P.RunnerConfigOperationRequest}
    (h : encodeOperation metadata (.runnerConfig operation) = .ok wire) :
    wire.decodeOperation = .ok (.runnerConfig operation) := by
  simp only [encodeOperation, bind_eq_ok, labelled_eq_ok] at h
  obtain ⟨_, hvalid, hencode⟩ := h
  obtain ⟨hcontent, hkind⟩ := decodeContent_encodeContent "runner_config" hencode
  rw [decodeOperation_eq (.runnerConfig operation) hkind]
  simp [hcontent, hvalid, pure, Except.pure]

end Operations

/-! ### Jobs -/

/-- A job whose recovery context the runner accepts. The context of a typed job names no SSH
resource, and it repeats the source of the execution, the language and the bytes of a script, the
number of arguments and whether there is an input. That of a detached process names no assertion. -/
def RunnerJobOperation.Described (job : RunnerJobOperation) : Prop :=
  match job with
  | .startProcess operation | .startDetachedProcess operation =>
    operation.context.sshResource = none ∧
      operation.context.structuredExecution = job.expectedStructuredExecution
  | .startScript operation =>
    operation.context.sshResource = none ∧
      operation.context.structuredExecution = job.expectedStructuredExecution
  | .startShell _ | .startValidation _ | .stop _ => True

variable {job : RunnerJobOperation}

section Jobs

variable {metadata : RunnerInvocationMetadata} {wire : RunnerRequest P}

theorem decode_job_eq_ok_iff (hkind : wire.kind = job.wireKind) :
    wire.decodeOperation = .ok (.job job) ↔ wire.decodeJobOperation job.kind = .ok job := by
  rw [decodeOperation_eq (.job job) hkind]
  simp [pure, Except.pure]

theorem decode_startShell {operation : RunnerJobShellOperation}
    (h : encodeOperation metadata (.job (.startShell operation)) = .ok wire) :
    wire.decodeOperation = .ok (.job (.startShell operation)) := by
  simp only [encodeOperation, encodeJobOperation, bind_eq_ok, pure_eq_ok] at h
  obtain ⟨_, hcommand, _, hcontext, rfl⟩ := h
  rw [decode_job_eq_ok_iff rfl]
  simp [RunnerRequest.decodeJobOperation, RunnerRequest.decodeStart, RunnerJobOperation.kind,
    hcommand, hcontext, pure, Except.pure]

/-- The steps of a validation job travel as text in the place of a command. -/
theorem decode_startValidation {operation : RunnerJobValidationOperation}
    (h : encodeOperation metadata (.job (.startValidation operation)) = .ok wire) :
    wire.decodeOperation = .ok (.job (.startValidation operation)) := by
  simp only [encodeOperation, encodeJobOperation, bind_eq_ok, labelled_eq_ok, ensure_eq_ok,
    pure_eq_ok] at h
  obtain ⟨_, hsteps, _, hcontext, _, hnames, _, hencode, rfl⟩ := h
  have hdecode := P.validationSteps.decode_encode hencode
  rw [decode_job_eq_ok_iff rfl]
  simp [RunnerRequest.decodeJobOperation, RunnerRequest.decodeStart, RunnerJobOperation.kind,
    hsteps, hcontext, hdecode, eq_of_beq hnames, pure, Except.pure]

theorem decode_stop {jobId : String}
    (h : encodeOperation metadata (.job (.stop jobId)) = .ok wire) :
    wire.decodeOperation = .ok (.job (.stop jobId)) := by
  cases h
  rw [decode_job_eq_ok_iff rfl]
  simp [RunnerRequest.decodeJobOperation, RunnerJobOperation.kind, pure, Except.pure]

/-- The encoder looks at the directory and the session of a context, the decoder of a typed job also
at its SSH resource and its metadata. -/
theorem decode_startProcess_iff {operation : RunnerJobProcessOperation}
    (h : encodeOperation metadata (.job (.startProcess operation)) = .ok wire) :
    wire.decodeOperation = .ok (.job (.startProcess operation)) ↔
      (RunnerJobOperation.startProcess operation).Described := by
  simp only [encodeOperation, encodeJobOperation, encodeProcessJob, bind_eq_ok, pure_eq_ok] at h
  obtain ⟨_, hcommon, _, hargv, _, hcontext, rfl⟩ := h
  rw [decode_job_eq_ok_iff rfl]
  simp [RunnerRequest.decodeJobOperation, RunnerRequest.decodeStart, RunnerJobOperation.kind,
    RunnerRequest.decodeProcessJob, RunnerRequest.ensureRecoveryMetadata,
    RunnerJobOperation.Described, RunnerJobOperation.context, hcommon, hargv, hcontext, pure,
    Except.pure]

/-- A detached process comes back exactly when its context describes it. -/
theorem decode_startDetachedProcess_iff {operation : RunnerJobProcessOperation}
    (h : encodeOperation metadata (.job (.startDetachedProcess operation)) = .ok wire) :
    wire.decodeOperation = .ok (.job (.startDetachedProcess operation)) ↔
      (RunnerJobOperation.startDetachedProcess operation).Described := by
  simp only [encodeOperation, encodeJobOperation, encodeProcessJob, bind_eq_ok, pure_eq_ok] at h
  obtain ⟨_, hcommon, _, hargv, _, hcontext, rfl⟩ := h
  rw [decode_job_eq_ok_iff rfl]
  simp [RunnerRequest.decodeJobOperation, RunnerRequest.decodeStart, RunnerJobOperation.kind,
    RunnerRequest.decodeProcessJob, RunnerRequest.ensureRecoveryMetadata,
    RunnerJobOperation.Described, RunnerJobOperation.context, hcommon, hargv, hcontext, pure,
    Except.pure]

/-- A script comes back exactly when its context describes it. -/
theorem decode_startScript_iff {operation : RunnerJobScriptOperation}
    (h : encodeOperation metadata (.job (.startScript operation)) = .ok wire) :
    wire.decodeOperation = .ok (.job (.startScript operation)) ↔
      (RunnerJobOperation.startScript operation).Described := by
  simp only [encodeOperation, encodeJobOperation, bind_eq_ok, pure_eq_ok] at h
  obtain ⟨_, hscript, _, hcontext, rfl⟩ := h
  rw [decode_job_eq_ok_iff rfl]
  simp [RunnerRequest.decodeJobOperation, RunnerRequest.decodeStart, RunnerJobOperation.kind,
    RunnerRequest.ensureRecoveryMetadata, RunnerJobOperation.Described,
    RunnerJobOperation.context, hscript, hcontext, pure, Except.pure]

theorem decode_job_iff (h : encodeOperation metadata (.job job) = .ok wire) :
    wire.decodeOperation = .ok (.job job) ↔ job.Described := by
  cases job with
  | startShell => exact iff_of_true (decode_startShell h) trivial
  | startValidation => exact iff_of_true (decode_startValidation h) trivial
  | startProcess => exact decode_startProcess_iff h
  | startDetachedProcess => exact decode_startDetachedProcess_iff h
  | startScript => exact decode_startScript_iff h
  | stop => exact iff_of_true (decode_stop h) trivial

end Jobs

/-! ### Round trips -/

/-- The condition on jobs, for all operations. -/
def RunnerOperation.Described : RunnerOperation P → Prop
  | .job operation => operation.Described
  | _ => True

/-- Operations on the computer and of the language server have a timeout of at least a second. -/
def RunnerOperation.Timed : RunnerOperation P → Prop
  | .computer operation => 1 ≤ operation.timeoutSecs
  | .lsp _ timeoutSecs => 1 ≤ timeoutSecs
  | _ => True

/-- What was encoded is decoded again exactly when the decoder finds the job described. -/
theorem decodeOperation_encodeOperation_iff {metadata : RunnerInvocationMetadata}
    {operation : RunnerOperation P} (htimed : operation.Timed)
    (h : encodeOperation metadata operation = .ok wire) :
    wire.decodeOperation = .ok operation ↔ operation.Described := by
  cases operation with
  | job => exact decode_job_iff h
  | runShell => exact iff_of_true (decode_runShell h) trivial
  | runProcess => exact iff_of_true (decode_runProcess h) trivial
  | runScript => exact iff_of_true (decode_runScript h) trivial
  | runInternalPosixScript => exact iff_of_true (decode_runInternalPosixScript h) trivial
  | file => exact iff_of_true (decode_file h) trivial
  | project => exact iff_of_true (decode_project h) trivial
  | computer => exact iff_of_true (decode_computer htimed h) trivial
  | validation => exact iff_of_true (decode_validation h) trivial
  | lsp => exact iff_of_true (decode_lsp htimed h) trivial
  | persistentShell => exact iff_of_true (decode_persistentShell h) trivial
  | mcpGateway => exact iff_of_true (decode_mcpGateway h) trivial
  | pluginGateway => exact iff_of_true (decode_pluginGateway h) trivial
  | codingAgent => exact iff_of_true (decode_codingAgent h) trivial
  | configuredSkillRoots => exact iff_of_true (decode_configuredSkillRoots h) trivial
  | skillStore => exact iff_of_true (decode_skillStore h) trivial
  | sshResource => exact iff_of_true (decode_sshResource h) trivial
  | runnerConfig => exact iff_of_true (decode_runnerConfig h) trivial

def RunnerRequest.metadata (wire : RunnerRequest P) : RunnerInvocationMetadata :=
  ⟨wire.requestId, wire.clientId, wire.requestedBy, wire.createdAt⟩

theorem metadata_encodeJobOperation {start : RunnerRequest P}
    (h : encodeJobOperation start job = .ok wire) :
    wire.metadata = start.metadata := by
  cases job <;>
    simp only [encodeJobOperation, encodeProcessJob, bind_eq_ok, labelled_eq_ok, pure_eq_ok] at h
  case startShell => obtain ⟨_, _, _, _, rfl⟩ := h; rfl
  case startValidation => obtain ⟨_, _, _, _, _, _, _, _, rfl⟩ := h; rfl
  case startProcess => obtain ⟨_, _, _, _, _, _, rfl⟩ := h; rfl
  case startDetachedProcess => obtain ⟨_, _, _, _, _, _, rfl⟩ := h; rfl
  case startScript => obtain ⟨_, _, _, _, rfl⟩ := h; rfl
  case stop => cases h; rfl

theorem metadata_encodeContent {A : Type} {codec : JsonCodec A} {start : RunnerRequest P}
    {name : String}
    {maxBytes : ℕ} {operation : A}
    (h : encodeContent start name codec maxBytes timeoutSecs operation = .ok wire) :
    wire.metadata = start.metadata := by
  simp only [encodeContent, bind_eq_ok, pure_eq_ok] at h
  obtain ⟨_, _, _, _, rfl⟩ := h
  rfl

/-- A request carries the metadata that it was made with. -/
theorem metadata_encodeOperation {metadata : RunnerInvocationMetadata}
    {operation : RunnerOperation P} (h : encodeOperation metadata operation = .ok wire) :
    wire.metadata = metadata := by
  cases operation <;> simp only [encodeOperation, bind_eq_ok, pure_eq_ok] at h
  case job job => exact metadata_encodeJobOperation h
  case lsp => cases h; rfl
  case skillStore => exact metadata_encodeContent h
  case configuredSkillRoots | sshResource | runnerConfig =>
    obtain ⟨_, _, hencode⟩ := h
    exact metadata_encodeContent hencode
  all_goals
    obtain ⟨_, _, rfl⟩ := h
    rfl

/-- The runner reads back the metadata and the operation of every request that the server has made,
except for typed jobs with a recovery context of other content, which it refuses. Assumes:
operations on the computer and of the language server have a timeout. -/
theorem decodeInvocation_fromOperation_iff (metadata : RunnerInvocationMetadata)
    (operation : RunnerOperation P) {wire : RunnerRequest P} (htimed : operation.Timed)
    (h : RunnerRequest.fromOperation metadata operation = .ok wire) :
    wire.decodeInvocation = .ok ⟨metadata, operation⟩ ↔ operation.Described := by
  rw [← decodeOperation_encodeOperation_iff htimed h, RunnerRequest.decodeInvocation]
  have hmetadata := metadata_encodeOperation h
  unfold RunnerRequest.metadata at hmetadata
  rw [hmetadata]
  cases wire.decodeOperation with
  | error => simp [bind, Except.bind]
  | ok => simp [bind, Except.bind, pure, Except.pure]

/-! ### A process job with and without its metadata -/

def textCodec : JsonCodec String where
  encode text := if hasNul text then .error "NUL" else .ok text
  decode text := .ok text
  decode_encode := by
    intro value text h
    split at h
    · cases h
    · exact h.symm
  noNul := by
    intro value text h
    split at h
    · cases h
    · rename_i hnul
      cases h
      exact Bool.eq_false_of_not_eq_true hnul

/-- Nested payloads that are texts, without plans of validation jobs. -/
def textPayloads : NestedPayloads where
  ValidationBridgeRequest := String
  RunnerLspPayload := String
  McpGatewayRequest := String
  PluginGatewayRequest := String
  CodingAgentRequest := String
  ConfiguredSkillRootsRequest := String
  SkillStoreRequest := String
  SshResourceRequest := String
  RunnerConfigOperationRequest := String
  validateBridgeRequest _ := .ok ()
  validateMcpGatewayRequest _ := .ok ()
  validatePluginGatewayRequest _ := .ok ()
  validateCodingAgentRequest _ := .ok ()
  validateConfiguredSkillRoots _ := .ok ()
  validateSshResource _ := .ok ()
  validateRunnerConfig _ := .ok ()
  validationSteps :=
    { encode := fun _ ↦ .error "no plan", decode := fun _ ↦ .error "no plan",
      decode_encode := nofun, noNul := nofun }
  configuredSkillRoots := textCodec
  skillStore := textCodec
  sshResource := textCodec
  runnerConfig := textCodec
  parseJson _ := .ok ()

def versionMetadata : RunnerInvocationMetadata := ⟨"req-1", "runner-1", "tester", 123⟩

/-- The recovery context that the runner accepts for the job. -/
def versionContext : ShellJobContext where
  commandPreview := "rustc --version"
  structuredExecution := some { executionSource := "run_process", argCount := 1 }

variable (context : ShellJobContext)

/-- A job that asks for the version of the compiler. -/
def versionJob : RunnerJobOperation :=
  .startProcess
    { jobId := "job-1"
      process := { executable := "rustc", args := ["--version"] }
      timeoutSecs := 60
      context := context }

def versionRequest : RunnerRequest textPayloads :=
  { emptyWire versionMetadata "start_process_job" 60 with
    jobId := some "job-1", process := some { executable := "rustc", args := ["--version"] },
    jobContext := some context }

variable {context}

theorem fromOperation_versionJob (hcoherent : validateJobContextCoherence none context = .ok ()) :
    RunnerRequest.fromOperation versionMetadata (.job (versionJob context)) =
      .ok (versionRequest context) := by
  have hargv : validateProcessArgv { executable := "rustc", args := ["--version"] } = .ok () := by
    decide +kernel
  simp [RunnerRequest.fromOperation, RunnerInvocation.intoV2Request, encodeOperation,
    encodeJobOperation, versionJob, encodeProcessJob, versionRequest, hargv, hcoherent,
    validateStructuredJobCommon, validateStructuredTextFields, RunnerOperation.wireKind,
    RunnerJobOperation.wireKind, structuredExecutionTimeoutMinSecs,
    structuredExecutionTimeoutMaxSecs, pure, Except.pure]

/-- The runner accepts the job with the context that describes it, and gets the operation back. -/
theorem decodeInvocation_versionRequest :
    (versionRequest versionContext).decodeInvocation =
      .ok ⟨versionMetadata, .job (versionJob versionContext)⟩ :=
  (decodeInvocation_fromOperation_iff versionMetadata (.job (versionJob _)) trivial
    (fromOperation_versionJob rfl)).mpr ⟨rfl, rfl⟩

/-- The recovery contexts of a job that the server makes and the runner refuses: one without
metadata, and one that names an SSH resource. -/
def refusedContexts : List ShellJobContext :=
  [{ versionContext with structuredExecution := none },
    { versionContext with workflowSessionId := some "session", sshResource := some "host" }]

/-- The server encodes the job with each of these contexts, and the runner refuses what it sent. So
not every operation that is encoded is decoded again. -/
theorem undescribed_job_is_refused :
    (∀ context ∈ refusedContexts, RunnerRequest.fromOperation versionMetadata
      (.job (versionJob context)) =
        .ok (versionRequest context) ∧ (versionRequest context).decodeInvocation.isOk = false) ∧
    ¬ ∀ (P : NestedPayloads) (metadata : RunnerInvocationMetadata) (operation : RunnerOperation P)
      (wire : RunnerRequest P), operation.Timed →
      RunnerRequest.fromOperation metadata operation = .ok wire →
      wire.decodeInvocation = .ok ⟨metadata, operation⟩ := by
  have hrefused : ∀ context ∈ refusedContexts, RunnerRequest.fromOperation versionMetadata
      (.job (versionJob context)) = .ok (versionRequest context) ∧
        (versionRequest context).decodeInvocation.isOk = false := by
    intro context hcontext
    rcases List.mem_cons.mp hcontext with rfl | hlast
    · exact ⟨fromOperation_versionJob rfl, by decide +kernel⟩
    · obtain rfl := List.mem_singleton.mp hlast
      exact ⟨fromOperation_versionJob rfl, by decide +kernel⟩
  refine ⟨hrefused, fun haccepted ↦ ?_⟩
  obtain ⟨hencoded, hrefuses⟩ := hrefused _ List.mem_cons_self
  rw [haccepted textPayloads versionMetadata (.job (versionJob _)) _ trivial hencoded] at hrefuses
  cases hrefuses

end WebCodex.RunnerWire
