import WebCodex.RunnerWire.RoundTrip

/-!
A request that was decoded is the one that the encoder writes for its operation, up to the
timeout, the text of a serialized payload, and the directory and command of requests for the
language server (`RunnerRequest.respelled`). So no kind lets a field ride along that its operation
has no use for (`accepted_requests_carry_nothing_unused`).
-/

namespace WebCodex.RunnerWire

open Foundation Registry

variable {P : NestedPayloads}

/-! ### Kinds and operations -/

variable {text kind label name : String}

theorem RunnerFileOperationKind.wireKind_fromWire {kind : RunnerFileOperationKind}
    (h : fromWire text = some kind) : kind.wireKind = text := by
  unfold fromWire at h
  split at h <;> cases h <;> rfl

theorem RunnerProjectOperationKind.wireKind_fromWire {kind : RunnerProjectOperationKind}
    (h : fromWire text = some kind) : kind.wireKind = text := by
  unfold fromWire at h
  split at h <;> cases h <;> rfl

theorem RunnerComputerOperationKind.wireKind_fromWire {kind : RunnerComputerOperationKind}
    (h : fromWire text = some kind) :
    kind.wireKind = text := by
  unfold fromWire at h
  split at h <;> cases h <;> rfl

/-- The kind under which the dispatch finds a family. Each file operation has its own. -/
def WireFamily.wireKind : WireFamily → Option String
  | .runShell => some "run_shell"
  | .runProcess => some "run_process"
  | .runScript false => some "run_script"
  | .runScript true => some "run_internal_posix_script"
  | .job .start => some "start_job"
  | .job .startValidation => some "start_validation_job"
  | .job .startProcess => some "start_process_job"
  | .job .startDetachedProcess => some "start_detached_process_job"
  | .job .startScript => some "start_script_job"
  | .job .stop => some "stop_job"
  | .file => none
  | .project kind => some kind.wireKind
  | .computer kind => some kind.wireKind
  | .validation => some "validation"
  | .lsp => some "lsp"
  | .persistentShell => some "persistent_shell"
  | .mcpGateway => some "mcp_gateway"
  | .pluginGateway => some "plugin_gateway"
  | .codingAgent => some "coding_agent"
  | .configuredSkillRoots => some "configured_skill_roots"
  | .skillStore => some "skill_store"
  | .sshResource => some "ssh_resource"
  | .runnerConfig => some "runner_config"

variable {family : WireFamily}

theorem wireKind_ofTypedKind (h : WireFamily.ofTypedKind kind = some family)
    (htext : family.wireKind = some text) :
    kind = text := by
  unfold WireFamily.ofTypedKind at h
  split at h <;> cases h <;> exact Option.some.inj htext

/-- A family with a fixed kind is found under no other text. -/
theorem wireKind_ofKind (h : WireFamily.ofKind kind = some family)
    (htext : family.wireKind = some text) :
    kind = text := by
  unfold WireFamily.ofKind at h
  split at h
  case h_11 =>
    split at h
    · cases h
      cases htext
    · split at h
      case h_1 hproject =>
        cases h
        rw [← RunnerProjectOperationKind.wireKind_fromWire hproject]
        exact Option.some.inj htext
      case h_2 hcomputer =>
        cases h
        rw [← RunnerComputerOperationKind.wireKind_fromWire hcomputer]
        exact Option.some.inj htext
      case h_3 => exact wireKind_ofTypedKind h htext
  all_goals
    cases h
    exact Option.some.inj htext

variable {operation : RunnerOperation P}

/-- Families other than those of files have the kind of their operations. -/
theorem wireKind_family (h : operation.family ≠ .file) :
    operation.family.wireKind = some operation.wireKind := by
  cases operation with
  | job job => cases job <;> rfl
  | file => exact absurd rfl h
  | _ => rfl

attribute [local simp] RunnerRequest.hasFileFieldsExceptMaxBytes RunnerRequest.hasTypedPayloadExcept
  RunnerRequest.ensureEmptyGenericExecutionFields
  RunnerRequest.ensureLspLegacyCompatibleGenericFields labelled_eq_ok bind_eq_ok

variable {wire again other : RunnerRequest P} {job : RunnerJobOperation}

/-- A request is decoded to a job of its own kind. -/
theorem job_kind_of_decode {kind : JobKind} (h : wire.decodeJobOperation kind = .ok job) :
    job.kind = kind := by
  simp only [RunnerRequest.decodeJobOperation, bind_eq_ok] at h
  obtain ⟨_, _, _, _, h⟩ := h
  split_ifs at h with hstop
  · simp only [bind_eq_ok, pure_eq_ok] at h
    obtain ⟨_, _, _, _, rfl⟩ := h
    exact hstop.symm
  · simp only [bind_eq_ok] at h
    obtain ⟨_, _, _, _, h⟩ := h
    cases kind <;>
      simp only [RunnerRequest.decodeStart, RunnerRequest.decodeProcessJob,
        RunnerRequest.ensureRecoveryMetadata, bind_eq_ok, pure_eq_ok] at h
    case start => obtain ⟨_, _, _, _, _, _, rfl⟩ := h; rfl
    case startValidation => obtain ⟨_, _, _, _, _, _, _, _, _, _, rfl⟩ := h; rfl
    case startProcess => obtain ⟨_, _, _, _, _, _, _, _, _, _, _, _, rfl⟩ := h; rfl
    case startDetachedProcess => obtain ⟨_, _, _, _, _, _, _, _, _, _, _, _, rfl⟩ := h; rfl
    case startScript => obtain ⟨_, _, _, _, _, _, _, _, _, _, rfl⟩ := h; rfl
    case stop => exact absurd rfl hstop

/-- A request is decoded to an operation of its own family. -/
theorem family_of_decodeFamily (h : wire.decodeFamily family = .ok operation) :
    operation.family = family := by
  cases family <;>
    simp only [RunnerRequest.decodeFamily, bind_eq_ok, pure_eq_ok] at h
  case runShell => obtain ⟨_, _, _, _, _, _, _, _, rfl⟩ := h; rfl
  case runProcess => obtain ⟨_, _, _, _, _, _, _, _, _, _, rfl⟩ := h; rfl
  case runScript internal =>
    cases internal <;> simp only [bind_eq_ok] at h
    case false => obtain ⟨_, _, heq⟩ := h; cases heq; rfl
    case true => obtain ⟨_, _, heq⟩ := h; cases heq; rfl
  case job kind =>
    obtain ⟨job, hjob, rfl⟩ := h
    exact congrArg WireFamily.job (job_kind_of_decode hjob)
  case lsp => obtain ⟨_, _, _, _, _, _, rfl⟩ := h; rfl
  case file | persistentShell | skillStore => obtain ⟨_, _, rfl⟩ := h; rfl
  all_goals
    obtain ⟨_, _, _, _, rfl⟩ := h
    rfl

/-- The dispatch on the kind of a request has found the family of its operation. -/
theorem decodeFamily_of_decode (h : wire.decodeOperation = .ok operation) :
    wire.decodeFamily operation.family = .ok operation ∧ operation.wireKind = wire.kind := by
  simp only [RunnerRequest.decodeOperation, bind_eq_ok, required_eq_ok] at h
  obtain ⟨family, hkind, hfamily⟩ := h
  have heq := family_of_decodeFamily hfamily
  subst heq
  refine ⟨hfamily, ?_⟩
  by_cases hfile : operation.family = .file
  · rw [hfile] at hfamily
    simp only [RunnerRequest.decodeFamily, RunnerRequest.decodeFile, bind_eq_ok, required_eq_ok,
      pure_eq_ok] at hfamily
    obtain ⟨_, ⟨_, _, _, _, _, _, _, _, kind, hfound, rfl⟩, rfl⟩ := hfamily
    exact RunnerFileOperationKind.wireKind_fromWire hfound
  · exact (wireKind_ofKind hkind (wireKind_family hfile)).symm

/-! ### What may differ -/

/-- The operation is what a request says with the text of its payload, when it has one. -/
def RunnerOperation.SpelledBy (wire : RunnerRequest P) : RunnerOperation P → Prop
  | .job (.startValidation operation) =>
    P.validationSteps.decode wire.command = .ok operation.steps
  | .configuredSkillRoots operation =>
    ∃ content, wire.content = some content ∧ P.configuredSkillRoots.decode content = .ok operation
  | .skillStore operation =>
    ∃ content, wire.content = some content ∧ P.skillStore.decode content = .ok operation
  | .sshResource operation =>
    ∃ content, wire.content = some content ∧ P.sshResource.decode content = .ok operation
  | .runnerConfig operation =>
    ∃ content, wire.content = some content ∧ P.runnerConfig.decode content = .ok operation
  | _ => True

/-- A request with the timeout of another one for the same operation, with its text of a serialized
payload, and, for the language server, with its directory and its command. -/
def RunnerRequest.respelled (wire other : RunnerRequest P) : RunnerOperation P → RunnerRequest P
  | .job (.startValidation _) =>
    { wire with timeoutSecs := other.timeoutSecs, command := other.command }
  | .lsp _ _ =>
    { wire with timeoutSecs := other.timeoutSecs, cwd := other.cwd, command := other.command }
  | .configuredSkillRoots _ | .skillStore _ | .sshResource _ | .runnerConfig _ =>
    { wire with timeoutSecs := other.timeoutSecs, content := other.content }
  | _ => { wire with timeoutSecs := other.timeoutSecs }

def JsonCodec.Fits {A : Type} (codec : JsonCodec A) (maxBytes : ℕ) (value : A) : Prop :=
  ∃ content, codec.encode value = .ok content ∧ content.utf8ByteSize ≤ maxBytes

/-- The payload of an operation can be serialized within its bound. A validation plan has none. -/
def RunnerOperation.PayloadFits : RunnerOperation P → Prop
  | .job (.startValidation operation) =>
    ∃ command, P.validationSteps.encode operation.steps = .ok command
  | .configuredSkillRoots operation =>
    P.configuredSkillRoots.Fits configuredSkillRootsRequestMaxBytes operation
  | .skillStore operation => P.skillStore.Fits skillStoreRequestMaxBytes operation
  | .sshResource operation => P.sshResource.Fits sshResourceRequestMaxBytes operation
  | .runnerConfig operation => P.runnerConfig.Fits runnerConfigRequestMaxBytes operation
  | _ => True

/-- The request `again` says nothing that `wire` does not say, and the other way round. -/
structure Reencodes (wire : RunnerRequest P) (operation : RunnerOperation P)
    (again : RunnerRequest P) : Prop where
  fields : again = wire.respelled again operation
  original : operation.SpelledBy wire
  spelled : operation.SpelledBy again

/-! ### Each operation encoded again -/

variable {timeoutSecs maxBytes : ℕ} {A : Type}

section Operations

variable {wire : RunnerRequest P}

attribute [local simp] RunnerRequest.metadata RunnerOperation.wireKind RunnerJobOperation.wireKind
  emptyWire

theorem encode_runShell {operation : RunnerShellOperation} (hkind : wire.kind = "run_shell")
    (h : wire.decodeFamily .runShell = .ok (.runShell operation)) :
    encodeOperation wire.metadata (.runShell operation) = .ok wire := by
  simp only [RunnerRequest.decodeFamily, bind_eq_ok, pure_eq_ok,
    RunnerOperation.runShell.injEq] at h
  obtain ⟨_, _, _, _, _, _, _, hvalid, rfl⟩ := h
  simp only [encodeOperation, hvalid, bind_eq_ok, pure, Except.pure]
  refine ⟨(), trivial, ?_⟩
  cases wire
  simp_all

theorem encode_runProcess {operation : RunnerProcessOperation} (hkind : wire.kind = "run_process")
    (h : wire.decodeFamily .runProcess = .ok (.runProcess operation)) :
    encodeOperation wire.metadata (.runProcess operation) = .ok wire := by
  simp only [RunnerRequest.decodeFamily, bind_eq_ok, required_eq_ok, pure_eq_ok,
    RunnerOperation.runProcess.injEq] at h
  obtain ⟨_, _, _, _, _, _, _, _, _, hvalid, rfl⟩ := h
  simp only [encodeOperation, hvalid, bind_eq_ok, pure, Except.pure]
  refine ⟨(), trivial, ?_⟩
  cases wire
  simp_all

variable {operation : RunnerScriptOperation}

/-- A script that was decoded, with the fields that it leaves empty. -/
theorem decodeScript_eq_ok {internal : Bool} (h : wire.decodeScript internal = .ok operation) :
    validateDirectScript operation internal = .ok () ∧ wire.script = some operation.script ∧
      { wire with script := none } =
        { emptyWire wire.metadata wire.kind wire.timeoutSecs with
          cwd := operation.cwd, stdin := operation.stdin } ∧
      operation.timeoutSecs = wire.timeoutSecs := by
  simp only [RunnerRequest.decodeScript, bind_eq_ok, required_eq_ok, pure_eq_ok] at h
  obtain ⟨_, _, _, _, _, _, script, hscript, _, hvalid, rfl⟩ := h
  refine ⟨hvalid, hscript, ?_, rfl⟩
  cases wire
  simp_all

theorem encode_runScript (hkind : wire.kind = "run_script")
    (h : wire.decodeFamily (.runScript false) = .ok (.runScript operation)) :
    encodeOperation wire.metadata (.runScript operation) = .ok wire := by
  simp only [RunnerRequest.decodeFamily, bind_eq_ok, pure_eq_ok,
    RunnerOperation.runScript.injEq] at h
  obtain ⟨_, hscript, rfl⟩ := h
  obtain ⟨hvalid, hscript, _, _⟩ := decodeScript_eq_ok hscript
  simp only [encodeOperation, hvalid, bind_eq_ok, pure, Except.pure]
  refine ⟨(), trivial, ?_⟩
  cases wire
  simp_all

theorem encode_runInternalPosixScript (hkind : wire.kind = "run_internal_posix_script")
    (h : wire.decodeFamily (.runScript true) = .ok (.runInternalPosixScript operation)) :
    encodeOperation wire.metadata (.runInternalPosixScript operation) = .ok wire := by
  simp only [RunnerRequest.decodeFamily, bind_eq_ok, pure_eq_ok,
    RunnerOperation.runInternalPosixScript.injEq] at h
  obtain ⟨_, hscript, rfl⟩ := h
  obtain ⟨hvalid, hscript, _, _⟩ := decodeScript_eq_ok hscript
  have hstdin := stdin_of_validateInternal hvalid
  simp only [encodeOperation, hvalid, bind_eq_ok, pure, Except.pure]
  refine ⟨(), trivial, ?_⟩
  cases wire
  simp_all

/-- The operations that leave out a timeout of the request have one of their own. -/
theorem encode_file {operation : RunnerFileOperation} (hkind : operation.kind.wireKind = wire.kind)
    (h : wire.decodeFamily .file = .ok (.file operation)) :
    encodeOperation wire.metadata (.file operation) = .ok { wire with timeoutSecs := 30 } := by
  simp only [RunnerRequest.decodeFamily, RunnerRequest.decodeFile, bind_eq_ok, required_eq_ok,
    pure_eq_ok, RunnerOperation.file.injEq] at h
  obtain ⟨_, ⟨_, _, _, _, _, _, _, hvalid, kind, _, rfl⟩, rfl⟩ := h
  simp only [encodeOperation, hkind, hvalid, bind_eq_ok, pure, Except.pure]
  refine ⟨(), trivial, ?_⟩
  cases wire
  simp_all

/-- A payload in `stdin`, with the fields that the request leaves empty. -/
theorem decodeStdinPayload_eq_ok {payload : String}
    (h : wire.decodeStdinPayload label = .ok payload) :
    wire = { emptyWire wire.metadata wire.kind wire.timeoutSecs with stdin := some payload } := by
  simp only [RunnerRequest.decodeStdinPayload, bind_eq_ok, required_eq_ok] at h
  obtain ⟨_, _, _, _, _, _, _⟩ := h
  cases wire
  simp_all

theorem encode_project {operation : RunnerProjectOperation}
    (hkind : operation.kind.wireKind = wire.kind)
    (h : wire.decodeFamily (.project operation.kind) = .ok (.project operation)) :
    encodeOperation wire.metadata (.project operation) = .ok { wire with timeoutSecs := 30 } := by
  simp only [RunnerRequest.decodeFamily, bind_eq_ok, pure_eq_ok,
    RunnerOperation.project.injEq] at h
  obtain ⟨_, hpayload, _, hvalid, heq⟩ := h
  have hfields := decodeStdinPayload_eq_ok hpayload
  rw [← heq] at hkind ⊢
  simp only [encodeOperation, hvalid, bind_eq_ok, pure, Except.pure]
  refine ⟨(), trivial, ?_⟩
  cases wire
  simp_all

/-- A request about the computer is written again with a timeout of one second at least. -/
theorem encode_computer {operation : RunnerComputerOperation}
    (hkind : operation.kind.wireKind = wire.kind)
    (h : wire.decodeFamily (.computer operation.kind) = .ok (.computer operation)) :
    encodeOperation wire.metadata (.computer operation) =
      .ok { wire with timeoutSecs := max wire.timeoutSecs 1 } := by
  simp only [RunnerRequest.decodeFamily, bind_eq_ok, pure_eq_ok,
    RunnerOperation.computer.injEq] at h
  obtain ⟨_, hpayload, _, hvalid, heq⟩ := h
  have hfields := decodeStdinPayload_eq_ok hpayload
  rw [← heq] at hkind hvalid ⊢
  simp only [encodeOperation, hvalid, bind_eq_ok, pure, Except.pure]
  refine ⟨(), trivial, ?_⟩
  cases wire
  simp_all

theorem encode_validation {payload : P.ValidationBridgeRequest} (hkind : wire.kind = "validation")
    (h : wire.decodeFamily .validation = .ok (.validation payload timeoutSecs)) :
    encodeOperation wire.metadata (.validation payload timeoutSecs) = .ok wire := by
  simp only [RunnerRequest.decodeFamily, RunnerRequest.decodeTyped, bind_eq_ok, required_eq_ok,
    pure_eq_ok, RunnerOperation.validation.injEq] at h
  obtain ⟨_, ⟨_, _, _, _, _⟩, _, hvalid, rfl, rfl⟩ := h
  simp only [encodeOperation, hvalid, bind_eq_ok, pure, Except.pure]
  refine ⟨(), trivial, ?_⟩
  cases wire
  simp_all

theorem encode_lsp {payload : P.RunnerLspPayload} (hkind : wire.kind = "lsp")
    (h : wire.decodeFamily .lsp = .ok (.lsp payload timeoutSecs)) :
    encodeOperation wire.metadata (.lsp payload timeoutSecs) =
      .ok { wire with timeoutSecs := max wire.timeoutSecs 1, cwd := none, command := "" } := by
  simp only [RunnerRequest.decodeFamily, bind_eq_ok, required_eq_ok, pure_eq_ok,
    RunnerOperation.lsp.injEq] at h
  obtain ⟨_, _, _, _, _, _, rfl, rfl⟩ := h
  simp only [encodeOperation, pure, Except.pure]
  cases wire
  simp_all

theorem encode_persistentShell {operation : RunnerPersistentShellOperation}
    (hkind : wire.kind = "persistent_shell")
    (h : wire.decodeFamily .persistentShell = .ok (.persistentShell operation)) :
    encodeOperation wire.metadata (.persistentShell operation) = .ok wire := by
  simp only [RunnerRequest.decodeFamily, RunnerRequest.decodePersistentShell, bind_eq_ok,
    required_eq_ok, ensure_eq_ok, Bool.and_eq_true, beq_iff_eq, pure_eq_ok,
    RunnerOperation.persistentShell.injEq] at h
  obtain ⟨_, ⟨_, _, _, _, _, _, _, _, _, hvalid, _,
    ⟨⟨_, _⟩, _⟩, rfl⟩, rfl⟩ := h
  simp only [encodeOperation, hvalid, bind_eq_ok, pure, Except.pure]
  refine ⟨(), trivial, ?_⟩
  cases wire
  simp_all

theorem encode_mcpGateway {operation : P.McpGatewayRequest} (hkind : wire.kind = "mcp_gateway")
    (h : wire.decodeFamily .mcpGateway = .ok (.mcpGateway operation)) :
    encodeOperation wire.metadata (.mcpGateway operation) =
      .ok { wire with timeoutSecs := 120 } := by
  simp only [RunnerRequest.decodeFamily, RunnerRequest.decodeTyped, bind_eq_ok, required_eq_ok,
    labelled_eq_ok, pure_eq_ok, RunnerOperation.mcpGateway.injEq] at h
  obtain ⟨_, ⟨_, _, _, _, _⟩, _, hvalid, rfl⟩ := h
  simp only [encodeOperation, hvalid, bind_eq_ok, labelled_eq_ok, pure, Except.pure]
  refine ⟨(), trivial, ?_⟩
  cases wire
  simp_all

theorem encode_pluginGateway {operation : P.PluginGatewayRequest}
    (hkind : wire.kind = "plugin_gateway")
    (h : wire.decodeFamily .pluginGateway = .ok (.pluginGateway operation)) :
    encodeOperation wire.metadata (.pluginGateway operation) =
      .ok { wire with timeoutSecs := 120 } := by
  simp only [RunnerRequest.decodeFamily, RunnerRequest.decodeTyped, bind_eq_ok, required_eq_ok,
    labelled_eq_ok, pure_eq_ok, RunnerOperation.pluginGateway.injEq] at h
  obtain ⟨_, ⟨_, _, _, _, _⟩, _, hvalid, rfl⟩ := h
  simp only [encodeOperation, hvalid, bind_eq_ok, labelled_eq_ok, pure, Except.pure]
  refine ⟨(), trivial, ?_⟩
  cases wire
  simp_all

theorem encode_codingAgent {operation : P.CodingAgentRequest} (hkind : wire.kind = "coding_agent")
    (h : wire.decodeFamily .codingAgent = .ok (.codingAgent operation)) :
    encodeOperation wire.metadata (.codingAgent operation) =
      .ok { wire with timeoutSecs := 120 } := by
  simp only [RunnerRequest.decodeFamily, RunnerRequest.decodeTyped, bind_eq_ok, required_eq_ok,
    labelled_eq_ok, pure_eq_ok, RunnerOperation.codingAgent.injEq] at h
  obtain ⟨_, ⟨_, _, _, _, _⟩, _, hvalid, rfl⟩ := h
  simp only [encodeOperation, hvalid, bind_eq_ok, labelled_eq_ok, pure, Except.pure]
  refine ⟨(), trivial, ?_⟩
  cases wire
  simp_all

/-- A payload that travels as text, with the fields that the request leaves empty. -/
theorem decodeContent_eq_ok {codec : JsonCodec A} {operation : A}
    (h : wire.decodeContent label name codec maxBytes = .ok operation) :
    (∃ content, wire.content = some content ∧ codec.decode content = .ok operation) ∧
      wire =
        { emptyWire wire.metadata wire.kind wire.timeoutSecs with content := wire.content } := by
  simp only [RunnerRequest.decodeContent, RunnerRequest.boundedContent, bind_eq_ok, required_eq_ok,
    labelled_eq_ok, pure_eq_ok] at h
  obtain ⟨_, _, _, _, content, ⟨_, hcontent, _, _, rfl⟩, hdecode⟩ := h
  refine ⟨⟨_, hcontent, hdecode⟩, ?_⟩
  cases wire
  simp_all

/-- It is written with the text of the serializer, when that keeps the bound. -/
theorem encodeContent_eq_ok {codec : JsonCodec A} {operation : A} (hkind : wire.kind = kind)
    (hfields : wire =
      { emptyWire wire.metadata wire.kind wire.timeoutSecs with content := wire.content }) :
    encodeContent (emptyWire wire.metadata kind 30) name codec maxBytes timeoutSecs operation =
        .ok again ↔
      ∃ content, codec.encode operation = .ok content ∧ content.utf8ByteSize ≤ maxBytes ∧
        again = { wire with content := some content, timeoutSecs := timeoutSecs } := by
  have hagain : ∀ text, { emptyWire wire.metadata kind 30 with
      content := some text, timeoutSecs := timeoutSecs } =
        { wire with content := some text, timeoutSecs := timeoutSecs } := by
    intro text
    cases wire
    simp_all
  simp only [encodeContent, bind_eq_ok, labelled_eq_ok, ensure_eq_ok, decide_eq_true_eq,
    pure_eq_ok, hagain]
  constructor
  · rintro ⟨text, hencode, _, hbound, heq⟩
    exact ⟨text, hencode, hbound, heq.symm⟩
  · rintro ⟨text, hencode, hbound, heq⟩
    exact ⟨text, hencode, (), hbound, heq.symm⟩

end Operations

/-! ### Jobs encoded again -/

section Jobs

variable {wire : RunnerRequest P}

attribute [local simp] RunnerRequest.metadata RunnerOperation.wireKind RunnerJobOperation.wireKind
  emptyWire

/-- What the decoder has seen of every job that starts. -/
theorem decodeStart_of_decodeJob {kind : JobKind} (hstart : kind ≠ .stop)
    (h : wire.decodeJobOperation kind = .ok job) :
    wire.ensureNoFileFields = .ok () ∧ ∃ jobId context, wire.jobId = some jobId ∧
      wire.jobContext = some context ∧ validateJobContextCoherence wire.cwd context = .ok () ∧
      wire.decodeStart kind jobId context = .ok job := by
  simp only [RunnerRequest.decodeJobOperation, if_neg hstart, bind_eq_ok, required_eq_ok] at h
  obtain ⟨_, hfile, jobId, hjob, context, hcontext, _, hcoherent, hjobstart⟩ := h
  exact ⟨hfile, jobId, context, hjob, hcontext, hcoherent, hjobstart⟩

theorem encode_startShell {operation : RunnerJobShellOperation} (hkind : wire.kind = "start_job")
    (h : wire.decodeJobOperation .start = .ok (.startShell operation)) :
    encodeOperation wire.metadata (.job (.startShell operation)) = .ok wire := by
  obtain ⟨_, _, _, _, _, hcoherent, hstart⟩ :=
    decodeStart_of_decodeJob (by decide) h
  simp only [RunnerRequest.decodeStart, bind_eq_ok, pure_eq_ok,
    RunnerJobOperation.startShell.injEq] at hstart
  obtain ⟨_, _, _, _, _, hcommand, rfl⟩ := hstart
  simp only [encodeOperation, encodeJobOperation, hcommand, hcoherent, bind_eq_ok, pure,
    Except.pure]
  refine ⟨(), trivial, (), trivial, ?_⟩
  cases wire
  simp_all

/-- The plan of a validation job, with the fields that the request leaves empty. -/
theorem decodeStartValidation_eq_ok {operation : RunnerJobValidationOperation}
    (h : wire.decodeJobOperation .startValidation = .ok (.startValidation operation)) :
    P.validationSteps.decode wire.command = .ok operation.steps ∧
      (validateValidationSteps operation.steps = .ok () ∧
        validateJobContextCoherence operation.cwd operation.context = .ok () ∧
        (operation.context.validationSteps == operation.steps.map (·.name)) = true) ∧
      wire = { emptyWire wire.metadata wire.kind operation.timeoutSecs with
        jobId := some operation.jobId, cwd := operation.cwd, command := wire.command,
        jobContext := some operation.context } := by
  obtain ⟨_, jobId, context, _, _, hcoherent, hstart⟩ :=
    decodeStart_of_decodeJob (by decide) h
  simp only [RunnerRequest.decodeStart, bind_eq_ok, labelled_eq_ok, ensure_eq_ok, pure_eq_ok,
    RunnerJobOperation.startValidation.injEq] at hstart
  obtain ⟨_, _, _, _, steps, hsteps, _, hvalid, _, hnames, rfl⟩ := hstart
  refine ⟨hsteps, ⟨hvalid, hcoherent, hnames⟩, ?_⟩
  cases wire
  simp_all

/-- A validation job is written again with the plan as it is serialized now; nothing else of the
request can differ. -/
theorem encode_startValidation {operation : RunnerJobValidationOperation}
    (hkind : wire.kind = "start_validation_job")
    (h : wire.decodeJobOperation .startValidation = .ok (.startValidation operation))
    (again : RunnerRequest P) :
    encodeOperation wire.metadata (.job (.startValidation operation)) = .ok again ↔
      ∃ command, P.validationSteps.encode operation.steps = .ok command ∧
        again = { wire with command := command } := by
  obtain ⟨-, ⟨hvalid, hcoherent, hnames⟩, _⟩ := decodeStartValidation_eq_ok h
  have hagain : ∀ command, { emptyWire wire.metadata "start_validation_job" 30 with
      jobId := some operation.jobId, cwd := operation.cwd, command := command,
      timeoutSecs := operation.timeoutSecs, jobContext := some operation.context } =
        { wire with command := command } := by
    intro command
    cases wire
    simp_all
  simp only [encodeOperation, encodeJobOperation, hvalid, hcoherent, RunnerOperation.wireKind,
    RunnerJobOperation.wireKind, bind_eq_ok, ensure_eq_ok, labelled_eq_ok, hnames,
    pure_eq_ok, hagain]
  constructor
  · rintro ⟨_, _, _, _, _, _, command, hencode, heq⟩
    exact ⟨command, hencode, heq.symm⟩
  · rintro ⟨command, hencode, heq⟩
    exact ⟨(), trivial, (), trivial, (), trivial, command, hencode, heq.symm⟩

variable {operation : RunnerJobProcessOperation}

/-- A process job that was decoded, detached or not. -/
theorem encodeProcessJob_decodeProcessJob {jobId : String} {context : ShellJobContext}
    {start : RunnerJobProcessOperation → RunnerJobOperation} (hstart : Function.Injective start)
    (hkind : wire.kind = kind) (hjob : wire.jobId = some jobId)
    (hcontext : wire.jobContext = some context)
    (hfile : wire.ensureNoFileFields = .ok ())
    (hcoherent : validateJobContextCoherence wire.cwd context = .ok ())
    (h : wire.decodeProcessJob jobId context start = .ok (start operation)) :
    encodeProcessJob (emptyWire wire.metadata kind 30) operation = .ok wire := by
  simp only [RunnerRequest.decodeProcessJob, RunnerRequest.ensureRecoveryMetadata, bind_eq_ok,
    required_eq_ok, pure_eq_ok] at h
  obtain ⟨_, _, _, _, _, _, _, hargv, _, hcommon, _, _, heq⟩ := h
  obtain rfl := hstart heq
  simp only [encodeProcessJob, hcommon, hargv, hcoherent, bind_eq_ok, pure, Except.pure]
  refine ⟨(), trivial, (), trivial, (), trivial, ?_⟩
  cases wire
  simp_all

theorem encode_startProcess (hkind : wire.kind = "start_process_job")
    (h : wire.decodeJobOperation .startProcess = .ok (.startProcess operation)) :
    encodeOperation wire.metadata (.job (.startProcess operation)) = .ok wire := by
  obtain ⟨hfile, _, _, hjob, hcontext, hcoherent, hstart⟩ :=
    decodeStart_of_decodeJob (by decide) h
  exact encodeProcessJob_decodeProcessJob (fun _ _ ↦ RunnerJobOperation.startProcess.inj) hkind hjob
    hcontext hfile hcoherent hstart

theorem encode_startDetachedProcess (hkind : wire.kind = "start_detached_process_job")
    (h : wire.decodeJobOperation .startDetachedProcess = .ok (.startDetachedProcess operation)) :
    encodeOperation wire.metadata (.job (.startDetachedProcess operation)) = .ok wire := by
  obtain ⟨hfile, _, _, hjob, hcontext, hcoherent, hstart⟩ :=
    decodeStart_of_decodeJob (by decide) h
  exact encodeProcessJob_decodeProcessJob (fun _ _ ↦ RunnerJobOperation.startDetachedProcess.inj)
    hkind hjob hcontext hfile hcoherent hstart

theorem encode_startScript {operation : RunnerJobScriptOperation}
    (hkind : wire.kind = "start_script_job")
    (h : wire.decodeJobOperation .startScript = .ok (.startScript operation)) :
    encodeOperation wire.metadata (.job (.startScript operation)) = .ok wire := by
  obtain ⟨_, _, _, _, _, hcoherent, hstart⟩ :=
    decodeStart_of_decodeJob (by decide) h
  simp only [RunnerRequest.decodeStart, RunnerRequest.ensureRecoveryMetadata, bind_eq_ok,
    required_eq_ok, pure_eq_ok, RunnerJobOperation.startScript.injEq]
    at hstart
  obtain ⟨_, _, _, _, _, _, _, hvalid, _, _, rfl⟩ := hstart
  simp only [encodeOperation, encodeJobOperation, hvalid, hcoherent, bind_eq_ok, pure, Except.pure]
  refine ⟨(), trivial, (), trivial, ?_⟩
  cases wire
  simp_all

theorem encode_stop {jobId : String} (hkind : wire.kind = "stop_job")
    (h : wire.decodeJobOperation .stop = .ok (.stop jobId)) :
    encodeOperation wire.metadata (.job (.stop jobId)) = .ok { wire with timeoutSecs := 1 } := by
  simp only [RunnerRequest.decodeJobOperation, if_pos, bind_eq_ok, required_eq_ok, pure_eq_ok,
    RunnerJobOperation.stop.injEq] at h
  obtain ⟨_, _, _, _, _, _, _, _, rfl⟩ := h
  simp only [encodeOperation, encodeJobOperation, pure, Except.pure]
  cases wire
  simp_all

end Jobs

/-! ### All requests -/

/-- The encoder writes a request of this operation again, when the payload can be serialized. -/
def Rewrites (wire : RunnerRequest P) (operation : RunnerOperation P) : Prop :=
  ((∃ again, encodeOperation wire.metadata operation = .ok again) ↔ operation.PayloadFits) ∧
    ∀ again, encodeOperation wire.metadata operation = .ok again → Reencodes wire operation again

section Requests

variable {wire : RunnerRequest P} {operation : RunnerOperation P}

/-- Operations without serialized payload and without fields of older servers. -/
theorem rewrites_of_encode
    (hrespelled : ∀ other, wire.respelled other operation =
      { wire with timeoutSecs := other.timeoutSecs })
    (hspelled : ∀ other, operation.SpelledBy other) (hfits : operation.PayloadFits)
    (h : encodeOperation wire.metadata operation = .ok { wire with timeoutSecs := timeoutSecs }) :
    Rewrites wire operation := by
  refine ⟨iff_of_true ⟨_, h⟩ hfits, fun _ hagain ↦ ?_⟩
  obtain rfl := Except.ok.inj (h.symm.trans hagain)
  exact ⟨by rw [hrespelled], hspelled _, hspelled _⟩

/-- Operations whose payload travels as text. -/
theorem rewrites_of_content {codec : JsonCodec A} {value : A} (timeoutSecs : ℕ)
    (hrespelled : ∀ other, wire.respelled other operation =
      { wire with timeoutSecs := other.timeoutSecs, content := other.content })
    (hspelled : ∀ other : RunnerRequest P, operation.SpelledBy other ↔
      ∃ content, other.content = some content ∧ codec.decode content = .ok value)
    (hfits : operation.PayloadFits ↔ codec.Fits maxBytes value)
    (h : wire.decodeContent label name codec maxBytes = .ok value)
    (hencode : ∀ again, encodeOperation wire.metadata operation = .ok again ↔
      encodeContent (emptyWire wire.metadata wire.kind 30) name codec maxBytes timeoutSecs value =
        .ok again) :
    Rewrites wire operation := by
  obtain ⟨htext, hfields⟩ := decodeContent_eq_ok h
  simp only [Rewrites, hencode, encodeContent_eq_ok rfl hfields, hfits]
  constructor
  · constructor
    · rintro ⟨_, content, hcontent, hbound, _⟩
      exact ⟨content, hcontent, hbound⟩
    · rintro ⟨content, hcontent, hbound⟩
      exact ⟨_, content, hcontent, hbound, rfl⟩
  · rintro _ ⟨content, hcontent, _, rfl⟩
    exact ⟨by rw [hrespelled], (hspelled _).mpr htext,
      (hspelled _).mpr ⟨content, rfl, codec.decode_encode hcontent⟩⟩

/-- Of the jobs only validations carry a serialized payload. -/
theorem rewrites_job (hkind : job.wireKind = wire.kind)
    (h : wire.decodeJobOperation job.kind = .ok job) :
    Rewrites wire (.job job) := by
  cases job with
  | startShell =>
    exact rewrites_of_encode (fun _ ↦ rfl) (fun _ ↦ trivial) trivial
      (encode_startShell hkind.symm h)
  | startValidation =>
    have hdecode := (decodeStartValidation_eq_ok h).1
    simp only [Rewrites, encode_startValidation hkind.symm h]
    constructor
    · constructor
      · rintro ⟨_, command, hcommand, _⟩
        exact ⟨command, hcommand⟩
      · rintro ⟨command, hcommand⟩
        exact ⟨_, command, hcommand, rfl⟩
    · rintro _ ⟨command, hcommand, rfl⟩
      exact ⟨rfl, hdecode, P.validationSteps.decode_encode hcommand⟩
  | startProcess =>
    exact rewrites_of_encode (fun _ ↦ rfl) (fun _ ↦ trivial) trivial
      (encode_startProcess hkind.symm h)
  | startDetachedProcess =>
    exact rewrites_of_encode (fun _ ↦ rfl) (fun _ ↦ trivial) trivial
      (encode_startDetachedProcess hkind.symm h)
  | startScript =>
    exact rewrites_of_encode (fun _ ↦ rfl) (fun _ ↦ trivial) trivial
      (encode_startScript hkind.symm h)
  | stop =>
    exact rewrites_of_encode (fun _ ↦ rfl) (fun _ ↦ trivial) trivial (encode_stop hkind.symm h)

/-- Whatever operation a request is decoded to is written again, family by family. -/
theorem rewrites_decodeOperation (h : wire.decodeOperation = .ok operation) :
    Rewrites wire operation := by
  obtain ⟨hfamily, hkind⟩ := decodeFamily_of_decode h
  cases operation with
  | runShell =>
    exact rewrites_of_encode (fun _ ↦ rfl) (fun _ ↦ trivial) trivial
      (encode_runShell hkind.symm hfamily)
  | runProcess =>
    exact rewrites_of_encode (fun _ ↦ rfl) (fun _ ↦ trivial) trivial
      (encode_runProcess hkind.symm hfamily)
  | runScript =>
    exact rewrites_of_encode (fun _ ↦ rfl) (fun _ ↦ trivial) trivial
      (encode_runScript hkind.symm hfamily)
  | runInternalPosixScript =>
    exact rewrites_of_encode (fun _ ↦ rfl) (fun _ ↦ trivial) trivial
      (encode_runInternalPosixScript hkind.symm hfamily)
  | job job =>
    simp only [RunnerOperation.family, RunnerRequest.decodeFamily, bind_eq_ok, pure_eq_ok,
      RunnerOperation.job.injEq] at hfamily
    obtain ⟨_, hjob, rfl⟩ := hfamily
    exact rewrites_job hkind hjob
  | file =>
    exact rewrites_of_encode (fun _ ↦ rfl) (fun _ ↦ trivial) trivial (encode_file hkind hfamily)
  | project =>
    exact rewrites_of_encode (fun _ ↦ rfl) (fun _ ↦ trivial) trivial (encode_project hkind hfamily)
  | computer =>
    exact rewrites_of_encode (fun _ ↦ rfl) (fun _ ↦ trivial) trivial (encode_computer hkind hfamily)
  | validation =>
    exact rewrites_of_encode (fun _ ↦ rfl) (fun _ ↦ trivial) trivial
      (encode_validation hkind.symm hfamily)
  | lsp =>
    have hencode := encode_lsp hkind.symm hfamily
    refine ⟨iff_of_true ⟨_, hencode⟩ trivial, fun again hagain ↦ ?_⟩
    obtain rfl := Except.ok.inj (hencode.symm.trans hagain)
    exact ⟨rfl, trivial, trivial⟩
  | persistentShell =>
    exact rewrites_of_encode (fun _ ↦ rfl) (fun _ ↦ trivial) trivial
      (encode_persistentShell hkind.symm hfamily)
  | mcpGateway =>
    exact rewrites_of_encode (fun _ ↦ rfl) (fun _ ↦ trivial) trivial
      (encode_mcpGateway hkind.symm hfamily)
  | pluginGateway =>
    exact rewrites_of_encode (fun _ ↦ rfl) (fun _ ↦ trivial) trivial
      (encode_pluginGateway hkind.symm hfamily)
  | codingAgent =>
    exact rewrites_of_encode (fun _ ↦ rfl) (fun _ ↦ trivial) trivial
      (encode_codingAgent hkind.symm hfamily)
  | configuredSkillRoots =>
    simp only [RunnerOperation.family, RunnerRequest.decodeFamily, bind_eq_ok, labelled_eq_ok,
      pure_eq_ok, RunnerOperation.configuredSkillRoots.injEq] at hfamily
    obtain ⟨_, hcontent, _, hvalid, rfl⟩ := hfamily
    refine rewrites_of_content 30 (fun _ ↦ rfl) (fun _ ↦ Iff.rfl) Iff.rfl hcontent fun again ↦ ?_
    simp [encodeOperation, hvalid, ← hkind]
  | skillStore =>
    simp only [RunnerOperation.family, RunnerRequest.decodeFamily, bind_eq_ok, pure_eq_ok,
      RunnerOperation.skillStore.injEq] at hfamily
    obtain ⟨_, hcontent, rfl⟩ := hfamily
    refine rewrites_of_content 120 (fun _ ↦ rfl) (fun _ ↦ Iff.rfl) Iff.rfl hcontent fun again ↦ ?_
    simp [encodeOperation, ← hkind]
  | sshResource =>
    simp only [RunnerOperation.family, RunnerRequest.decodeFamily, bind_eq_ok, labelled_eq_ok,
      pure_eq_ok, RunnerOperation.sshResource.injEq] at hfamily
    obtain ⟨_, hcontent, _, hvalid, rfl⟩ := hfamily
    refine rewrites_of_content 60 (fun _ ↦ rfl) (fun _ ↦ Iff.rfl) Iff.rfl hcontent fun again ↦ ?_
    simp [encodeOperation, hvalid, ← hkind]
  | runnerConfig =>
    simp only [RunnerOperation.family, RunnerRequest.decodeFamily, bind_eq_ok, labelled_eq_ok,
      pure_eq_ok, RunnerOperation.runnerConfig.injEq] at hfamily
    obtain ⟨_, hcontent, _, hvalid, rfl⟩ := hfamily
    refine rewrites_of_content 30 (fun _ ↦ rfl) (fun _ ↦ Iff.rfl) Iff.rfl hcontent fun again ↦ ?_
    simp [encodeOperation, hvalid, ← hkind]

/-! ### Requests of one operation -/

/-- Two payloads in `content`, with the same kind and metadata. -/
theorem respelled_of_content {codec : JsonCodec A} {value : A}
    (hmetadata : other.metadata = wire.metadata) (hkind : other.kind = wire.kind)
    (h : wire.decodeContent label name codec maxBytes = .ok value)
    (hother : other.decodeContent label name codec maxBytes = .ok value) :
    other = { wire with timeoutSecs := other.timeoutSecs, content := other.content } := by
  have hfields := (decodeContent_eq_ok h).2
  have hfields' := (decodeContent_eq_ok hother).2
  rw [hmetadata, hkind] at hfields'
  rw [hfields']
  conv_rhs => rw [hfields]
  rfl

theorem respelled_respelled :
    (wire.respelled again operation).respelled other operation =
      wire.respelled other operation := by
  cases operation with
  | job job => cases job <;> rfl
  | _ => rfl

theorem respelled_self : wire.respelled wire operation = wire := by
  cases operation with
  | job job => cases job <;> rfl
  | _ => rfl

theorem respelled_of_common (h : again = wire.respelled again operation)
    (h' : again = other.respelled again operation) :
    other = wire.respelled other operation := by
  calc other = other.respelled other operation := respelled_self.symm
    _ = (other.respelled again operation).respelled other operation := respelled_respelled.symm
    _ = (wire.respelled again operation).respelled other operation := by rw [← h', ← h]
    _ = wire.respelled other operation := respelled_respelled

/-- A request is known by its metadata and its operation, up to the fields that may differ. -/
theorem respelled_of_decode (h : wire.decodeOperation = .ok operation)
    (hother : other.decodeOperation = .ok operation) (hmetadata : other.metadata = wire.metadata) :
    other = wire.respelled other operation := by
  by_cases hfits : operation.PayloadFits
  · obtain ⟨again, hencode⟩ := (rewrites_decodeOperation h).1.mpr hfits
    have hfields := ((rewrites_decodeOperation h).2 again hencode).fields
    have hfields' := ((rewrites_decodeOperation hother).2 again (hmetadata ▸ hencode)).fields
    exact respelled_of_common hfields hfields'
  -- Only payloads that travel as text may fail to be written again.
  · obtain ⟨hfamily, hkind⟩ := decodeFamily_of_decode h
    obtain ⟨hfamily', hkind'⟩ := decodeFamily_of_decode hother
    have hsame := hkind'.symm.trans hkind
    cases operation with
    | job job =>
      simp only [RunnerOperation.family, RunnerRequest.decodeFamily, bind_eq_ok, pure_eq_ok,
        RunnerOperation.job.injEq] at hfamily hfamily'
      obtain ⟨_, hjob, rfl⟩ := hfamily
      obtain ⟨started, hjob', rfl⟩ := hfamily'
      cases started with
      | startValidation =>
        have hfields := (decodeStartValidation_eq_ok hjob).2.2
        have hfields' := (decodeStartValidation_eq_ok hjob').2.2
        rw [hmetadata, hsame] at hfields'
        rw [hfields']
        conv_rhs => rw [hfields]
        rfl
      | _ => exact absurd trivial hfits
    | configuredSkillRoots =>
      simp only [RunnerOperation.family, RunnerRequest.decodeFamily, bind_eq_ok, pure_eq_ok,
        RunnerOperation.configuredSkillRoots.injEq] at hfamily hfamily'
      obtain ⟨_, hcontent, _, _, rfl⟩ := hfamily
      obtain ⟨_, hcontent', _, _, rfl⟩ := hfamily'
      exact respelled_of_content hmetadata hsame hcontent hcontent'
    | skillStore =>
      simp only [RunnerOperation.family, RunnerRequest.decodeFamily, bind_eq_ok, pure_eq_ok,
        RunnerOperation.skillStore.injEq] at hfamily hfamily'
      obtain ⟨_, hcontent, rfl⟩ := hfamily
      obtain ⟨_, hcontent', rfl⟩ := hfamily'
      exact respelled_of_content hmetadata hsame hcontent hcontent'
    | sshResource =>
      simp only [RunnerOperation.family, RunnerRequest.decodeFamily, bind_eq_ok, pure_eq_ok,
        RunnerOperation.sshResource.injEq] at hfamily hfamily'
      obtain ⟨_, hcontent, _, _, rfl⟩ := hfamily
      obtain ⟨_, hcontent', _, _, rfl⟩ := hfamily'
      exact respelled_of_content hmetadata hsame hcontent hcontent'
    | runnerConfig =>
      simp only [RunnerOperation.family, RunnerRequest.decodeFamily, bind_eq_ok, pure_eq_ok,
        RunnerOperation.runnerConfig.injEq] at hfamily hfamily'
      obtain ⟨_, hcontent, _, _, rfl⟩ := hfamily
      obtain ⟨_, hcontent', _, _, rfl⟩ := hfamily'
      exact respelled_of_content hmetadata hsame hcontent hcontent'
    | _ => exact absurd trivial hfits

end Requests

/-- A request that was accepted is, up to the timeout, the text of a serialized payload and the two
fields of older requests for the language server, the request that the encoder writes for its
operation with its own metadata. The encoder writes one exactly when the payload can be serialized
within its bound, and any two requests of one operation agree to the same extent. -/
theorem accepted_requests_carry_nothing_unused (wire : RunnerRequest P)
    (operation : RunnerOperation P) (h : wire.decodeOperation = .ok operation) :
    (∀ again, encodeOperation wire.metadata operation = .ok again →
      Reencodes wire operation again) ∧
    ((∃ again, encodeOperation wire.metadata operation = .ok again) ↔ operation.PayloadFits) ∧
    ∀ other, other.decodeOperation = .ok operation → other.metadata = wire.metadata →
      other = wire.respelled other operation := by
  obtain ⟨hexists, hagain⟩ := rewrites_decodeOperation h
  exact ⟨hagain, hexists, fun other hother hmetadata ↦ respelled_of_decode h hother hmetadata⟩

/-- The request of the job is accepted, and what the encoder writes for the operation is that
request again, field by field. -/
theorem versionRequest_carries_nothing_unused :
    (versionRequest versionContext).decodeOperation = .ok (.job (versionJob versionContext)) ∧
      ∃ again, encodeOperation versionMetadata (.job (versionJob versionContext)) = .ok again ∧
        Reencodes (versionRequest versionContext) (.job (versionJob versionContext)) again := by
  have hencode : encodeOperation versionMetadata (.job (versionJob versionContext)) =
      .ok (versionRequest versionContext) :=
    fromOperation_versionJob rfl
  have hdecode := (decode_job_iff hencode).mpr
    (show (versionJob _).Described from ⟨rfl, rfl⟩)
  exact ⟨hdecode, _, hencode,
    (accepted_requests_carry_nothing_unused _ _ hdecode).1 _ hencode⟩

end WebCodex.RunnerWire
