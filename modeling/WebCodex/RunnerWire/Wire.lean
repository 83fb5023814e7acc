import WebCodex.RunnerWire.Operations

/-!
A request on the wire is one record of optional fields with a kind. `encodeOperation` fills in the
fields that an operation needs, `decodeOperation` reads it back, and both refuse what their
validators refuse; the decoder also refuses fields that the kind has no use for. Its dispatch on
the kind is `WireFamily.ofKind`, in the order in which the source compares the kinds.
-/

namespace WebCodex.RunnerWire

open Foundation Registry

structure RunnerRequest (P : NestedPayloads) where
  (requestId clientId kind : String)
  jobId : Option String := none
  cwd : Option String := none
  path : Option String := none
  content : Option String := none
  maxBytes : Option ℕ := none
  expectedSha256 : Option String := none
  expectedPrefix : Option String := none
  startLine : Option ℕ := none
  endLine : Option ℕ := none
  createDirs : Bool := false
  command : String := ""
  process : Option ShellProcessArgv := none
  script : Option ShellScriptPayload := none
  stdin : Option String := none
  timeoutSecs : ℕ
  requestedBy : String
  createdAt : ℤ
  validation : Option P.ValidationBridgeRequest := none
  lsp : Option P.RunnerLspPayload := none
  jobContext : Option ShellJobContext := none
  persistentShell : Option PersistentShellRequest := none
  mcpGateway : Option P.McpGatewayRequest := none
  pluginGateway : Option P.PluginGatewayRequest := none
  codingAgent : Option P.CodingAgentRequest := none

variable {P : NestedPayloads}

/-! ### Validators that both sides use -/

def validateStructuredTextFields (cwd stdin : Option String) : Except String Unit := do
  ensure (stdin.all fun text ↦ text.utf8ByteSize ≤ processStdinMaxBytes && !hasNul text)
    "stdin is invalid or oversized"
  ensure (cwd.all fun text ↦ text.utf8ByteSize ≤ processCwdMaxBytes && !hasNul text)
    "cwd is invalid or oversized"

def validateDirectStructuredCommon (cwd stdin : Option String) (timeoutSecs : ℕ) :
    Except String Unit := do
  validateStructuredTextFields cwd stdin
  ensure (1 ≤ timeoutSecs && timeoutSecs ≤ structuredExecutionDirectSyncTimeoutMaxSecs)
    "timeout_secs must be between 1 and 120"

def validateStructuredJobCommon (cwd stdin : Option String) (timeoutSecs : ℕ) :
    Except String Unit := do
  validateStructuredTextFields cwd stdin
  ensure (structuredExecutionTimeoutMinSecs ≤ timeoutSecs &&
      timeoutSecs ≤ structuredExecutionTimeoutMaxSecs)
    "timeout_secs must be between 1 and 3600"

def validateDirectProcess (operation : RunnerProcessOperation) : Except String Unit := do
  validateProcessArgv operation.process
  validateDirectStructuredCommon operation.cwd operation.stdin operation.timeoutSecs

def validateDirectScript (operation : RunnerScriptOperation) (internal : Bool) :
    Except String Unit := do
  validateScriptRequest operation.script operation.stdin operation.cwd operation.timeoutSecs
  ensure (operation.timeoutSecs ≤ structuredExecutionDirectSyncTimeoutMaxSecs)
    "timeout_secs must be between 1 and 120"
  ensure (!(internal && (operation.stdin.isSome || operation.script.language != .sh ||
      !operation.script.args.isEmpty)))
    "internal POSIX script requires sh, no args, and no stdin"

def validateValidationSteps (steps : List ShellJobValidationStep) : Except String Unit :=
  ensure (1 ≤ steps.length && steps.length ≤ 3 && steps.all isCanonical &&
      decide (steps.map (·.name)).Nodup)
    "invalid structured validation plan"

def validateJobContextCoherence (cwd : Option String) (context : ShellJobContext) :
    Except String Unit := do
  ensure (context.cwd == cwd) "job recovery context cwd does not match operation cwd"
  ensure (!(context.sshResource.isSome && context.workflowSessionId.isNone))
    "job recovery SSH resource requires Workflow Session"

/-- The line range of a file operation: both ends or none, and in order. Only reads of files and of
skill files have one. -/
def validateLineRange (kind : String) (payload : RunnerFilePayload) : Except String Unit :=
  let ordered : Bool :=
    match payload.startLine, payload.endLine with
    | some start, some stop => 0 < start && start ≤ stop
    | _, _ => false
  let absent := payload.startLine.isNone && payload.endLine.isNone
  if kind = "file_read" then ensure (ordered || absent) "file_read line range is invalid"
  else
    ensure (absent || (kind == "file_skill_read_file" && ordered))
      "line range is incompatible with file operation"

def validateFilePayload (kind : String) (payload : RunnerFilePayload) : Except String Unit := do
  ensure (!(payload.path.isEmpty || hasNul payload.path))
    "file operation path is required and cannot contain NUL"
  ensure (!payload.cwd.any hasNul) "file operation cwd cannot contain NUL"
  ensure (kind == "file_write" || !(payload.expectedSha256.isSome ||
      payload.expectedPrefix.isSome || payload.createDirs))
    "write-only compatibility fields are present on non-write file operation"
  ensure (!(kind == "file_write" && payload.content.isNone)) "file_write requires content"
  validateLineRange kind payload

def validateJsonPayload (P : NestedPayloads) (payload label : String) : Except String Unit := do
  ensure (!hasNul payload) (label ++ " payload cannot contain NUL")
  match P.parseJson payload with
  | .ok _ => return
  | .error error => throw (label ++ " payload is not valid JSON: " ++ error)

def validateComputerPayload (P : NestedPayloads) (kind : RunnerComputerOperationKind)
    (payload : String) : Except String Unit := do
  ensure (payload.utf8ByteSize ≤ kind.payloadMaxBytes) "computer request payload exceeds V2 bound"
  validateJsonPayload P payload "computer operation"

def labelled {A : Type} (label : String) (result : Except String A) : Except String A :=
  result.mapError (label ++ ·)

theorem labelled_eq_ok {A : Type} {label : String} {result : Except String A} {value : A} :
    labelled label result = .ok value ↔ result = .ok value := by
  cases result with
  | ok => exact Iff.rfl
  | error => simp [labelled, Except.mapError]

/-! ### Encoding -/

def emptyWire (metadata : RunnerInvocationMetadata) (kind : String) (timeoutSecs : ℕ) :
    RunnerRequest P where
  requestId := metadata.requestId
  clientId := metadata.clientId
  kind := kind
  timeoutSecs := timeoutSecs
  requestedBy := metadata.requestedBy
  createdAt := metadata.createdAt

variable (wire : RunnerRequest P)

/-- The fields of a process job, detached or not. -/
def encodeProcessJob (operation : RunnerJobProcessOperation) : Except String (RunnerRequest P) := do
  validateStructuredJobCommon operation.cwd operation.stdin operation.timeoutSecs
  validateProcessArgv operation.process
  validateJobContextCoherence operation.cwd operation.context
  return { wire with
    jobId := some operation.jobId, cwd := operation.cwd, process := some operation.process,
    stdin := operation.stdin, timeoutSecs := operation.timeoutSecs,
    jobContext := some operation.context }

def encodeJobOperation : RunnerJobOperation → Except String (RunnerRequest P)
  | .startShell operation => do
    validateRawShellWireCommand operation.command
    validateJobContextCoherence operation.cwd operation.context
    return { wire with
      jobId := some operation.jobId, cwd := operation.cwd, command := operation.command,
      timeoutSecs := operation.timeoutSecs, jobContext := some operation.context }
  | .startValidation operation => do
    validateValidationSteps operation.steps
    validateJobContextCoherence operation.cwd operation.context
    ensure (operation.context.validationSteps == operation.steps.map (·.name))
      "Job validation context does not match operation steps"
    let command ← labelled "could not encode validation Job plan: "
      (P.validationSteps.encode operation.steps)
    return { wire with
      jobId := some operation.jobId, cwd := operation.cwd, command := command,
      timeoutSecs := operation.timeoutSecs, jobContext := some operation.context }
  | .startProcess operation => encodeProcessJob wire operation
  | .startDetachedProcess operation => encodeProcessJob wire operation
  | .startScript operation => do
    validateScriptRequest operation.script operation.stdin operation.cwd operation.timeoutSecs
    validateJobContextCoherence operation.cwd operation.context
    return { wire with
      jobId := some operation.jobId, cwd := operation.cwd, script := some operation.script,
      stdin := operation.stdin, timeoutSecs := operation.timeoutSecs,
      jobContext := some operation.context }
  | .stop jobId => return { wire with jobId := some jobId, timeoutSecs := 1 }

/-- A payload that travels as text in `content`, within a bound of its own. -/
def encodeContent {A : Type} (name : String) (codec : JsonCodec A) (maxBytes timeoutSecs : ℕ)
    (operation : A) : Except String (RunnerRequest P) := do
  let content ← labelled ("could not encode " ++ name ++ " request: ") (codec.encode operation)
  ensure (content.utf8ByteSize ≤ maxBytes) (name ++ " request exceeds V2 payload bound")
  return { wire with content := some content, timeoutSecs := timeoutSecs }

def configuredSkillRootsRequestMaxBytes : ℕ := 4 * 1024
def skillStoreRequestMaxBytes : ℕ := 32 * 1024
def sshResourceRequestMaxBytes : ℕ := 8 * 1024
def runnerConfigRequestMaxBytes : ℕ := 512

def encodeOperation (metadata : RunnerInvocationMetadata) (operation : RunnerOperation P) :
    Except String (RunnerRequest P) :=
  let wire : RunnerRequest P := emptyWire metadata operation.wireKind 30
  match operation with
  | .runShell operation => do
    validateRawShellWireCommand operation.command
    return { wire with
      cwd := operation.cwd, command := operation.command, stdin := operation.stdin,
      maxBytes := operation.maxBytes, timeoutSecs := operation.timeoutSecs,
      jobContext := operation.jobContext }
  | .runProcess operation => do
    validateDirectProcess operation
    return { wire with
      cwd := operation.cwd, process := some operation.process, stdin := operation.stdin,
      timeoutSecs := operation.timeoutSecs }
  | .runScript operation => do
    validateDirectScript operation false
    return { wire with
      cwd := operation.cwd, script := some operation.script, stdin := operation.stdin,
      timeoutSecs := operation.timeoutSecs }
  | .runInternalPosixScript operation => do
    validateDirectScript operation true
    return { wire with
      cwd := operation.cwd, script := some operation.script, timeoutSecs := operation.timeoutSecs }
  | .job operation => encodeJobOperation wire operation
  | .file operation => do
    let payload := operation.payload
    validateFilePayload operation.kind.wireKind payload
    return { wire with
      cwd := payload.cwd, path := some payload.path, content := payload.content,
      maxBytes := payload.maxBytes, expectedSha256 := payload.expectedSha256,
      expectedPrefix := payload.expectedPrefix, startLine := payload.startLine,
      endLine := payload.endLine, createDirs := payload.createDirs, timeoutSecs := 30 }
  | .project operation => do
    validateJsonPayload P operation.payload "project operation"
    return { wire with stdin := some operation.payload, timeoutSecs := 30 }
  | .computer operation => do
    validateComputerPayload P operation.kind operation.payload
    return { wire with stdin := some operation.payload, timeoutSecs := max operation.timeoutSecs 1 }
  | .validation payload timeoutSecs => do
    P.validateBridgeRequest payload
    return { wire with validation := some payload, timeoutSecs := timeoutSecs }
  | .lsp payload timeoutSecs =>
    return { wire with lsp := some payload, timeoutSecs := max timeoutSecs 1 }
  | .persistentShell operation => do
    validatePersistentShell operation.request
    return { wire with
      cwd := operation.request.cwd, command := operation.request.command.getD "",
      timeoutSecs := operation.request.timeoutSecs.getD 30, jobContext := operation.jobContext,
      persistentShell := some operation.request }
  | .mcpGateway operation => do
    labelled "invalid MCP gateway request: " (P.validateMcpGatewayRequest operation)
    return { wire with timeoutSecs := 120, mcpGateway := some operation }
  | .pluginGateway operation => do
    labelled "invalid Plugin gateway request: " (P.validatePluginGatewayRequest operation)
    return { wire with timeoutSecs := 120, pluginGateway := some operation }
  | .codingAgent operation => do
    labelled "invalid CodingAgent request: " (P.validateCodingAgentRequest operation)
    return { wire with timeoutSecs := 120, codingAgent := some operation }
  | .configuredSkillRoots operation => do
    labelled "invalid configured Skill roots request: " (P.validateConfiguredSkillRoots operation)
    encodeContent wire "configured Skill roots" P.configuredSkillRoots
      configuredSkillRootsRequestMaxBytes 30 operation
  | .skillStore operation =>
    encodeContent wire "Skill store" P.skillStore skillStoreRequestMaxBytes 120 operation
  | .sshResource operation => do
    labelled "invalid SSH resource request: " (P.validateSshResource operation)
    encodeContent wire "SSH resource" P.sshResource sshResourceRequestMaxBytes 60 operation
  | .runnerConfig operation => do
    labelled "invalid Runner config request: " (P.validateRunnerConfig operation)
    encodeContent wire "Runner config" P.runnerConfig runnerConfigRequestMaxBytes 30 operation

def RunnerInvocation.intoV2Request (invocation : RunnerInvocation P) :
    Except String (RunnerRequest P) :=
  encodeOperation invocation.metadata invocation.operation

def RunnerRequest.fromOperation (metadata : RunnerInvocationMetadata)
    (operation : RunnerOperation P) : Except String (RunnerRequest P) :=
  RunnerInvocation.intoV2Request ⟨metadata, operation⟩

/-! ### Fields that a kind has no use for -/

namespace RunnerRequest

variable (wire : RunnerRequest P)

def hasFileFieldsExceptMaxBytes : Bool :=
  wire.path.isSome || wire.content.isSome || wire.expectedSha256.isSome ||
    wire.expectedPrefix.isSome || wire.startLine.isSome || wire.endLine.isSome || wire.createDirs

def ensureNoFileFieldsExceptMaxBytes : Except String Unit :=
  ensure (!wire.hasFileFieldsExceptMaxBytes) (wire.kind ++ " contains incompatible file fields")

def ensureNoFileFields : Except String Unit :=
  ensure (!(wire.hasFileFieldsExceptMaxBytes || wire.maxBytes.isSome))
    (wire.kind ++ " contains incompatible file fields")

/-- The typed payloads that have a family of their own. -/
inductive TypedPayload
  | validation | lsp | persistentShell | mcpGateway | pluginGateway | codingAgent
  deriving DecidableEq

/-- A typed payload other than the one that is allowed. -/
def hasTypedPayloadExcept (allowed : Option TypedPayload) : Bool :=
  (wire.validation.isSome && allowed != some .validation) ||
    (wire.lsp.isSome && allowed != some .lsp) ||
    (wire.persistentShell.isSome && allowed != some .persistentShell) ||
    (wire.mcpGateway.isSome && allowed != some .mcpGateway) ||
    (wire.pluginGateway.isSome && allowed != some .pluginGateway) ||
    (wire.codingAgent.isSome && allowed != some .codingAgent)

def ensureSpecialPayloadsAbsent : Except String Unit :=
  ensure (!(wire.process.isSome || wire.script.isSome || wire.hasTypedPayloadExcept none))
    (wire.kind ++ " contains incompatible typed payload")

def ensureOnlyProcessPayload : Except String Unit :=
  ensure (!(wire.script.isSome || wire.hasTypedPayloadExcept none))
    (wire.kind ++ " conflicts with non-process typed payload")

def ensureOnlyScriptPayload : Except String Unit :=
  ensure (!(wire.process.isSome || wire.hasTypedPayloadExcept none))
    (wire.kind ++ " conflicts with non-script typed payload")

def ensureOnlyPayload (allowed : TypedPayload) : Except String Unit :=
  ensure (!(wire.process.isSome || wire.script.isSome || wire.hasTypedPayloadExcept (some allowed)))
    (wire.kind ++ " contains conflicting typed payloads")

def ensureEmptyGenericExecutionFields (allowContent : Bool) :
    Except String Unit :=
  ensure (!(wire.jobId.isSome || wire.cwd.isSome || wire.path.isSome ||
      (!allowContent && wire.content.isSome) || wire.maxBytes.isSome ||
      wire.expectedSha256.isSome || wire.expectedPrefix.isSome || wire.startLine.isSome ||
      wire.endLine.isSome || wire.createDirs || !wire.command.isEmpty || wire.stdin.isSome ||
      wire.jobContext.isSome))
    (wire.kind ++ " contains incompatible generic fields")

/-- Requests for the language server may still carry the directory and the command of older
servers. -/
def ensureLspLegacyCompatibleGenericFields : Except String Unit :=
  ensure (!(wire.jobId.isSome || wire.path.isSome || wire.content.isSome || wire.maxBytes.isSome ||
      wire.expectedSha256.isSome || wire.expectedPrefix.isSome || wire.startLine.isSome ||
      wire.endLine.isSome || wire.createDirs || wire.stdin.isSome || wire.jobContext.isSome))
    "lsp contains incompatible generic fields"

def boundedContent (maxBytes : ℕ) (label : String) :
    Except String String := do
  let content ← required wire.content (label ++ " requires content payload")
  ensure (content.utf8ByteSize ≤ maxBytes && !hasNul content)
    (label ++ " content payload is invalid or oversized")
  return content

end RunnerRequest

/-! ### Decoding -/

inductive JobKind
  | start | startValidation | startProcess | startDetachedProcess | startScript | stop
  deriving DecidableEq

inductive WireFamily
  | runShell
  | runProcess
  | runScript (internal : Bool)
  | job (kind : JobKind)
  | file
  | project (kind : RunnerProjectOperationKind)
  | computer (kind : RunnerComputerOperationKind)
  | validation
  | lsp
  | persistentShell
  | mcpGateway
  | pluginGateway
  | codingAgent
  | configuredSkillRoots
  | skillStore
  | sshResource
  | runnerConfig
  deriving DecidableEq

namespace WireFamily

/-- The kinds that stand behind files, projects and the computer in the dispatch. -/
def ofTypedKind : String → Option WireFamily
  | "validation" => some validation
  | "lsp" => some lsp
  | "persistent_shell" => some persistentShell
  | "mcp_gateway" => some mcpGateway
  | "plugin_gateway" => some pluginGateway
  | "coding_agent" => some codingAgent
  | "configured_skill_roots" => some configuredSkillRoots
  | "skill_store" => some skillStore
  | "ssh_resource" => some sshResource
  | "runner_config" => some runnerConfig
  | _ => none

def ofKind (kind : String) : Option WireFamily :=
  match kind with
  | "run_shell" => some runShell
  | "run_process" => some runProcess
  | "run_script" => some (runScript false)
  | "run_internal_posix_script" => some (runScript true)
  | "start_job" => some (job .start)
  | "start_validation_job" => some (job .startValidation)
  | "start_process_job" => some (job .startProcess)
  | "start_detached_process_job" => some (job .startDetachedProcess)
  | "start_script_job" => some (job .startScript)
  | "stop_job" => some (job .stop)
  | kind =>
    if "file_".toList.isPrefixOf kind.toList then some file
    else
      match RunnerProjectOperationKind.fromWire kind, RunnerComputerOperationKind.fromWire kind with
      | some kind, _ => some (project kind)
      | none, some kind => some (computer kind)
      | none, none => ofTypedKind kind

end WireFamily

namespace RunnerRequest

/-- The recovery metadata of a typed job has to match the job. -/
def ensureRecoveryMetadata (job : RunnerJobOperation) (label : String) :
    Except String RunnerJobOperation := do
  ensure (job.context.bind (·.structuredExecution) == job.expectedStructuredExecution)
    (label ++ " Job recovery metadata does not match typed operation")
  return job

variable (wire : RunnerRequest P)

def decodeProcessJob (jobId : String) (context : ShellJobContext)
    (start : RunnerJobProcessOperation → RunnerJobOperation) :
    Except String RunnerJobOperation := do
  wire.ensureOnlyProcessPayload
  ensure (wire.command.isEmpty && context.sshResource.isNone)
    "typed process Job contains incompatible execution fields"
  let process ← required wire.process (wire.kind ++ " requires process payload")
  validateProcessArgv process
  validateStructuredJobCommon wire.cwd wire.stdin wire.timeoutSecs
  ensureRecoveryMetadata
    (start ⟨jobId, wire.cwd, process, wire.stdin, wire.timeoutSecs, context⟩) "process"

/-- A job is started with the recovery context that the request carries. -/
def decodeStart (kind : JobKind) (jobId : String) (context : ShellJobContext) :
    Except String RunnerJobOperation :=
  match kind with
  | .start => do
    wire.ensureSpecialPayloadsAbsent
    ensure wire.stdin.isNone "start_job does not accept stdin"
    validateRawShellWireCommand wire.command
    return .startShell ⟨jobId, wire.cwd, wire.command, wire.timeoutSecs, context⟩
  | .startValidation => do
    wire.ensureSpecialPayloadsAbsent
    ensure wire.stdin.isNone "start_validation_job does not accept stdin"
    let steps ← labelled "invalid validation Job plan: " (P.validationSteps.decode wire.command)
    validateValidationSteps steps
    ensure (context.validationSteps == steps.map (·.name))
      "validation Job plan does not match recovery context"
    return .startValidation ⟨jobId, wire.cwd, steps, wire.timeoutSecs, context⟩
  | .startProcess => wire.decodeProcessJob jobId context .startProcess
  | .startDetachedProcess => wire.decodeProcessJob jobId context .startDetachedProcess
  | .startScript => do
    wire.ensureOnlyScriptPayload
    ensure (wire.command.isEmpty && context.sshResource.isNone)
      "typed script Job contains incompatible execution fields"
    let script ← required wire.script "start_script_job requires script payload"
    validateScriptRequest script wire.stdin wire.cwd wire.timeoutSecs
    ensureRecoveryMetadata
      (.startScript ⟨jobId, wire.cwd, script, wire.stdin, wire.timeoutSecs, context⟩) "script"
  | .stop => return .stop jobId

def decodeJobOperation (kind : JobKind) :
    Except String RunnerJobOperation := do
  wire.ensureNoFileFields
  let jobId ← required wire.jobId (wire.kind ++ " requires job_id")
  if kind = .stop then
    wire.ensureSpecialPayloadsAbsent
    ensure (!(wire.cwd.isSome || wire.stdin.isSome || wire.jobContext.isSome ||
        !wire.command.isEmpty))
      "stop_job contains incompatible execution fields"
    return .stop jobId
  else
    let context ← required wire.jobContext (wire.kind ++ " requires job_context")
    validateJobContextCoherence wire.cwd context
    wire.decodeStart kind jobId context

def decodeScript (internal : Bool) :
    Except String RunnerScriptOperation := do
  wire.ensureOnlyScriptPayload
  wire.ensureNoFileFields
  ensure (!(wire.jobId.isSome || wire.jobContext.isSome || !wire.command.isEmpty))
    (wire.kind ++ " contains incompatible execution fields")
  let script ← required wire.script (wire.kind ++ " requires script payload")
  let operation : RunnerScriptOperation := ⟨wire.cwd, script, wire.stdin, wire.timeoutSecs⟩
  validateDirectScript operation internal
  return operation

def decodeFile : Except String RunnerFileOperation := do
  wire.ensureSpecialPayloadsAbsent
  ensure (!(wire.jobId.isSome || wire.stdin.isSome || wire.jobContext.isSome ||
      !wire.command.isEmpty))
    "file operation contains incompatible execution fields"
  let path ← required wire.path "file operation requires path"
  let payload : RunnerFilePayload :=
    ⟨wire.cwd, path, wire.content, wire.maxBytes, wire.expectedSha256, wire.expectedPrefix,
      wire.startLine, wire.endLine, wire.createDirs⟩
  validateFilePayload wire.kind payload
  let kind ← required (RunnerFileOperationKind.fromWire wire.kind)
    ("unknown Runner V2 request kind: " ++ wire.kind)
  return ⟨kind, payload⟩

/-- The payload of a project or computer operation, which travels in `stdin`. -/
def decodeStdinPayload (label : String) : Except String String := do
  wire.ensureSpecialPayloadsAbsent
  wire.ensureNoFileFields
  ensure (!(wire.jobId.isSome || wire.cwd.isSome || !wire.command.isEmpty ||
      wire.jobContext.isSome))
    (label ++ " contains incompatible execution fields")
  required wire.stdin (label ++ " requires JSON payload")

/-- A payload that travels in a field of its own. -/
def decodeTyped {A : Type} (allowed : TypedPayload) (payload : Option A) (missing : String) :
    Except String A := do
  wire.ensureOnlyPayload allowed
  wire.ensureEmptyGenericExecutionFields false
  required payload missing

/-- A payload that travels as text in `content`. -/
def decodeContent {A : Type} (label name : String) (codec : JsonCodec A) (maxBytes : ℕ) :
    Except String A := do
  wire.ensureSpecialPayloadsAbsent
  wire.ensureEmptyGenericExecutionFields true
  let content ← wire.boundedContent maxBytes label
  labelled ("invalid " ++ name ++ " payload: ") (codec.decode content)

def decodePersistentShell :
    Except String RunnerPersistentShellOperation := do
  wire.ensureOnlyPayload .persistentShell
  wire.ensureNoFileFields
  ensure (!(wire.jobId.isSome || wire.stdin.isSome))
    "persistent_shell contains incompatible execution fields"
  let request ← required wire.persistentShell
    "persistent_shell requires persistent_shell payload"
  validatePersistentShell request
  ensure (wire.cwd == request.cwd && wire.command == request.command.getD "" &&
      wire.timeoutSecs == request.timeoutSecs.getD 30)
    "persistent_shell compatibility fields do not match typed payload"
  return ⟨request, wire.jobContext⟩

def decodeFamily (family : WireFamily) : Except String (RunnerOperation P) :=
  match family with
  | .runShell => do
    wire.ensureSpecialPayloadsAbsent
    wire.ensureNoFileFieldsExceptMaxBytes
    ensure wire.jobId.isNone "run_shell does not accept job_id"
    validateRawShellWireCommand wire.command
    return .runShell
      ⟨wire.cwd, wire.command, wire.stdin, wire.maxBytes, wire.timeoutSecs, wire.jobContext⟩
  | .runProcess => do
    wire.ensureOnlyProcessPayload
    wire.ensureNoFileFields
    ensure (!(wire.jobId.isSome || wire.jobContext.isSome || !wire.command.isEmpty))
      "run_process contains incompatible execution fields"
    let process ← required wire.process "run_process requires process payload"
    let operation : RunnerProcessOperation := ⟨wire.cwd, process, wire.stdin, wire.timeoutSecs⟩
    validateDirectProcess operation
    return .runProcess operation
  | .runScript false => do return .runScript (← wire.decodeScript false)
  | .runScript true => do return .runInternalPosixScript (← wire.decodeScript true)
  | .job kind => do return .job (← wire.decodeJobOperation kind)
  | .file => do return .file (← wire.decodeFile)
  | .project kind => do
    let payload ← wire.decodeStdinPayload "project operation"
    validateJsonPayload P payload "project operation"
    return .project ⟨kind, payload⟩
  | .computer kind => do
    let payload ← wire.decodeStdinPayload "computer operation"
    validateComputerPayload P kind payload
    return .computer ⟨kind, payload, wire.timeoutSecs⟩
  | .validation => do
    let payload ← wire.decodeTyped .validation wire.validation
      "validation operation requires validation payload"
    P.validateBridgeRequest payload
    return .validation payload wire.timeoutSecs
  | .lsp => do
    wire.ensureOnlyPayload .lsp
    wire.ensureLspLegacyCompatibleGenericFields
    let payload ← required wire.lsp "lsp operation requires lsp payload"
    return .lsp payload wire.timeoutSecs
  | .persistentShell => do return .persistentShell (← wire.decodePersistentShell)
  | .mcpGateway => do
    let operation ← wire.decodeTyped .mcpGateway wire.mcpGateway
      "mcp_gateway requires mcp_gateway payload"
    labelled "invalid MCP gateway request: " (P.validateMcpGatewayRequest operation)
    return .mcpGateway operation
  | .pluginGateway => do
    let operation ← wire.decodeTyped .pluginGateway wire.pluginGateway
      "plugin_gateway requires plugin_gateway payload"
    labelled "invalid Plugin gateway request: " (P.validatePluginGatewayRequest operation)
    return .pluginGateway operation
  | .codingAgent => do
    let operation ← wire.decodeTyped .codingAgent wire.codingAgent
      "coding_agent requires coding_agent payload"
    labelled "invalid CodingAgent request: " (P.validateCodingAgentRequest operation)
    return .codingAgent operation
  | .configuredSkillRoots => do
    let operation ← wire.decodeContent "configured_skill_roots" "configured Skill roots"
      P.configuredSkillRoots configuredSkillRootsRequestMaxBytes
    labelled "invalid configured Skill roots request: " (P.validateConfiguredSkillRoots operation)
    return .configuredSkillRoots operation
  | .skillStore => do
    return .skillStore
      (← wire.decodeContent "skill_store" "Skill store" P.skillStore skillStoreRequestMaxBytes)
  | .sshResource => do
    let operation ← wire.decodeContent "ssh_resource" "SSH resource" P.sshResource
      sshResourceRequestMaxBytes
    labelled "invalid SSH resource request: " (P.validateSshResource operation)
    return .sshResource operation
  | .runnerConfig => do
    let operation ← wire.decodeContent "runner_config" "Runner config" P.runnerConfig
      runnerConfigRequestMaxBytes
    labelled "invalid Runner config request: " (P.validateRunnerConfig operation)
    return .runnerConfig operation

def decodeOperation : Except String (RunnerOperation P) := do
  let family ← required (WireFamily.ofKind wire.kind)
    ("unknown Runner V2 request kind: " ++ wire.kind)
  wire.decodeFamily family

def decodeInvocation : Except String (RunnerInvocation P) := do
  let operation ← wire.decodeOperation
  return ⟨⟨wire.requestId, wire.clientId, wire.requestedBy, wire.createdAt⟩, operation⟩

end RunnerRequest

end WebCodex.RunnerWire
