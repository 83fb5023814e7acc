import WebCodex.RunnerWire.Payloads

/-!
The closed set of operations that the server asks a runner for, each with the payload that it needs,
and the text that names each of them on the wire. A family of operations that differ in their name
only (files, projects, the computer) is one operation with the name as a value.
-/

namespace WebCodex.RunnerWire

open Registry

structure RunnerInvocationMetadata where
  (requestId clientId requestedBy : String)
  createdAt : ℤ

structure RunnerShellOperation where
  cwd : Option String := none
  command : String
  stdin : Option String := none
  maxBytes : Option ℕ := none
  timeoutSecs : ℕ
  jobContext : Option ShellJobContext := none

structure RunnerProcessOperation where
  cwd : Option String := none
  process : ShellProcessArgv
  stdin : Option String := none
  timeoutSecs : ℕ

structure RunnerScriptOperation where
  cwd : Option String := none
  script : ShellScriptPayload
  stdin : Option String := none
  timeoutSecs : ℕ

structure RunnerJobShellOperation where
  jobId : String
  cwd : Option String := none
  command : String
  timeoutSecs : ℕ
  context : ShellJobContext

structure RunnerJobValidationOperation where
  jobId : String
  cwd : Option String := none
  steps : List ShellJobValidationStep
  timeoutSecs : ℕ
  context : ShellJobContext

structure RunnerJobProcessOperation where
  jobId : String
  cwd : Option String := none
  process : ShellProcessArgv
  stdin : Option String := none
  timeoutSecs : ℕ
  context : ShellJobContext

structure RunnerJobScriptOperation where
  jobId : String
  cwd : Option String := none
  script : ShellScriptPayload
  stdin : Option String := none
  timeoutSecs : ℕ
  context : ShellJobContext

inductive RunnerJobOperation
  | startShell (operation : RunnerJobShellOperation)
  | startValidation (operation : RunnerJobValidationOperation)
  | startProcess (operation : RunnerJobProcessOperation)
  | startDetachedProcess (operation : RunnerJobProcessOperation)
  | startScript (operation : RunnerJobScriptOperation)
  | stop (jobId : String)

namespace RunnerJobOperation

def wireKind : RunnerJobOperation → String
  | startShell _ => "start_job"
  | startValidation _ => "start_validation_job"
  | startProcess _ => "start_process_job"
  | startDetachedProcess _ => "start_detached_process_job"
  | startScript _ => "start_script_job"
  | stop _ => "stop_job"

def context : RunnerJobOperation → Option ShellJobContext
  | startShell operation => some operation.context
  | startValidation operation => some operation.context
  | startProcess operation => some operation.context
  | startDetachedProcess operation => some operation.context
  | startScript operation => some operation.context
  | stop _ => none

/-- What the recovery context of a job has to say about a typed execution. The correlation fields
are copied from the context itself, except the assertion name of a detached process. -/
def expectedStructuredExecution (job : RunnerJobOperation) :
    Option ShellJobStructuredExecutionMetadata :=
  let admitted := job.context.bind (·.structuredExecution)
  let validationIdentity := admitted.bind (·.validationIdentity)
  let validationTool := admitted.bind (·.validationTool)
  let assertionName := admitted.bind (·.assertionName)
  match job with
  | startProcess operation =>
    some { executionSource := "run_process", argCount := operation.process.args.length,
           stdinPresent := operation.stdin.isSome, validationIdentity, validationTool,
           assertionName }
  | startDetachedProcess operation =>
    some { executionSource := "run_detached_process", argCount := operation.process.args.length,
           stdinPresent := operation.stdin.isSome, validationIdentity, validationTool,
           assertionName := none }
  | startScript operation =>
    some { executionSource := "run_script", language := some operation.script.language,
           scriptBytes := some operation.script.script.utf8ByteSize,
           argCount := operation.script.args.length, stdinPresent := operation.stdin.isSome,
           validationIdentity, validationTool, assertionName }
  | startShell _ | startValidation _ | stop _ => none

end RunnerJobOperation

structure RunnerFilePayload where
  cwd : Option String := none
  path : String
  content : Option String := none
  maxBytes : Option ℕ := none
  expectedSha256 : Option String := none
  expectedPrefix : Option String := none
  startLine : Option ℕ := none
  endLine : Option ℕ := none
  createDirs : Bool := false

/-- The variants of `RunnerFileOperation`, which all carry the same payload. -/
inductive RunnerFileOperationKind
  | read | write | list | projectOverview | deleteProjectFiles | writeProjectFile | applyTextEdits
  | applyPatch | saveProjectArtifact | readProjectArtifactMetadata | readProjectArtifact
  | readProjectArtifactExportChunk | artifactUploadBegin | artifactUploadChunk
  | artifactUploadFinish | artifactUploadAbort | checkpointCreate | checkpointRestore
  | skillListPackages | skillReadFile

namespace RunnerFileOperationKind

def wireKind : RunnerFileOperationKind → String
  | read => "file_read"
  | write => "file_write"
  | list => "file_list"
  | projectOverview => "file_project_overview"
  | deleteProjectFiles => "file_delete_project_files"
  | writeProjectFile => "file_write_project_file"
  | applyTextEdits => "file_apply_text_edits"
  | applyPatch => "file_apply_patch"
  | saveProjectArtifact => "file_save_project_artifact"
  | readProjectArtifactMetadata => "file_read_project_artifact_metadata"
  | readProjectArtifact => "file_read_project_artifact"
  | readProjectArtifactExportChunk => "file_read_project_artifact_export_chunk"
  | artifactUploadBegin => "file_artifact_upload_begin"
  | artifactUploadChunk => "file_artifact_upload_chunk"
  | artifactUploadFinish => "file_artifact_upload_finish"
  | artifactUploadAbort => "file_artifact_upload_abort"
  | checkpointCreate => "file_checkpoint_create"
  | checkpointRestore => "file_checkpoint_restore"
  | skillListPackages => "file_skill_list_packages"
  | skillReadFile => "file_skill_read_file"

def fromWire : String → Option RunnerFileOperationKind
  | "file_read" => some read
  | "file_write" => some write
  | "file_list" => some list
  | "file_project_overview" => some projectOverview
  | "file_delete_project_files" => some deleteProjectFiles
  | "file_write_project_file" => some writeProjectFile
  | "file_apply_text_edits" => some applyTextEdits
  | "file_apply_patch" => some applyPatch
  | "file_save_project_artifact" => some saveProjectArtifact
  | "file_read_project_artifact_metadata" => some readProjectArtifactMetadata
  | "file_read_project_artifact" => some readProjectArtifact
  | "file_read_project_artifact_export_chunk" => some readProjectArtifactExportChunk
  | "file_artifact_upload_begin" => some artifactUploadBegin
  | "file_artifact_upload_chunk" => some artifactUploadChunk
  | "file_artifact_upload_finish" => some artifactUploadFinish
  | "file_artifact_upload_abort" => some artifactUploadAbort
  | "file_checkpoint_create" => some checkpointCreate
  | "file_checkpoint_restore" => some checkpointRestore
  | "file_skill_list_packages" => some skillListPackages
  | "file_skill_read_file" => some skillReadFile
  | _ => none

theorem fromWire_wireKind (kind : RunnerFileOperationKind) :
    fromWire kind.wireKind = some kind := by
  cases kind <;> rfl

end RunnerFileOperationKind

structure RunnerFileOperation where
  kind : RunnerFileOperationKind
  payload : RunnerFilePayload

inductive RunnerProjectOperationKind
  | register | create | resolveOrRegister | prepareManagedWorktree | lifecycleEnable
  | lifecycleDisable | lifecycleUnregister
  deriving DecidableEq

namespace RunnerProjectOperationKind

def wireKind : RunnerProjectOperationKind → String
  | register => "register_project"
  | create => "create_project"
  | resolveOrRegister => "resolve_or_register_project"
  | prepareManagedWorktree => "prepare_managed_worktree"
  | lifecycleEnable => "project_lifecycle_enable"
  | lifecycleDisable => "project_lifecycle_disable"
  | lifecycleUnregister => "project_lifecycle_unregister"

def fromWire : String → Option RunnerProjectOperationKind
  | "register_project" => some register
  | "create_project" => some create
  | "resolve_or_register_project" => some resolveOrRegister
  | "prepare_managed_worktree" => some prepareManagedWorktree
  | "project_lifecycle_enable" => some lifecycleEnable
  | "project_lifecycle_disable" => some lifecycleDisable
  | "project_lifecycle_unregister" => some lifecycleUnregister
  | _ => none

end RunnerProjectOperationKind

structure RunnerProjectOperation where
  kind : RunnerProjectOperationKind
  payload : String

inductive RunnerComputerOperationKind
  | listWindows | listApplications | launchApplication | listDisplays | snapshotDisplay
  | readClipboard | writeClipboard | pointerMove | pointerClick | snapshot | snapshotRegion
  | accessibilityStatus | accessibilityTree | elementState | activateWindow | control
  | scrollToElement | keyInput | inputText
  deriving DecidableEq

namespace RunnerComputerOperationKind

def wireKind : RunnerComputerOperationKind → String
  | listWindows => "computer_list_windows"
  | listApplications => "computer_list_applications"
  | launchApplication => "computer_launch_application"
  | listDisplays => "computer_list_displays"
  | snapshotDisplay => "computer_snapshot_display"
  | readClipboard => "computer_read_clipboard"
  | writeClipboard => "computer_write_clipboard"
  | pointerMove => "computer_pointer_move"
  | pointerClick => "computer_pointer_click"
  | snapshot => "computer_snapshot"
  | snapshotRegion => "computer_snapshot_region"
  | accessibilityStatus => "computer_accessibility_status"
  | accessibilityTree => "computer_accessibility_tree"
  | elementState => "computer_element_state"
  | activateWindow => "computer_activate_window"
  | control => "computer_control"
  | scrollToElement => "computer_scroll_to_element"
  | keyInput => "computer_key_input"
  | inputText => "computer_input_text"

def fromWire : String → Option RunnerComputerOperationKind
  | "computer_list_windows" => some listWindows
  | "computer_list_applications" => some listApplications
  | "computer_launch_application" => some launchApplication
  | "computer_list_displays" => some listDisplays
  | "computer_snapshot_display" => some snapshotDisplay
  | "computer_read_clipboard" => some readClipboard
  | "computer_write_clipboard" => some writeClipboard
  | "computer_pointer_move" => some pointerMove
  | "computer_pointer_click" => some pointerClick
  | "computer_snapshot" => some snapshot
  | "computer_snapshot_region" => some snapshotRegion
  | "computer_accessibility_status" => some accessibilityStatus
  | "computer_accessibility_tree" => some accessibilityTree
  | "computer_element_state" => some elementState
  | "computer_activate_window" => some activateWindow
  | "computer_control" => some control
  | "computer_scroll_to_element" => some scrollToElement
  | "computer_key_input" => some keyInput
  | "computer_input_text" => some inputText
  | _ => none

/-- `shell_computer_request_payload_max_bytes`. -/
def payloadMaxBytes : RunnerComputerOperationKind → ℕ
  | inputText => 16 * 1024
  | writeClipboard => 128 * 1024
  | _ => 4096

end RunnerComputerOperationKind

structure RunnerComputerOperation where
  kind : RunnerComputerOperationKind
  payload : String
  timeoutSecs : ℕ

structure RunnerPersistentShellOperation where
  request : PersistentShellRequest
  jobContext : Option ShellJobContext := none

inductive RunnerOperation (P : NestedPayloads)
  | runShell (operation : RunnerShellOperation)
  | runProcess (operation : RunnerProcessOperation)
  | runScript (operation : RunnerScriptOperation)
  | runInternalPosixScript (operation : RunnerScriptOperation)
  | job (operation : RunnerJobOperation)
  | file (operation : RunnerFileOperation)
  | project (operation : RunnerProjectOperation)
  | computer (operation : RunnerComputerOperation)
  | validation (payload : P.ValidationBridgeRequest) (timeoutSecs : ℕ)
  | lsp (payload : P.RunnerLspPayload) (timeoutSecs : ℕ)
  | persistentShell (operation : RunnerPersistentShellOperation)
  | mcpGateway (operation : P.McpGatewayRequest)
  | pluginGateway (operation : P.PluginGatewayRequest)
  | codingAgent (operation : P.CodingAgentRequest)
  | configuredSkillRoots (operation : P.ConfiguredSkillRootsRequest)
  | skillStore (operation : P.SkillStoreRequest)
  | sshResource (operation : P.SshResourceRequest)
  | runnerConfig (operation : P.RunnerConfigOperationRequest)

namespace RunnerOperation

variable {P : NestedPayloads}

def wireKind : RunnerOperation P → String
  | runShell _ => "run_shell"
  | runProcess _ => "run_process"
  | runScript _ => "run_script"
  | runInternalPosixScript _ => "run_internal_posix_script"
  | job operation => operation.wireKind
  | file operation => operation.kind.wireKind
  | project operation => operation.kind.wireKind
  | computer operation => operation.kind.wireKind
  | validation _ _ => "validation"
  | lsp _ _ => "lsp"
  | persistentShell _ => "persistent_shell"
  | mcpGateway _ => "mcp_gateway"
  | pluginGateway _ => "plugin_gateway"
  | codingAgent _ => "coding_agent"
  | configuredSkillRoots _ => "configured_skill_roots"
  | skillStore _ => "skill_store"
  | sshResource _ => "ssh_resource"
  | runnerConfig _ => "runner_config"

end RunnerOperation

structure RunnerInvocation (P : NestedPayloads) where
  metadata : RunnerInvocationMetadata
  operation : RunnerOperation P

end WebCodex.RunnerWire
