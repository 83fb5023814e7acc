import Mathlib.Data.List.Infix
import WebCodex.Foundation.Fallible
import WebCodex.Foundation.Layout
import WebCodex.Registry.Protocol

/-!
The values that a runner operation carries and the checks that both sides make on them: shell
commands, argument vectors, scripts, steps of validation jobs and requests of a persistent shell.
Lengths are in bytes. Nine further payloads travel whole (`NestedPayloads`): their types,
validators and serializers are parameters, because the adapter does not look inside.
-/

namespace WebCodex.RunnerWire

open Foundation Foundation.Text Registry

def hasNul (text : String) : Bool := text.toList.contains '\x00'

def isBlankText (text : String) : Bool := isBlank text.toList

def toAsciiLowercase (text : Str) : String := String.ofList (text.map Char.toLower)

def rawShellWireMaxBytes : ℕ := 64 * 1024

def validateRawShellWireCommand (command : String) : Except String Unit := do
  ensure (!isBlankText command) "command cannot be empty"
  ensure (command.utf8ByteSize ≤ rawShellWireMaxBytes)
    "command is too long for the Runner wire envelope; maximum is 65536 bytes"
  ensure (!hasNul command) "command cannot contain NUL bytes"

structure ShellProcessArgv where
  executable : String
  args : List String := []

structure ShellScriptPayload where
  language : ShellScriptLanguage
  script : String
  args : List String := []

def processExecutableMaxBytes : ℕ := 1024
def processArgMaxCount : ℕ := 256
def processArgMaxBytes : ℕ := 8192
def processArgvMaxBytes : ℕ := 16000
def processStdinMaxBytes : ℕ := 64 * 1024
def processCwdMaxBytes : ℕ := 1024
def structuredExecutionTimeoutMinSecs : ℕ := 1
def structuredExecutionTimeoutMaxSecs : ℕ := 3600
def structuredExecutionDirectSyncTimeoutMaxSecs : ℕ := 120
def scriptMaxBytes : ℕ := 512 * 1024

/-- Checks every argument in turn and answers with the bytes of all of them, one more for each. The
vectors of processes and of scripts have the same bounds. -/
def validateArgs : ℕ → List String → Except String ℕ
  | _, [] => pure 0
  | index, arg :: args => do
    ensure (arg.utf8ByteSize ≤ processArgMaxBytes)
      ("args[" ++ toString index ++ "] is too long; maximum is 8192 bytes")
    ensure (!hasNul arg) ("args[" ++ toString index ++ "] cannot contain NUL bytes")
    let total ← validateArgs (index + 1) args
    return 1 + arg.utf8ByteSize + total

/-- The forms of a shell that read a command from an argument. -/
def processUsesShellCommandMode (process : ShellProcessArgv) : Bool :=
  let basename := process.executable.toList.rtakeWhile fun c ↦ c != '/' && c != '\\'
  match toAsciiLowercase basename with
  | "sh" | "sh.exe" | "bash" | "bash.exe" =>
    (process.args.takeWhile (· != "--")).any fun arg ↦
      match arg.toList.map Char.toLower with
      | '-' :: rest => rest.head? != some '-' && rest.contains 'c'
      | _ => false
  | "powershell" | "powershell.exe" | "pwsh" | "pwsh.exe" =>
    process.args.any fun arg ↦ ["-command", "-c"].contains (toAsciiLowercase arg.toList)
  | "cmd" | "cmd.exe" => process.args.any fun arg ↦ toAsciiLowercase arg.toList == "/c"
  | _ => false

def validateProcessArgv (process : ShellProcessArgv) : Except String Unit := do
  ensure (!isBlankText process.executable) "executable must not be empty"
  ensure (process.executable.utf8ByteSize ≤ processExecutableMaxBytes)
    "executable is too long; maximum is 1024 bytes"
  ensure (!hasNul process.executable) "executable cannot contain NUL bytes"
  ensure (process.args.length ≤ processArgMaxCount) "args may contain at most 256 entries"
  let total ← validateArgs 0 process.args
  ensure (process.executable.utf8ByteSize + total ≤ processArgvMaxBytes)
    "executable and args are too large; maximum total is 16000 bytes"
  ensure (!processUsesShellCommandMode process)
    "run_process does not accept shell command modes; use run_shell for shell syntax"

def validateScriptRequest (payload : ShellScriptPayload) (stdin cwd : Option String)
    (timeoutSecs : ℕ) : Except String Unit := do
  ensure (1 ≤ payload.script.utf8ByteSize) "script must contain at least 1 UTF-8 byte"
  ensure (payload.script.utf8ByteSize ≤ scriptMaxBytes)
    "script is too large; maximum is 524288 bytes"
  ensure (!hasNul payload.script) "script cannot contain NUL bytes"
  ensure (payload.args.length ≤ processArgMaxCount) "args may contain at most 256 entries"
  let total ← validateArgs 0 payload.args
  ensure (total ≤ processArgvMaxBytes) "script args are too large; maximum total is 16000 bytes"
  ensure (stdin.all (·.utf8ByteSize ≤ processStdinMaxBytes))
    "stdin is too large; maximum is 65536 bytes"
  ensure (stdin.all (!hasNul ·)) "stdin cannot contain NUL bytes"
  ensure (cwd.all (·.utf8ByteSize ≤ processCwdMaxBytes)) "cwd is too long; maximum is 1024 bytes"
  ensure (cwd.all (!hasNul ·)) "cwd cannot contain NUL bytes"
  ensure (1 ≤ timeoutSecs && timeoutSecs ≤ structuredExecutionTimeoutMaxSecs)
    "timeout_secs must be between 1 and 3600"

def cargoValueMaxBytes : ℕ := 500
def rustTestFilterMaxBytes : ℕ := 200
def goTestPackageMaxItems : ℕ := 8
def goTestPackageMaxBytes : ℕ := 256

/-- `normalize_cargo_value`: `none` when the value is refused, `some none` when it is blank. -/
def normalizeCargoValue (raw : String) : Option (Option String) :=
  let trimmed := trim raw.toList
  if hasNul raw then none
  else if trimmed.isEmpty then some none
  else if trimmed.any isControl || trimmed.head? == some '-' ||
      (String.ofList trimmed).utf8ByteSize > cargoValueMaxBytes then none
  else some (some (String.ofList trimmed))

def validRustTestFilter (raw : String) : Bool :=
  let trimmed := trim raw.toList
  raw.utf8ByteSize ≤ rustTestFilterMaxBytes && !hasNul raw && !trimmed.isEmpty &&
    !trimmed.any isControl && trimmed.head? != some '-'

/-- The flags of `cargo check` and `cargo test`, each at most once, those with a value followed by
a normalized one. -/
def isCanonicalCargoFlags (allowNoRun : Bool) : List String → List String → Bool
  | _, [] => true
  | seen, arg :: rest =>
    if ["--all-targets", "--all-features", "--no-default-features"].contains arg ||
        (arg == "--no-run" && allowNoRun) then
      !seen.contains arg && isCanonicalCargoFlags allowNoRun (arg :: seen) rest
    else if ["--features", "-p"].contains arg then
      match rest with
      | [] => false
      | value :: rest =>
        !seen.contains arg && normalizeCargoValue value == some (some value) &&
          isCanonicalCargoFlags allowNoRun (arg :: seen) rest
    else false

def isCanonicalCargoCheckArgs : List String → Bool
  | "check" :: flags => isCanonicalCargoFlags false [] flags
  | _ => false

/-- An optional filter stands in front of the flags. -/
def isCanonicalCargoTestArgs : List String → Bool
  | "test" :: filter :: flags =>
    if validRustTestFilter filter then isCanonicalCargoFlags true [] flags
    else isCanonicalCargoFlags true [] (filter :: flags)
  | ["test"] => true
  | _ => false

/-- `normalize_go_test_package`, which answers with its argument or refuses it. -/
def isGoTestPackage (raw : String) : Bool :=
  let text := raw.toList
  let dots := ['.', '.', '.']
  let segmentAllowed (last : Bool) (segment : Str) : Bool :=
    if segment == dots then last
    else !segment.isEmpty && segment != ['.'] && segment != ['.', '.'] &&
      !decide (dots <:+: segment) && segment.all fun c ↦ c.isAlphanum || c == '_' || c == '-' ||
        c == '.'
  !text.isEmpty && raw.utf8ByteSize ≤ goTestPackageMaxBytes &&
    text.all (fun c ↦ 0x20 < c.toNat && c.toNat < 0x7F && c != '\\') &&
    (raw == "." ||
      match text with
      | '.' :: '/' :: rest =>
        let segments := rest.splitOn '/'
        !rest.isEmpty && segments.dropLast.all (segmentAllowed false) &&
          segments.getLast?.all (segmentAllowed true)
      | _ => false)

def isCanonicalGoTestJsonArgs : List String → Bool
  | "test" :: "-json" :: packages =>
    !packages.isEmpty && packages.length ≤ goTestPackageMaxItems && packages.all isGoTestPackage
  | _ => false

def nodeScriptAllowed (kind script : String) : Bool :=
  match kind with
  | "format" => ["format:check", "format-check", "check:format"].contains script
  | "check" => ["check", "typecheck", "lint"].contains script
  | "test" => script == "test"
  | _ => false

def isStructuredGoTestJson (step : ShellJobValidationStep) : Bool :=
  step.name == "test" && step.program == "go" && step.env.isEmpty &&
    isCanonicalGoTestJsonArgs step.args

def isCanonical (step : ShellJobValidationStep) : Bool :=
  !step.args.any (fun arg ↦ hasNul arg || arg.utf8ByteSize > cargoValueMaxBytes) &&
  step.env.all (fun (key, value) ↦
    key == "CARGO_TARGET_DIR" && !value.isEmpty && !hasNul value && value.utf8ByteSize ≤ 500) &&
  match step.name, step.program with
  | "format", "cargo" => step.args == ["fmt", "--", "--check"]
  | "check", "cargo" => isCanonicalCargoCheckArgs step.args
  | "test", "cargo" => isCanonicalCargoTestArgs step.args
  | "check", "go" => step.args == ["vet", "./..."]
  | "test", "go" => step.args == ["test", "./..."] || isStructuredGoTestJson step
  | "format", "python" =>
    step.args == ["-m", "ruff", "format", "--check"] || step.args == ["-m", "black", "--check"]
  | "check", "python" => step.args == ["-m", "ruff", "check"] || step.args == ["-m", "mypy"]
  | "test", "python" =>
    step.args == ["-m", "pytest"] || step.args == ["-B", "-m", "unittest", "discover", "-v"]
  | kind, program =>
    ["npm", "pnpm", "yarn", "bun"].contains program &&
      match step.args with
      | ["run", "--silent", script] => nodeScriptAllowed kind script
      | _ => false

structure PersistentShellRequest where
  (action shellId workflowSessionId runtimeProjectId : String)
  cwd : Option String := none
  shell : Option String := none
  command : Option String := none
  timeoutSecs : Option ℕ := none
  purpose : Option String := none

def validatePersistentShell (request : PersistentShellRequest) : Except String Unit := do
  ensure (["open", "exec", "status", "close"].contains request.action)
    "unsupported persistent shell action"
  ensure (!(request.shellId.isEmpty || request.workflowSessionId.isEmpty ||
      isBlankText request.runtimeProjectId || request.command.any hasNul))
    "persistent shell payload is invalid"

/-- A serializer and its parser. The parser reads back what the serializer wrote, and the serializer
writes no NUL. -/
structure JsonCodec (A : Type) where
  encode : A → Except String String
  decode : String → Except String A
  decode_encode : ∀ {value : A} {text : String}, encode value = .ok text → decode text = .ok value
  noNul : ∀ {value : A} {text : String}, encode value = .ok text → hasNul text = false

/-- The payloads that the wire adapter passes on: their types, their validators and, for those that
travel as text, their codecs. -/
structure NestedPayloads where
  (ValidationBridgeRequest RunnerLspPayload McpGatewayRequest PluginGatewayRequest : Type)
  (CodingAgentRequest ConfiguredSkillRootsRequest SkillStoreRequest SshResourceRequest : Type)
  RunnerConfigOperationRequest : Type
  validateBridgeRequest : ValidationBridgeRequest → Except String Unit
  validateMcpGatewayRequest : McpGatewayRequest → Except String Unit
  validatePluginGatewayRequest : PluginGatewayRequest → Except String Unit
  validateCodingAgentRequest : CodingAgentRequest → Except String Unit
  validateConfiguredSkillRoots : ConfiguredSkillRootsRequest → Except String Unit
  validateSshResource : SshResourceRequest → Except String Unit
  validateRunnerConfig : RunnerConfigOperationRequest → Except String Unit
  validationSteps : JsonCodec (List ShellJobValidationStep)
  configuredSkillRoots : JsonCodec ConfiguredSkillRootsRequest
  skillStore : JsonCodec SkillStoreRequest
  sshResource : JsonCodec SshResourceRequest
  runnerConfig : JsonCodec RunnerConfigOperationRequest
  parseJson : String → Except String Unit

end WebCodex.RunnerWire
