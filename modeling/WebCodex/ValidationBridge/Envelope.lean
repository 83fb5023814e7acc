import WebCodex.ValidationBridge.BoundedMessage

/-!
A runner returns what a validation found in an envelope. Its free text is sanitized when the
envelope is built: fields of a result as they are, messages and the reason of the diagnostics as
bounded messages. What the fields hold that are not free text (`severity`, `file`, the code of an
error) is passed on.
-/

namespace WebCodex.ValidationBridge

open Foundation.Text (Str)
open Foundation.Framing (Bytes utf8Bytes)
open Foundation.Redaction

structure BridgeDiagnostic where
  severity : Str
  (code rule file : Option Str)
  (line column endLine endColumn : Option ℕ)
  message : Str

structure BridgeDiagnostics where
  available : Bool
  reason : Option Str
  diagnostics : List BridgeDiagnostic
  (diagnosticCount returnedDiagnosticCount : ℕ)
  diagnosticsTruncated : Bool
  (invalidDiagnosticsOmitted externalResultsOmitted : ℕ)
  (summaryErrorCount summaryWarningCount summaryInformationCount : Option ℕ)

structure ValidationBridgeResponse where
  protocolVersion : ℕ
  (adapterId language validationKind : Str)
  (success commandStarted : Bool)
  exitCode : Option ℤ
  durationMs : ℕ
  failureKind : Option Str
  diagnostics : Option BridgeDiagnostics
  toolAvailable : Bool
  stdoutBytes : ℕ
  (stdoutCapped stderrCapped : Bool)
  (stderrSummary message : Option Str)

structure ValidationBridgeError where
  (code message : Str)

structure ValidationBridgeResultEnvelope where
  format : Str
  success : Bool
  result : Option ValidationBridgeResponse
  error : Option ValidationBridgeError

def validationBridgeResultFormat : Str := "webcodex.validation_bridge_result.v1".toList

def sanitizeDiagnostic (diagnostic : BridgeDiagnostic) : Option BridgeDiagnostic := do
  let message ← sanitizeBridgeText diagnostic.message
  let code ← diagnostic.code.mapM sanitizeBridgeText
  let rule ← diagnostic.rule.mapM sanitizeBridgeText
  return { diagnostic with message, code, rule }

def sanitizeDiagnostics (diagnostics : BridgeDiagnostics) : Option BridgeDiagnostics := do
  let reason ← diagnostics.reason.mapM boundErrorMessage
  let items ← diagnostics.diagnostics.mapM sanitizeDiagnostic
  return { diagnostics with reason, diagnostics := items }

variable (response : ValidationBridgeResponse)

def sanitizeResponseFreeText :
    Option ValidationBridgeResponse := do
  let adapterId ← sanitizeBridgeText response.adapterId
  let language ← sanitizeBridgeText response.language
  let validationKind ← sanitizeBridgeText response.validationKind
  let failureKind ← response.failureKind.mapM sanitizeBridgeText
  let stderrSummary ← response.stderrSummary.mapM sanitizeBridgeText
  let message ← response.message.mapM boundErrorMessage
  let diagnostics ← response.diagnostics.mapM sanitizeDiagnostics
  return { response with
    adapterId, language, validationKind, failureKind, stderrSummary, message, diagnostics }

namespace ValidationBridgeResultEnvelope

def ok (result : ValidationBridgeResponse) : Option ValidationBridgeResultEnvelope := do
  let result ← sanitizeResponseFreeText result
  return ⟨validationBridgeResultFormat, true, some result, none⟩

def err (code message : Str) : Option ValidationBridgeResultEnvelope := do
  let message ← boundErrorMessage message
  return ⟨validationBridgeResultFormat, false, none, some ⟨code, message⟩⟩

end ValidationBridgeResultEnvelope

def BridgeDiagnostic.freeTexts (diagnostic : BridgeDiagnostic) : List Str :=
  diagnostic.message :: (diagnostic.code.toList ++ diagnostic.rule.toList)

def BridgeDiagnostics.freeTexts (diagnostics : BridgeDiagnostics) : List Str :=
  diagnostics.reason.toList ++ diagnostics.diagnostics.flatMap BridgeDiagnostic.freeTexts

def ValidationBridgeResponse.freeTexts : List Str :=
  response.adapterId :: response.language :: response.validationKind ::
    (response.failureKind.toList ++ response.stderrSummary.toList ++ response.message.toList ++
      response.diagnostics.toList.flatMap BridgeDiagnostics.freeTexts)

def ValidationBridgeResultEnvelope.freeTexts (envelope : ValidationBridgeResultEnvelope) :
    List Str :=
  envelope.result.toList.flatMap ValidationBridgeResponse.freeTexts ++
    envelope.error.toList.map fun error ↦ error.message

/-- The texts of a response that become bounded messages. -/
def ValidationBridgeResponse.messages : List Str :=
  response.message.toList ++ response.diagnostics.toList.flatMap fun diagnostics ↦
    diagnostics.reason.toList

/-- The sanitizer finds no path in a text and leaves it alone. -/
def Settled (text : Str) : Prop := PathFree text ∧ sanitizeBridgeText text = some text

end WebCodex.ValidationBridge
