import Mathlib.Data.List.Sort
import Mathlib.Data.List.Dedup
import WebCodex.Validation.TestSummaries

/-!
The delta compares the latest validation of a session with the one before it of the same kind and
tool, when their scopes agree and both were parsed in full by one parser. Test counts are
subtracted; failures are split into new, gone and staying ones, lists that are cut to twenty each.
A test run without tests says nothing about the failures before it. The hash function of the scope
is a parameter, and the members of JSON values are fields, missing where the value has none of
that type.
-/

namespace WebCodex.Validation.Delta

open Foundation.Text

/-- What is read of an entry of `failed_test_details`. -/
structure FailedTestDetail where
  (name file : Option String)
  line : Option UInt64
deriving DecidableEq

/-- What is read of an entry of `diagnostics`. -/
structure CargoDiagnostic where
  (severity code file : Option String)
  line : Option UInt64
deriving DecidableEq

structure ValidationDiagnostics where
  available : Option Bool
  parser : Option String
  diagnostics : List CargoDiagnostic
  diagnosticsTruncated : Option Bool
  testSummary : Option CargoTestSummary
  failedTestDetails : List FailedTestDetail
  (failedTestDetailsTruncated truncated : Option Bool)
deriving DecidableEq

structure ValidationEvent where
  (identity validationKind toolName purpose cwd commandSummary : Option String)
  /-- The event has a member `success`, whatever its value. -/
  hasSuccess : Bool
  zeroTestsRun : Option Bool
  diagnostics : Option ValidationDiagnostics
deriving DecidableEq

inductive ReasonCode where
  | noPreviousValidation
  | insufficientScopeIdentity
  | validationScopeChanged
  | currentEvidenceIncomplete
  | previousEvidenceIncomplete
  | parserIdentityUnavailable
  | parserChanged
  | evidenceTruncated
  | testIdentityUnavailable
deriving DecidableEq

def comparableTypeFor (event : ValidationEvent) : Option String × Option String :=
  (event.validationKind, event.toolName)

/-- `trim_start_matches("./")`. -/
def dropDotSlashes : Str → Str
  | '.' :: '/' :: rest => dropDotSlashes rest
  | text => text

def collapseSlashes : Bool → Str → Str
  | _, [] => []
  | afterSlash, c :: rest =>
    if afterSlash = true ∧ c = '/' then collapseSlashes true rest
    else c :: collapseSlashes (c == '/') rest

def normalizeScopeCwd (cwd : Str) : Str :=
  let relative := (dropDotSlashes (trim cwd)).dropWhile (· == '/')
  (collapseSlashes false relative).rdropWhile (· == '/')

def normalizeScopeCommand (command : Str) : Str :=
  [' '].intercalate ((command.splitOnP isWhitespace).filter fun word ↦ !word.isEmpty)

/-- The text of which the scope identity is the hash. -/
def scopeText (event : ValidationEvent) : String :=
  let cwd := String.ofList (normalizeScopeCwd (event.cwd.getD "").toList)
  let command := String.ofList (normalizeScopeCommand (event.commandSummary.getD "").toList)
  "\u001f".intercalate ["validation_scope:v1", event.validationKind.getD "", event.toolName.getD "",
    event.purpose.getD "", cwd, command]

def scopeIdentityFor (digest : String → String) (event : ValidationEvent) : String :=
  "validation_scope:v1:" ++ digest (scopeText event)

/-- A field that both events must have, with the same value. -/
def compareField (current previous : Option String) : Option ReasonCode :=
  match current, previous with
  | some current, some previous =>
    if current = previous then none else some .validationScopeChanged
  | _, _ => some .insufficientScopeIdentity

variable (current previous : ValidationEvent)

/-- The first check of `compare_scopes`: kind and tool are looked at together. -/
def compareTypes : Option ReasonCode :=
  if current.validationKind.isNone ∨ previous.validationKind.isNone ∨ current.toolName.isNone ∨
      previous.toolName.isNone then
    some .insufficientScopeIdentity
  else if current.validationKind ≠ previous.validationKind ∨
      current.toolName ≠ previous.toolName then
    some .validationScopeChanged
  else none

/-- `diagnostics.available`. -/
def isParsed (event : ValidationEvent) : Bool :=
  (event.diagnostics.bind ValidationDiagnostics.available).getD false

def isTruncated (event : ValidationEvent) : Bool :=
  (event.diagnostics.bind fun d ↦ d.diagnosticsTruncated <|> d.truncated).getD false ||
    (event.diagnostics.bind ValidationDiagnostics.failedTestDetailsTruncated).getD false

def refuse (fails : Bool) (reason : ReasonCode) : Option ReasonCode :=
  if fails then some reason else none

def compareParsers : Option ReasonCode :=
  match current.diagnostics.bind ValidationDiagnostics.parser,
    previous.diagnostics.bind ValidationDiagnostics.parser with
  | some current, some previous => refuse (current != previous) .parserChanged
  | _, _ => some .parserIdentityUnavailable

/-- `compare_scopes`: why the two are not comparable, if they are not. -/
def compareScopes : Option ReasonCode := compareTypes current previous
    <|> compareField current.cwd previous.cwd
    <|> compareField current.commandSummary previous.commandSummary
    <|> compareField current.purpose previous.purpose
    <|> refuse (!current.hasSuccess) .currentEvidenceIncomplete
    <|> refuse (!previous.hasSuccess) .previousEvidenceIncomplete
    <|> refuse (!isParsed current) .currentEvidenceIncomplete
    <|> refuse (!isParsed previous) .previousEvidenceIncomplete
    <|> compareParsers current previous
    <|> refuse (isTruncated current || isTruncated previous) .evidenceTruncated

structure TestCounts where
  (passed failed ignored total : UInt64)
deriving DecidableEq

/-- A count of the parsed summary, zero where it is missing. -/
def summaryCount (count : CargoTestSummary → Option UInt64) (event : ValidationEvent) : UInt64 :=
  ((event.diagnostics.bind ValidationDiagnostics.testSummary).bind count).getD 0

/-- `test_counts`; the sum is the one of the machine. -/
def testCounts (event : ValidationEvent) : TestCounts :=
  let passed := summaryCount CargoTestSummary.passed event
  let failed := summaryCount CargoTestSummary.failed event
  let ignored := summaryCount CargoTestSummary.ignored event
  { passed := passed, failed := failed, ignored := ignored, total := passed + failed + ignored }

def deltaSigned (current previous : UInt64) : Int64 :=
  if previous ≤ current then (current - previous).toInt64 else -(previous - current).toInt64

structure ValidationDeltaCounts where
  (passedDelta failedDelta ignoredDelta totalDelta : Int64)
deriving DecidableEq

def noCounts : ValidationDeltaCounts :=
  { passedDelta := 0, failedDelta := 0, ignoredDelta := 0, totalDelta := 0 }

def deltaCounts : ValidationDeltaCounts where
  passedDelta := deltaSigned (testCounts current).passed (testCounts previous).passed
  failedDelta := deltaSigned (testCounts current).failed (testCounts previous).failed
  ignoredDelta := deltaSigned (testCounts current).ignored (testCounts previous).ignored
  totalDelta := deltaSigned (testCounts current).total (testCounts previous).total

def currentRunDidNotExecuteTests (event : ValidationEvent) : Bool :=
  if event.zeroTestsRun.getD false then true
  else
    match event.diagnostics.bind ValidationDiagnostics.testSummary with
    | none => false
    | some _ =>
      let counts := testCounts event
      counts.total == 0 && counts.failed == 0 && counts.passed == 0 && counts.ignored == 0

inductive FailureKind where
  | test
  | diagnostic
deriving DecidableEq

def FailureKind.text : FailureKind → String
  | .test => "test"
  | .diagnostic => "diagnostic"

structure FailureIdentity where
  kind : FailureKind
  name : String
  file : Option String
  line : Option UInt64
deriving DecidableEq

/-- The identity of a failed test; an unnamed one is passed over. -/
def testIdentity (detail : FailedTestDetail) : Option FailureIdentity :=
  let name := detail.name.getD ""
  if name = "" then none
  else some { kind := .test, name := name, file := detail.file, line := detail.line }

/-- The identity of an error that has a code or a place. -/
def diagnosticIdentity (diag : CargoDiagnostic) : Option FailureIdentity :=
  if diag.severity = some "error" then
    let name :=
      match diag.code, diag.file, diag.line with
      | some code, _, _ => some ("error:" ++ code)
      | none, some file, some line => some (file ++ ":" ++ toString line.toNat)
      | _, _, _ => none
    name.map fun name ↦ { kind := .diagnostic, name := name, file := diag.file, line := diag.line }
  else none

def failureIdentities (event : ValidationEvent) : List FailureIdentity :=
  match event.diagnostics with
  | none => []
  | some parsed =>
    parsed.failedTestDetails.filterMap testIdentity ++ parsed.diagnostics.filterMap
      diagnosticIdentity

/-- The order that is derived for the fields of an identity. -/
def derivedCompare (left right : FailureIdentity) : Ordering :=
  (compare left.kind.text right.kind.text).then
    ((compare left.name right.name).then
      ((compare left.file right.file).then (compare left.line right.line)))

def compareFailureIdentity (left right : FailureIdentity) : Ordering :=
  (compare left.kind.text right.kind.text).then
    ((compare left.name right.name).then
      (((compare left.file.isNone right.file.isNone).then
        (compare (left.file.getD "") (right.file.getD ""))).then
          (compare (left.line.getD (UInt64.ofNat maxU64)) (right.line.getD (UInt64.ofNat maxU64)))))

def sortBy (comparison : FailureIdentity → FailureIdentity → Ordering)
    (items : List FailureIdentity) :
    List FailureIdentity :=
  items.insertionSort fun left right ↦ (comparison left right).isLE

/-- The elements of a `BTreeSet`, each once and in order. -/
def treeSet (items : List FailureIdentity) : List FailureIdentity :=
    (sortBy derivedCompare items).dedup

def maxFailureIdentities : ℕ := 20

/-- What is new, what is gone and what stays, all of it. -/
structure FailureSets where
  (newlyFailed resolved stillFailing : List FailureIdentity)
deriving DecidableEq

def failureSets : FailureSets :=
  let currentSet := treeSet (failureIdentities current)
  let previousSet := treeSet (failureIdentities previous)
  { newlyFailed := sortBy compareFailureIdentity (currentSet.filter fun f ↦
    decide (f ∉ previousSet))
    resolved := sortBy compareFailureIdentity (previousSet.filter fun f ↦ decide (f ∉ currentSet))
    stillFailing := sortBy compareFailureIdentity (currentSet.filter fun f ↦
      decide (f ∈ previousSet)) }

structure DeltaFailures where
  (newlyFailed resolved stillFailing : List FailureIdentity)
  (totalNewlyFailed totalResolved totalStillFailing : ℕ)
  listTruncated : Bool
deriving DecidableEq

def noFailures : DeltaFailures where
  newlyFailed := []
  resolved := []
  stillFailing := []
  totalNewlyFailed := 0
  totalResolved := 0
  totalStillFailing := 0
  listTruncated := false

/-- The lists are cut, the totals are taken before. -/
def FailureSets.cut (sets : FailureSets) : DeltaFailures where
  newlyFailed := sets.newlyFailed.take maxFailureIdentities
  resolved := sets.resolved.take maxFailureIdentities
  stillFailing := sets.stillFailing.take maxFailureIdentities
  totalNewlyFailed := sets.newlyFailed.length
  totalResolved := sets.resolved.length
  totalStillFailing := sets.stillFailing.length
  listTruncated := decide (maxFailureIdentities < sets.newlyFailed.length ∨
    maxFailureIdentities < sets.resolved.length ∨ maxFailureIdentities < sets.stillFailing.length)

def isTestLike : Bool := current.validationKind == some "test" &&
    previous.validationKind == some "test"

def deltaFailures : DeltaFailures × Option ReasonCode :=
  if isTestLike current previous = false ∧
      (isParsed current = false ∨ isParsed previous = false) then
    (noFailures, some .testIdentityUnavailable)
  else if isTestLike current previous = true ∧ treeSet (failureIdentities previous) ≠ [] ∧
      currentRunDidNotExecuteTests current = true then
    (noFailures, some .testIdentityUnavailable)
  else ((failureSets current previous).cut, none)

inductive Availability where
  | available
  | unavailable
deriving DecidableEq

structure ValidationComparison where
  status : Availability
  reasonCode : Option ReasonCode
  (currentEventId previousEventId scopeIdentity : Option String)
deriving DecidableEq

structure ValidationDeltaFailures where
  identityStatus : Availability
  identityReasonCode : Option ReasonCode
  failures : DeltaFailures
deriving DecidableEq

structure ValidationDelta where
  comparison : ValidationComparison
  counts : ValidationDeltaCounts
  failures : ValidationDeltaFailures
deriving DecidableEq

def unavailableDelta (reason : ReasonCode) : ValidationDelta where
  comparison :=
    { status := .unavailable
      reasonCode := some reason
      currentEventId := none
      previousEventId := none
      scopeIdentity := none }
  counts := noCounts
  failures :=
    { identityStatus := .unavailable, identityReasonCode := some reason, failures := noFailures }

/-- The latest earlier event of the same comparable type. -/
def previousEvent (events : List ValidationEvent) (current : ValidationEvent) :
    Option ValidationEvent :=
  (events.reverse.drop 1).find? fun event ↦
    decide (comparableTypeFor event = comparableTypeFor current)

/-- The delta of two events of the same comparable type. -/
def compareEvents (digest : String → String) (current previous : ValidationEvent) :
    ValidationDelta :=
  let scope := some (scopeIdentityFor digest current)
  match compareScopes current previous with
  | some reason =>
    { comparison :=
        { status := .unavailable
          reasonCode := some reason
          currentEventId := current.identity
          previousEventId := previous.identity
          scopeIdentity := scope }
      counts := noCounts
      failures :=
        { identityStatus := .unavailable, identityReasonCode := some reason,
          failures := noFailures } }
  | none =>
    let (failures, reason) := deltaFailures current previous
    { comparison :=
        { status := .available
          reasonCode := none
          currentEventId := current.identity
          previousEventId := previous.identity
          scopeIdentity := scope }
      counts := deltaCounts current previous
      failures :=
        { identityStatus := if reason.isSome then .unavailable else .available
          identityReasonCode := reason
          failures := failures } }

def validationDelta (digest : String → String) (events : List ValidationEvent) : ValidationDelta :=
  match events.getLast? with
  | none => unavailableDelta .noPreviousValidation
  | some current =>
    match previousEvent events current with
    | none => unavailableDelta .noPreviousValidation
    | some previous => compareEvents digest current previous

end WebCodex.Validation.Delta
