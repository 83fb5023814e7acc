import WebCodex.Foundation.Layout

/-!
The data types of the model-facing patch tool: a patch is a list of file operations, an update is a
list of chunks, and a chunk replaces its old lines by its new lines at a place that its context and
the old lines determine. The types of the matching report, and the errors with their kind, patch
line and text, follow `apply_patch_shared.rs`.
-/

namespace WebCodex.Patch

open Foundation.Text

def maxCodexPatchBytes : ℕ := 256 * 1024
def maxCodexPatchFileChanges : ℕ := 64
def maxCodexPatchChunksPerFile : ℕ := 256
def maxCodexPatchCandidatePositions : ℕ := 4

def beginPatchMarker : Str := "*** Begin Patch".toList
def endPatchMarker : Str := "*** End Patch".toList
def addFileMarker : Str := "*** Add File:".toList
def deleteFileMarker : Str := "*** Delete File:".toList
def updateFileMarker : Str := "*** Update File:".toList
def moveToMarker : Str := "*** Move to:".toList
def endOfFileMarker : Str := "*** End of File".toList

structure CodexPatchChunk where
  changeContext : Option Str := none
  oldLines : List Str := []
  newLines : List Str := []
  isEndOfFile : Bool := false
  deriving DecidableEq

inductive CodexPatchHunk
  | addFile (path contents : Str)
  | deleteFile (path : Str)
  | updateFile (path : Str) (movePath : Option Str) (chunks : List CodexPatchChunk)
  deriving DecidableEq

structure CodexPatch where
  hunks : List CodexPatchHunk
  deriving DecidableEq

/-- `CodexPatchMatchMode`, from the tightest tier to the loosest. -/
inductive CodexPatchMatchMode
  | exact | trimEnd | trim | normalized
  deriving DecidableEq

/-- The position of a tier; the derived order of the source's enumeration. -/
def CodexPatchMatchMode.rank : CodexPatchMatchMode → ℕ
  | .exact => 0
  | .trimEnd => 1
  | .trim => 2
  | .normalized => 3

def CodexPatchMatchMode.max (first second : CodexPatchMatchMode) : CodexPatchMatchMode :=
  if second.rank < first.rank then first else second

inductive ApplyPatchMatchingMode
  | firstMatch | unique | exactUnique
  deriving DecidableEq

inductive CodexPatchMatchSource
  | oldLines | changeContext | append
  deriving DecidableEq

structure CodexPatchMatchRejection where
  requestedMatchingMode : ApplyPatchMatchingMode
  matchMode : CodexPatchMatchMode
  matchSource : CodexPatchMatchSource
  (matchedStartLine candidateCount : ℕ)
  candidateStartLines : List ℕ
  candidatePositionsTruncated : Bool
  (searchStartLine sourceLineCount : ℕ)
  deriving DecidableEq

structure CodexPatchChunkMatch where
  chunkIndex : ℕ
  matchMode : Option CodexPatchMatchMode
  matchSource : CodexPatchMatchSource
  matchedStartLine : ℕ
  candidateCount : Option ℕ
  (uniqueMatch strictMatch : Bool)
  matchRejection : Option CodexPatchMatchRejection

/-- `CodexPatchMatchDiagnostic`: where a failed search came closest, without any text. -/
structure CodexPatchMatchDiagnostic where
  chunkIndex : ℕ
  matchSource : CodexPatchMatchSource
  (searchStartLine expectedLineCount availableLineCount : ℕ)
  closestStartLine : Option ℕ
  (closestExactLineMatches closestTrimEndLineMatches closestTrimLineMatches : ℕ)
  firstExactMismatchOffset : Option ℕ
  deriving DecidableEq

structure CodexPatchUpdate where
  content : Str
  chunkMatches : List CodexPatchChunkMatch

/-- The kinds of errors the patch functions report. -/
inductive CodexPatchErrorKind
  | invalidPatch | patchTooLarge | invalidHunk | unsupportedFile | contextMismatch
  deriving DecidableEq

structure CodexPatchError where
  kind : CodexPatchErrorKind
  line : Option ℕ
  message : String
  matchDiagnostic : Option CodexPatchMatchDiagnostic := none
  deriving DecidableEq

end WebCodex.Patch
