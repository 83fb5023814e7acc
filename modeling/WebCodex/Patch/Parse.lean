import WebCodex.Patch.Syntax

/-!
`parseCodexPatch`, after `parse_codex_patch`. The source walks an index over the lines of the patch;
here a function takes the lines that are left together with the index of the first of them, which
only serves the line numbers of errors, and returns what it leaves.
-/

namespace WebCodex.Patch

open Foundation.Text
open String (utf8Len)

/-- `marker_path`: the path behind a marker, when there is one. -/
def markerPath (line marker : Str) : Option Str :=
  ((marker.isPrefixOf? (trimEnd line)).map trim).filter fun path ↦ !path.isEmpty

def isFileHeader (line : Str) : Bool :=
  (markerPath line addFileMarker).isSome || (markerPath line deleteFileMarker).isSome ||
    (markerPath line updateFileMarker).isSome

/-- A line that ends the file operation before it: the end marker or the next header. -/
def endsFileOperation (line : Str) : Bool := trimEnd line == endPatchMarker || isFileHeader line

/-- A blank line in front of the end marker or of the next header. -/
def isSeparator (line : Str) (rest : List Str) : Bool :=
  isBlank line && rest.head?.any endsFileOperation

def normalizedPatchLines (patch : Str) : Except CodexPatchError (List Str) :=
  if patch.isEmpty then
    .error ⟨.invalidPatch, none, "patch cannot be empty", none⟩
  else if utf8Len patch > maxCodexPatchBytes then
    .error ⟨.patchTooLarge, none, s!"patch exceeds {maxCodexPatchBytes} UTF-8 bytes", none⟩
  else
    let normalized := replaceCrlf patch
    if normalized.contains '\r' then
      .error ⟨.invalidPatch, none, "patch contains unsupported bare CR line endings", none⟩
    else .ok (normalized.splitOn '\n')

/-- `push_chunk`: an empty chunk without a context and without the end-of-file flag is dropped. -/
def pushChunk (chunks : List CodexPatchChunk) (chunk : CodexPatchChunk) (line : ℕ) :
    Except CodexPatchError (List CodexPatchChunk) :=
  if chunk.changeContext.isSome && chunk.oldLines.isEmpty && chunk.newLines.isEmpty then
    .error ⟨.invalidHunk, some line, "change context must be followed by at least one patch line",
      none⟩
  else if chunk.changeContext.isNone && chunk.oldLines.isEmpty && chunk.newLines.isEmpty &&
      !chunk.isEndOfFile then .ok chunks
  else if chunks.length ≥ maxCodexPatchChunksPerFile then
    .error ⟨.patchTooLarge, some line,
      s!"one update may contain at most {maxCodexPatchChunksPerFile} chunks", none⟩
  else .ok (chunks ++ [chunk])

/-- Pushes the chunk being read, if there is one. -/
def pushCurrent (chunks : List CodexPatchChunk) (current : Option CodexPatchChunk) (line : ℕ) :
    Except CodexPatchError (List CodexPatchChunk) :=
  match current with
  | some chunk => pushChunk chunks chunk line
  | none => .ok chunks

/-- Skips the blank lines in front of a marker. -/
def skipBlankLines : List Str → ℕ → List Str × ℕ
  | [], index => ([], index)
  | line :: rest, index =>
    if isBlank line then skipBlankLines rest (index + 1) else (line :: rest, index)

/-- The content lines of an added file, with the lines that follow them. -/
def parseAddLines : List Str → ℕ → List Str → Except CodexPatchError (List Str × List Str × ℕ)
  | [], index, added => .ok (added, [], index)
  | current :: rest, index, added =>
    if endsFileOperation current then .ok (added, current :: rest, index)
    else if isSeparator current rest then .ok (added, rest, index + 1)
    else
      match ['+'].isPrefixOf? current with
      | some content => parseAddLines rest (index + 1) (added ++ [content])
      | none => .error ⟨.invalidHunk, some (index + 1),
          "every Add File content line must start with '+'", none⟩

/-- An added file. Its contents end with a line feed. -/
def parseAddFile (path : Str) (rest : List Str) (index : ℕ) :
    Except CodexPatchError (CodexPatchHunk × List Str × ℕ) := do
  let (added, rest, next) ← parseAddLines rest (index + 1) []
  if added.isEmpty then
    .error ⟨.invalidHunk, some (index + 1), "Add File requires at least one '+' content line", none⟩
  else .ok (.addFile path (List.intercalate ['\n'] added ++ ['\n']), rest, next)

structure UpdateState where
  chunks : List CodexPatchChunk := []
  current : Option CodexPatchChunk := none
  sawEof : Bool := false

/-- The context of a chunk header: the text behind the marker, when it is not blank. -/
def headerContext (trimmed : Str) : Option Str :=
  (("@@ ".toList.isPrefixOf? trimmed).map trim).filter fun value ↦ !value.isEmpty

def isChunkHeader (trimmed : Str) : Bool := trimmed == "@@".toList ||
    "@@ ".toList.isPrefixOf trimmed

/-- Adds a patch line to a chunk: to the new side, to the old side, or to both. -/
def pushPatchLine (chunk : CodexPatchChunk) (line : Str) : Option CodexPatchChunk :=
  match line with
  | '+' :: content => some { chunk with newLines := chunk.newLines ++ [content] }
  | '-' :: content => some { chunk with oldLines := chunk.oldLines ++ [content] }
  | ' ' :: content => some
      { chunk with
        oldLines := chunk.oldLines ++ [content]
        newLines := chunk.newLines ++ [content] }
  | _ => none

/-- The lines of an update, with the lines that follow them. -/
def parseUpdateLines : List Str → ℕ → UpdateState → Except CodexPatchError
    (UpdateState × List Str × ℕ)
  | [], index, state => .ok (state, [], index)
  | current :: rest, index, state =>
    if endsFileOperation current then .ok (state, current :: rest, index)
    else if isSeparator current rest then .ok (state, rest, index + 1)
    else if state.sawEof then
      .error ⟨.invalidHunk, some (index + 1), "no update lines may follow '*** End of File'", none⟩
    else
      let trimmed := trimEnd current
      if isChunkHeader trimmed then
        match pushCurrent state.chunks state.current (index + 1) with
        | .error error => .error error
        | .ok chunks => parseUpdateLines rest (index + 1)
            { state with
              chunks := chunks
              current := some { changeContext := headerContext trimmed } }
      else if trimmed == endOfFileMarker then
        match state.current with
        | none => .error ⟨.invalidHunk, some (index + 1),
            "'*** End of File' requires a preceding update chunk", none⟩
        | some chunk => parseUpdateLines rest (index + 1)
            { state with current := some { chunk with isEndOfFile := true }, sawEof := true }
      else
        match pushPatchLine (state.current.getD {}) current with
        | none => .error ⟨.invalidHunk, some (index + 1),
            "update lines must start with '+', '-', or one context space", none⟩
        | some chunk => parseUpdateLines rest (index + 1) { state with current := some chunk }

/-- The destination of a move, when the line behind the header names one. -/
def parseMoveTo (rest : List Str) (index : ℕ) : Option Str × List Str × ℕ :=
  match rest with
  | [] => (none, [], index)
  | current :: after =>
    match markerPath current moveToMarker with
    | some destination => (some destination, after, index + 1)
    | none => (none, current :: after, index)

def parseUpdateFile (path : Str) (rest : List Str) (index : ℕ) :
    Except CodexPatchError (CodexPatchHunk × List Str × ℕ) := do
  let (movePath, rest, next) := parseMoveTo rest (index + 1)
  let (state, rest, next) ← parseUpdateLines rest next {}
  let chunks ← pushCurrent state.chunks state.current (next + 1)
  if movePath.isNone && chunks.isEmpty then
    .error ⟨.invalidHunk, some (index + 1),
      "Update File requires a Move to destination or at least one change chunk", none⟩
  else .ok (.updateFile path movePath chunks, rest, next)

/-- One file operation, from its header line on. -/
def parseFileOperation (line : Str) (rest : List Str) (index : ℕ) :
    Except CodexPatchError (CodexPatchHunk × List Str × ℕ) :=
  match markerPath line addFileMarker with
  | some path => parseAddFile path rest index
  | none =>
    match markerPath line deleteFileMarker with
    | some path => .ok (.deleteFile path, rest, index + 1)
    | none =>
      match markerPath line updateFileMarker with
      | some path => parseUpdateFile path rest index
      | none => .error ⟨.invalidPatch, some (index + 1),
          "expected Add File, Delete File, Update File, or End Patch marker", none⟩

/-- The loop over file operations: the operations, whether the end marker was seen, and what
follows it. -/
def parseFileOperations : ℕ → List Str → ℕ → List CodexPatchHunk →
    Except CodexPatchError (List CodexPatchHunk × Bool × List Str × ℕ)
  | 0, lines, index, hunks => .ok (hunks, false, lines, index)
  | fuel + 1, lines, index, hunks =>
    match skipBlankLines lines index with
    | ([], index) => .ok (hunks, false, [], index)
    | (line :: rest, index) =>
      if trimEnd line == endPatchMarker then .ok (hunks, true, rest, index + 1)
      else if hunks.length ≥ maxCodexPatchFileChanges then
        .error ⟨.patchTooLarge, some (index + 1),
          s!"patch may touch at most {maxCodexPatchFileChanges} files", none⟩
      else
        match parseFileOperation line rest index with
        | .error error => .error error
        | .ok (hunk, rest, index) => parseFileOperations fuel rest index (hunks ++ [hunk])

def parseCodexPatch (patch : Str) : Except CodexPatchError CodexPatch := do
  let lines ← normalizedPatchLines patch
  match skipBlankLines lines 0 with
  | ([], index) => .error ⟨.invalidPatch, some (index + 1),
      "first marker must be '*** Begin Patch'", none⟩
  | (line :: rest, index) =>
    if trim line != beginPatchMarker then
      .error ⟨.invalidPatch, some (index + 1), "first marker must be '*** Begin Patch'", none⟩
    else
      let (hunks, sawEnd, rest, index) ← parseFileOperations rest.length rest (index + 1) []
      if !sawEnd then
        .error ⟨.invalidPatch, none, "patch must end with '*** End Patch'", none⟩
      else if hunks.isEmpty then
        .error ⟨.invalidPatch, none, "patch must contain at least one file operation", none⟩
      else if rest.any fun line ↦ !isBlank line then
        .error ⟨.invalidPatch, some (index + 1), "non-whitespace content follows End Patch", none⟩
      else .ok ⟨hunks⟩

end WebCodex.Patch
