import WebCodex.Foundation.Splice
import WebCodex.Patch.Matching
import WebCodex.TextEdit.LineEnding

/-!
`deriveCodexPatchUpdateWithMatchingMode`, after the function of that name in
`apply_patch_shared.rs`: the chunks of an update are placed one after another in the lines of the
original (`placeChunk`), and the replacements are spliced in from the last to the first.
-/

namespace WebCodex.Patch

open Foundation.Text Foundation.Splice TextEdit

/-- The lines of a canonical text: a final line feed does not begin another line. -/
def sourceLines (canonical : Str) : List Str :=
  let lines := canonical.splitOn '\n'
  if lines.getLast? = some [] then lines.dropLast else lines

/-- What one turn of the loop over chunks produces. -/
structure ChunkPlacement where
  replacement : Replacement Str
  chunkMatch : CodexPatchChunkMatch
  lineIndex : ℕ

def contextMismatch (lines pattern : List Str) (message : String) (lineIndex chunkIndex : ℕ)
    (source : CodexPatchMatchSource) : CodexPatchError :=
  ⟨.contextMismatch, none, message,
    some (diagnoseSequenceMiss lines pattern lineIndex chunkIndex source)⟩

/-- The search for the context of a chunk: the match, and the line below it. -/
def seekContext (lines : List Str) (path : String) (matchingMode : ApplyPatchMatchingMode)
    (chunkIndex lineIndex : ℕ) (chunk : CodexPatchChunk) :
    Except CodexPatchError (Option SequenceMatch × ℕ) :=
  match chunk.changeContext with
  | none => .ok (none, lineIndex)
  | some context =>
    match seekSequence lines [context] lineIndex false matchingMode with
    | none => .error (contextMismatch lines [context]
        s!"{path}: chunk {chunkIndex} could not find its change context"
        lineIndex chunkIndex .changeContext)
    | some matched => .ok (some matched, matched.index + 1)

/-- A chunk without old lines: below its context, or at the end. -/
def placeInsertion (lines : List Str) (matchingMode : ApplyPatchMatchingMode)
    (chunkIndex lineIndex : ℕ) (chunk : CodexPatchChunk) (contextMatch : Option SequenceMatch) :
    ChunkPlacement :=
  let insertionIndex := if chunk.changeContext.isSome then lineIndex else lines.length
  { replacement := ⟨insertionIndex, 0, chunk.newLines⟩
    chunkMatch :=
      { chunkIndex := chunkIndex
        matchMode := contextMatch.map (·.mode)
        matchSource := if chunk.changeContext.isSome then .changeContext else .append
        matchedStartLine := insertionIndex + 1
        candidateCount := contextMatch.map (·.candidateCount)
        uniqueMatch := contextMatch.all (·.isUnique)
        strictMatch := contextMatch.all (·.isExactUnique)
        matchRejection := contextMatch.bind fun matched ↦
          matchRejectionFact matched matchingMode .changeContext lines.length 1 }
    lineIndex := lineIndex }

/-- The old lines and the new lines of a chunk as they were sought, with what was found: a search
that fails is repeated without the trailing blank line. -/
def seekOldLines (lines : List Str) (matchingMode : ApplyPatchMatchingMode) (lineIndex : ℕ)
    (chunk : CodexPatchChunk) : List Str × List Str × Option SequenceMatch :=
  match seekSequence lines chunk.oldLines lineIndex chunk.isEndOfFile matchingMode with
  | some found => (chunk.oldLines, chunk.newLines, some found)
  | none =>
    if chunk.oldLines.getLast? = some [] then
      let pattern := chunk.oldLines.dropLast
      let replacement :=
        if chunk.newLines.getLast? = some [] then chunk.newLines.dropLast else chunk.newLines
      (pattern, replacement, seekSequence lines pattern lineIndex chunk.isEndOfFile matchingMode)
    else (chunk.oldLines, chunk.newLines, none)

def placeReplacement (lines : List Str) (path : String) (matchingMode : ApplyPatchMatchingMode)
    (chunkIndex lineIndex : ℕ) (chunk : CodexPatchChunk) (contextMatch : Option SequenceMatch) :
    Except CodexPatchError ChunkPlacement :=
  match seekOldLines lines matchingMode lineIndex chunk with
  | (pattern, _, none) => .error (contextMismatch lines pattern
      s!"{path}: chunk {chunkIndex} could not find its expected old lines"
      lineIndex chunkIndex .oldLines)
  | (pattern, replacement, some found) =>
    let contextRejection :=
      if matchingMode == .exactUnique then
        contextMatch.bind fun matched ↦
          matchRejectionFact matched matchingMode .changeContext lines.length 1
      else none
    let oldLinesRejection :=
      matchRejectionFact found matchingMode .oldLines lines.length pattern.length
    .ok
      { replacement := ⟨found.index, pattern.length, replacement⟩
        chunkMatch :=
          { chunkIndex := chunkIndex
            matchMode := some (match contextMatch with
              | some matched => matched.mode.max found.mode
              | none => found.mode)
            matchSource := .oldLines
            matchedStartLine := found.index + 1
            candidateCount := some found.candidateCount
            uniqueMatch := found.isUnique
            strictMatch := contextMatch.all (·.isExactUnique) && found.isExactUnique
            matchRejection := selectMatchRejection contextRejection oldLinesRejection }
        lineIndex := found.index + pattern.length }

def placeChunk (lines : List Str) (path : String) (matchingMode : ApplyPatchMatchingMode)
    (chunkIndex lineIndex : ℕ) (chunk : CodexPatchChunk) : Except CodexPatchError ChunkPlacement :=
  match seekContext lines path matchingMode chunkIndex lineIndex chunk with
  | .error error => .error error
  | .ok (contextMatch, lineIndex) =>
    if chunk.oldLines.isEmpty then
      .ok (placeInsertion lines matchingMode chunkIndex lineIndex chunk contextMatch)
    else placeReplacement lines path matchingMode chunkIndex lineIndex chunk contextMatch

def placeChunks (lines : List Str) (path : String) (matchingMode : ApplyPatchMatchingMode) :
    ℕ → ℕ → List CodexPatchChunk → Except CodexPatchError (List ChunkPlacement)
  | _, _, [] => .ok []
  | chunkIndex, lineIndex, chunk :: chunks =>
    match placeChunk lines path matchingMode chunkIndex lineIndex chunk with
    | .error error => .error error
    | .ok placement =>
      match placeChunks lines path matchingMode (chunkIndex + 1) placement.lineIndex chunks with
      | .error error => .error error
      | .ok placements => .ok (placement :: placements)

/-- The spliced lines as text: a last empty line stands for the final line feed. -/
def joinLines (lines : List Str) : Str := List.intercalate ['\n'] (lines ++ [[]])

def deriveCodexPatchUpdateWithMatchingMode (original : Str) (path : String)
    (chunks : List CodexPatchChunk) (matchingMode : ApplyPatchMatchingMode) :
    Except CodexPatchError CodexPatchUpdate :=
  match detectApplyTextLineEnding original with
  | .error message => .error ⟨.unsupportedFile, none, s!"{path}: {message}", none⟩
  | .ok lineEnding =>
    match canonicalizeApplyTextLineEndings original lineEnding with
    | .error message => .error ⟨.unsupportedFile, none, s!"{path}: {message}", none⟩
    | .ok canonical =>
      let originalLines := sourceLines canonical
      match placeChunks originalLines path matchingMode 0 0 chunks with
      | .error error => .error error
      | .ok placements =>
        let replacements := (placements.map (·.replacement)).insertionSort startLe
        .ok
          { content := restoreApplyTextLineEndings
              (joinLines (spliceReverse originalLines replacements)) lineEnding
            chunkMatches := placements.map (·.chunkMatch) }

/-- Where the search for the old lines of a chunk starts: at the given line, or below the
context. -/
def SearchOrigin (lines : List Str) (matchingMode : ApplyPatchMatchingMode) (lineIndex : ℕ)
    (chunk : CodexPatchChunk) (contextMatch : Option SequenceMatch) (origin : ℕ) : Prop :=
  (chunk.changeContext = none ∧ contextMatch = none ∧ origin = lineIndex) ∨
    ∃ context matched, chunk.changeContext = some context ∧
      seekSequence lines [context] lineIndex false matchingMode = some matched ∧
      contextMatch = some matched ∧ origin = matched.index + 1

/-- What was sought and found for a chunk with old lines. -/
def Sought (lines : List Str) (matchingMode : ApplyPatchMatchingMode) (origin : ℕ)
    (chunk : CodexPatchChunk) (pattern content : List Str) (found : SequenceMatch) : Prop :=
  seekSequence lines pattern origin chunk.isEndOfFile matchingMode = some found ∧
    ((pattern = chunk.oldLines ∧ content = chunk.newLines) ∨
      (seekSequence lines chunk.oldLines origin chunk.isEndOfFile matchingMode = none ∧
        chunk.oldLines.getLast? = some [] ∧ pattern = chunk.oldLines.dropLast ∧
        content = if chunk.newLines.getLast? = some [] then chunk.newLines.dropLast
          else chunk.newLines))

inductive Placed (lines : List Str) (matchingMode : ApplyPatchMatchingMode) (lineIndex : ℕ)
    (chunk : CodexPatchChunk) (placement : ChunkPlacement) : Prop
  | append (hold : chunk.oldLines = []) (hcontext : chunk.changeContext = none)
      (hreplacement : placement.replacement = ⟨lines.length, 0, chunk.newLines⟩)
      (hnext : placement.lineIndex = lineIndex)
  | insertion (origin : ℕ) (matched : SequenceMatch) (hold : chunk.oldLines = [])
      (horigin : SearchOrigin lines matchingMode lineIndex chunk (some matched) origin)
      (hreplacement : placement.replacement = ⟨origin, 0, chunk.newLines⟩)
      (hnext : placement.lineIndex = origin)
  | replacement (origin : ℕ) (contextMatch : Option SequenceMatch) (pattern content : List Str)
      (found : SequenceMatch) (hold : chunk.oldLines ≠ [])
      (horigin : SearchOrigin lines matchingMode lineIndex chunk contextMatch origin)
      (hsought : Sought lines matchingMode origin chunk pattern content found)
      (hreplacement : placement.replacement = ⟨found.index, pattern.length, content⟩)
      (hrejection : placement.chunkMatch.matchRejection = none →
        matchRejectionFact found matchingMode .oldLines lines.length pattern.length = none)
      (hnext : placement.lineIndex = found.index + pattern.length)

variable {lines : List Str} {matchingMode : ApplyPatchMatchingMode} {chunk : CodexPatchChunk}

theorem seekContext_eq_ok {path : String} {chunkIndex lineIndex : ℕ}
    {contextMatch : Option SequenceMatch}
    {origin : ℕ}
    (hseek : seekContext lines path matchingMode chunkIndex lineIndex chunk =
      .ok (contextMatch, origin)) :
    SearchOrigin lines matchingMode lineIndex chunk contextMatch origin := by
  unfold seekContext at hseek
  cases hcontext : chunk.changeContext with
  | none =>
    simp only [hcontext, Except.ok.injEq, Prod.mk.injEq] at hseek
    exact Or.inl ⟨hcontext, hseek.1.symm, hseek.2.symm⟩
  | some context =>
    simp only [hcontext] at hseek
    cases hmatched : seekSequence lines [context] lineIndex false matchingMode with
    | none => simp [hmatched] at hseek
    | some matched =>
      simp only [hmatched, Except.ok.injEq, Prod.mk.injEq] at hseek
      exact Or.inr ⟨context, matched, hcontext, hmatched, hseek.1.symm, hseek.2.symm⟩

theorem seekOldLines_sought {origin : ℕ} {pattern content : List Str} {found : SequenceMatch}
    (hseek : seekOldLines lines matchingMode origin chunk = (pattern, content, some found)) :
    Sought lines matchingMode origin chunk pattern content found := by
  unfold seekOldLines at hseek
  cases hfirst : seekSequence lines chunk.oldLines origin chunk.isEndOfFile matchingMode with
  | some =>
    simp only [hfirst, Prod.mk.injEq] at hseek
    obtain ⟨rfl, rfl, hfound⟩ := hseek
    exact ⟨hfirst.trans hfound, Or.inl ⟨rfl, rfl⟩⟩
  | none =>
    simp only [hfirst] at hseek
    by_cases hblank : chunk.oldLines.getLast? = some []
    · simp only [hblank, if_true, Prod.mk.injEq] at hseek
      obtain ⟨rfl, hcontent, hfound⟩ := hseek
      exact ⟨hfound, Or.inr ⟨hfirst, hblank, rfl, hcontent.symm⟩⟩
    · simp [hblank] at hseek

/-- A selection is empty only when both of its rejections are. -/
theorem selectMatchRejection_eq_none {first second : Option CodexPatchMatchRejection}
    (hselect : selectMatchRejection first second = none) : first = none ∧ second = none := by
  cases first <;> cases second <;> simp_all [selectMatchRejection]

/-- Every chunk is placed in one of the three ways. -/
theorem placeChunk_placed {path : String} {chunkIndex lineIndex : ℕ} {placement : ChunkPlacement}
    (hplace : placeChunk lines path matchingMode chunkIndex lineIndex chunk = .ok placement) :
    Placed lines matchingMode lineIndex chunk placement := by
  unfold placeChunk at hplace
  cases hcontext : seekContext lines path matchingMode chunkIndex lineIndex chunk with
  | error => simp [hcontext] at hplace
  | ok result =>
    obtain ⟨contextMatch, origin⟩ := result
    have horigin := seekContext_eq_ok hcontext
    simp only [hcontext, List.isEmpty_iff] at hplace
    split_ifs at hplace with hold
    · obtain rfl := Except.ok.inj hplace
      rcases id horigin with ⟨hnone, rfl, rfl⟩ | ⟨_, matched, hsome, -, rfl, rfl⟩
      · exact .append hold hnone (by simp [placeInsertion, hnone]) rfl
      · exact .insertion _ matched hold horigin (by simp [placeInsertion, hsome]) rfl
    · unfold placeReplacement at hplace
      rcases hsought : seekOldLines lines matchingMode origin chunk with
        ⟨pattern, content, _ | found⟩
      · simp [hsought] at hplace
      · simp only [hsought, Except.ok.injEq] at hplace
        refine .replacement origin contextMatch pattern content found hold horigin
          (seekOldLines_sought hsought) (by rw [← hplace]) (fun hnone ↦ ?_) (by rw [← hplace])
        rw [← hplace] at hnone
        exact (selectMatchRejection_eq_none hnone).2

end WebCodex.Patch
