import WebCodex.Patch.Rendering

/-!
The parser gives back the value of every well-formed rendering (`parseCodexPatch_text`) under
three conditions: the text respects the byte limit, only the last chunk of an update carries the
end-of-file flag, and the last line of an update is not a blank context line, which the parser
takes for a separator.
-/

namespace WebCodex.Patch

open Foundation.Text
open String (utf8Len)

/-! ### Lines and markers -/

variable {line marker path : Str}

/-- A text that starts the trimmed line starts the line. -/
theorem head_of_trimEnd_eq_cons {c : Char} (rest : Str) (htrim : trimEnd line = c :: rest) :
    line.head? = some c := by
  obtain ⟨after, hafter⟩ : trimEnd line <+: line := List.rdropWhile_prefix _ line
  rw [← hafter, htrim]
  rfl

theorem markerPath_eq_none_of_head {c : Char} (hmarker : marker.head? = some c)
    (hline : line.head? ≠ some c) :
    markerPath line marker = none := by
  have hnone : marker.isPrefixOf? (trimEnd line) = none := by
    cases hprefixed : marker.isPrefixOf? (trimEnd line) with
    | none => rfl
    | some =>
      have happend := List.append_eq_of_isPrefixOf?_eq_some hprefixed
      obtain ⟨tail, rfl⟩ : ∃ tail, marker = c :: tail := by
        cases marker with
        | nil => simp at hmarker
        | cons _ tail => exact ⟨tail, by simpa using hmarker⟩
      exact absurd (head_of_trimEnd_eq_cons _ happend.symm) hline
  simp [markerPath, hnone]

/-- A line that does not start with an asterisk is no marker. -/
theorem endsFileOperation_of_head (hline : line.head? ≠ some '*') :
    endsFileOperation line = false := by
  have hend : trimEnd line ≠ endPatchMarker := fun hsame ↦
    hline (head_of_trimEnd_eq_cons "** End Patch".toList (by rw [hsame]; decide))
  have hadd : markerPath line addFileMarker = none := markerPath_eq_none_of_head (by decide) hline
  have hdelete : markerPath line deleteFileMarker = none :=
    markerPath_eq_none_of_head (by decide) hline
  have hupdate : markerPath line updateFileMarker = none :=
    markerPath_eq_none_of_head (by decide) hline
  simp [endsFileOperation, isFileHeader, hend, hadd, hdelete, hupdate]

theorem trimEnd_markerLine (hpath : Label path) (marker : Str) :
    trimEnd (markerLine marker path) = markerLine marker path := by
  rw [markerLine, ← List.singleton_append, ← List.append_assoc]
  exact trimEnd_append_of_trimmed hpath.trimmed hpath.nonempty _

/-- The path of a marker line. -/
theorem markerPath_markerLine (hpath : Label path) (marker : Str) :
    markerPath (markerLine marker path) marker = some path := by
  have hsplit : marker.isPrefixOf? (markerLine marker path) = some (' ' :: path) := by
    rw [List.isPrefixOf?_eq_some_iff_append_eq, markerLine]
  simp [markerPath, trimEnd_markerLine hpath, hsplit,
    trim_cons_of_whitespace (by decide : isWhitespace ' ' = true) hpath.nonempty hpath.trimmed,
    hpath.nonempty]

theorem markerPath_eq_none (hpath : Label path) {other : Str}
    (hother : other.isPrefixOf? (markerLine marker path) = none) :
    markerPath (markerLine marker path) other = none := by
  simp [markerPath, trimEnd_markerLine hpath, hother]

/-- A header line is not the end marker. -/
theorem trimEnd_markerLine_ne_endPatchMarker (hpath : Label path)
    (hmarker : endPatchMarker.isPrefixOf? (markerLine marker path) = none) :
    trimEnd (markerLine marker path) ≠ endPatchMarker := by
  rw [trimEnd_markerLine hpath]
  intro hsame
  have hself : endPatchMarker.isPrefixOf? (markerLine marker path) = some [] := by
    rw [hsame, List.isPrefixOf?_eq_some_iff_append_eq, List.append_nil]
  simp [hself] at hmarker

/-- The first of some lines ends the file operation before them. -/
def StartsNext (rest : List Str) : Prop := rest.head?.any endsFileOperation = true

theorem isSeparator_eq_false_of_not_blank (hline : isBlank line = false) (rest : List Str) :
    isSeparator line rest = false := by
  simp [isSeparator, hline]

variable {rest : List Str}

theorem isSeparator_eq_false_of_not_startsNext (hrest : rest.head?.any endsFileOperation = false) :
    isSeparator line rest = false := by
  simp [isSeparator, hrest]

/-! ### Reading a chunk -/

def CodexPatchChunk.push (chunk : CodexPatchChunk) : BodyLine → CodexPatchChunk
  | .removed content => { chunk with oldLines := chunk.oldLines ++ [content] }
  | .added content => { chunk with newLines := chunk.newLines ++ [content] }
  | .context content =>
    { chunk with
      oldLines := chunk.oldLines ++ [content]
      newLines := chunk.newLines ++ [content] }

theorem pushPatchLine_render (chunk : CodexPatchChunk) (line : BodyLine) :
    pushPatchLine chunk line.render = some (chunk.push line) := by
  cases line <;> rfl

theorem BodyLine.head_render (line : BodyLine) :
    line.render.head? = some '-' ∨ line.render.head? = some '+' ∨ line.render.head? = some ' ' := by
  cases line <;> simp [BodyLine.render]

theorem BodyLine.endsFileOperation_render (line : BodyLine) :
    endsFileOperation line.render = false := by
  refine endsFileOperation_of_head ?_
  rcases line.head_render with hhead | hhead | hhead <;> rw [hhead] <;> decide

theorem BodyLine.isChunkHeader_render (line : BodyLine) :
    isChunkHeader (trimEnd line.render) = false := by
  have hhead : line.render.head? ≠ some '@' := by
    rcases line.head_render with hhead | hhead | hhead <;> rw [hhead] <;> decide
  rw [← Bool.not_eq_true]
  intro hheader
  simp only [isChunkHeader, Bool.or_eq_true, beq_iff_eq, List.isPrefixOf_iff_prefix] at hheader
  rcases hheader with hsame | ⟨rest, hrest⟩
  · exact hhead (head_of_trimEnd_eq_cons ['@'] (hsame.trans (by decide)))
  · exact hhead (head_of_trimEnd_eq_cons ("@ ".toList ++ rest) (by rw [← hrest]; rfl))

theorem BodyLine.trimEnd_render_ne_endOfFileMarker (line : BodyLine) :
    trimEnd line.render ≠ endOfFileMarker := by
  intro hsame
  have hhead : line.render.head? = some '*' :=
    head_of_trimEnd_eq_cons "** End of File".toList (hsame.trans (by decide))
  rcases line.head_render with hother | hother | hother <;> rw [hother] at hhead <;>
    revert hhead <;> decide

/-- Only a blank context line reads as a blank line. -/
theorem BodyLine.isBlank_render {line : BodyLine} (hblank : isBlank line.render = true) :
    ∃ content, line = .context content ∧ isBlank content = true := by
  cases line with
  | removed =>
    simp [BodyLine.render, isBlank_cons_of_not_whitespace (by decide : isWhitespace '-' = false)]
      at hblank
  | added =>
    simp [BodyLine.render, isBlank_cons_of_not_whitespace (by decide : isWhitespace '+' = false)]
      at hblank
  | context content =>
    refine ⟨content, rfl, isBlank_iff.mpr fun c hc ↦ isBlank_iff.mp hblank c ?_⟩
    simp [BodyLine.render, hc]

/-- The loop reads a body line that is not taken for a separator. -/
theorem parseUpdateLines_render_cons {line : BodyLine} {index : ℕ} {state : UpdateState}
    (hseparator : isSeparator line.render rest = false) (hsawEof : state.sawEof = false) :
    parseUpdateLines (line.render :: rest) index state = parseUpdateLines rest (index + 1)
        { state with current := some ((state.current.getD {}).push line) } := by
  simp [parseUpdateLines, line.endsFileOperation_render, hseparator, hsawEof,
    line.isChunkHeader_render, pushPatchLine_render, line.trimEnd_render_ne_endOfFileMarker]

def CodexPatchChunk.pushAll (chunk : CodexPatchChunk) (body : List BodyLine) : CodexPatchChunk :=
  body.foldl CodexPatchChunk.push chunk

theorem CodexPatchChunk.pushAll_eq (chunk : CodexPatchChunk) (body : List BodyLine) :
    chunk.pushAll body =
      { chunk with
        oldLines := chunk.oldLines ++ oldSide body
        newLines := chunk.newLines ++ newSide body } := by
  induction body generalizing chunk with
  | nil => simp [CodexPatchChunk.pushAll, oldSide, newSide]
  | cons line _ ih =>
    rw [CodexPatchChunk.pushAll, List.foldl_cons, ← CodexPatchChunk.pushAll, ih]
    cases line <;> simp [CodexPatchChunk.push, oldSide, newSide]

/-- The loop reads a body. Assumes: the last line is not a blank context line in front of a line
that ends the operation. -/
theorem parseUpdateLines_body {body : List BodyLine}
    (hend : ∀ content, body.getLast? = some (.context content) → isBlank content = true →
      rest.head?.any endsFileOperation = false)
    (hnonempty : body ≠ []) (index : ℕ) (state : UpdateState) (hsawEof : state.sawEof = false) :
    parseUpdateLines (body.map BodyLine.render ++ rest) index state =
      parseUpdateLines rest (index + body.length)
        { state with current := some ((state.current.getD {}).pushAll body) } := by
  induction body generalizing index state with
  | nil => exact absurd rfl hnonempty
  | cons line body ih =>
    rcases eq_or_ne body [] with rfl | hbody
    · have hseparator : isSeparator line.render rest = false := by
        cases hblank : isBlank line.render with
        | false => exact isSeparator_eq_false_of_not_blank hblank rest
        | true =>
          obtain ⟨content, rfl, hcontent⟩ := BodyLine.isBlank_render hblank
          exact isSeparator_eq_false_of_not_startsNext (hend content rfl hcontent)
      simpa [CodexPatchChunk.pushAll] using parseUpdateLines_render_cons hseparator hsawEof
    · obtain ⟨next, tail, rfl⟩ := List.exists_cons_of_ne_nil hbody
      have hseparator : isSeparator line.render ((next :: tail).map BodyLine.render ++ rest) =
          false :=
        isSeparator_eq_false_of_not_startsNext (by simp [next.endsFileOperation_render])
      rw [List.map_cons, List.cons_append, parseUpdateLines_render_cons hseparator hsawEof,
        ih (by simpa [List.getLast?_cons_cons] using hend) hbody (index + 1)
          { state with current := some ((state.current.getD {}).push line) } hsawEof]
      simp [CodexPatchChunk.pushAll, Nat.add_assoc, Nat.add_comm]

theorem endsFileOperation_endOfFileMarker : endsFileOperation endOfFileMarker = false := by
  decide

theorem parseUpdateLines_endOfFileMarker (rest : List Str) (index : ℕ)
    (chunks : List CodexPatchChunk) (chunk : CodexPatchChunk) :
    parseUpdateLines (endOfFileMarker :: rest) index ⟨chunks, some chunk, false⟩ =
      parseUpdateLines rest (index + 1) ⟨chunks, some { chunk with isEndOfFile := true },
        true⟩ := by
  have hseparator : isSeparator endOfFileMarker rest = false :=
    isSeparator_eq_false_of_not_blank (by decide) rest
  have hheader : isChunkHeader (trimEnd endOfFileMarker) = false := by decide
  have htrim : (trimEnd endOfFileMarker == endOfFileMarker) = true := by decide
  simp [parseUpdateLines, endsFileOperation_endOfFileMarker, hseparator, hheader, htrim]

variable {chunk : ChunkRendering}

/-- The loop reads what stands below a chunk header. Assumes: a well-formed chunk that does not end
with a blank context line in front of a line that ends the operation. -/
theorem parseUpdateLines_bodyLines (hchunk : chunk.WellFormed)
    (hend : chunk.NoBlankEnd ∨ rest.head?.any endsFileOperation = false) (index : ℕ)
    (chunks : List CodexPatchChunk) (current : Option CodexPatchChunk)
    (hcurrent : current.getD {} = { changeContext := chunk.changeContext }) :
    ∃ next, parseUpdateLines (chunk.bodyLines ++ rest) index ⟨chunks, current, false⟩ =
      parseUpdateLines rest next ⟨chunks, some chunk.value, chunk.isEndOfFile⟩ := by
  have hvalue : (current.getD {}).pushAll chunk.body =
      ⟨chunk.changeContext, oldSide chunk.body, newSide chunk.body, false⟩ := by
    rw [CodexPatchChunk.pushAll_eq, hcurrent]
    simp
  cases heof : chunk.isEndOfFile with
  | true =>
    refine ⟨index + chunk.body.length + 1, ?_⟩
    rw [ChunkRendering.bodyLines, heof, if_pos rfl, List.append_assoc, List.singleton_append,
      parseUpdateLines_body (fun _ _ _ ↦ by simp [endsFileOperation_endOfFileMarker])
        hchunk.body_nonempty index _ rfl, hvalue, parseUpdateLines_endOfFileMarker]
    simp [ChunkRendering.value, heof]
  | false =>
    refine ⟨index + chunk.body.length, ?_⟩
    rw [ChunkRendering.bodyLines, heof, if_neg (by simp), List.append_nil,
      parseUpdateLines_body ?_ hchunk.body_nonempty index _ rfl, hvalue]
    · simp [ChunkRendering.value, heof]
    · intro content hlast hblank
      rcases hend with (hflag | hno) | hrest
      · simp [heof] at hflag
      · simp [hno content hlast] at hblank
      · exact hrest

/-! ### Reading the chunks of an update -/

theorem ChunkRendering.head_header (chunk : ChunkRendering) : chunk.header.head? = some '@' := by
  unfold ChunkRendering.header
  cases chunk.changeContext with
  | none => decide
  | some => rfl

theorem ChunkRendering.endsFileOperation_header (chunk : ChunkRendering) :
    endsFileOperation chunk.header = false :=
  endsFileOperation_of_head (by rw [chunk.head_header]; decide)

theorem ChunkRendering.isBlank_header (chunk : ChunkRendering) : isBlank chunk.header = false := by
  obtain ⟨tail, htail⟩ : ∃ tail, chunk.header = '@' :: tail := by
    have hhead := chunk.head_header
    cases hheader : chunk.header with
    | nil => simp [hheader] at hhead
    | cons _ tail => exact ⟨tail, by simpa [hheader] using hhead⟩
  rw [htail]
  exact isBlank_cons_of_not_whitespace (by decide) tail

/-- A header line starts a chunk with the context it names. -/
theorem ChunkRendering.header_spec (hchunk : chunk.WellFormed) :
    isChunkHeader (trimEnd chunk.header) = true ∧
      headerContext (trimEnd chunk.header) = chunk.changeContext := by
  unfold ChunkRendering.header
  cases hcontext : chunk.changeContext with
  | none => decide
  | some context =>
    have hlabel := hchunk.context context hcontext
    have htrim : trimEnd ("@@ ".toList ++ context) = "@@ ".toList ++ context :=
      trimEnd_append_of_trimmed hlabel.trimmed hlabel.nonempty _
    have hsplit : "@@ ".toList.isPrefixOf? ("@@ ".toList ++ context) = some context := by
      rw [List.isPrefixOf?_eq_some_iff_append_eq]
    simp only [htrim, isChunkHeader, headerContext, hsplit, Option.map_some, hlabel.trimmed]
    refine ⟨?_, by simp [hlabel.nonempty]⟩
    rw [Bool.or_eq_true]
    exact Or.inr (List.isPrefixOf_iff_prefix.mpr (List.prefix_append _ _))

theorem pushChunk_value (hchunk : chunk.WellFormed) {chunks : List CodexPatchChunk}
    (hlength : chunks.length < maxCodexPatchChunksPerFile) (line : ℕ) :
    pushChunk chunks chunk.value line = .ok (chunks ++ [chunk.value]) := by
  have hlines : (oldSide chunk.body).isEmpty = false ∨ (newSide chunk.body).isEmpty = false := by
    obtain ⟨first, _, hbody⟩ := List.exists_cons_of_ne_nil hchunk.body_nonempty
    rw [hbody]
    cases first <;> simp [oldSide, newSide]
  have hfull : ¬ chunks.length ≥ maxCodexPatchChunksPerFile := by omega
  rcases hlines with hold | hnew
  · simp [pushChunk, ChunkRendering.value, hold, hfull]
  · simp [pushChunk, ChunkRendering.value, hnew, hfull]

/-- The loop reads the chunks that follow a chunk already read, up to a line that ends the
operation: all but the last are pushed, and the last is the current one. Assumes: well-formed chunks
within the limit, of which only the last carries the end-of-file flag, the last not ending with a
blank context line. -/
theorem parseUpdateLines_chunkLines (hrest : StartsNext rest) (chunks : List ChunkRendering) :
    ∀ (pending : ChunkRendering) (pushed : List CodexPatchChunk) (index : ℕ),
      (∀ chunk ∈ pending :: chunks, chunk.WellFormed) →
      (∀ chunk ∈ (pending :: chunks).dropLast, chunk.isEndOfFile = false) →
      (∀ chunk ∈ chunks.getLast?, chunk.NoBlankEnd) →
      pushed.length + chunks.length < maxCodexPatchChunksPerFile →
      ∃ state next, parseUpdateLines (chunkLines chunks ++ rest) index
            ⟨pushed, some pending.value, pending.isEndOfFile⟩ = .ok (state, rest, next) ∧
          ∀ line, pushCurrent state.chunks state.current line =
            .ok (pushed ++ (pending :: chunks).map (·.value)) := by
  induction chunks with
  | nil =>
    intro pending pushed index hwell _ _ hlength
    obtain ⟨first, tail, rfl⟩ : ∃ first tail, rest = first :: tail := by
      cases rest with
      | nil => simp [StartsNext] at hrest
      | cons first tail => exact ⟨first, tail, rfl⟩
    refine ⟨⟨pushed, some pending.value, pending.isEndOfFile⟩, index, ?_, fun line ↦ ?_⟩
    · simp [chunkLines, parseUpdateLines, show endsFileOperation first = true from hrest]
    · exact pushChunk_value (hwell pending (by simp)) hlength line
  | cons chunk chunks ih =>
    intro pending pushed index hwell heof hend hlength
    have hchunk : chunk.WellFormed := hwell chunk (by simp)
    have hpending : pending.isEndOfFile = false := heof pending (by simp)
    simp only [List.length_cons] at hlength
    -- The header pushes the pending chunk and opens the next one.
    have hheader : parseUpdateLines (chunkLines (chunk :: chunks) ++ rest) index
          ⟨pushed, some pending.value, pending.isEndOfFile⟩ =
        parseUpdateLines (chunk.bodyLines ++ (chunkLines chunks ++ rest)) (index + 1)
          ⟨pushed ++ [pending.value], some { changeContext := chunk.changeContext }, false⟩ := by
      simp [chunkLines, parseUpdateLines, chunk.endsFileOperation_header,
        isSeparator_eq_false_of_not_blank chunk.isBlank_header, hpending,
        (chunk.header_spec hchunk).1, (chunk.header_spec hchunk).2, pushCurrent, pushChunk_value
          (hwell pending (by simp)) (by omega : pushed.length < _)]
    have hbody : chunk.NoBlankEnd ∨
        (chunkLines chunks ++ rest).head?.any endsFileOperation = false := by
      cases chunks with
      | nil => exact Or.inl (hend chunk (by simp))
      | cons later =>
        exact Or.inr (by simp [chunkLines, later.endsFileOperation_header])
    obtain ⟨next, hnext⟩ := parseUpdateLines_bodyLines hchunk hbody (index + 1)
      (pushed ++ [pending.value]) (some { changeContext := chunk.changeContext }) rfl
    obtain ⟨state, final, hparse, hpush⟩ := ih chunk (pushed ++ [pending.value]) next
      (fun other hother ↦ hwell other (by simp [List.mem_cons.mp hother]))
      (fun other hother ↦ heof other (by
        exact List.mem_cons_of_mem _ hother))
      (fun other hother ↦ hend other (by
        cases chunks with
        | nil => simp at hother
        | cons => rwa [List.getLast?_cons_cons]))
      (by simp only [List.length_append, List.length_singleton]; omega)
    refine ⟨state, final, ?_, fun line ↦ ?_⟩
    · rw [hheader, hnext]
      exact hparse
    · rw [hpush line]
      simp

/-! ### Reading a file operation -/

def HunkRendering.header : HunkRendering → Str
  | .addFile path _ => markerLine addFileMarker path
  | .deleteFile path => markerLine deleteFileMarker path
  | .updateFile path _ _ _ => markerLine updateFileMarker path

/-- The lines of a file operation below its header. -/
def HunkRendering.below : HunkRendering → List Str
  | .addFile _ contentLines => contentLines.map ('+' :: ·)
  | .deleteFile _ => []
  | .updateFile _ movePath omitFirstHeader chunks =>
    (movePath.map (markerLine moveToMarker)).toList ++
      if omitFirstHeader then (chunkLines chunks).tail else chunkLines chunks

theorem HunkRendering.lines_eq (hunk : HunkRendering) : hunk.lines = hunk.header :: hunk.below := by
  cases hunk <;> rfl

/-- A header line is not blank, is not the end marker, and ends the operation before it. -/
theorem HunkRendering.header_spec {hunk : HunkRendering} (hhunk : hunk.WellFormed) :
    isBlank hunk.header = false ∧ trimEnd hunk.header ≠ endPatchMarker ∧
      endsFileOperation hunk.header = true := by
  cases hunk with
  | addFile | updateFile =>
    refine ⟨isBlank_cons_of_not_whitespace (by decide) _,
      trimEnd_markerLine_ne_endPatchMarker hhunk.1 rfl, ?_⟩
    simp [HunkRendering.header, endsFileOperation, isFileHeader, markerPath_markerLine hhunk.1]
  | deleteFile =>
    refine ⟨isBlank_cons_of_not_whitespace (by decide) _,
      trimEnd_markerLine_ne_endPatchMarker hhunk rfl, ?_⟩
    simp [HunkRendering.header, endsFileOperation, isFileHeader, markerPath_markerLine hhunk]

/-- The loop over content lines reads them all. -/
theorem parseAddLines_contentLines (hrest : StartsNext rest) (contentLines : List Str) (index : ℕ)
    (added : List Str) :
    ∃ next, parseAddLines (contentLines.map ('+' :: ·) ++ rest) index added =
      .ok (added ++ contentLines, rest, next) := by
  induction contentLines generalizing index added with
  | nil =>
    cases rest with
    | nil => simp [StartsNext] at hrest
    | cons first =>
      refine ⟨index, ?_⟩
      simp [parseAddLines, show endsFileOperation first = true from hrest]
  | cons line _ ih =>
    obtain ⟨next, hnext⟩ := ih (index + 1) (added ++ [line])
    refine ⟨next, ?_⟩
    have hheader : endsFileOperation ('+' :: line) = false := endsFileOperation_of_head (by simp)
    have hblank : isBlank ('+' :: line) = false := isBlank_cons_of_not_whitespace (by decide) line
    rw [List.append_assoc, List.singleton_append] at hnext
    simp only [List.map_cons, List.cons_append, parseAddLines, hheader,
      isSeparator_eq_false_of_not_blank hblank, Bool.false_eq_true, if_false]
    exact hnext

/-- The chunks of an update, with or without the first header line. -/
theorem parseUpdateLines_update (hrest : StartsNext rest) {chunks : List ChunkRendering}
    (hwell : ∀ chunk ∈ chunks, chunk.WellFormed)
    (hlength : chunks.length ≤ maxCodexPatchChunksPerFile)
    {omitFirstHeader : Bool}
    (homit : omitFirstHeader → ∀ chunk ∈ chunks.head?, chunk.changeContext = none)
    (heof : ∀ chunk ∈ chunks.dropLast, chunk.isEndOfFile = false)
    (hend : ∀ chunk ∈ chunks.getLast?, chunk.NoBlankEnd) (index : ℕ) :
    ∃ state next, parseUpdateLines
          ((if omitFirstHeader then (chunkLines chunks).tail else chunkLines chunks) ++ rest)
          index {} = .ok (state, rest, next) ∧
        ∀ line, pushCurrent state.chunks state.current line = .ok (chunks.map (·.value)) := by
  cases chunks with
  | nil =>
    cases rest with
    | nil => simp [StartsNext] at hrest
    | cons first =>
      refine ⟨{}, index, ?_, fun line ↦ rfl⟩
      simp [chunkLines, parseUpdateLines, show endsFileOperation first = true from hrest]
  | cons chunk chunks =>
    have hchunk : chunk.WellFormed := hwell chunk (by simp)
    have hbody : chunk.NoBlankEnd ∨
        (chunkLines chunks ++ rest).head?.any endsFileOperation = false := by
      cases chunks with
      | nil => exact Or.inl (hend chunk (by simp))
      | cons later =>
        exact Or.inr (by simp [chunkLines, later.endsFileOperation_header])
    -- With its header or without it, the first chunk is opened with the context it has.
    have hopen : ∃ start current, current.getD {} = { changeContext := chunk.changeContext } ∧
        parseUpdateLines ((if omitFirstHeader then (chunkLines (chunk :: chunks)).tail
            else chunkLines (chunk :: chunks)) ++ rest) index {} =
          parseUpdateLines (chunk.bodyLines ++ (chunkLines chunks ++ rest)) start
            ⟨[], current, false⟩ := by
      cases omitFirstHeader with
      | true =>
        refine ⟨index, none, by simp [homit rfl chunk (by simp)], ?_⟩
        simp [chunkLines]
      | false =>
        refine ⟨index + 1, some { changeContext := chunk.changeContext }, rfl, ?_⟩
        simp [chunkLines, parseUpdateLines, chunk.endsFileOperation_header,
          isSeparator_eq_false_of_not_blank chunk.isBlank_header, (chunk.header_spec hchunk).1,
          (chunk.header_spec hchunk).2, pushCurrent]
    obtain ⟨start, current, hcurrent, hstart⟩ := hopen
    obtain ⟨next, hnext⟩ := parseUpdateLines_bodyLines hchunk hbody start [] current hcurrent
    obtain ⟨state, final, hparse, hpush⟩ := parseUpdateLines_chunkLines hrest chunks chunk [] next
      hwell heof
      (fun other hother ↦ hend other (by
        cases chunks with
        | nil => simp at hother
        | cons => rwa [List.getLast?_cons_cons]))
      (by simp only [List.length_cons, List.length_nil] at hlength ⊢; omega)
    refine ⟨state, final, ?_, hpush⟩
    rw [hstart, hnext]
    exact hparse

/-- The line below the header of an update without a destination is no destination. -/
theorem markerPath_moveTo_below {chunks : List ChunkRendering} {omitFirstHeader : Bool}
    (hwell : ∀ chunk ∈ chunks, chunk.WellFormed) {first : Str} {tail : List Str} (hne : chunks ≠ [])
    (hlines : (if omitFirstHeader then (chunkLines chunks).tail else chunkLines chunks) ++
      rest = first :: tail) :
    markerPath first moveToMarker = none := by
  refine markerPath_eq_none_of_head (c := '*') (by decide) ?_
  obtain ⟨chunk, _, rfl⟩ := List.exists_cons_of_ne_nil hne
  obtain ⟨line, _, hbody⟩ := List.exists_cons_of_ne_nil (hwell chunk (by simp)).body_nonempty
  cases omitFirstHeader with
  | true =>
    simp only [chunkLines, if_true, List.flatMap_cons, List.cons_append, List.tail_cons,
      ChunkRendering.bodyLines, hbody, List.map_cons, List.cons.injEq] at hlines
    rw [← hlines.1]
    rcases line.head_render with hhead | hhead | hhead <;> rw [hhead] <;> decide
  | false =>
    simp only [chunkLines, Bool.false_eq_true, if_false, List.flatMap_cons, List.cons_append,
      List.cons.injEq] at hlines
    rw [← hlines.1, chunk.head_header]
    decide

/-- The parser reads a file operation up to a line that ends it. -/
theorem parseFileOperation_header {hunk : HunkRendering} (hhunk : hunk.WellFormed)
    (heof : hunk.EofOnlyLast) (hend : hunk.NoBlankEnd) (hrest : StartsNext rest) (index : ℕ) :
    ∃ next, parseFileOperation hunk.header (hunk.below ++ rest) index =
      .ok (hunk.value, rest, next) := by
  cases hunk with
  | addFile _ contentLines =>
    obtain ⟨hpath, hne, -⟩ := hhunk
    obtain ⟨next, hnext⟩ := parseAddLines_contentLines hrest contentLines (index + 1) []
    refine ⟨next, ?_⟩
    simp only [parseFileOperation, HunkRendering.header, markerPath_markerLine hpath,
      HunkRendering.below, parseAddFile, hnext, HunkRendering.value, List.nil_append]
    simp [bind, Except.bind, hne]
  | deleteFile path =>
    have hadd : markerPath (markerLine deleteFileMarker path) addFileMarker = none :=
      markerPath_eq_none hhunk rfl
    refine ⟨index + 1, ?_⟩
    simp only [parseFileOperation, HunkRendering.header, hadd, markerPath_markerLine hhunk]
    rfl
  | updateFile path movePath omitFirstHeader chunks =>
    obtain ⟨hpath, hmove, hsome, hwell, hlength, homit⟩ := hhunk
    have hadd : markerPath (markerLine updateFileMarker path) addFileMarker = none :=
      markerPath_eq_none hpath rfl
    have hdelete : markerPath (markerLine updateFileMarker path) deleteFileMarker = none :=
      markerPath_eq_none hpath rfl
    have hmoveTo : ∃ start, parseMoveTo
          ((HunkRendering.updateFile path movePath omitFirstHeader chunks).below ++ rest)
          (index + 1) = (movePath, (if omitFirstHeader then (chunkLines chunks).tail
            else chunkLines chunks) ++ rest, start) := by
      cases movePath with
      | some destination =>
        exact ⟨index + 1 + 1, by
          simp [HunkRendering.below, parseMoveTo, markerPath_markerLine (hmove destination rfl)]⟩
      | none =>
        have hne : chunks ≠ [] := by simpa using hsome
        refine ⟨index + 1, ?_⟩
        simp only [HunkRendering.below, Option.map_none, Option.toList_none, List.nil_append]
        cases hlines : (if omitFirstHeader then (chunkLines chunks).tail else chunkLines chunks) ++
            rest with
        | nil => rfl
        | cons first tail =>
          simp [parseMoveTo, markerPath_moveTo_below hwell hne hlines]
    obtain ⟨start, hstart⟩ := hmoveTo
    obtain ⟨_, next, hparse, hpush⟩ :=
      parseUpdateLines_update hrest hwell hlength homit heof hend start
    refine ⟨next, ?_⟩
    simp only [parseFileOperation, HunkRendering.header, hadd, hdelete,
      markerPath_markerLine hpath, parseUpdateFile, hstart, hparse, bind, Except.bind,
      hpush (next + 1)]
    rcases hsome with hmoves | hne
    · simp [Option.isSome_iff_ne_none.mp hmoves, HunkRendering.value]
    · simp [hne, HunkRendering.value]

/-! ### Reading a patch -/

/-- What a patch holds behind some operations starts with a header or with the end marker. -/
theorem startsNext_hunks {hunks : List HunkRendering} (hwell : ∀ hunk ∈ hunks, hunk.WellFormed)
    (trailing : List Str) :
    StartsNext (hunks.flatMap (·.lines) ++ endPatchMarker :: trailing) := by
  cases hunks with
  | nil => exact (by decide : endsFileOperation endPatchMarker = true)
  | cons hunk =>
    have hheader := (hunk.header_spec (hwell hunk (by simp))).2.2
    simpa [StartsNext, hunk.lines_eq] using hheader

/-- Every operation takes a line, so the number of lines bounds the loop over operations. -/
theorem length_le_length_lines (hunks : List HunkRendering) :
    hunks.length ≤ (hunks.flatMap (·.lines)).length := by
  induction hunks with
  | nil => simp
  | cons hunk =>
    simp only [List.flatMap_cons, hunk.lines_eq, List.length_append, List.length_cons]
    omega

theorem skipBlankLines_of_not_blank (hline : isBlank line = false) (rest : List Str) (index : ℕ) :
    skipBlankLines (line :: rest) index = (line :: rest, index) := by
  simp [skipBlankLines, hline]

/-- The loop over file operations reads them all and stops behind the end marker. -/
theorem parseFileOperations_hunks (hunks : List HunkRendering)
    (hwell : ∀ hunk ∈ hunks, hunk.WellFormed) (heof : ∀ hunk ∈ hunks, hunk.EofOnlyLast)
    (hend : ∀ hunk ∈ hunks, hunk.NoBlankEnd) (trailing : List Str) (fuel : ℕ)
    (hfuel : hunks.length < fuel) (index : ℕ) (done : List CodexPatchHunk)
    (hlength : done.length + hunks.length ≤ maxCodexPatchFileChanges) :
    ∃ next, parseFileOperations fuel (hunks.flatMap (·.lines) ++ endPatchMarker :: trailing) index
      done = .ok (done ++ hunks.map (·.value), true, trailing, next) := by
  induction hunks generalizing fuel index done with
  | nil =>
    obtain ⟨fuel, rfl⟩ : ∃ k, fuel = k + 1 := ⟨fuel - 1, by simp at hfuel; omega⟩
    refine ⟨index + 1, ?_⟩
    have hmarker : (trimEnd endPatchMarker == endPatchMarker) = true := by decide
    simp [parseFileOperations, skipBlankLines_of_not_blank
      (by decide : isBlank endPatchMarker = false), hmarker]
  | cons hunk hunks ih =>
    obtain ⟨fuel, rfl⟩ : ∃ k, fuel = k + 1 := ⟨fuel - 1, by omega⟩
    simp only [List.length_cons] at hfuel hlength
    have hrest : ∀ other ∈ hunks, other.WellFormed := fun other hother ↦
      hwell other (by simp [hother])
    obtain ⟨hblank, hnotEnd, -⟩ := hunk.header_spec (hwell hunk (by simp))
    obtain ⟨next, hnext⟩ := parseFileOperation_header (hwell hunk (by simp)) (heof hunk (by simp))
      (hend hunk (by simp)) (startsNext_hunks hrest trailing) index
    obtain ⟨final, hfinal⟩ := ih hrest (fun other hother ↦ heof other (by simp [hother]))
      (fun other hother ↦ hend other (by simp [hother])) fuel (by omega) next
      (done ++ [hunk.value]) (by simp; omega)
    refine ⟨final, ?_⟩
    have hroom : ¬ done.length ≥ maxCodexPatchFileChanges := by omega
    simp [hunk.lines_eq, parseFileOperations, skipBlankLines_of_not_blank hblank, hnotEnd, hroom,
      hnext, hfinal]

/-- Parsing undoes rendering. Assumes: the rendering of the patch is well formed, its text respects
the byte limit, only the last chunk of an update carries the end-of-file flag, and no update ends
with a blank context line. -/
theorem parseCodexPatch_text (patch : CodexPatch) (rendering : PatchRendering)
    (hvalue : rendering.value = patch) (hwell : rendering.WellFormed)
    (hsize : utf8Len rendering.text ≤ maxCodexPatchBytes)
    (heof : ∀ hunk ∈ rendering.hunks, hunk.EofOnlyLast)
    (hend : ∀ hunk ∈ rendering.hunks, hunk.NoBlankEnd) :
    parseCodexPatch rendering.text = .ok patch := by
  have hbegin : isBlank beginPatchMarker = false := by decide
  have hmarker : (trim beginPatchMarker != beginPatchMarker) = false := by decide
  have hfuel : rendering.hunks.length <
      (rendering.hunks.flatMap (·.lines) ++ endPatchMarker ::
        (if rendering.finalNewline then [[]] else [])).length := by
    have hlines := length_le_length_lines rendering.hunks
    simp only [List.length_append, List.length_cons]
    omega
  obtain ⟨_, hnext⟩ := parseFileOperations_hunks rendering.hunks hwell.hunks heof hend
    (if rendering.finalNewline then [[]] else []) _ hfuel 1 [] (by simpa using hwell.hunks_length)
  have hblank : ((if rendering.finalNewline then [[]] else []) : List Str).any
      (fun line ↦ !isBlank line) = false := by
    cases rendering.finalNewline <;> decide
  have hnonempty : (rendering.hunks.map (·.value)).isEmpty = false := by
    simpa using hwell.hunks_nonempty
  have hlines : rendering.lines = beginPatchMarker :: (rendering.hunks.flatMap (·.lines) ++
      endPatchMarker :: (if rendering.finalNewline then [[]] else [])) := by
    simp [PatchRendering.lines]
  simp only [parseCodexPatch, normalizedPatchLines_text hwell.hunks hsize, bind, Except.bind,
    hlines, skipBlankLines_of_not_blank hbegin, hmarker, Bool.false_eq_true, if_false, hnext,
    List.nil_append, hnonempty, hblank, Bool.not_true]
  rw [← hvalue, PatchRendering.value]

/-- An update whose first of two chunks carries the end-of-file flag. -/
def eofInsideUpdate : PatchRendering where
  hunks := [.updateFile "a".toList none false
    [⟨none, [.removed "x".toList, .added "y".toList], true⟩, ⟨none, [.removed "z".toList], false⟩]]
  crlf := false
  finalNewline := false

/-- An update whose last line is a blank context line. -/
def blankContextAtEnd : PatchRendering where
  hunks := [.updateFile "a".toList none false [⟨none, [.removed "x".toList, .context []], false⟩]]
  crlf := false
  finalNewline := false

/-- Two well-formed patches that do not come back. An end-of-file flag on a chunk that is not the
last is an error; a blank context line in front of the end marker is dropped. -/
theorem parseCodexPatch_text_ne :
    (eofInsideUpdate.WellFormed ∧
        parseCodexPatch eofInsideUpdate.text ≠ .ok eofInsideUpdate.value) ∧
      blankContextAtEnd.WellFormed ∧
        parseCodexPatch blankContextAtEnd.text ≠ .ok blankContextAtEnd.value := by
  decide +kernel

/-- A patch with all four kinds of operations, a blank context line inside a chunk and one in front
of an end-of-file marker, with carriage returns. -/
def mixedOperations : PatchRendering where
  hunks := [.addFile "a".toList ["+".toList, []], .deleteFile "b c".toList,
    .updateFile "d".toList (some "e".toList) true
        [⟨none, [.context [], .removed "x".toList], false⟩,
          ⟨some "f".toList, [.added "y".toList, .context []], true⟩]]
  crlf := true
  finalNewline := true

/-- The hypotheses of `parseCodexPatch_text` hold of `mixedOperations`. -/
theorem parseCodexPatch_mixedOperations :
    parseCodexPatch mixedOperations.text = .ok mixedOperations.value :=
  parseCodexPatch_text _ _ rfl (by decide +kernel) (by decide +kernel)
    (by simp [mixedOperations, HunkRendering.EofOnlyLast])
    (by simp [mixedOperations, HunkRendering.NoBlankEnd, ChunkRendering.NoBlankEnd])

end WebCodex.Patch
