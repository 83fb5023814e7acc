import WebCodex.Patch.Parse

/-!
A rendering of a patch says how its values are written: a chunk as an interleaving of removed,
added and context lines, the first chunk of an update with or without its header line, the whole
text with either line ending and with or without a final one. Its value is the patch that it
writes (`PatchRendering.value`).
-/

namespace WebCodex.Patch

open Foundation.Text
open String (utf8Len)

inductive BodyLine
  | removed (content : Str)
  | added (content : Str)
  | context (content : Str)

def BodyLine.content : BodyLine → Str
  | .removed content => content
  | .added content => content
  | .context content => content

def BodyLine.render : BodyLine → Str
  | .removed content => '-' :: content
  | .added content => '+' :: content
  | .context content => ' ' :: content

def oldSide (body : List BodyLine) : List Str := body.filterMap fun
    | .removed content => some content
    | .added _ => none
    | .context content => some content

def newSide (body : List BodyLine) : List Str := body.filterMap fun
    | .removed _ => none
    | .added content => some content
    | .context content => some content

structure ChunkRendering where
  changeContext : Option Str
  body : List BodyLine
  isEndOfFile : Bool

variable (chunk : ChunkRendering)

def ChunkRendering.value : CodexPatchChunk where
  changeContext := chunk.changeContext
  oldLines := oldSide chunk.body
  newLines := newSide chunk.body
  isEndOfFile := chunk.isEndOfFile

def ChunkRendering.header : Str :=
  match chunk.changeContext with
  | none => "@@".toList
  | some context => "@@ ".toList ++ context

def ChunkRendering.bodyLines : List Str :=
  chunk.body.map BodyLine.render ++ if chunk.isEndOfFile then [endOfFileMarker] else []

inductive HunkRendering
  | addFile (path : Str) (contentLines : List Str)
  | deleteFile (path : Str)
  | updateFile (path : Str) (movePath : Option Str) (omitFirstHeader : Bool)
      (chunks : List ChunkRendering)

def HunkRendering.value : HunkRendering → CodexPatchHunk
  | .addFile path contentLines =>
    .addFile path (List.intercalate ['\n'] contentLines ++ ['\n'])
  | .deleteFile path => .deleteFile path
  | .updateFile path movePath _ chunks => .updateFile path movePath (chunks.map (·.value))

def markerLine (marker path : Str) : Str := marker ++ ' ' :: path

/-- The lines of the chunks, each below its header. -/
def chunkLines (chunks : List ChunkRendering) : List Str :=
  chunks.flatMap fun chunk ↦ chunk.header :: chunk.bodyLines

def HunkRendering.lines : HunkRendering → List Str
  | .addFile path contentLines =>
    markerLine addFileMarker path :: contentLines.map ('+' :: ·)
  | .deleteFile path => [markerLine deleteFileMarker path]
  | .updateFile path movePath omitFirstHeader chunks =>
    markerLine updateFileMarker path :: (movePath.map (markerLine moveToMarker)).toList ++
      if omitFirstHeader then (chunkLines chunks).tail else chunkLines chunks

structure PatchRendering where
  hunks : List HunkRendering
  (crlf finalNewline : Bool)

variable (rendering : PatchRendering)

def PatchRendering.value : CodexPatch := ⟨rendering.hunks.map (·.value)⟩

def PatchRendering.lines : List Str :=
  beginPatchMarker :: rendering.hunks.flatMap (·.lines) ++ [endPatchMarker] ++
    if rendering.finalNewline then [[]] else []

def PatchRendering.text : Str :=
  List.intercalate (if rendering.crlf then ['\r', '\n'] else ['\n']) rendering.lines

def OneLine (s : Str) : Prop := '\n' ∉ s ∧ '\r' ∉ s

/-- A path or a context: trimmed, not empty, on one line. -/
structure Label (s : Str) : Prop where
  trimmed : trim s = s
  nonempty : s ≠ []
  oneLine : OneLine s

/-- A chunk with a proper context and a body. -/
structure ChunkRendering.WellFormed (chunk : ChunkRendering) : Prop where
  context : ∀ context ∈ chunk.changeContext, Label context
  body_nonempty : chunk.body ≠ []
  body_oneLine : ∀ line ∈ chunk.body, OneLine line.content

def HunkRendering.WellFormed : HunkRendering → Prop
  | .addFile path contentLines =>
    Label path ∧ contentLines ≠ [] ∧ ∀ line ∈ contentLines, OneLine line
  | .deleteFile path => Label path
  | .updateFile path movePath omitFirstHeader chunks =>
    Label path ∧ (∀ destination ∈ movePath, Label destination) ∧
      (movePath.isSome ∨ chunks ≠ []) ∧ (∀ chunk ∈ chunks, chunk.WellFormed) ∧
      chunks.length ≤ maxCodexPatchChunksPerFile ∧
      (omitFirstHeader → ∀ chunk ∈ chunks.head?, chunk.changeContext = none)

structure PatchRendering.WellFormed (rendering : PatchRendering) : Prop where
  hunks_nonempty : rendering.hunks ≠ []
  hunks_length : rendering.hunks.length ≤ maxCodexPatchFileChanges
  hunks : ∀ hunk ∈ rendering.hunks, hunk.WellFormed

instance (s : Str) : Decidable (OneLine s) := inferInstanceAs (Decidable (_ ∧ _))

instance (s : Str) : Decidable (Label s) :=
  decidable_of_iff (trim s = s ∧ s ≠ [] ∧ OneLine s)
    ⟨fun ⟨htrim, hne, hline⟩ ↦ ⟨htrim, hne, hline⟩, fun h ↦ ⟨h.trimmed, h.nonempty, h.oneLine⟩⟩

instance (chunk : ChunkRendering) : Decidable chunk.WellFormed :=
  decidable_of_iff ((∀ context ∈ chunk.changeContext, Label context) ∧ chunk.body ≠ [] ∧
      ∀ line ∈ chunk.body, OneLine line.content)
    ⟨fun ⟨hcontext, hne, hbody⟩ ↦ ⟨hcontext, hne, hbody⟩,
      fun h ↦ ⟨h.context, h.body_nonempty, h.body_oneLine⟩⟩

instance : (hunk : HunkRendering) → Decidable hunk.WellFormed
  | .addFile _ _ => inferInstanceAs (Decidable (_ ∧ _ ∧ _))
  | .deleteFile path => inferInstanceAs (Decidable (Label path))
  | .updateFile _ _ _ _ => inferInstanceAs (Decidable (_ ∧ _ ∧ _ ∧ _ ∧ _ ∧ _))

instance (rendering : PatchRendering) : Decidable rendering.WellFormed :=
  decidable_of_iff (rendering.hunks ≠ [] ∧ rendering.hunks.length ≤ maxCodexPatchFileChanges ∧
      ∀ hunk ∈ rendering.hunks, hunk.WellFormed)
    ⟨fun ⟨hne, hlength, hhunks⟩ ↦ ⟨hne, hlength, hhunks⟩,
      fun h ↦ ⟨h.hunks_nonempty, h.hunks_length, h.hunks⟩⟩

/-- Only the last chunk of an update carries the end-of-file flag. -/
def HunkRendering.EofOnlyLast : HunkRendering → Prop
  | .updateFile _ _ _ chunks => ∀ chunk ∈ chunks.dropLast, chunk.isEndOfFile = false
  | _ => True

/-- The last line of the chunk is not a blank context line. -/
def ChunkRendering.NoBlankEnd : Prop := chunk.isEndOfFile = true ∨
    ∀ content, chunk.body.getLast? = some (.context content) → isBlank content = false

/-- The last line of an update is not a blank context line. -/
def HunkRendering.NoBlankEnd : HunkRendering → Prop
  | .updateFile _ _ _ chunks => ∀ chunk ∈ chunks.getLast?, chunk.NoBlankEnd
  | _ => True

theorem OneLine.append {s t : Str} (hs : OneLine s) (ht : OneLine t) : OneLine (s ++ t) := by
  simp only [OneLine, List.mem_append, not_or]
  exact ⟨⟨hs.1, ht.1⟩, hs.2, ht.2⟩

theorem OneLine.cons {c : Char} (hc : OneLine [c]) {s : Str} (hs : OneLine s) : OneLine (c :: s) :=
  OneLine.append hc hs

theorem oneLine_markerLine {marker path : Str} (hmarker : OneLine marker) (hpath : Label path) :
    OneLine (markerLine marker path) :=
  hmarker.append (OneLine.cons (by simp [OneLine]) hpath.oneLine)

theorem oneLine_chunkLines {chunks : List ChunkRendering}
    (hwell : ∀ chunk ∈ chunks, chunk.WellFormed) : ∀ line ∈ chunkLines chunks, OneLine line := by
  intro line hline
  simp only [chunkLines, List.mem_flatMap, List.mem_cons] at hline
  obtain ⟨chunk, hchunk, rfl | hbody⟩ := hline
  · unfold ChunkRendering.header
    cases hcontext : chunk.changeContext with
    | none => exact ⟨by decide, by decide⟩
    | some context =>
      exact OneLine.append ⟨by decide, by decide⟩
        ((hwell chunk hchunk).context context hcontext).oneLine
  · simp only [ChunkRendering.bodyLines, List.mem_append, List.mem_map] at hbody
    rcases hbody with ⟨body, hmem, rfl⟩ | heof
    · have hcontent := (hwell chunk hchunk).body_oneLine body hmem
      cases body with
      | removed | added | context => exact OneLine.cons (by simp [OneLine]) hcontent
    · split_ifs at heof
      · rw [List.mem_singleton.mp heof]
        exact ⟨by decide, by decide⟩
      · simp at heof

theorem HunkRendering.oneLine_lines {hunk : HunkRendering} (hhunk : hunk.WellFormed) :
    ∀ line ∈ hunk.lines, OneLine line := by
  intro line hline
  cases hunk with
  | addFile =>
    simp only [HunkRendering.lines, List.mem_cons, List.mem_map] at hline
    rcases hline with rfl | ⟨content, hcontent, rfl⟩
    · exact oneLine_markerLine ⟨by decide, by decide⟩ hhunk.1
    · exact OneLine.cons (by simp [OneLine]) (hhunk.2.2 content hcontent)
  | deleteFile =>
    rw [List.mem_singleton.mp hline]
    exact oneLine_markerLine ⟨by decide, by decide⟩ hhunk
  | updateFile =>
    obtain ⟨hpath, hmove, -, hwell, -⟩ := hhunk
    simp only [HunkRendering.lines, List.cons_append, List.mem_cons, List.mem_append,
      Option.mem_toList, Option.map_eq_some_iff] at hline
    rcases hline with rfl | ⟨destination, hdestination, rfl⟩ | hchunks
    · exact oneLine_markerLine ⟨by decide, by decide⟩ hpath
    · exact oneLine_markerLine ⟨by decide, by decide⟩ (hmove destination hdestination)
    · refine oneLine_chunkLines hwell line ?_
      split_ifs at hchunks
      · exact List.mem_of_mem_tail hchunks
      · exact hchunks

theorem PatchRendering.oneLine_lines {rendering : PatchRendering}
    (hwell : ∀ hunk ∈ rendering.hunks, hunk.WellFormed) :
    ∀ line ∈ rendering.lines, OneLine line := by
  intro line hline
  simp only [PatchRendering.lines, List.cons_append, List.mem_cons, List.mem_append,
    List.mem_flatMap, List.not_mem_nil, or_false] at hline
  rcases hline with rfl | (⟨hunk, hhunk, hmem⟩ | rfl) | hfinal
  · exact ⟨by decide, by decide⟩
  · exact (hunk.oneLine_lines (hwell hunk hhunk)) line hmem
  · exact ⟨by decide, by decide⟩
  · split_ifs at hfinal
    · rw [List.mem_singleton.mp hfinal]
      exact ⟨by simp, by simp⟩
    · simp at hfinal

/-- The text of a rendering within the byte limit splits into its lines, with either line ending. -/
theorem normalizedPatchLines_text {rendering : PatchRendering}
    (hwell : ∀ hunk ∈ rendering.hunks, hunk.WellFormed)
    (hsize : utf8Len rendering.text ≤ maxCodexPatchBytes) :
    normalizedPatchLines rendering.text = .ok rendering.lines := by
  have honeLine := rendering.oneLine_lines hwell
  have hnormal : replaceCrlf rendering.text = List.intercalate ['\n'] rendering.lines := by
    unfold PatchRendering.text
    cases rendering.crlf with
    | true => exact replaceCrlf_intercalate fun line hline ↦ (honeLine line hline).2
    | false =>
      refine replaceCrlf_of_notMem fun hmem ↦ ?_
      rcases mem_intercalate_newline hmem with hnewline | ⟨line, hline, hcr⟩
      · exact absurd hnewline (by decide)
      · exact (honeLine line hline).2 hcr
  have hcr : '\r' ∉ List.intercalate ['\n'] rendering.lines := fun hmem ↦ by
    rcases mem_intercalate_newline hmem with hnewline | ⟨line, hline, hcr⟩
    · exact absurd hnewline (by decide)
    · exact (honeLine line hline).2 hcr
  have hne : rendering.text ≠ [] := fun hempty ↦ by
    have hlines : List.intercalate ['\n'] rendering.lines ≠ [] := by
      cases htail : rendering.hunks.flatMap (·.lines) ++ [endPatchMarker] ++
          (if rendering.finalNewline then [[]] else []) with
      | nil => simp at htail
      | cons next tail =>
        rw [PatchRendering.lines, List.cons_append, List.cons_append, htail,
          List.intercalate_cons_cons]
        simp
    rw [← hnormal, hempty] at hlines
    exact hlines rfl
  simp only [normalizedPatchLines, List.isEmpty_iff, hne, if_false, Nat.not_lt.mpr hsize, hnormal,
    List.contains_iff_mem, hcr]
  rw [List.splitOn_intercalate _ (fun line hline ↦ (honeLine line hline).1)
    (by simp [PatchRendering.lines])]

end WebCodex.Patch
