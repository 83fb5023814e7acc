import WebCodex.Patch.Derive

/-!
When a derivation succeeds, splicing its replacements in reverse order gives the merge of the
original lines with the new lines of the chunks (`derive_isMerge`). No later chunk is placed
before the line index that the loop carries, except after chunks that append at the end of the
file (`Placed.order`); the stable sort by start puts these last.
-/

namespace WebCodex.Patch

open Foundation.Text Foundation.Splice TextEdit

/-- A chunk with neither old lines nor a context, which appends at the end of the file. -/
def CodexPatchChunk.IsAppend (chunk : CodexPatchChunk) : Prop :=
  chunk.oldLines = [] ∧ chunk.changeContext = none

/-- The placements of some chunks, each from the line index that the one before it left. -/
inductive PlacedAll (lines : List Str) (matchingMode : ApplyPatchMatchingMode) :
    ℕ → List CodexPatchChunk → List ChunkPlacement → Prop
  | nil (lineIndex : ℕ) : PlacedAll lines matchingMode lineIndex [] []
  | cons {lineIndex : ℕ} {chunk : CodexPatchChunk} {placement : ChunkPlacement}
      {chunks : List CodexPatchChunk} {placements : List ChunkPlacement}
      (hplaced : Placed lines matchingMode lineIndex chunk placement)
      (hrest : PlacedAll lines matchingMode placement.lineIndex chunks placements) :
      PlacedAll lines matchingMode lineIndex (chunk :: chunks) (placement :: placements)

variable {lines : List Str} {matchingMode : ApplyPatchMatchingMode} {chunks : List CodexPatchChunk}

theorem placeChunks_placedAll {path : String} :
    ∀ {chunkIndex lineIndex : ℕ} {placements : List ChunkPlacement},
      placeChunks lines path matchingMode chunkIndex lineIndex chunks = .ok placements →
        PlacedAll lines matchingMode lineIndex chunks placements := by
  induction chunks with
  | nil =>
    intro chunkIndex lineIndex placements hplace
    obtain rfl := Except.ok.inj hplace
    exact .nil lineIndex
  | cons chunk chunks ih =>
    intro chunkIndex lineIndex placements hplace
    simp only [placeChunks] at hplace
    cases hchunk : placeChunk lines path matchingMode chunkIndex lineIndex chunk with
    | error => simp [hchunk] at hplace
    | ok placement =>
      simp only [hchunk] at hplace
      cases hrest : placeChunks lines path matchingMode
          (chunkIndex + 1) placement.lineIndex chunks with
      | error => simp [hrest] at hplace
      | ok =>
        simp only [hrest, Except.ok.injEq] at hplace
        subst hplace
        exact .cons (placeChunk_placed hchunk) (ih hrest)

section Order

variable {lines : List Str} {matchingMode : ApplyPatchMatchingMode} {lineIndex : ℕ}
  {chunk : CodexPatchChunk}

/-- The search starts inside the file and not before the line index. -/
theorem SearchOrigin.bounds {contextMatch : Option SequenceMatch} {origin : ℕ}
    (horigin : SearchOrigin lines matchingMode lineIndex chunk contextMatch origin)
    (hindex : lineIndex ≤ lines.length) : lineIndex ≤ origin ∧ origin ≤ lines.length := by
  rcases horigin with ⟨-, -, rfl⟩ | ⟨_, _, -, hseek, -, rfl⟩
  · exact ⟨le_rfl, hindex⟩
  · have hbounds := (seekSequence_spec (by simp) hseek).bounds
    simp only [List.length_singleton] at hbounds
    omega

theorem Sought.bounds {origin : ℕ} {pattern content : List Str} {found : SequenceMatch}
    (hsought : Sought lines matchingMode origin chunk pattern content found)
    (horigin : origin ≤ lines.length) :
    origin ≤ found.index ∧ found.index + pattern.length ≤ lines.length := by
  rcases eq_or_ne pattern [] with rfl | hne
  · have hfound := hsought.1
    simp only [seekSequence, List.isEmpty_nil, if_true, Option.some.injEq] at hfound
    rw [← hfound]
    simp only [List.length_nil]
    omega
  · exact (seekSequence_spec hne hsought.1).bounds

/-- A placed chunk lies in the file and behind the line index; it moves the index to its end, or it
is an append and leaves the index. -/
theorem Placed.order {placement : ChunkPlacement}
    (hplaced : Placed lines matchingMode lineIndex chunk placement)
    (hindex : lineIndex ≤ lines.length) :
    lineIndex ≤ placement.replacement.start ∧ placement.replacement.stop ≤ lines.length ∧
      lineIndex ≤ placement.lineIndex ∧ placement.lineIndex ≤ lines.length ∧
      ((chunk.IsAppend ∧ placement.replacement = ⟨lines.length, 0, chunk.newLines⟩) ∨
        placement.replacement.stop = placement.lineIndex) := by
  cases hplaced with
  | append hold hcontext hreplacement hnext =>
    rw [hreplacement, hnext]
    exact ⟨hindex, le_rfl, le_rfl, hindex, Or.inl ⟨⟨hold, hcontext⟩, rfl⟩⟩
  | insertion _ _ _ horigin hreplacement hnext =>
    have hbounds := horigin.bounds hindex
    rw [hreplacement, hnext]
    exact ⟨hbounds.1, hbounds.2, hbounds.1, hbounds.2, Or.inr rfl⟩
  | replacement origin contextMatch pattern content found hold horigin hsought hreplacement
      hrejection hnext =>
    have hbounds := horigin.bounds hindex
    have hfound := hsought.bounds hbounds.2
    rw [hreplacement, hnext]
    exact ⟨hbounds.1.trans hfound.1, hfound.2, by omega, hfound.2, Or.inr rfl⟩

end Order

/-- The new lines a chunk contributes: its own, or its own less a trailing blank line when the old
lines were found without theirs. -/
def ContentOf (chunk : CodexPatchChunk) (content : List Str) : Prop := content = chunk.newLines ∨
    (chunk.oldLines.getLast? = some [] ∧ chunk.newLines = content ++ [[]])

theorem Placed.contentOf {lineIndex : ℕ} {chunk : CodexPatchChunk} {placement : ChunkPlacement}
    (hplaced : Placed lines matchingMode lineIndex chunk placement) :
    ContentOf chunk placement.replacement.content := by
  cases hplaced with
  | append _ _ hreplacement => exact Or.inl (by rw [hreplacement])
  | insertion _ _ _ _ hreplacement =>
    exact Or.inl (by rw [hreplacement])
  | replacement origin contextMatch pattern content found hold horigin hsought hreplacement
      hrejection hnext =>
    rw [hreplacement]
    rcases hsought.2 with ⟨-, hcontent⟩ | ⟨-, hblank, -, hcontent⟩
    · exact Or.inl hcontent
    · simp only [hcontent]
      split_ifs with hlast
      · refine Or.inr ⟨hblank, ?_⟩
        obtain ⟨_, hfront⟩ := List.getLast?_eq_some_iff.mp hlast
        rw [hfront, List.dropLast_concat]
      · exact Or.inl rfl

/-- What the loop guarantees about all placements: they lie in the file and behind the line index,
and each lies before those found after it unless it is an append, which is at the end. -/
theorem PlacedAll.order {lineIndex : ℕ} {placements : List ChunkPlacement}
    (hplaced : PlacedAll lines matchingMode lineIndex chunks placements)
    (hindex : lineIndex ≤ lines.length) :
    (∀ placement ∈ placements, lineIndex ≤ placement.replacement.start ∧
        placement.replacement.stop ≤ lines.length) ∧
      List.Forall₂ (fun chunk placement ↦ ContentOf chunk placement.replacement.content ∧
        (chunk.IsAppend → placement.replacement = ⟨lines.length, 0, chunk.newLines⟩))
        chunks placements ∧
      (chunks.zip placements).Pairwise fun first second ↦
        first.2.replacement.Before second.2.replacement ∨
          (first.1.IsAppend ∧ first.2.replacement.start = lines.length ∧
            first.2.replacement.len = 0) := by
  induction hplaced with
  | nil => simp
  | cons hplaced _ ih =>
    obtain ⟨hstart, hstop, hforward, hnext, hend⟩ := hplaced.order hindex
    obtain ⟨hbounds, hcontents, hpairs⟩ := ih hnext
    refine ⟨?_, ?_, ?_⟩
    · intro other hother
      rcases List.mem_cons.mp hother with rfl | hlater
      · exact ⟨hstart, hstop⟩
      · exact ⟨hforward.trans (hbounds other hlater).1, (hbounds other hlater).2⟩
    · refine List.Forall₂.cons ⟨hplaced.contentOf, fun happend ↦ ?_⟩ hcontents
      cases hplaced with
      | append _ _ hreplacement => exact hreplacement
      | insertion _ _ _ horigin =>
        rcases horigin with ⟨-, hnone, -⟩ | ⟨_, _, hsome, -⟩
        · simp at hnone
        · simp [happend.2] at hsome
      | replacement _ _ _ _ _ hold =>
        exact absurd happend.1 hold
    · rw [List.zip_cons_cons, List.pairwise_cons]
      refine ⟨fun pair hpair ↦ ?_, hpairs⟩
      rcases hend with ⟨happend, hreplacement⟩ | hstopped
      · exact Or.inr ⟨happend, by rw [hreplacement], by rw [hreplacement]⟩
      · refine Or.inl ?_
        have hlater := (hbounds pair.2 (List.of_mem_zip hpair).2).1
        rw [Replacement.Before, hstopped]
        exact hlater

theorem joinLines_eq_terminated (lines : List Str) : joinLines lines = terminated lines := by
  induction lines with
  | nil => rfl
  | cons _ _ ih =>
    rw [joinLines, List.cons_append, List.intercalate_cons_of_ne_nil (by simp), ← joinLines, ih]
    simp [terminated]

/-- The lines of a text hold no line feed. -/
theorem newline_notMem_sourceLines {canonical : Str} :
    ∀ line ∈ sourceLines canonical, '\n' ∉ line := by
  have hsplit : ∀ s : Str, ∀ line ∈ s.splitOn '\n', '\n' ∉ line := by
    intro s
    induction s with
    | nil => simp [List.splitOn_nil]
    | cons _ s ih =>
      rw [List.splitOn_cons_eq_if_modifyHead]
      split_ifs with hc
      · simpa using ih
      · obtain ⟨_, _, hs⟩ := List.exists_cons_of_ne_nil (List.splitOn_ne_nil '\n' s)
        rw [hs] at ih ⊢
        simp only [List.modifyHead_cons, List.mem_cons, forall_eq_or_imp] at ih ⊢
        refine ⟨?_, ih.2⟩
        simp only [not_or]
        exact ⟨fun hsame ↦ hc (by simp [← hsame]), ih.1⟩
  intro line hline
  simp only [sourceLines] at hline
  split_ifs at hline
  · exact hsplit canonical line ((List.dropLast_sublist _).subset hline)
  · exact hsplit canonical line hline

/-- What a derivation promises about its text: every chunk contributes its new lines, at a range
inside the original lines; the ranges are in the order of the chunks except that an append is at the
end; sorted by start they do not overlap; and the text is the original lines merged with them from
left to right, with the original line ending behind every line. -/
structure MergeOf (lines : List Str) (lineEnding : ApplyTextLineEnding)
    (chunks : List CodexPatchChunk) (placements : List ChunkPlacement) (content : Str) : Prop where
  contents : List.Forall₂ (fun chunk placement ↦ ContentOf chunk placement.replacement.content ∧
    (chunk.IsAppend → placement.replacement = ⟨lines.length, 0, chunk.newLines⟩)) chunks placements
  bounds : ∀ placement ∈ placements, placement.replacement.stop ≤ lines.length
  order : (chunks.zip placements).Pairwise fun first second ↦
    first.1.IsAppend ∨ first.2.replacement.Before second.2.replacement
  disjoint : ((placements.map (·.replacement)).insertionSort startLe).Pairwise Replacement.Before
  content_eq : content = restoreApplyTextLineEndings (terminated
    (mergeFrom lines 0 ((placements.map (·.replacement)).insertionSort startLe))) lineEnding
  content_eq_of_lines : (∀ chunk ∈ chunks, ∀ line ∈ chunk.newLines, '\n' ∉ line) →
    content = ((mergeFrom lines 0 ((placements.map (·.replacement)).insertionSort startLe)).map
      fun line ↦ line ++ lineEnding.ending).flatten

theorem ContentOf.mem {chunk : CodexPatchChunk} {content : List Str}
    (hcontent : ContentOf chunk content) {line : Str} (hline : line ∈ content) :
    line ∈ chunk.newLines := by
  rcases hcontent with rfl | ⟨-, hnew⟩
  · exact hline
  · rw [hnew]
    exact List.mem_append_left _ hline

/-- The placements of all chunks make the text a merge. -/
theorem PlacedAll.mergeOf {placements : List ChunkPlacement}
    (hplaced : PlacedAll lines matchingMode 0 chunks placements)
    (hlines : ∀ line ∈ lines, '\n' ∉ line)
    (lineEnding : ApplyTextLineEnding) :
    MergeOf lines lineEnding chunks placements (restoreApplyTextLineEndings (joinLines
      (spliceReverse lines ((placements.map (·.replacement)).insertionSort startLe)))
        lineEnding) := by
  obtain ⟨hbounds, hcontents, hpairs⟩ := hplaced.order (Nat.zero_le _)
  have hlength : chunks.length = placements.length := hcontents.length_eq
  have hfound : (placements.map (·.replacement)).Pairwise fun first second ↦
      first.Before second ∨ (first.start = lines.length ∧ first.len = 0) := by
    have hmap := List.Pairwise.map (fun pair : CodexPatchChunk × ChunkPlacement ↦
        pair.2.replacement) (S := fun first second ↦
        first.Before second ∨ (first.start = lines.length ∧ first.len = 0))
      (fun _ _ hpair ↦ hpair.imp id And.right) hpairs
    rwa [← Function.comp_def, ← List.map_map, List.map_snd_zip hlength.ge] at hmap
  have hstops : ∀ replacement ∈ placements.map (·.replacement),
      replacement.stop ≤ lines.length := by
    intro replacement hmem
    obtain ⟨placement, hplacement, rfl⟩ := List.mem_map.mp hmem
    exact (hbounds placement hplacement).2
  have hdisjoint := pairwise_before_insertionSort hstops hfound
  have hmerge := spliceReverse_eq_mergeFrom hdisjoint
    (fun replacement hmem ↦ hstops replacement ((List.mem_insertionSort startLe).mp hmem))
    (fun replacement _ ↦ Nat.zero_le replacement.start) (Nat.zero_le lines.length)
  rw [List.take_zero, List.nil_append] at hmerge
  refine ⟨hcontents, fun placement hmem ↦ (hbounds placement hmem).2,
    hpairs.imp fun hpair ↦ hpair.symm.imp And.left id, hdisjoint, ?_, fun hnew ↦ ?_⟩
  · rw [hmerge, joinLines_eq_terminated]
  · rw [hmerge, joinLines_eq_terminated]
    refine restoreApplyTextLineEndings_terminated (fun line hline ↦ ?_) lineEnding
    rcases mem_mergeFrom hline with hkept | ⟨replacement, hmem, hcontent⟩
    · exact hlines line hkept
    · obtain ⟨placement, hplacement, rfl⟩ := List.mem_map.mp
        ((List.mem_insertionSort startLe).mp hmem)
      obtain ⟨index, hindex, rfl⟩ := List.mem_iff_getElem.mp hplacement
      have hchunk := (List.forall₂_iff_get.mp hcontents).2 index (hlength ▸ hindex) hindex
      exact hnew _ (List.getElem_mem (hlength ▸ hindex)) line (hchunk.1.mem hcontent)

/-- A derivation that succeeds placed every chunk and spliced the replacements. -/
theorem derive_eq_ok {original : Str} {path : String} {update : CodexPatchUpdate}
    (hderive : deriveCodexPatchUpdateWithMatchingMode original path chunks matchingMode =
      .ok update) :
    ∃ lineEnding canonical placements, detectApplyTextLineEnding original = .ok lineEnding ∧
      canonicalizeApplyTextLineEndings original lineEnding = .ok canonical ∧
      placeChunks (sourceLines canonical) path matchingMode 0 0 chunks = .ok placements ∧
      update.chunkMatches = placements.map (·.chunkMatch) ∧
      update.content = restoreApplyTextLineEndings (joinLines (spliceReverse (sourceLines canonical)
        ((placements.map (·.replacement)).insertionSort startLe))) lineEnding := by
  unfold deriveCodexPatchUpdateWithMatchingMode at hderive
  cases hending : detectApplyTextLineEnding original with
  | error => simp [hending] at hderive
  | ok lineEnding =>
    simp only [hending] at hderive
    cases hcanonical : canonicalizeApplyTextLineEndings original lineEnding with
    | error => simp [hcanonical] at hderive
    | ok canonical =>
      simp only [hcanonical] at hderive
      cases hplace : placeChunks (sourceLines canonical) path matchingMode 0 0 chunks with
      | error => simp [hplace] at hderive
      | ok placements =>
        simp only [hplace, Except.ok.injEq] at hderive
        exact ⟨lineEnding, canonical, placements, rfl, hcanonical, hplace, by rw [← hderive],
          by rw [← hderive]⟩

/-- A derivation that succeeds merges the chunks into the original lines: in their order, without
overlap, each at lines that match its own, with the line ending of the file. -/
theorem derive_isMerge (original : Str) (path : String) (chunks : List CodexPatchChunk)
    (matchingMode : ApplyPatchMatchingMode) (update : CodexPatchUpdate)
    (hderive : deriveCodexPatchUpdateWithMatchingMode original path chunks matchingMode =
      .ok update) :
    ∃ lineEnding canonical placements,
      detectApplyTextLineEnding original = .ok lineEnding ∧
      canonicalizeApplyTextLineEndings original lineEnding = .ok canonical ∧
      placeChunks (sourceLines canonical) path matchingMode 0 0 chunks = .ok placements ∧
      PlacedAll (sourceLines canonical) matchingMode 0 chunks placements ∧
      MergeOf (sourceLines canonical) lineEnding chunks placements update.content := by
  obtain ⟨lineEnding, canonical, placements, hending, hcanonical, hplace, -, hcontent⟩ :=
    derive_eq_ok hderive
  have hplaced := placeChunks_placedAll hplace
  refine ⟨lineEnding, canonical, placements, hending, hcanonical, hplace, hplaced, ?_⟩
  rw [hcontent]
  exact hplaced.mergeOf newline_notMem_sourceLines lineEnding

/-- An append followed by a replacement is not in chunk order; removing the only line leaves no
final line feed; and old lines found without their trailing blank line cost the new lines theirs. -/
theorem derive_chunkOrder_counterexample :
    ((placeChunks (sourceLines "a\n".toList) "f" .unique 0 0
        [{ newLines := ["z".toList] },
          { oldLines := ["a".toList], newLines := ["b".toList] }]).map
        fun placements ↦ placements.map fun placement ↦
          (placement.replacement.start, placement.replacement.stop)) = .ok [(1, 1), (0, 1)] ∧
      ((deriveCodexPatchUpdateWithMatchingMode "a\n".toList "f"
        [{ oldLines := ["a".toList] }] .unique).map fun update ↦ update.content) = .ok [] ∧
      ((deriveCodexPatchUpdateWithMatchingMode "a\n".toList "f"
        [{ oldLines := ["a".toList, []], newLines := ["b".toList, []] }] .unique).map
          fun update ↦ update.content) = .ok "b\n".toList := by
  decide +kernel

/-- The hypothesis of `derive_isMerge` at an append in front of a replacement, in a file with
carriage returns. -/
theorem derive_isMerge_crlf :
    ∃ update, deriveCodexPatchUpdateWithMatchingMode "a\r\nb\r\n".toList "f"
        [{ newLines := ["z".toList] }, { oldLines := ["a".toList], newLines := ["c".toList] }]
        .unique = .ok update ∧
      update.content = "c\r\nb\r\nz\r\n".toList ∧
      ∃ placements, MergeOf ["a".toList, "b".toList] .crlf
        [{ newLines := ["z".toList] }, { oldLines := ["a".toList], newLines := ["c".toList] }]
        placements update.content := by
  refine ⟨_, rfl, by decide +kernel, ?_⟩
  obtain ⟨lineEnding, canonical, placements, hending, hcanonical, -, -, hmerge⟩ :=
    derive_isMerge "a\r\nb\r\n".toList "f"
      [{ newLines := ["z".toList] }, { oldLines := ["a".toList], newLines := ["c".toList] }]
      .unique _ rfl
  obtain rfl : .crlf = lineEnding := Except.ok.inj hending
  obtain rfl : "a\nb\n".toList = canonical := Except.ok.inj hcanonical
  exact ⟨placements, hmerge⟩

end WebCodex.Patch
