import WebCodex.Patch.Merge

/-!
Under `unique` and `exactUnique` a derivation without rejections edits only places that are the
one match of their tier in the searched range, with no tighter match (`derive_uniquelyPlaced`). At
an end-of-file marker `unique` searches the last position only, while `exactUnique` keeps the
whole range. Old lines that are a single blank line which the range does not hold are not covered:
the repeated search drops the line and looks for nothing.
-/

namespace WebCodex.Patch

open Foundation.Text Foundation.Splice TextEdit

/-- The old lines of a chunk as they may be sought: all of them, or all but a trailing blank
line. -/
def PatternOf (chunk : CodexPatchChunk) (pattern : List Str) : Prop :=
  pattern = chunk.oldLines ∨ chunk.oldLines = pattern ++ [[]]

/-- The replaced range is not empty, and among the positions from `first` to the last one it is the
only match of the pattern at its tier, no tighter tier having any. -/
structure OnlyMatch (lines pattern : List Str) (first : ℕ) (mode : CodexPatchMatchMode)
    (replacement : Replacement Str) : Prop where
  nonempty : 0 < replacement.len
  len : replacement.len = pattern.length
  bounds : replacement.stop ≤ lines.length
  only : ∀ index, (first ≤ index ∧ index ≤ lines.length - pattern.length ∧
    matchesAt lines pattern mode index = true) ↔ index = replacement.start
  tightest : ∀ tighter : CodexPatchMatchMode, tighter.rank < mode.rank → ∀ index, first ≤ index →
    index ≤ lines.length - pattern.length → matchesAt lines pattern tighter index = false

/-- The chunk replaces the only match of its old lines in the range searched, and under
`exactUnique` an equal region. -/
def UniquelyPlaced (lines : List Str) (matchingMode : ApplyPatchMatchingMode) (origin : ℕ)
    (chunk : CodexPatchChunk) (replacement : Replacement Str) : Prop :=
  ∃ pattern mode, PatternOf chunk pattern ∧ OnlyMatch lines pattern
      (searchFrom origin (lines.length - pattern.length) chunk.isEndOfFile matchingMode) mode
      replacement ∧
    (matchingMode = .exactUnique → (lines.drop replacement.start).take replacement.len = pattern)

/-- The old lines are a single blank line that is not found. -/
def BlankNotFound (lines : List Str) (matchingMode : ApplyPatchMatchingMode) (origin : ℕ)
    (chunk : CodexPatchChunk) : Prop :=
  chunk.oldLines = [[]] ∧ seekSequence lines chunk.oldLines origin chunk.isEndOfFile
    matchingMode = none

variable {lines pattern : List Str}

/-- Lines that match at the tightest tier are equal to the pattern. -/
theorem take_eq_of_matchesAt_exact {index : ℕ} (hbounds : index + pattern.length ≤ lines.length)
    (hmatch : matchesAt lines pattern .exact index = true) :
    (lines.drop index).take pattern.length = pattern := by
  have hlength : ((lines.drop index).take pattern.length).length = pattern.length := by
    rw [List.length_take, List.length_drop]
    omega
  refine List.ext_getElem hlength fun offset hleft hright ↦ ?_
  have hpair : (((lines.drop index).take pattern.length).get ⟨offset, hleft⟩,
      pattern.get ⟨offset, hright⟩) ∈ ((lines.drop index).take pattern.length).zip pattern := by
    refine List.mem_iff_getElem.mpr ⟨offset, by rw [List.length_zip]; omega, ?_⟩
    simp
  simpa [lineMatches] using List.all_eq_true.mp hmatch _ hpair

variable {matchingMode : ApplyPatchMatchingMode} {found : SequenceMatch}

/-- A search with a single candidate found the only match of its range. -/
theorem SeekSpec.onlyMatch {origin : ℕ} {eof : Bool} (hpattern : pattern ≠ [])
    (hspec : SeekSpec lines pattern origin eof matchingMode found)
    (hunique : found.candidateCount = 1)
    (content : List Str) :
    OnlyMatch lines pattern (searchFrom origin (lines.length - pattern.length) eof matchingMode)
      found.mode ⟨found.index, pattern.length, content⟩ := by
  have hcount := hspec.count
  rw [hunique, hspec.searchStart] at hcount
  have hmem := hspec.index_mem
  rw [hspec.searchStart] at hmem
  obtain ⟨_, honly⟩ := List.length_eq_one_iff.mp hcount.symm
  rw [honly, List.mem_singleton] at hmem
  refine ⟨List.length_pos_iff.mpr hpattern, rfl, hspec.bounds.2, fun index ↦ ?_, ?_⟩
  · rw [← and_assoc, ← mem_candidates, honly, List.mem_singleton, ← hmem]
  · intro tighter hrank index hfirst hlast
    have hnone := hspec.tightest tighter hrank
    rw [hspec.searchStart] at hnone
    rw [← Bool.not_eq_true]
    intro hmatch
    have hcandidate := mem_candidates.mpr ⟨⟨hfirst, hlast⟩, hmatch⟩
    simp [hnone] at hcandidate

/-- A match that a unique mode does not reject is the only candidate, and exact under
`exactUnique`. -/
theorem matchRejectionFact_eq_none {source : CodexPatchMatchSource} {lineCount patternLen : ℕ}
    (hmode : matchingMode ≠ .firstMatch) (hpositive : 0 < patternLen) (hle : patternLen ≤ lineCount)
    (hnone : matchRejectionFact found matchingMode source lineCount patternLen = none) :
    found.candidateCount = 1 ∧ (matchingMode = .exactUnique → found.mode = .exact) := by
  have hlen : (patternLen == 0) = false := by simp; omega
  have hroom : decide (patternLen > lineCount) = false := by simp; omega
  cases matchingMode with
  | firstMatch => exact absurd rfl hmode
  | unique =>
    simp only [matchRejectionFact, hlen, hroom, Bool.or_false] at hnone
    split_ifs at hnone with hunique
    exact ⟨by simpa [SequenceMatch.isUnique] using hunique, by simp⟩
  | exactUnique =>
    simp only [matchRejectionFact, hlen, hroom, Bool.or_false] at hnone
    split_ifs at hnone with hunique
    simp only [SequenceMatch.isExactUnique, Bool.and_eq_true, beq_iff_eq] at hunique
    exact ⟨hunique.2, fun _ ↦ hunique.1⟩

/-- A placement that is not rejected replaces the only match of its old lines. -/
theorem Placed.uniquelyPlaced {lineIndex : ℕ} {chunk : CodexPatchChunk} {placement : ChunkPlacement}
    (hplaced : Placed lines matchingMode lineIndex chunk placement)
    (hmode : matchingMode ≠ .firstMatch)
    (hrejection : placement.chunkMatch.matchRejection = none) (hold : chunk.oldLines ≠ []) :
    ∃ contextMatch origin, SearchOrigin lines matchingMode lineIndex chunk contextMatch origin ∧
      (¬ BlankNotFound lines matchingMode origin chunk →
        UniquelyPlaced lines matchingMode origin chunk placement.replacement) := by
  cases hplaced with
  | append hnil => exact absurd hnil hold
  | insertion _ _ hnil => exact absurd hnil hold
  | replacement origin contextMatch pattern content found _ horigin hsought hreplacement hfact =>
    refine ⟨contextMatch, origin, horigin, fun hblank ↦ ?_⟩
    have hpatternOf : PatternOf chunk pattern := by
      rcases hsought.2 with ⟨rfl, -⟩ | ⟨-, hlast, rfl, -⟩
      · exact Or.inl rfl
      · obtain ⟨front, hfront⟩ := List.getLast?_eq_some_iff.mp hlast
        exact Or.inr (by rw [hfront, List.dropLast_concat])
    have hpattern : pattern ≠ [] := by
      rintro rfl
      rcases hsought.2 with ⟨hnil, -⟩ | ⟨hnone, hlast, hshort, -⟩
      · exact hold hnil.symm
      · obtain ⟨front, hfront⟩ := List.getLast?_eq_some_iff.mp hlast
        rw [hfront, List.dropLast_concat] at hshort
        exact hblank ⟨by rw [hfront, ← hshort]; rfl, hnone⟩
    have hspec := seekSequence_spec hpattern hsought.1
    obtain ⟨hcount, hexact⟩ := matchRejectionFact_eq_none hmode
      (List.length_pos_iff.mpr hpattern) hspec.pattern_le (hfact hrejection)
    rw [hreplacement]
    refine ⟨pattern, found.mode, hpatternOf, hspec.onlyMatch hpattern hcount content,
      fun hmode' ↦ ?_⟩
    have hmatch := (mem_candidates.mp hspec.index_mem).2
    rw [hexact hmode'] at hmatch
    exact take_eq_of_matchesAt_exact hspec.bounds.2 hmatch

/-- Every chunk with old lines is uniquely placed, each from the line index that the chunk before it
left; a single blank line that is not found is left out. -/
inductive AllUniquelyPlaced (lines : List Str) (matchingMode : ApplyPatchMatchingMode) :
    ℕ → List CodexPatchChunk → List ChunkPlacement → Prop
  | nil (lineIndex : ℕ) : AllUniquelyPlaced lines matchingMode lineIndex [] []
  | cons {lineIndex : ℕ} {chunk : CodexPatchChunk} {placement : ChunkPlacement}
      {chunks : List CodexPatchChunk} {placements : List ChunkPlacement}
      (hchunk : chunk.oldLines ≠ [] → ∃ contextMatch origin,
        SearchOrigin lines matchingMode lineIndex chunk contextMatch origin ∧
          (¬ BlankNotFound lines matchingMode origin chunk →
            UniquelyPlaced lines matchingMode origin chunk placement.replacement))
      (hrest : AllUniquelyPlaced lines matchingMode placement.lineIndex chunks placements) :
      AllUniquelyPlaced lines matchingMode lineIndex (chunk :: chunks) (placement :: placements)

theorem PlacedAll.allUniquelyPlaced {lineIndex : ℕ} {chunks : List CodexPatchChunk}
    {placements : List ChunkPlacement}
    (hplaced : PlacedAll lines matchingMode lineIndex chunks placements)
    (hmode : matchingMode ≠ .firstMatch)
    (hrejections : ∀ placement ∈ placements, placement.chunkMatch.matchRejection = none) :
    AllUniquelyPlaced lines matchingMode lineIndex chunks placements := by
  induction hplaced with
  | nil lineIndex => exact .nil lineIndex
  | cons hchunk hrest ih =>
    rename_i lineIndex chunk placement chunks placements
    exact .cons (hchunk.uniquelyPlaced hmode (hrejections placement (by simp)))
      (ih fun other hother ↦ hrejections other (by simp [hother]))

/-- What a search reports about a pattern that is not empty: the number of the matching positions of
its tier in its range, and the first of them in ascending order. -/
def ReportsCandidates (lines pattern : List Str) (found : SequenceMatch) : Prop :=
  ∃ matching : List ℕ, matching.Pairwise (· < ·) ∧
    (∀ index, index ∈ matching ↔ found.searchStart ≤ index ∧ index ≤ lines.length - pattern.length ∧
      matchesAt lines pattern found.mode index = true) ∧
    found.candidateCount = matching.length ∧
    found.candidatePositions = matching.take maxCodexPatchCandidatePositions

theorem SeekSpec.reportsCandidates {origin : ℕ} {eof : Bool}
    (hspec : SeekSpec lines pattern origin eof matchingMode found) :
    ReportsCandidates lines pattern found :=
  ⟨_, List.Pairwise.filter _ List.pairwise_lt_range', fun _ ↦ mem_candidates.trans and_assoc,
    hspec.count, hspec.positions⟩

/-- The unique modes edit no guessed place, and a search reports its candidates as they are.
Assumes: a unique mode and a derivation without rejections; for the search, a pattern that is not
empty. -/
theorem derive_uniquelyPlaced :
    (∀ (original : Str) (path : String) (chunks : List CodexPatchChunk)
        (matchingMode : ApplyPatchMatchingMode) (update : CodexPatchUpdate),
      matchingMode ≠ .firstMatch →
      deriveCodexPatchUpdateWithMatchingMode original path chunks matchingMode = .ok update →
      (∀ chunkMatch ∈ update.chunkMatches, chunkMatch.matchRejection = none) →
      ∃ lineEnding canonical placements,
        detectApplyTextLineEnding original = .ok lineEnding ∧
        canonicalizeApplyTextLineEndings original lineEnding = .ok canonical ∧
        placeChunks (sourceLines canonical) path matchingMode 0 0 chunks = .ok placements ∧
        AllUniquelyPlaced (sourceLines canonical) matchingMode 0 chunks placements) ∧
      ∀ (lines pattern : List Str) (start : ℕ) (eof : Bool)
        (matchingMode : ApplyPatchMatchingMode) (found : SequenceMatch), pattern ≠ [] →
        seekSequence lines pattern start eof matchingMode = some found →
          ReportsCandidates lines pattern found := by
  refine ⟨fun original path chunks matchingMode update hmode hderive hrejections ↦ ?_,
    fun lines pattern start eof matchingMode found hpattern hseek ↦
      (seekSequence_spec hpattern hseek).reportsCandidates⟩
  obtain ⟨lineEnding, canonical, placements, hending, hcanonical, hplace, hmatches, -⟩ :=
    derive_eq_ok hderive
  refine ⟨lineEnding, canonical, placements, hending, hcanonical, hplace,
    (placeChunks_placedAll hplace).allUniquelyPlaced hmode fun _ hplacement ↦
      hrejections _ ?_⟩
  rw [hmatches]
  exact List.mem_map_of_mem hplacement

/-- Two derivations without rejections that edit another place than the old lines anchored at the
end of the file: under `exactUnique` the marker does not confine the search to the last position,
and a blank line that is not found becomes an insertion. -/
theorem derive_uniquelyPlaced_counterexample :
    (((deriveCodexPatchUpdateWithMatchingMode "a\nb\n".toList "f"
          [{ oldLines := ["a".toList], newLines := ["x".toList], isEndOfFile := true }]
          .exactUnique).map fun update ↦
            (update.content, update.chunkMatches.map (·.matchRejection))) =
        .ok ("x\nb\n".toList, [none]) ∧
      ¬ ∃ pattern mode, PatternOf { oldLines := ["a".toList], isEndOfFile := true } pattern ∧
        OnlyMatch ["a".toList, "b".toList] pattern (2 - pattern.length) mode
          ⟨0, 1, ["x".toList]⟩) ∧
      ((deriveCodexPatchUpdateWithMatchingMode "a\n".toList "f"
          [{ oldLines := [[]], newLines := ["x".toList] }] .unique).map fun update ↦
            (update.content, update.chunkMatches.map (·.matchRejection))) =
        .ok ("x\na\n".toList, [none]) := by
  refine ⟨⟨by decide +kernel, ?_⟩, by decide +kernel⟩
  rintro ⟨pattern, mode, -, honly⟩
  have hlen := honly.len
  have hstart := (honly.only 0).mpr rfl
  simp only at hlen
  omega

/-- The hypotheses of `derive_uniquelyPlaced` at a replacement that is unique after a context. -/
theorem derive_uniquelyPlaced_after_context :
    ∃ update, deriveCodexPatchUpdateWithMatchingMode "f\na\ng\na\n".toList "f"
        [{ changeContext := some "g".toList, oldLines := ["a".toList] }] .unique = .ok update ∧
      ∃ placements, AllUniquelyPlaced ["f".toList, "a".toList, "g".toList, "a".toList] .unique 0
        [{ changeContext := some "g".toList, oldLines := ["a".toList] }] placements := by
  refine ⟨_, rfl, ?_⟩
  obtain ⟨lineEnding, canonical, placements, hending, hcanonical, -, hplaced⟩ :=
    derive_uniquelyPlaced.1 "f\na\ng\na\n".toList "f"
      [{ changeContext := some "g".toList, oldLines := ["a".toList] }] .unique _ (by decide) rfl
      (by decide +kernel)
  obtain rfl : .lf = lineEnding := Except.ok.inj hending
  obtain rfl : "f\na\ng\na\n".toList = canonical := Except.ok.inj hcanonical
  exact ⟨placements, hplaced⟩

end WebCodex.Patch
