import WebCodex.Patch.Syntax

/-!
`seekSequence`, after `seek_sequence`, looks for a pattern of lines from a position on. It tries
four tiers, from equal lines to lines that agree after trimming and after folding typographic
dashes, quotes and spaces, and stops at the first tier that has a match; it reports the selected
position together with the number of matches of that tier and the first few of their positions.
-/

namespace WebCodex.Patch

open Foundation.Text

/-- The character that typographic variants are folded to. -/
def foldTypography (c : Char) : Char :=
  let n := c.toNat
  if (0x2010 ≤ n && n ≤ 0x2015) || n == 0x2212 then '-'
  else if 0x2018 ≤ n && n ≤ 0x201B then '\''
  else if 0x201C ≤ n && n ≤ 0x201F then '"'
  else if n == 0xA0 || (0x2002 ≤ n && n ≤ 0x200A) || n == 0x202F || n == 0x205F || n == 0x3000 then
    ' '
  else c

def normalizeCodexPatchMatchText (value : Str) : Str := (trim value).map foldTypography

def lineMatches (mode : CodexPatchMatchMode) (candidate expected : Str) : Bool :=
  match mode with
  | .exact => candidate == expected
  | .trimEnd => trimEnd candidate == trimEnd expected
  | .trim => trim candidate == trim expected
  | .normalized =>
    normalizeCodexPatchMatchText candidate == normalizeCodexPatchMatchText expected

/-- Whether the pattern matches the lines at a position. -/
def matchesAt (lines pattern : List Str) (mode : CodexPatchMatchMode) (index : ℕ) : Bool :=
  (((lines.drop index).take pattern.length).zip pattern).all fun pair ↦
    lineMatches mode pair.1 pair.2

structure SequenceMatch where
  index : ℕ
  mode : CodexPatchMatchMode
  candidateCount : ℕ
  candidatePositions : List ℕ
  searchStart : ℕ

def SequenceMatch.isUnique (matched : SequenceMatch) : Bool := matched.candidateCount == 1

def SequenceMatch.isExactUnique (matched : SequenceMatch) : Bool :=
  matched.mode == .exact && matched.candidateCount == 1

/-- The accumulators of the scan of one tier. -/
structure CandidateScan where
  selectedIndex : Option ℕ
  candidateCount : ℕ
  candidatePositions : List ℕ

def CandidateScan.visit (lines pattern : List Str) (mode : CodexPatchMatchMode)
    (scan : CandidateScan) (index : ℕ) : CandidateScan :=
  if matchesAt lines pattern mode index then
    { selectedIndex := if scan.selectedIndex.isNone then some index else scan.selectedIndex
      candidateCount := scan.candidateCount + 1
      candidatePositions :=
        if scan.candidatePositions.length < maxCodexPatchCandidatePositions then
          scan.candidatePositions ++ [index]
        else scan.candidatePositions }
  else scan

/-- The positions from `first` to `last`, both included. -/
def positions (first last : ℕ) : List ℕ := List.range' first (last + 1 - first)

/-- The scan of one tier over the positions of a range, from a selection made beforehand. -/
def scanCandidates (lines pattern : List Str) (mode : CodexPatchMatchMode) (first last : ℕ)
    (selected : Option ℕ) : CandidateScan :=
  (positions first last).foldl (CandidateScan.visit lines pattern mode) ⟨selected, 0, []⟩

/-- The tiers from the tightest to the loosest, searched in turn. -/
def seekTiers (lines pattern : List Str) (start lastStart : ℕ) (eof : Bool)
    (matchingMode : ApplyPatchMatchingMode) : List CodexPatchMatchMode → Option SequenceMatch
  | [] => none
  | mode :: modes =>
    -- `unique` admits only the trailing candidate at an end-of-file marker; the other modes prefer
    -- it but keep the ordinary range.
    let structuralEof := eof && matchingMode == .unique
    let effectiveStart := if structuralEof then lastStart else start
    let selected :=
      if eof && matchingMode != .unique && matchesAt lines pattern mode lastStart then
        some lastStart
      else none
    let scan := scanCandidates lines pattern mode effectiveStart lastStart selected
    match scan.selectedIndex with
    | some index => some ⟨index, mode, scan.candidateCount, scan.candidatePositions, effectiveStart⟩
    | none => seekTiers lines pattern start lastStart eof matchingMode modes

def allMatchModes : List CodexPatchMatchMode := [.exact, .trimEnd, .trim, .normalized]

def seekSequence (lines pattern : List Str) (start : ℕ) (eof : Bool)
    (matchingMode : ApplyPatchMatchingMode) : Option SequenceMatch :=
  if pattern.isEmpty then
    let index := min start lines.length
    some ⟨index, .exact, 1, [index], index⟩
  else if pattern.length > lines.length then none
  else
    let lastStart := lines.length - pattern.length
    if start > lastStart then none
    else seekTiers lines pattern start lastStart eof matchingMode allMatchModes

def matchRejectionFact (matched : SequenceMatch) (requestedMatchingMode : ApplyPatchMatchingMode)
    (matchSource : CodexPatchMatchSource) (sourceLineCount patternLen : ℕ) :
    Option CodexPatchMatchRejection :=
  let satisfied :=
    match requestedMatchingMode with
    | .firstMatch => true
    | .unique => matched.isUnique
    | .exactUnique => matched.isExactUnique
  if satisfied || patternLen == 0 || decide (patternLen > sourceLineCount) then none
  else some
    { requestedMatchingMode := requestedMatchingMode
      matchMode := matched.mode
      matchSource := matchSource
      matchedStartLine := matched.index + 1
      candidateCount := matched.candidateCount
      candidateStartLines := matched.candidatePositions.map (· + 1)
      candidatePositionsTruncated :=
        decide (matched.candidateCount > matched.candidatePositions.length)
      searchStartLine := matched.searchStart + 1
      sourceLineCount := sourceLineCount }

/-- `select_match_rejection`: an ambiguity is preferred, otherwise the first rejection. -/
def selectMatchRejection (first second : Option CodexPatchMatchRejection) :
    Option CodexPatchMatchRejection :=
  let candidates := first.toList ++ second.toList
  (candidates.find? fun candidate ↦ decide (candidate.candidateCount > 1)).or candidates.head?

/-- How many lines of the pattern agree with the lines at a position. -/
def countLineMatches (lines pattern : List Str) (mode : CodexPatchMatchMode) (index : ℕ) : ℕ :=
  ((lines.drop index).zip pattern).countP fun pair ↦ lineMatches mode pair.1 pair.2

/-- The scores of a position of a failed search, by which the closest one is chosen. -/
structure MissScore where
  (index exact trimEnd trim : ℕ)

/-- The lexicographic comparison of the scores, the loosest tier first. -/
def MissScore.better (score best : MissScore) : Bool := decide (score.trim > best.trim) ||
    (score.trim == best.trim && (decide (score.trimEnd > best.trimEnd) ||
        (score.trimEnd == best.trimEnd && decide (score.exact > best.exact))))

/-- The best of the positions of a failed search, the earliest among equals. -/
def closestCandidate (lines pattern : List Str) (effectiveStart : ℕ) : Option MissScore :=
  let hasCompleteCandidate := decide (lines.length - effectiveStart ≥ pattern.length)
  ((List.range' effectiveStart (lines.length - effectiveStart)).takeWhile fun index ↦
      !(hasCompleteCandidate && decide (lines.length - index < pattern.length))).foldl
    (fun best index ↦
      let score : MissScore :=
        ⟨index, countLineMatches lines pattern .exact index,
          countLineMatches lines pattern .trimEnd index,
          countLineMatches lines pattern .trim index⟩
      match best with
      | none => some score
      | some other => if score.better other then some score else some other) none

def diagnoseSequenceMiss (lines pattern : List Str) (start chunkIndex : ℕ)
    (matchSource : CodexPatchMatchSource) : CodexPatchMatchDiagnostic :=
  let effectiveStart := min start lines.length
  let base : CodexPatchMatchDiagnostic :=
    { chunkIndex := chunkIndex
      matchSource := matchSource
      searchStartLine := effectiveStart + 1
      expectedLineCount := pattern.length
      availableLineCount := lines.length - effectiveStart
      closestStartLine := none
      closestExactLineMatches := 0
      closestTrimEndLineMatches := 0
      closestTrimLineMatches := 0
      firstExactMismatchOffset := if pattern.isEmpty then none else some 1 }
  match closestCandidate lines pattern effectiveStart with
  | none => base
  | some best =>
    { base with
      closestStartLine := some (best.index + 1)
      closestExactLineMatches := best.exact
      closestTrimEndLineMatches := best.trimEnd
      closestTrimLineMatches := best.trim
      firstExactMismatchOffset := ((List.range pattern.length).find? fun offset ↦
          lines[best.index + offset]? != pattern[offset]?).map (· + 1) }

/-- The matching positions of a tier in a range, in ascending order. -/
def candidates (lines pattern : List Str) (mode : CodexPatchMatchMode) (first last : ℕ) : List ℕ :=
  (positions first last).filter (matchesAt lines pattern mode)

/-- The range in which a search counts matches: from its start on, or the last position alone. -/
def searchFrom (start lastStart : ℕ) (eof : Bool) (matchingMode : ApplyPatchMatchingMode) : ℕ :=
  if eof && matchingMode == .unique then lastStart else start

theorem mem_positions {first last index : ℕ} :
    index ∈ positions first last ↔ first ≤ index ∧ index ≤ last := by
  simp only [positions, List.mem_range'_1]
  omega

theorem mem_candidates {lines pattern : List Str} {mode : CodexPatchMatchMode}
    {first last index : ℕ} : index ∈ candidates lines pattern mode first last ↔
      (first ≤ index ∧ index ≤ last) ∧ matchesAt lines pattern mode index = true := by
  simp [candidates, mem_positions]

/-- A scan from some accumulators over some positions. -/
theorem foldl_visit (lines pattern : List Str) (mode : CodexPatchMatchMode) (indices : List ℕ)
    (selected : Option ℕ) (found : List ℕ) :
    indices.foldl (CandidateScan.visit lines pattern mode)
        ⟨selected, found.length, found.take maxCodexPatchCandidatePositions⟩ =
      ⟨selected.or (indices.filter (matchesAt lines pattern mode)).head?,
        (found ++ indices.filter (matchesAt lines pattern mode)).length,
        (found ++ indices.filter (matchesAt lines pattern mode)).take
          maxCodexPatchCandidatePositions⟩ := by
  induction indices generalizing selected found with
  | nil => simp
  | cons index _ ih =>
    rw [List.foldl_cons, CandidateScan.visit]
    cases hmatch : matchesAt lines pattern mode index with
    | false => simpa [hmatch] using ih selected found
    | true =>
      have htake : (if (found.take maxCodexPatchCandidatePositions).length <
            maxCodexPatchCandidatePositions then
            found.take maxCodexPatchCandidatePositions ++ [index]
          else found.take maxCodexPatchCandidatePositions) =
          (found ++ [index]).take maxCodexPatchCandidatePositions := by
        rw [List.length_take]
        split_ifs with hroom
        · have hlength : found.length < maxCodexPatchCandidatePositions := by omega
          rw [List.take_of_length_le hlength.le, List.take_of_length_le (by simp; omega)]
        · rw [List.take_append_of_le_length (by omega)]
      have hnext := ih (selected.or (some index)) (found ++ [index])
      rw [List.length_append, List.length_singleton] at hnext
      have hselected : (if selected.isNone then some index else selected) =
          selected.or (some index) := by
        cases selected <;> rfl
      simp only [if_true, htake, hselected, hnext]
      cases selected <;> simp [hmatch]

/-- The scan of a tier counts its candidates and keeps the first few of them. -/
theorem scanCandidates_eq (lines pattern : List Str) (mode : CodexPatchMatchMode)
    (first last : ℕ) (selected : Option ℕ) :
    scanCandidates lines pattern mode first last selected =
      ⟨selected.or (candidates lines pattern mode first last).head?,
        (candidates lines pattern mode first last).length,
        (candidates lines pattern mode first last).take maxCodexPatchCandidatePositions⟩ := by
  simpa [scanCandidates, candidates] using
    foldl_visit lines pattern mode (positions first last) selected []

/-- What a search that finds something reports about a pattern that is not empty: a matching
position in the range, the number of all of them at that tier, and the first of them in order, with
no match in the range at a tighter tier. -/
structure SeekSpec (lines pattern : List Str) (start : ℕ) (eof : Bool)
    (matchingMode : ApplyPatchMatchingMode) (found : SequenceMatch) : Prop where
  pattern_le : pattern.length ≤ lines.length
  start_le : start ≤ lines.length - pattern.length
  searchStart : found.searchStart = searchFrom start (lines.length - pattern.length) eof
    matchingMode
  count : found.candidateCount = (candidates lines pattern found.mode found.searchStart
    (lines.length - pattern.length)).length
  positions : found.candidatePositions = (candidates lines pattern found.mode found.searchStart
    (lines.length - pattern.length)).take maxCodexPatchCandidatePositions
  index_mem : found.index ∈ candidates lines pattern found.mode found.searchStart
    (lines.length - pattern.length)
  tightest : ∀ mode, mode.rank < found.mode.rank →
    candidates lines pattern mode found.searchStart (lines.length - pattern.length) = []

/-- One tier: it is reported when it has a candidate, and otherwise the next one is tried. -/
theorem seekTiers_cons (lines pattern : List Str) {start lastStart : ℕ} (hstart : start ≤ lastStart)
    (eof : Bool) (matchingMode : ApplyPatchMatchingMode) (mode : CodexPatchMatchMode)
    (modes : List CodexPatchMatchMode) :
    let first := searchFrom start lastStart eof matchingMode
    (candidates lines pattern mode first lastStart = [] ∧
        seekTiers lines pattern start lastStart eof matchingMode (mode :: modes) =
          seekTiers lines pattern start lastStart eof matchingMode modes) ∨
      ∃ index ∈ candidates lines pattern mode first lastStart,
        seekTiers lines pattern start lastStart eof matchingMode (mode :: modes) =
          some ⟨index, mode, (candidates lines pattern mode first lastStart).length,
            (candidates lines pattern mode first lastStart).take maxCodexPatchCandidatePositions,
            first⟩ := by
  intro first
  have hscan := scanCandidates_eq lines pattern mode first lastStart
    (if eof && matchingMode != .unique && matchesAt lines pattern mode lastStart then
      some lastStart else none)
  have hfirst : first ≤ lastStart := by
    simp only [first, searchFrom]
    split_ifs
    · exact le_rfl
    · exact hstart
  have htier : seekTiers lines pattern start lastStart eof matchingMode (mode :: modes) =
      match (scanCandidates lines pattern mode first lastStart
        (if eof && matchingMode != .unique && matchesAt lines pattern mode lastStart then
          some lastStart else none)).selectedIndex with
      | some index => some ⟨index, mode, (candidates lines pattern mode first lastStart).length,
          (candidates lines pattern mode first lastStart).take maxCodexPatchCandidatePositions,
          first⟩
      | none => seekTiers lines pattern start lastStart eof matchingMode modes := by
    simp only [seekTiers, scanCandidates_eq]
    rfl
  rw [htier, hscan]
  split_ifs with hpreferred
  · right
    simp only [Bool.and_eq_true] at hpreferred
    exact ⟨lastStart, mem_candidates.mpr ⟨⟨hfirst, le_rfl⟩, hpreferred.2⟩, rfl⟩
  · rw [Option.none_or]
    cases hcandidates : candidates lines pattern mode first lastStart with
    | nil => exact Or.inl ⟨rfl, rfl⟩
    | cons index => exact Or.inr ⟨index, by simp, rfl⟩

/-- A search for a pattern that is not empty finds what its specification says. -/
theorem seekSequence_spec {lines pattern : List Str} {start : ℕ} {eof : Bool}
    {matchingMode : ApplyPatchMatchingMode} {found : SequenceMatch} (hpattern : pattern ≠ [])
    (hseek : seekSequence lines pattern start eof matchingMode = some found) :
    SeekSpec lines pattern start eof matchingMode found := by
  have hempty : pattern.isEmpty = false := by simpa using hpattern
  simp only [seekSequence, hempty, Bool.false_eq_true, if_false] at hseek
  split_ifs at hseek with hlong hlate
  have hstart : start ≤ lines.length - pattern.length := by omega
  -- Each tier either is the reported one or has no candidate.
  obtain ⟨hnone, hrest⟩ | ⟨index, hindex, hfound⟩ := seekTiers_cons lines pattern hstart eof
    matchingMode .exact [.trimEnd, .trim, .normalized]
  · obtain ⟨hnone', hrest'⟩ | ⟨index, hindex, hfound⟩ := seekTiers_cons lines pattern hstart eof
      matchingMode .trimEnd [.trim, .normalized]
    · obtain ⟨hnone'', hrest''⟩ | ⟨index, hindex, hfound⟩ := seekTiers_cons lines pattern hstart
        eof matchingMode .trim [.normalized]
      · obtain ⟨-, hrest'''⟩ | ⟨index, hindex, hfound⟩ := seekTiers_cons lines pattern hstart
          eof matchingMode .normalized []
        · rw [allMatchModes, hrest, hrest', hrest'', hrest'''] at hseek
          simp [seekTiers] at hseek
        · rw [allMatchModes, hrest, hrest', hrest'', hfound] at hseek
          obtain rfl := Option.some.inj hseek
          refine ⟨by omega, hstart, rfl, rfl, rfl, hindex, fun mode hmode ↦ ?_⟩
          cases mode with
          | exact => exact hnone
          | trimEnd => exact hnone'
          | trim => exact hnone''
          | normalized => simp at hmode
      · rw [allMatchModes, hrest, hrest', hfound] at hseek
        obtain rfl := Option.some.inj hseek
        refine ⟨by omega, hstart, rfl, rfl, rfl, hindex, fun mode hmode ↦ ?_⟩
        cases mode with
        | exact => exact hnone
        | trimEnd => exact hnone'
        | trim => simp at hmode
        | normalized => simp [CodexPatchMatchMode.rank] at hmode
    · rw [allMatchModes, hrest, hfound] at hseek
      obtain rfl := Option.some.inj hseek
      refine ⟨by omega, hstart, rfl, rfl, rfl, hindex, fun mode hmode ↦ ?_⟩
      cases mode with
      | exact => exact hnone
      | trimEnd => simp at hmode
      | trim | normalized => simp [CodexPatchMatchMode.rank] at hmode
  · rw [allMatchModes, hfound] at hseek
    obtain rfl := Option.some.inj hseek
    refine ⟨by omega, hstart, rfl, rfl, rfl, hindex, fun mode hmode ↦ ?_⟩
    simp [CodexPatchMatchMode.rank] at hmode

/-- The position found leaves room for the pattern and is not before the start of the search. -/
theorem SeekSpec.bounds {lines pattern : List Str} {start : ℕ} {eof : Bool}
    {matchingMode : ApplyPatchMatchingMode} {found : SequenceMatch}
    (hspec : SeekSpec lines pattern start eof matchingMode found) :
    start ≤ found.index ∧ found.index + pattern.length ≤ lines.length := by
  obtain ⟨⟨hfirst, _⟩, -⟩ := mem_candidates.mp hspec.index_mem
  have hpattern := hspec.pattern_le
  have hstart := hspec.start_le
  rw [hspec.searchStart, searchFrom] at hfirst
  split_ifs at hfirst <;> omega

end WebCodex.Patch
