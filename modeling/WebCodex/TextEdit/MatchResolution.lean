import Mathlib.Data.List.Induction
import WebCodex.Foundation.Fallible
import WebCodex.Foundation.Occurrences
import WebCodex.Foundation.Slices

/-!
An edit names the text it is about, and may name one of its occurrences and the lines it has to lie
in. `resolveApplyTextMatch` goes through the occurrences once, with a line number that it moves
forward from one to the next, and keeps what the answer needs (`MatchScan`).
-/

namespace WebCodex.TextEdit

open String (utf8Len utf8EncodeChar)
open Foundation
open Foundation.Framing (utf8Bytes)
open Foundation.Occurrences Foundation.Text Foundation.Utf8

/-- How a function fails: with an error of its own, or in a slice or an expectation. -/
inductive Failure (E : Type) where
  | reported (error : E)
  | panicked
  deriving DecidableEq

/-- Lines are counted from one, and both ends belong to the scope. -/
structure ApplyTextLineScope where
  (startLine endLine : ℕ)
  deriving DecidableEq

structure ApplyTextMatchCandidate where
  (occurrence startLine endLine : ℕ)
  deriving DecidableEq

namespace ApplyTextLineScope

def validate (scope : ApplyTextLineScope) : Except String Unit := do
  ensure (scope.startLine != 0) "line_scope.start_line must be at least 1"
  ensure (scope.endLine != 0) "line_scope.end_line must be at least 1"
  ensure (decide (scope.startLine ≤ scope.endLine))
    "line_scope.end_line must be greater than or equal to start_line"

def contains (scope : ApplyTextLineScope) (candidate : ApplyTextMatchCandidate) : Bool :=
  decide (scope.startLine ≤ candidate.startLine) && decide (candidate.endLine ≤ scope.endLine)

end ApplyTextLineScope

def maxApplyTextConflictCandidates : ℕ := 8

inductive ApplyTextMatchConflictKind where
  | matchNotFound | multipleMatches | occurrenceOutOfRange | occurrenceOutsideLineScope
  deriving DecidableEq

structure ApplyTextMatchConflict where
  kind : ApplyTextMatchConflictKind
  matchCount : ℕ
  requestedOccurrence : Option ℕ
  lineScope : Option ApplyTextLineScope
  lineScopeMatchCount : Option ℕ
  candidateRanges : List ApplyTextMatchCandidate
  candidatesTruncated : Bool
  deriving DecidableEq

/-! ### The scan -/

/-- `str::match_indices`: the byte offsets of the occurrences. -/
def matchIndices (needle original : Str) : List ℕ :=
  (occurrences needle original).map fun place ↦ utf8Len (original.take place)

/-- The variables of the loop over the occurrences. -/
structure MatchScan where
  candidateRanges : List ApplyTextMatchCandidate := []
  matchCount : ℕ := 0
  lineScopeMatchCount : ℕ := 0
  selectedOccurrence : Option (ℕ × ℕ × ApplyTextMatchCandidate) := none
  selectedEligible : Option (ℕ × ℕ) := none
  lineCursor : ℕ := 0
  currentLine : ℕ := 1
  deriving DecidableEq

section Scan

variable (original needle : Str) (occurrence : Option ℕ) (lineScope : Option ApplyTextLineScope)

/-- A turn of the loop, with the occurrence at a byte offset. -/
def MatchScan.next (scan : MatchScan) (start : ℕ) : Option MatchScan := do
  let passed ← bytesBetween (utf8Bytes original) scan.lineCursor start
  let currentLine := scan.currentLine + passed.count 0x0a
  let matchCount := scan.matchCount + 1
  let needleNewlines := (utf8Bytes needle).count 0x0a
  let endLine :=
    if (utf8Bytes needle).getLast? = some 0x0a then currentLine + (needleNewlines - 1)
    else currentLine + needleNewlines
  let candidate := ⟨matchCount, currentLine, max endLine currentLine⟩
  let eligible := lineScope.all (·.contains candidate)
  some
    { candidateRanges :=
        if eligible && decide (scan.candidateRanges.length < maxApplyTextConflictCandidates) then
          scan.candidateRanges ++ [candidate]
        else scan.candidateRanges
      matchCount := matchCount
      lineScopeMatchCount :=
        if eligible then scan.lineScopeMatchCount + 1 else scan.lineScopeMatchCount
      selectedOccurrence :=
        if occurrence = some matchCount then some (start, start + utf8Len needle, candidate)
        else scan.selectedOccurrence
      selectedEligible :=
        if eligible then some (start, start + utf8Len needle) else scan.selectedEligible
      lineCursor := start
      currentLine := currentLine }

/-- `resolve_apply_text_match`, after its assertions on the arguments. -/
def resolveApplyTextMatch : Except (Failure ApplyTextMatchConflict) (ℕ × ℕ) := do
  let scan ← required
    ((matchIndices needle original).foldlM (MatchScan.next original needle occurrence lineScope) {})
    .panicked
  let scopedMatchCount := lineScope.map fun _ ↦ scan.lineScopeMatchCount
  let eligibleMatchCount := scopedMatchCount.getD scan.matchCount
  let conflict (kind : ApplyTextMatchConflictKind) : ApplyTextMatchConflict :=
    { kind := kind
      matchCount := scan.matchCount
      requestedOccurrence := occurrence
      lineScope := lineScope
      lineScopeMatchCount := scopedMatchCount
      candidateRanges := scan.candidateRanges
      candidatesTruncated := decide (maxApplyTextConflictCandidates < eligibleMatchCount) }
  if scan.matchCount = 0 then .error (.reported (conflict .matchNotFound))
  else
    match occurrence with
    | some requested =>
      if requested = 0 ∨ scan.matchCount < requested then
        .error (.reported (conflict .occurrenceOutOfRange))
      else
        match scan.selectedOccurrence with
        | none => .error .panicked
        | some (start, stop, candidate) =>
          if lineScope.any (!·.contains candidate) then
            .error (.reported (conflict .occurrenceOutsideLineScope))
          else .ok (start, stop)
    | none =>
      if eligibleMatchCount = 0 then .error (.reported (conflict .matchNotFound))
      else if 1 < eligibleMatchCount then .error (.reported (conflict .multipleMatches))
      else required scan.selectedEligible .panicked

structure SourceMatch where
  (start stop : ℕ)
  candidate : ApplyTextMatchCandidate
  deriving DecidableEq

/-- The bytes of the occurrence at a place, and the lines of its first and of its last character. -/
def sourceMatch (number place : ℕ) : SourceMatch where
  start := utf8Len (original.take place)
  stop := utf8Len (original.take place ++ needle)
  candidate :=
    { occurrence := number
      startLine := 1 + newlines (original.take place)
      endLine := 1 + newlines (original.take place ++ needle.dropLast) }

/-- The occurrences at the given places, numbered from one. -/
def sourceMatches (places : List ℕ) : List SourceMatch :=
  places.mapIdx fun index place ↦ sourceMatch original needle (index + 1) place

/-- The occurrence lies in the lines that are asked for. -/
def SourceMatch.InScope (found : SourceMatch) : Prop :=
  ∀ scope ∈ lineScope, scope.startLine ≤ found.candidate.startLine ∧
    found.candidate.endLine ≤ scope.endLine

instance (found : SourceMatch) : Decidable (found.InScope lineScope) :=
  inferInstanceAs (Decidable (∀ scope ∈ lineScope, _))

/-- The occurrences at the given places that lie in the lines that are asked for. -/
def eligibleMatches (places : List ℕ) : List SourceMatch :=
  (sourceMatches original needle places).filter (·.InScope lineScope)

/-- The variables of the loop after the occurrences at the given places. -/
def scanned (places : List ℕ) : MatchScan where
  candidateRanges := ((eligibleMatches original needle lineScope places).map (·.candidate)).take
      maxApplyTextConflictCandidates
  matchCount := places.length
  lineScopeMatchCount := (eligibleMatches original needle lineScope places).length
  selectedOccurrence := ((sourceMatches original needle places).filter
      (occurrence = some ·.candidate.occurrence)).getLast?.map
        fun found ↦ (found.start, found.stop, found.candidate)
  selectedEligible :=
    (eligibleMatches original needle lineScope places).getLast?.map fun found ↦
      (found.start, found.stop)
  lineCursor := places.getLast?.elim 0 fun place ↦ utf8Len (original.take place)
  currentLine := places.getLast?.elim 1 fun place ↦ 1 + newlines (original.take place)

end Scan

/-! ### The scan ends with what the occurrences are -/

variable {original needle : Str} {occurrence : Option ℕ} {lineScope : Option ApplyTextLineScope}

/-- The last byte of a text is a line feed when its last character is. -/
theorem getLast?_utf8Bytes (text : Str) :
    (utf8Bytes text).getLast? = some 0x0a ↔ text.getLast? = some '\n' := by
  rcases List.eq_nil_or_concat text with rfl | ⟨front, c, rfl⟩
  · simp
  · obtain ⟨first, rest, hbytes, -⟩ := utf8EncodeChar_eq_cons c
    have hne : utf8EncodeChar c ≠ [] := hbytes ▸ List.cons_ne_nil first rest
    rw [List.concat_eq_append, utf8Bytes_append, utf8Bytes_cons, utf8Bytes_nil, List.append_nil,
      List.getLast?_append_of_ne_nil _ hne, List.getLast?_concat, Option.some.injEq]
    constructor
    · exact fun h ↦ (mem_utf8EncodeChar '\n' rfl (by decide)).mp (List.mem_of_getLast? h)
    · rintro rfl
      rfl

/-- The line feeds in front of the last character, as the scan computes them. -/
theorem newlines_dropLast (text : Str) : newlines text.dropLast =
      if (utf8Bytes text).getLast? = some 0x0a then newlines text - 1 else newlines text := by
  simp only [getLast?_utf8Bytes]
  rcases List.eq_nil_or_concat text with rfl | ⟨front, c, rfl⟩
  · rfl
  · rw [List.concat_eq_append, List.dropLast_concat, newlines_append]
    simp only [List.getLast?_concat, Option.some.injEq]
    split_ifs with hc
    · rw [hc]
      rfl
    · rw [newlines_cons_of_ne hc, newlines_nil, Nat.add_zero]

/-- From one place to a later one the scan passes the bytes between them. -/
theorem bytesBetween_take {p q : ℕ} (hle : p ≤ q) :
    ∃ passed, bytesBetween (utf8Bytes original) (utf8Len (original.take p))
      (utf8Len (original.take q)) =
        some passed ∧
      newlines (original.take p) + passed.count 0x0a = newlines (original.take q) := by
  have hq : original.take q = original.take p ++ (original.take q).drop p := by
    conv_lhs => rw [← List.take_append_drop p (original.take q), List.take_take,
      Nat.min_eq_left hle]
  have hwhole : original = original.take p ++ ((original.take q).drop p ++ original.drop q) := by
    rw [← List.append_assoc, ← hq, List.take_append_drop]
  refine ⟨utf8Bytes ((original.take q).drop p), ?_, ?_⟩
  · conv_lhs => rw [hq]
    rw [← bytesBetween_utf8Bytes, ← hwhole]
  · rw [count_newline_utf8Bytes, ← newlines_append, ← hq]

theorem sourceMatches_append_singleton (places : List ℕ) (place : ℕ) :
    sourceMatches original needle (places ++ [place]) =
      sourceMatches original needle places ++
        [sourceMatch original needle (places.length + 1) place] := by
  simp [sourceMatches, List.mapIdx_append]

theorem all_contains_iff (found : SourceMatch) :
    lineScope.all (·.contains found.candidate) = decide (found.InScope lineScope) := by
  cases lineScope with
  | none => simp [SourceMatch.InScope]
  | some => simp [SourceMatch.InScope, ApplyTextLineScope.contains]

theorem eligibleMatches_append_singleton (places : List ℕ) (place : ℕ) :
    eligibleMatches original needle lineScope (places ++ [place]) =
      eligibleMatches original needle lineScope places ++
        if (sourceMatch original needle (places.length + 1) place).InScope lineScope then
          [sourceMatch original needle (places.length + 1) place] else [] := by
  rw [eligibleMatches, sourceMatches_append_singleton, List.filter_append, List.filter_singleton]
  simp [eligibleMatches]

/-- A bounded list takes one item more while there is room. -/
theorem take_concat {A : Type} (items : List A) (item : A) (n : ℕ) : (items ++ [item]).take n =
      if (items.take n).length < n then items.take n ++ [item] else items.take n := by
  rw [List.take_append, List.length_take]
  split_ifs with hroom
  · rw [List.take_of_length_le (show [item].length ≤ n - items.length by
      rw [List.length_singleton]
      omega)]
  · rw [Nat.sub_eq_zero_of_le (by omega), List.take_zero, List.append_nil]

variable {places : List ℕ}

/-- A turn of the loop with a later occurrence. -/
theorem next_scanned {place : ℕ} (hlater : ∀ p ∈ places.getLast?, p ≤ place) :
    (scanned original needle occurrence lineScope places).next original needle occurrence lineScope
        (utf8Len (original.take place)) =
      some (scanned original needle occurrence lineScope (places ++ [place])) := by
  set found := sourceMatch original needle (places.length + 1) place with hfound
  obtain ⟨passed, hpassed, hline⟩ : ∃ passed,
      bytesBetween (utf8Bytes original)
        (scanned original needle occurrence lineScope places).lineCursor
          (utf8Len (original.take place)) = some passed ∧
      (scanned original needle occurrence lineScope places).currentLine + passed.count 0x0a =
        found.candidate.startLine := by
    cases hlast : places.getLast? with
    | none =>
      obtain ⟨passed, hpassed, hlines⟩ := @bytesBetween_take original _ _ (Nat.zero_le place)
      refine ⟨passed, by simpa [scanned, hlast] using hpassed, ?_⟩
      simp [scanned, hlast, hfound, sourceMatch, ← hlines]
    | some p =>
      obtain ⟨passed, hpassed, hlines⟩ := @bytesBetween_take original _ _ (hlater p hlast)
      refine ⟨passed, by simpa [scanned, hlast] using hpassed, ?_⟩
      simp [scanned, hlast, hfound, sourceMatch, ← hlines, Nat.add_assoc]
  have hcandidate : (⟨places.length + 1, found.candidate.startLine,
      max (if (utf8Bytes needle).getLast? = some 0x0a then
          found.candidate.startLine + (newlines needle - 1)
        else found.candidate.startLine + newlines needle) found.candidate.startLine⟩ :
        ApplyTextMatchCandidate) = found.candidate := by
    have hend : found.candidate.endLine = found.candidate.startLine + newlines needle.dropLast := by
      simp [hfound, sourceMatch, Nat.add_assoc]
    rw [newlines_dropLast] at hend
    have hmax : max (if (utf8Bytes needle).getLast? = some 0x0a then
          found.candidate.startLine + (newlines needle - 1)
        else found.candidate.startLine + newlines needle) found.candidate.startLine =
        found.candidate.endLine := by
      rw [hend]
      split_ifs <;> omega
    rw [hmax]
    rfl
  have hstop : utf8Len (original.take place) + utf8Len needle = found.stop := by
    rw [hfound, sourceMatch, String.utf8Len_append]
  unfold MatchScan.next
  rw [hpassed, Option.bind_eq_bind, Option.bind_some]
  simp only [count_newline_utf8Bytes]
  have hcount : (scanned original needle occurrence lineScope places).matchCount = places.length :=
    rfl
  have hsame : sourceMatch original needle (places.length + 1) place = found := rfl
  rw [hline, hcount, hcandidate, hstop, all_contains_iff]
  simp only [scanned, eligibleMatches_append_singleton, sourceMatches_append_singleton, hsame,
    List.filter_append, List.filter_singleton, List.length_append, List.length_singleton,
    List.getLast?_concat, Option.elim_some, Option.some.injEq, MatchScan.mk.injEq, true_and]
  have hnumber : found.candidate.occurrence = places.length + 1 := rfl
  have hstart : utf8Len (original.take place) = found.start := rfl
  refine ⟨?_, ?_, ?_, ?_, rfl⟩
  · by_cases hscope : found.InScope lineScope
    · simp only [hscope, decide_true, Bool.true_and, if_true, List.map_append, List.map_singleton,
        take_concat]
      exact if_congr decide_eq_true_iff rfl rfl
    · simp [hscope]
  · by_cases hscope : found.InScope lineScope <;> simp [hscope]
  · rw [hstart, hnumber]
    by_cases hrequested : occurrence = some (places.length + 1) <;> simp [hrequested]
  · rw [hstart]
    by_cases hscope : found.InScope lineScope <;> simp [hscope]

/-- The loop over occurrences in order. -/
theorem foldlM_next (hsorted : places.Pairwise (· ≤ ·)) :
    (places.map fun place ↦ utf8Len (original.take place)).foldlM
        (MatchScan.next original needle occurrence lineScope) {} =
      some (scanned original needle occurrence lineScope places) := by
  induction places using List.reverseRecOn with
  | nil => rfl
  | append_singleton _ place ih =>
    obtain ⟨hbefore, -, hlater⟩ := List.pairwise_append.mp hsorted
    rw [List.map_append, List.foldlM_append, ih hbefore, Option.bind_eq_bind, Option.bind_some,
      List.map_singleton, List.foldlM_cons]
    rw [next_scanned fun p hp ↦ hlater p (List.mem_of_getLast? hp) place
      (List.mem_singleton_self _)]
    rfl

theorem scan_matchIndices :
    (matchIndices needle original).foldlM (MatchScan.next original needle occurrence lineScope) {} =
      some (scanned original needle occurrence lineScope (occurrences needle original)) :=
  foldlM_next ((greedy_occurrences needle original).sorted.imp Nat.le_of_lt)

/-! ### The answer -/

section Answer

variable (original needle occurrence lineScope)

/-- The occurrence that is asked for: the one with the number, if it lies in the lines, or the only
one that lies in them. -/
def Requested (places : List ℕ) (found : SourceMatch) : Prop :=
  match occurrence with
  | some number => found ∈ sourceMatches original needle places ∧
      found.candidate.occurrence = number ∧ found.InScope lineScope
  | none => eligibleMatches original needle lineScope places = [found]

/-- Why no occurrence is the one that is asked for. -/
def conflictKind (places : List ℕ) : ApplyTextMatchConflictKind :=
  if places = [] then .matchNotFound
  else
    match occurrence with
    | some number =>
      if number = 0 ∨ places.length < number then .occurrenceOutOfRange
      else .occurrenceOutsideLineScope
    | none =>
      if eligibleMatches original needle lineScope places = [] then .matchNotFound
      else .multipleMatches

/-- The conflict with the counts of the occurrences and the first of those in the lines. -/
def exactConflict (places : List ℕ) : ApplyTextMatchConflict where
  kind := conflictKind original needle occurrence lineScope places
  matchCount := places.length
  requestedOccurrence := occurrence
  lineScope := lineScope
  lineScopeMatchCount := lineScope.map fun _ ↦
    (eligibleMatches original needle lineScope places).length
  candidateRanges := ((eligibleMatches original needle lineScope places).map (·.candidate)).take
      maxApplyTextConflictCandidates
  candidatesTruncated :=
    decide (maxApplyTextConflictCandidates < (eligibleMatches original needle lineScope
      places).length)

end Answer

variable {found : SourceMatch}

/-- The occurrence with a number. -/
theorem mem_sourceMatches : found ∈ sourceMatches original needle places ↔
      ∃ index, ∃ h : index < places.length,
        sourceMatch original needle (index + 1) places[index] = found := by
  simp [sourceMatches, List.mem_mapIdx]

theorem filter_occurrence {index : ℕ} (hindex : index < places.length) :
    (sourceMatches original needle places).filter (some (index + 1) = some ·.candidate.occurrence) =
      [sourceMatch original needle (index + 1) places[index]] := by
  induction places using List.reverseRecOn with
  | nil => cases hindex
  | append_singleton places place ih =>
    have hnumber : (sourceMatch original needle (places.length + 1) place).candidate.occurrence =
        places.length + 1 := rfl
    rw [sourceMatches_append_singleton, List.filter_append, List.filter_singleton, hnumber]
    rcases Nat.lt_or_ge index places.length with hbefore | hlast
    · rw [ih hbefore, List.getElem_append_left hbefore]
      simp [Nat.ne_of_lt hbefore]
    · obtain rfl : index = places.length := by
        rw [List.length_append, List.length_singleton] at hindex
        omega
      have hnone : (sourceMatches original needle places).filter
          (some (places.length + 1) = some ·.candidate.occurrence) = [] := by
        refine List.filter_eq_nil_iff.mpr fun _ hfound ↦ ?_
        obtain ⟨index, hindex, rfl⟩ := mem_sourceMatches.mp hfound
        simp [sourceMatch]
        omega
      rw [hnone]
      simp

/-- Without a scope every occurrence is eligible. -/
theorem eligible_count (places : List ℕ) :
    (lineScope.map fun _ ↦ (eligibleMatches original needle lineScope places).length).getD
      places.length =
      (eligibleMatches original needle lineScope places).length := by
  cases lineScope with
  | none =>
    have hall : eligibleMatches original needle none places = sourceMatches original needle
        places :=
      List.filter_eq_self.mpr fun _ _ ↦ decide_eq_true nofun
    rw [hall]
    simp [sourceMatches]
  | some => rfl

/-- The answer is the occurrence that is asked for, or the exact conflict when there is none. -/
theorem resolveApplyTextMatch_cases (original needle : Str) (occurrence : Option ℕ)
    (lineScope : Option ApplyTextLineScope) :
    (∃ found, Requested original needle occurrence lineScope (occurrences needle original) found ∧
        resolveApplyTextMatch original needle occurrence lineScope = .ok
          (found.start, found.stop)) ∨
      (∀ found, ¬ Requested original needle occurrence lineScope (occurrences needle original)
        found) ∧
        resolveApplyTextMatch original needle occurrence lineScope = .error (.reported
            (exactConflict original needle occurrence lineScope
              (occurrences needle original))) := by
  unfold resolveApplyTextMatch
  rw [scan_matchIndices, required, ok_bind]
  generalize hplaces : occurrences needle original = places
  simp only [scanned, eligible_count, List.length_eq_zero_iff]
  by_cases hnone : places = []
  · -- There is no occurrence at all.
    refine Or.inr ⟨fun found hfound ↦ ?_, by simp [exactConflict, conflictKind, hnone]⟩
    subst hnone
    cases occurrence with
    | some => exact absurd hfound.1 List.not_mem_nil
    | none => exact List.cons_ne_nil _ _ (Eq.symm hfound)
  · rw [if_neg hnone]
    cases occurrence with
    | some number =>
      dsimp only
      split_ifs with hrange
      · refine Or.inr ⟨fun found hfound ↦ ?_, by simp [exactConflict, conflictKind, hnone, hrange]⟩
        obtain ⟨hmem, hnumber, -⟩ := hfound
        obtain ⟨index, hindex, rfl⟩ := mem_sourceMatches.mp hmem
        have : index + 1 = number := hnumber
        omega
      · obtain ⟨index, rfl⟩ := Nat.exists_eq_add_of_le' (show 1 ≤ number by omega)
        have hindex : index < places.length := by omega
        rw [filter_occurrence hindex, List.getLast?_singleton, Option.map_some]
        dsimp only
        have hmem : sourceMatch original needle (index + 1) places[index] ∈
            sourceMatches original needle places := mem_sourceMatches.mpr ⟨index, hindex, rfl⟩
        have hany : lineScope.any
              (!·.contains (sourceMatch original needle (index + 1) places[index]).candidate) =
            !decide ((sourceMatch original needle (index + 1) places[index]).InScope
                lineScope) := by
          rw [← all_contains_iff]
          cases lineScope <;> simp
        rw [hany]
        by_cases hscope : (sourceMatch original needle (index + 1) places[index]).InScope lineScope
        · exact Or.inl ⟨_, ⟨hmem, rfl, hscope⟩, by simp [hscope]⟩
        · refine Or.inr ⟨fun found hfound ↦ ?_, ?_⟩
          · obtain ⟨hmem', hnumber, hscope'⟩ := hfound
            obtain ⟨other, _, rfl⟩ := mem_sourceMatches.mp hmem'
            obtain rfl : other = index := Nat.succ.inj hnumber
            exact hscope hscope'
          · simp only [hscope, decide_false, Bool.not_false, if_true, exactConflict,
              conflictKind, hnone, hrange, if_false]
    | none =>
      split_ifs with hempty hseveral
      · refine Or.inr ⟨fun found hfound ↦ ?_, by simp [exactConflict, conflictKind, hnone, hempty]⟩
        exact List.cons_ne_nil _ _ ((show _ = [found] from hfound).symm.trans hempty)
      · refine Or.inr ⟨fun found hfound ↦ ?_, ?_⟩
        · rw [show eligibleMatches original needle lineScope places = [found] from hfound,
            List.length_singleton] at hseveral
          omega
        · have hne : eligibleMatches original needle lineScope places ≠ [] :=
            List.ne_nil_of_length_pos (by omega)
          simp [exactConflict, conflictKind, hnone, hne]
      · have hpos := List.length_pos_iff.mpr hempty
        obtain ⟨found, hfound⟩ := List.length_eq_one_iff.mp
          (show (eligibleMatches original needle lineScope places).length = 1 by omega)
        exact Or.inl ⟨found, hfound, by simp [hfound, required]⟩

/-- An occurrence that is asked for is the only one. -/
theorem Requested.unique {other : SourceMatch}
    (h : Requested original needle occurrence lineScope places found)
    (h' : Requested original needle occurrence lineScope places other) : found = other := by
  cases occurrence with
  | none => exact (List.cons.inj ((show _ = [found] from h).symm.trans h')).1
  | some =>
    obtain ⟨hmem, hnumber, -⟩ := h
    obtain ⟨hmem', hnumber', -⟩ := h'
    obtain ⟨index, _, rfl⟩ := mem_sourceMatches.mp hmem
    obtain ⟨index', _, rfl⟩ := mem_sourceMatches.mp hmem'
    obtain rfl : index = index' := Nat.succ.inj (hnumber.trans hnumber'.symm)
    rfl

/-- An occurrence is where the text is that is looked for. -/
theorem textBetween_of_mem
    (h : found ∈ sourceMatches original needle (occurrences needle original)) :
    textBetween original found.start found.stop = some needle := by
  obtain ⟨index, hindex, rfl⟩ := mem_sourceMatches.mp h
  obtain ⟨front, back, htext, hlength⟩ :=
    occursAt_iff.mp ((greedy_occurrences needle original).occurs _ (List.getElem_mem hindex))
  have htake : original.take (occurrences needle original)[index] = front := by
    conv_lhs => rw [← hlength, htext, List.take_left]
  refine textBetween_eq_some_iff.mpr ⟨front, back, htext, ?_, ?_⟩ <;>
    simp [sourceMatch, htake]

/-- The occurrences being the greedy ones, an answer is the range of the one that is asked for, a
failure is the exact conflict, and no expectation fails. -/
theorem resolveApplyTextMatch_exact (original needle : Str) (occurrence : Option ℕ)
    (lineScope : Option ApplyTextLineScope) :
    ∃ places, Greedy needle original places ∧
      (∀ found ∈ sourceMatches original needle places,
        textBetween original found.start found.stop = some needle) ∧
      (∀ range, resolveApplyTextMatch original needle occurrence lineScope = .ok range ↔
        ∃ found, Requested original needle occurrence lineScope places found ∧
          range = (found.start, found.stop)) ∧
      ∀ failure, resolveApplyTextMatch original needle occurrence lineScope = .error failure →
        failure = .reported (exactConflict original needle occurrence lineScope places) := by
  refine ⟨occurrences needle original, greedy_occurrences needle original,
    fun found ↦ textBetween_of_mem, ?_⟩
  rcases resolveApplyTextMatch_cases original needle occurrence lineScope with
    ⟨found, hfound, hresult⟩ | ⟨hnone, hresult⟩ <;> rw [hresult]
  · refine ⟨fun range ↦ ⟨fun h ↦ ⟨found, hfound, (Except.ok.inj h).symm⟩, ?_⟩, nofun⟩
    rintro ⟨_, hother, rfl⟩
    rw [hfound.unique hother]
  · refine ⟨fun range ↦ ⟨nofun, ?_⟩, fun failure h ↦ (Except.error.inj h).symm⟩
    rintro ⟨found, hfound, -⟩
    exact absurd hfound (hnone found)

end WebCodex.TextEdit
