import WebCodex.JobLog.Retention

/-!
Output is presented within a number of bytes (`bound_presented_text`). What is too long keeps its
end, behind a marker. The marker itself comes out of the budget, so that a small budget gets a short
marker and a tiny one none, and the kept end starts between two characters.
-/

namespace WebCodex.OutputText

open Foundation.Text
open JobLog (advanceToBoundary)
open String (utf8Len utf8Len_append)

def longTruncationMarker : Str := "[output truncated]\n".toList

def shortTruncationMarker : Str := "[...]\n".toList

def truncationMarker (maxBytes : ℕ) : Str :=
  if maxBytes ≥ utf8Len longTruncationMarker then longTruncationMarker
  else if maxBytes ≥ utf8Len shortTruncationMarker then shortTruncationMarker
  else []

/-- `bound_presented_text`. There is no result when the text would be cut inside a character. -/
def boundPresentedText (text : Str) (maxBytes : ℕ) (forceTruncated : Bool) : Option Str :=
  if !forceTruncated && decide (utf8Len text ≤ maxBytes) then some text
  else if maxBytes = 0 then some []
  else
    let marker := truncationMarker maxBytes
    let tailBudget := maxBytes - utf8Len marker
    let start := advanceToBoundary text (utf8Len text) (utf8Len text - tailBudget)
    if marker.isEmpty then
      if tailBudget = 0 then some [] else (splitAtByte start text).map (·.2)
    else (splitAtByte start text).map fun sides ↦ marker ++ sides.2

theorem utf8Len_truncationMarker_le (maxBytes : ℕ) :
    utf8Len (truncationMarker maxBytes) ≤ maxBytes := by
  unfold truncationMarker
  split_ifs with hlong hshort
  · exact hlong
  · exact hshort
  · exact Nat.zero_le _

/-- The loop stops at the first boundary from its start on. -/
theorem advanceToBoundary_spec {text : Str} {fuel start : ℕ} (hstart : start ≤ utf8Len text)
    (hfuel : utf8Len text - start ≤ fuel) :
    ∃ sides, splitAtByte (advanceToBoundary text fuel start) text = some sides ∧
      start ≤ advanceToBoundary text fuel start ∧
      ∀ front back, text = front ++ back → start ≤ utf8Len front →
        advanceToBoundary text fuel start ≤ utf8Len front := by
  have hend : splitAtByte (utf8Len text) text = some (text, []) :=
    splitAtByte_eq_some_iff.mpr ⟨(List.append_nil text).symm, rfl⟩
  induction fuel generalizing start with
  | zero =>
    obtain rfl : start = utf8Len text := by omega
    exact ⟨_, hend, le_rfl, fun front back _ hle ↦ hle⟩
  | succ _ ih =>
    rw [advanceToBoundary]
    by_cases hnext : (decide (start < utf8Len text) && !isCharBoundary start text) = true
    · rw [if_pos hnext]
      rw [Bool.and_eq_true, decide_eq_true_eq, Bool.not_eq_true'] at hnext
      have hinside : start + 1 ≤ utf8Len text := hnext.1
      obtain ⟨sides, hsides, hle, hfirst⟩ := ih hinside (by omega)
      refine ⟨sides, hsides, by omega, fun front back htext hfront ↦ hfirst front back htext ?_⟩
      -- The start itself is inside a character.
      refine Nat.lt_of_le_of_ne hfront fun hsame ↦ ?_
      have hsplit : splitAtByte start text = some (front, back) :=
        splitAtByte_eq_some_iff.mpr ⟨htext, hsame.symm⟩
      rw [isCharBoundary, hsplit] at hnext
      exact Bool.false_ne_true hnext.2.symm
    · rw [if_neg hnext]
      rw [Bool.and_eq_true, decide_eq_true_eq, not_and, Bool.not_eq_true',
        Bool.not_eq_false] at hnext
      rcases Nat.lt_or_eq_of_le hstart with hlt | rfl
      · exact ⟨_, (Option.some_get (hnext hlt)).symm, le_rfl, fun front back _ hle ↦ hle⟩
      · exact ⟨_, hend, le_rfl, fun front back _ hle ↦ hle⟩

/-- A text that does not fit, or is to be marked as cut in any case, is presented as the marker of
the budget and the longest end of the text that fits behind it. -/
theorem boundPresentedText_of_cut {text : Str} {maxBytes : ℕ} {forceTruncated : Bool}
    (hcut : (!forceTruncated && decide (utf8Len text ≤ maxBytes)) = false) :
    ∃ front back, text = front ++ back ∧
      boundPresentedText text maxBytes forceTruncated = some (truncationMarker maxBytes ++ back) ∧
      utf8Len (truncationMarker maxBytes ++ back) ≤ maxBytes ∧
      ∀ front' back', text = front' ++ back' → utf8Len (truncationMarker maxBytes ++ back') ≤
        maxBytes →
        utf8Len back' ≤ utf8Len back := by
  have hmarker := utf8Len_truncationMarker_le maxBytes
  have hfuel : utf8Len text - (utf8Len text - (maxBytes - utf8Len (truncationMarker maxBytes))) ≤
      utf8Len text :=
    Nat.sub_le _ _
  obtain ⟨⟨front, back⟩, hsplit, _, hfirst⟩ := advanceToBoundary_spec (Nat.sub_le _ _) hfuel
  obtain ⟨htext, _⟩ := splitAtByte_eq_some_iff.mp hsplit
  have hlength : utf8Len text = utf8Len front + utf8Len back := by rw [htext, utf8Len_append]
  refine ⟨front, back, htext, ?_, ?_, fun front' back' htext' hfits ↦ ?_⟩
  · rw [boundPresentedText, hcut, if_neg Bool.false_ne_true]
    by_cases hzero : maxBytes = 0
    · subst hzero
      have hback : back = [] := String.utf8Len_eq_zero.mp (by omega)
      rw [if_pos rfl, hback]
      rfl
    · rw [if_neg hzero]
      dsimp only
      split_ifs with hempty hbudget
      · rw [List.isEmpty_iff] at hempty
        rw [hempty] at hbudget
        exact absurd hbudget hzero
      · rw [List.isEmpty_iff] at hempty
        rw [hsplit, hempty]
        rfl
      · rw [hsplit]
        rfl
  · rw [utf8Len_append]
    omega
  · have hlength' : utf8Len text = utf8Len front' + utf8Len back' := by rw [htext', utf8Len_append]
    rw [utf8Len_append] at hfits
    have hle := hfirst front' back' htext' (by omega)
    omega

/-- A text within its budget is presented as it is, unless it is to be marked as cut. Otherwise the
marker of the budget comes first, and the longest end of the text that fits behind it. -/
theorem presentation_is_longest_end (text : Str) (maxBytes : ℕ) (forceTruncated : Bool) :
    if forceTruncated = false ∧ utf8Len text ≤ maxBytes then
      boundPresentedText text maxBytes forceTruncated = some text
    else
      ∃ front back, text = front ++ back ∧
        boundPresentedText text maxBytes forceTruncated = some (truncationMarker maxBytes ++ back) ∧
        utf8Len (truncationMarker maxBytes ++ back) ≤ maxBytes ∧
        ∀ front' back', text = front' ++ back' → utf8Len (truncationMarker maxBytes ++ back') ≤
          maxBytes →
          utf8Len back' ≤ utf8Len back := by
  split_ifs with hwhole
  · rw [boundPresentedText, hwhole.1, decide_eq_true hwhole.2]
    rfl
  · refine boundPresentedText_of_cut ?_
    rw [Bool.and_eq_false_iff, Bool.not_eq_false', decide_eq_false_iff_not]
    rw [not_and_or, Bool.not_eq_false] at hwhole
    exact hwhole

/-- A text that fits gets a marker when its capture was cut, and a cut text gets none in a tiny
budget. -/
theorem marker_depends_on_capture_and_budget :
    (utf8Len ['a'] ≤ 100 ∧
      boundPresentedText ['a'] 100 true = some (longTruncationMarker ++ ['a'])) ∧
    boundPresentedText ['a', 'b', 'c', 'd'] 3 false = some ['b', 'c', 'd'] := by
  decide

end WebCodex.OutputText
