import Mathlib.Data.List.Sort
import Mathlib.Tactic.Common

/-!
A replacement names a range of a list and what is to stand in its place. Applied one after another
from the last to the first, replacements do not disturb the positions of those still to come; the
result should be the list read once from left to right, with each range exchanged on the way
(`mergeFrom`).
-/

namespace WebCodex.Foundation.Splice

variable {α : Type*}

/-- `len` elements from `start` on are to be replaced by `content`. -/
structure Replacement (α : Type*) where
  (start len : ℕ)
  content : List α

def Replacement.stop (replacement : Replacement α) : ℕ := replacement.start + replacement.len

/-- The replacement's range lies before another's. -/
def Replacement.Before (first second : Replacement α) : Prop := first.stop ≤ second.start

/-- The order by which replacements are sorted. -/
def startLe (first second : Replacement α) : Prop := first.start ≤ second.start

instance (first second : Replacement α) : Decidable (startLe first second) :=
  inferInstanceAs (Decidable (_ ≤ _))

def splice (elements : List α) (replacement : Replacement α) : List α :=
  elements.take replacement.start ++ replacement.content ++ elements.drop replacement.stop

/-- Replacements applied from the last to the first. -/
def spliceReverse (elements : List α) (replacements : List (Replacement α)) : List α :=
  replacements.foldr (fun replacement result ↦ splice result replacement) elements

/-- The list from a position on, read from left to right: elements outside the ranges as they are,
each range exchanged for its content. -/
def mergeFrom (elements : List α) : ℕ → List (Replacement α) → List α
  | position, [] => elements.drop position
  | position, replacement :: rest =>
    (elements.drop position).take (replacement.start - position) ++ replacement.content ++
      mergeFrom elements replacement.stop rest

variable {replacements : List (Replacement α)}

/-- Splicing in reverse order is merging from left to right. Assumes: the ranges lie in order behind
the position, within the list. -/
theorem spliceReverse_eq_mergeFrom {elements : List α}
    (hbefore : replacements.Pairwise Replacement.Before)
    (hbounds : ∀ replacement ∈ replacements, replacement.stop ≤ elements.length) {position : ℕ}
    (hposition : ∀ replacement ∈ replacements, position ≤ replacement.start)
    (hin : position ≤ elements.length) :
    spliceReverse elements replacements =
      elements.take position ++ mergeFrom elements position replacements := by
  induction replacements generalizing position with
  | nil => simp [spliceReverse, mergeFrom]
  | cons replacement rest ih =>
    rw [List.pairwise_cons] at hbefore
    have hstop : replacement.stop ≤ elements.length := hbounds replacement (by simp)
    have hstart : replacement.start ≤ replacement.stop := Nat.le_add_right _ _
    have hrest := ih hbefore.2 (fun other hother ↦ hbounds other (by simp [hother])) hbefore.1 hstop
    have hreverse : spliceReverse elements (replacement :: rest) =
        splice (spliceReverse elements rest) replacement := rfl
    have htake : (elements.take replacement.stop ++ mergeFrom elements replacement.stop rest).take
        replacement.start = elements.take position ++
          (elements.drop position).take (replacement.start - position) := by
      have hle := hposition replacement (by simp)
      rw [List.take_append_of_le_length (by rw [List.length_take]; omega), List.take_take,
        Nat.min_eq_left hstart]
      obtain ⟨gap, hgap⟩ : ∃ gap, replacement.start = position + gap :=
        ⟨replacement.start - position, by omega⟩
      rw [hgap, List.take_add, Nat.add_sub_cancel_left]
    have hdrop : (elements.take replacement.stop ++
        mergeFrom elements replacement.stop rest).drop replacement.stop =
          mergeFrom elements replacement.stop rest := by
      rw [List.drop_append_of_le_length (by rw [List.length_take]; omega),
        List.drop_eq_nil_of_le (by rw [List.length_take]; omega), List.nil_append]
    rw [hreverse, hrest, splice, htake, hdrop, mergeFrom]
    simp

/-- A merge holds only elements of the list and of the contents. -/
theorem mem_mergeFrom {elements : List α} {x : α} :
    ∀ {position : ℕ}, x ∈ mergeFrom elements position replacements →
      x ∈ elements ∨ ∃ replacement ∈ replacements, x ∈ replacement.content := by
  induction replacements with
  | nil => exact fun hmem ↦ Or.inl (List.mem_of_mem_drop hmem)
  | cons replacement _ ih =>
    intro position hmem
    simp only [mergeFrom, List.mem_append] at hmem
    rcases hmem with (hkept | hcontent) | hrest
    · exact Or.inl (List.mem_of_mem_drop (List.mem_of_mem_take hkept))
    · exact Or.inr ⟨replacement, by simp, hcontent⟩
    · rcases ih hrest with helement | ⟨other, hother, hmem⟩
      · exact Or.inl helement
      · exact Or.inr ⟨other, by simp [hother], hmem⟩

/-- Replacements found in order are in order when sorted by start, where a replacement may also
append at the end of the list at any time. Assumes: every replacement is within the bound, and each
one either lies before all that were found after it or is an append at the bound. -/
theorem pairwise_before_insertionSort {bound : ℕ}
    (hbounds : ∀ replacement ∈ replacements, replacement.stop ≤ bound)
    (hfound : replacements.Pairwise fun first second ↦ first.Before second ∨
      (first.start = bound ∧ first.len = 0)) :
    (replacements.insertionSort startLe).Pairwise Replacement.Before := by
  induction replacements with
  | nil => simp
  | cons replacement rest ih =>
    rw [List.pairwise_cons] at hfound
    have hsorted := ih (fun other hother ↦ hbounds other (by simp [hother])) hfound.2
    have hmem : ∀ other ∈ rest.insertionSort startLe, other ∈ rest := fun other hother ↦
      (List.mem_insertionSort startLe).mp hother
    rw [List.insertionSort_cons]
    generalize rest.insertionSort startLe = sorted at hsorted hmem
    -- The replacement goes in front of the first one that does not start before it.
    induction sorted with
    | nil => simp
    | cons head tail ihsorted =>
      rw [List.pairwise_cons] at hsorted
      have hhead := hfound.1 head (hmem head (by simp))
      rw [List.orderedInsert_cons]
      split_ifs with hle
      · have hfirst : ∀ other ∈ head :: tail, replacement.Before other := by
          intro other hother
          have hstart : head.start ≤ other.start := by
            rcases List.mem_cons.mp hother with rfl | htail
            · exact le_rfl
            · exact (Nat.le_add_right _ _).trans (hsorted.1 other htail)
          rcases hfound.1 other (hmem other hother) with hbefore | ⟨hend, hlen⟩
          · exact hbefore
          · simp only [Replacement.Before, Replacement.stop, hlen, startLe] at hle ⊢
            omega
        exact List.pairwise_cons.mpr ⟨hfirst, List.pairwise_cons.mpr hsorted⟩
      · have hinserted := ihsorted hsorted.2 fun other hother ↦ hmem other (by simp [hother])
        refine List.pairwise_cons.mpr ⟨fun other hother ↦ ?_, hinserted⟩
        rcases (List.mem_orderedInsert startLe).mp hother with rfl | htail
        · rcases hhead with hbefore | ⟨hend, -⟩
          · simp only [Replacement.Before, Replacement.stop, startLe] at hbefore hle
            omega
          · have hstop := hbounds head (by simp [hmem head (by simp)])
            simp only [Replacement.Before]
            omega
        · exact hsorted.1 other htail

end WebCodex.Foundation.Splice
