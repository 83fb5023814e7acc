import Mathlib.Data.List.Nodup
import Mathlib.Data.List.Range
import Mathlib.Tactic.Common

/-!
Some items of a log carry a number. The numbers are given out one by one from one on, and items
leave the log at its front, so the numbers that are left are the last ones that were given
(`IsRetained`). A reader who knows the items up to some number finds the missing ones among those
that are left, and when their count is too small, one of them has left.
-/

namespace WebCodex.Foundation.Numbering

variable {A : Type*} (number : A → Option ℕ)

def numbers (items : List A) : List ℕ := items.filterMap number

/-- The numbers that are left are the last of those up to `last`. -/
def IsRetained (last : ℕ) (items : List A) : Prop := numbers number items <:+ List.range' 1 last

/-- The items with a number above `low` and up to `high`. -/
def between (low high : ℕ) (items : List A) : List A :=
  items.filter fun item ↦ (number item).any fun n ↦ decide (low < n) && decide (n ≤ high)

section Facts

variable {number} {last low n : ℕ} {items : List A} {item : A}

theorem mem_numbers : n ∈ numbers number items ↔ ∃ item ∈ items, number item = some n := by
  simp [numbers]

theorem mem_between {high : ℕ} : item ∈ between number low high items ↔
    item ∈ items ∧ ∃ n, number item = some n ∧ low < n ∧ n ≤ high := by
  simp [between, Option.any_eq_true]

theorem numbers_append (items more : List A) :
    numbers number (items ++ more) = numbers number items ++ numbers number more :=
  List.filterMap_append

/-- Only the numbers of a log matter. -/
theorem numbers_of_map_eq {B : Type*} {other : B → Option ℕ} {others : List B}
    (h : others.map other = items.map number) : numbers other others = numbers number items := by
  calc numbers other others = (others.map other).filterMap id := by rw [List.filterMap_map]; rfl
    _ = (items.map number).filterMap id := by rw [h]
    _ = numbers number items := by rw [List.filterMap_map]; rfl

theorem isRetained_nil : IsRetained number 0 ([] : List A) := List.suffix_refl _

namespace IsRetained

theorem mem_le (h : IsRetained number last items) (hn : n ∈ numbers number items) :
    1 ≤ n ∧ n ≤ last := by
  have hrange := h.subset hn
  rw [List.mem_range'_1] at hrange
  omega

/-- An item without a number changes nothing. -/
theorem push_none (h : IsRetained number last items) (hnone : number item = none) :
    IsRetained number last (items ++ [item]) := by
  unfold IsRetained at h ⊢
  simpa [numbers, hnone] using h

/-- The next number. -/
theorem push_next (h : IsRetained number last items) (hnext : number item = some (last + 1)) :
    IsRetained number (last + 1) (items ++ [item]) := by
  obtain ⟨front, hfront⟩ := h
  refine ⟨front, ?_⟩
  rw [numbers_append, ← List.append_assoc, hfront, List.range'_1_concat]
  simp [numbers, hnext, Nat.add_comm]

/-- Items leave at the front. -/
theorem drop (h : IsRetained number last items) (count : ℕ) :
    IsRetained number last (items.drop count) :=
  ((List.drop_suffix count items).filterMap number).trans h

theorem congr {B : Type*} {other : B → Option ℕ} {others : List B}
    (h : IsRetained number last items) (hsame : numbers other others = numbers number items) :
    IsRetained other last others := by
  unfold IsRetained
  rw [hsame]
  exact h

theorem pairwise_lt (h : IsRetained number last items) : (numbers number items).Pairwise (· < ·) :=
  List.Pairwise.sublist h.sublist List.pairwise_lt_range'

end IsRetained

theorem numbers_between (low high : ℕ) (items : List A) :
    numbers number (between number low high items) =
      (numbers number items).filter fun n ↦ decide (low < n) && decide (n ≤ high) := by
  induction items with
  | nil => rfl
  | cons item _ ih =>
    cases hnumber : number item with
    | none => simpa [between, numbers, hnumber] using ih
    | some n =>
      by_cases hin : low < n ∧ n ≤ high
      · simpa [between, numbers, hnumber, hin] using ih
      · have hout : (decide (low < n) && decide (n ≤ high)) = false := by
          simpa [Bool.and_eq_false_iff] using hin
        simpa [between, numbers, hnumber, hout] using ih

/-- Every item that is found has a number. -/
theorem length_numbers_between (low high : ℕ) (items : List A) :
    (numbers number (between number low high items)).length =
      (between number low high items).length := by
  unfold numbers
  rw [List.length_filterMap_eq_countP, List.countP_eq_length]
  intro _ hitem
  obtain ⟨-, _, hn, -⟩ := mem_between.mp hitem
  simp [hn]

/-- As many numbers as were given out above `low`. -/
theorem length_filter_range' (low last : ℕ) :
    ((List.range' 1 last).filter fun n ↦ decide (low < n) && decide (n ≤ last)).length =
      last - low := by
  have hbound : (List.range' 1 last).filter (fun n ↦ decide (low < n) && decide (n ≤ last)) =
      (List.range' 1 last).filter fun n ↦ decide (low < n) := by
    refine List.filter_congr fun n hn ↦ ?_
    have hle : n ≤ last := by
      rw [List.mem_range'_1] at hn
      omega
    simp [hle]
  rw [hbound]
  clear hbound
  induction last with
  | zero => simp
  | succ last ih =>
    rw [List.range'_1_concat, List.filter_append, List.length_append, ih]
    by_cases hlow : low < 1 + last
    · simp only [List.filter_singleton, hlow, decide_true, cond_true, List.length_singleton]
      omega
    · simp only [List.filter_singleton, hlow, decide_false, cond_false, List.length_nil]
      omega

/-- The count of the items above `low` falls short exactly when one of them has left. -/
theorem length_between_lt_iff (h : IsRetained number last items) :
    (between number low last items).length < last - low ↔
      ∃ n, low < n ∧ n ≤ last ∧ ∀ item ∈ items, number item ≠ some n := by
  have hall : ((numbers number items).filter fun n ↦
      decide (low < n) && decide (n ≤ last)).Sublist
        ((List.range' 1 last).filter fun n ↦ decide (low < n) && decide (n ≤ last)) :=
    h.sublist.filter _
  rw [← length_numbers_between, numbers_between, ← length_filter_range' low last]
  constructor
  · intro _
    by_contra hnone
    have hsubset : (List.range' 1 last).filter (fun n ↦ decide (low < n) && decide (n ≤ last)) ⊆
        (numbers number items).filter fun n ↦ decide (low < n) && decide (n ≤ last) := by
      intro n hn
      obtain ⟨hmem, hbound⟩ := List.mem_filter.mp hn
      refine List.mem_filter.mpr ⟨?_, hbound⟩
      by_contra hleft
      simp only [Bool.and_eq_true, decide_eq_true_eq] at hbound
      exact hnone ⟨n, hbound.1, hbound.2, fun item hitem hnumber ↦
        hleft (mem_numbers.mpr ⟨item, hitem, hnumber⟩)⟩
    have hle := ((List.nodup_range' (s := 1) (n := last)).filter _).length_le_of_subset hsubset
    omega
  · rintro ⟨n, _, _, hleft⟩
    refine lt_of_le_of_ne hall.length_le fun hlength ↦ ?_
    have hmem : n ∈ (List.range' 1 last).filter fun n ↦ decide (low < n) && decide (n ≤ last) := by
      simp [List.mem_range'_1]
      omega
    rw [← hall.eq_of_length hlength] at hmem
    obtain ⟨item, hitem, hnumber⟩ := mem_numbers.mp (List.mem_filter.mp hmem).1
    exact hleft item hitem hnumber

end Facts

end WebCodex.Foundation.Numbering
