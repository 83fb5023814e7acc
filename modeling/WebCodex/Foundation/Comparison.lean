import Mathlib.Data.List.Dedup
import Mathlib.Data.Finset.Card

/-!
The elements of two collections fall into three parts: those that only the current one has, those
that only the previous one had, and those of both. `Splits` says that three lists are these parts,
each element listed once.
-/

namespace WebCodex.Foundation

universe u

variable {α : Type u}

structure Splits (current previous added gone kept : List α) : Prop where
  nodup_added : added.Nodup
  nodup_gone : gone.Nodup
  nodup_kept : kept.Nodup
  mem_added : ∀ x, x ∈ added ↔ x ∈ current ∧ x ∉ previous
  mem_gone : ∀ x, x ∈ gone ↔ x ∈ previous ∧ x ∉ current
  mem_kept : ∀ x, x ∈ kept ↔ x ∈ current ∧ x ∈ previous

namespace Splits

variable {current previous added gone kept : List α}

/-- The parts may be listed in any order. -/
theorem of_perm [DecidableEq α] {currentSet previousSet : List α} (hcurrent : currentSet.Nodup)
    (hprevious : previousSet.Nodup) (hmem_current : ∀ x, x ∈ currentSet ↔ x ∈ current)
    (hmem_previous : ∀ x, x ∈ previousSet ↔ x ∈ previous)
    (hadded : added.Perm (currentSet.filter fun x ↦ decide (x ∉ previousSet)))
    (hgone : gone.Perm (previousSet.filter fun x ↦ decide (x ∉ currentSet)))
    (hkept : kept.Perm (currentSet.filter fun x ↦ decide (x ∈ previousSet))) :
    Splits current previous added gone kept where
  nodup_added := hadded.nodup_iff.mpr (hcurrent.filter _)
  nodup_gone := hgone.nodup_iff.mpr (hprevious.filter _)
  nodup_kept := hkept.nodup_iff.mpr (hcurrent.filter _)
  mem_added x := by
    rw [hadded.mem_iff, List.mem_filter, decide_eq_true_eq, hmem_current, hmem_previous]
  mem_gone x := by
    rw [hgone.mem_iff, List.mem_filter, decide_eq_true_eq, hmem_current, hmem_previous]
  mem_kept x := by
    rw [hkept.mem_iff, List.mem_filter, decide_eq_true_eq, hmem_current, hmem_previous]

end Splits

end WebCodex.Foundation
