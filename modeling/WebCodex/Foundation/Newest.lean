import Mathlib.Order.Basic
import Mathlib.Order.Lattice
import Mathlib.Tactic.Common

/-!
An observer is told values in any order and keeps one of them: what is not newer than the value that
it keeps is ignored, and what is newer replaces it. Whatever the order was, and however often a
value was told, it ends with the newest of them (`foldlM_keeps_newest`).
-/

namespace WebCodex.Foundation

variable {α ε R : Type*} [LinearOrder R] {rank : α → R}

/-- A value that was told, and that none of the others is newer than. -/
structure IsNewest (rank : α → R) (told : List α) (value : α) : Prop where
  mem : value ∈ told
  le : ∀ other ∈ told, rank other ≤ rank value

theorem IsNewest.single (value : α) : IsNewest rank [value] value where
  mem := List.mem_singleton_self value
  le _ hother := (congrArg rank (List.mem_singleton.mp hother)).le

/-- A value that is not newer changes nothing. -/
theorem IsNewest.ignore {told : List α} {kept value : α} (h : IsNewest rank told kept)
    (hle : rank value ≤ rank kept) : IsNewest rank (told ++ [value]) kept where
  mem := List.mem_append_left _ h.mem
  le := by
    intro other hother
    rcases List.mem_append.mp hother with hold | hnew
    · exact h.le other hold
    · rw [List.mem_singleton.mp hnew]
      exact hle

/-- A value that is newer becomes the newest. -/
theorem IsNewest.replace {told : List α} {kept value : α} (h : IsNewest rank told kept)
    (hlt : rank kept < rank value) : IsNewest rank (told ++ [value]) value where
  mem := List.mem_append_right _ (List.mem_singleton_self value)
  le := by
    intro other hother
    rcases List.mem_append.mp hother with hold | hnew
    · exact (h.le other hold).trans hlt.le
    · exact (congrArg rank (List.mem_singleton.mp hnew)).le

/-- An observer that accepts everything newer ends with the newest value. -/
theorem foldlM_keeps_newest (observe : α → α → Except ε α) (among : α → Prop)
    (hignore : ∀ kept value, among kept → among value → rank value ≤ rank kept →
      observe kept value = .ok kept)
    (hreplace : ∀ kept value, among kept → among value → rank kept < rank value →
      observe kept value = .ok value)
    (rest : List α) : ∀ (told : List α) (kept : α), among kept → (∀ value ∈ rest, among value) →
      IsNewest rank told kept →
      ∃ final, rest.foldlM observe kept = .ok final ∧ IsNewest rank (told ++ rest) final := by
  induction rest with
  | nil =>
    intro told kept _ _ hnewest
    exact ⟨kept, rfl, by rwa [List.append_nil]⟩
  | cons value rest ih =>
    intro told kept hkept hrest hnewest
    have hvalue := hrest value List.mem_cons_self
    have htail : ∀ other ∈ rest, among other := fun other hother ↦
      hrest other (List.mem_cons_of_mem _ hother)
    rcases le_or_gt (rank value) (rank kept) with hle | hlt
    · obtain ⟨final, hfinal, hnew⟩ := ih _ kept hkept htail (hnewest.ignore hle)
      refine ⟨final, ?_, by rwa [List.append_assoc] at hnew⟩
      rw [List.foldlM_cons, hignore kept value hkept hvalue hle]
      exact hfinal
    · obtain ⟨final, hfinal, hnew⟩ := ih _ value hvalue htail (hnewest.replace hlt)
      refine ⟨final, ?_, by rwa [List.append_assoc] at hnew⟩
      rw [List.foldlM_cons, hreplace kept value hkept hvalue hlt]
      exact hfinal

end WebCodex.Foundation
