import Mathlib.Order.Basic
import Mathlib.Order.Lattice
import Mathlib.Tactic.Common

/-!
A store gives every change of a value the next revision (`Versions`). It advances when values that
it still has are the same as before, unless their revision is a new one (`Advances`). An
observer's copy follows the store up to a mark when every value with a revision up to the mark is
in it, or has been in the store from the start (`Follows`).
-/

namespace WebCodex.Foundation

/-- The values of a store with their revisions, and the last revision that was given. -/
structure Versions (K V R : Type*) where
  has : K → V → R → Prop
  current : R

namespace Versions

variable {K V R : Type*} [LinearOrder R]

structure Advances (old new : Versions K V R) : Prop where
  current : old.current ≤ new.current
  kept : ∀ key value revision, new.has key value revision → revision ≤ old.current →
    old.has key value revision

theorem Advances.refl (versions : Versions K V R) : Advances versions versions where
  current := le_rfl
  kept _ _ _ hhas _ := hhas

theorem Advances.trans {first second third : Versions K V R} (hone : Advances first second)
    (htwo : Advances second third) : Advances first third where
  current := hone.current.trans htwo.current
  kept := by
    intro key value revision hhas hle
    have hsecond := htwo.kept key value revision hhas (hle.trans hone.current)
    exact hone.kept key value revision hsecond hle

/-- A copy has every value up to the mark that was not in the store from the start. -/
structure Follows (first versions : Versions K V R) (mark : R) (copy : K → Option V) : Prop where
  marked : mark ≤ versions.current
  copied : ∀ key value revision, versions.has key value revision → revision ≤ mark →
    first.has key value revision ∨ copy key = some value

/-- An observer that starts has nothing to copy. -/
theorem Follows.start (versions : Versions K V R) (copy : K → Option V) :
    Follows versions versions versions.current copy where
  marked := le_rfl
  copied _ _ _ hhas _ := Or.inl hhas

/-- A copy follows what the store becomes. -/
theorem Follows.advance {first old new : Versions K V R} {mark : R} {copy : K → Option V}
    (h : Follows first old mark copy) (hadvances : Advances old new) :
    Follows first new mark copy where
  marked := h.marked.trans hadvances.current
  copied := by
    intro key value revision hhas hle
    have hold := hadvances.kept key value revision hhas (hle.trans h.marked)
    exact h.copied key value revision hold hle

/-- Everything between the old mark and the new one is delivered, and only that. -/
theorem Follows.deliver {first versions : Versions K V R} {mark next : R}
    {copy updated : K → Option V} (h : Follows first versions mark copy)
    (hnext : next ≤ versions.current)
    (hnew : ∀ key value revision, versions.has key value revision → mark < revision →
      revision ≤ next → updated key = some value)
    (hold : ∀ key value revision, versions.has key value revision → revision ≤ mark →
      updated key = copy key) :
    Follows first versions next updated where
  marked := hnext
  copied := by
    intro key value revision hhas hle
    by_cases hmark : revision ≤ mark
    · rw [hold key value revision hhas hmark]
      exact h.copied key value revision hhas hmark
    · exact Or.inr (hnew key value revision hhas (not_le.mp hmark) hle)

end Versions

end WebCodex.Foundation
