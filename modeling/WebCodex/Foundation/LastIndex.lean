import Mathlib.Data.List.Basic
import Mathlib.Tactic.Common

/-!
The place of the last element of a list that has a property, as a search from the end finds it.
-/

namespace WebCodex.Foundation

variable {A : Type*} {p : A → Bool} {items : List A}

/-- The index of the last element with the property. -/
def lastIndex (p : A → Bool) : List A → Option ℕ
  | [] => none
  | item :: rest =>
    match lastIndex p rest with
    | some index => some (index + 1)
    | none => if p item then some 0 else none

theorem lastIndex_eq_none : lastIndex p items = none ↔ ∀ item ∈ items, p item = false := by
  induction items with
  | nil => simp [lastIndex]
  | cons _ rest ih =>
    cases hrest : lastIndex p rest with
    | some index =>
      have hsome : ¬ ∀ other ∈ rest, p other = false := by
        intro hall
        rw [ih.mpr hall] at hrest
        exact Option.some_ne_none index hrest.symm
      simp only [lastIndex, hrest, reduceCtorEq, List.mem_cons, forall_eq_or_imp, false_iff]
      exact fun h ↦ hsome h.2
    | none =>
      have hall := ih.mp hrest
      simpa [lastIndex, hrest] using fun _ ↦ hall

/-- What is found has the property, and nothing after it has. -/
theorem lastIndex_eq_some {index : ℕ} : lastIndex p items = some index ↔
      (∃ item, items[index]? = some item ∧ p item = true) ∧
        ∀ later item, index < later → items[later]? = some item → p item = false := by
  induction items generalizing index with
  | nil => simp [lastIndex]
  | cons first rest ih =>
    cases hrest : lastIndex p rest with
    | some found =>
      obtain ⟨⟨item, hitem, hp⟩, hafter⟩ := ih.mp hrest
      simp only [lastIndex, hrest, Option.some.injEq]
      constructor
      · rintro rfl
        refine ⟨⟨item, by simpa using hitem, hp⟩, ?_⟩
        intro later other hlater hother
        obtain ⟨place, rfl⟩ : ∃ place, later = place + 1 := ⟨later - 1, by omega⟩
        exact hafter place other (by omega) (by simpa using hother)
      · rintro ⟨⟨other, hother, hpOther⟩, hlast⟩
        by_cases hlt : index < found + 1
        · have := hlast (found + 1) item hlt (by simpa using hitem)
          simp [hp] at this
        · by_cases heq : found + 1 = index
          · exact heq
          · obtain ⟨place, rfl⟩ : ∃ place, index = place + 1 := ⟨index - 1, by omega⟩
            have := hafter place other (by omega) (by simpa using hother)
            simp [hpOther] at this
    | none =>
      have hnone := lastIndex_eq_none.mp hrest
      have hrestFalse : ∀ place item, rest[place]? = some item → p item = false :=
        fun place item h ↦ hnone item (List.mem_of_getElem? h)
      by_cases hfirst : p first = true
      · simp only [lastIndex, hrest, hfirst, if_true, Option.some.injEq]
        constructor
        · rintro rfl
          refine ⟨⟨first, rfl, hfirst⟩, ?_⟩
          intro later other hlater hother
          obtain ⟨place, rfl⟩ : ∃ place, later = place + 1 := ⟨later - 1, by omega⟩
          exact hrestFalse place other (by simpa using hother)
        · rintro ⟨⟨other, hother, hpOther⟩, -⟩
          cases index with
          | zero => rfl
          | succ place =>
            have := hrestFalse place other (by simpa using hother)
            simp [hpOther] at this
      · simp only [lastIndex, hrest, hfirst, if_false, reduceCtorEq, false_iff]
        rintro ⟨⟨other, hother, hpOther⟩, -⟩
        cases index with
        | zero =>
          obtain rfl : first = other := by simpa using hother
          exact hfirst hpOther
        | succ place =>
          have := hrestFalse place other (by simpa using hother)
          simp [hpOther] at this

/-- A search before a place. -/
theorem lastIndex_take_eq_some {place index : ℕ} : lastIndex p (items.take place) = some index ↔
      index < place ∧ (∃ item, items[index]? = some item ∧ p item = true) ∧
        ∀ later item, index < later → later < place → items[later]? = some item →
          p item = false := by
  rw [lastIndex_eq_some]
  simp only [List.getElem?_take]
  constructor
  · rintro ⟨⟨item, hitem, hp⟩, hlast⟩
    by_cases hlt : index < place
    · rw [if_pos hlt] at hitem
      refine ⟨hlt, ⟨item, hitem, hp⟩, fun later other hlater hbefore hother ↦ ?_⟩
      exact hlast later other hlater (by rw [if_pos hbefore]; exact hother)
    · rw [if_neg hlt] at hitem
      exact absurd hitem.symm (Option.some_ne_none item)
  · rintro ⟨hlt, ⟨item, hitem, hp⟩, hlast⟩
    refine ⟨⟨item, by rw [if_pos hlt]; exact hitem, hp⟩, fun later other hlater hother ↦ ?_⟩
    by_cases hbefore : later < place
    · rw [if_pos hbefore] at hother
      exact hlast later other hlater hbefore hother
    · rw [if_neg hbefore] at hother
      exact absurd hother.symm (Option.some_ne_none other)

/-- A search from a place on, in the places of the whole list. -/
theorem lastIndex_drop_eq_some {place index : ℕ} :
    (lastIndex p (items.drop place)).map (place + ·) = some index ↔
      place ≤ index ∧ (∃ item, items[index]? = some item ∧ p item = true) ∧
        ∀ later item, index < later → items[later]? = some item → p item = false := by
  rw [Option.map_eq_some_iff]
  constructor
  · rintro ⟨found, hfound, rfl⟩
    obtain ⟨⟨item, hitem, hp⟩, hlast⟩ := lastIndex_eq_some.mp hfound
    rw [List.getElem?_drop] at hitem
    refine ⟨Nat.le_add_right place found, ⟨item, hitem, hp⟩, fun later other hlater hother ↦ ?_⟩
    refine hlast (later - place) other (by omega) ?_
    rw [List.getElem?_drop, show place + (later - place) = later by omega]
    exact hother
  · rintro ⟨_, ⟨item, hitem, hp⟩, hlast⟩
    refine ⟨index - place, lastIndex_eq_some.mpr ⟨⟨item, ?_, hp⟩, ?_⟩, by omega⟩
    · rw [List.getElem?_drop, show place + (index - place) = index by omega]
      exact hitem
    · intro later other hlater hother
      rw [List.getElem?_drop] at hother
      exact hlast (place + later) other (by omega) hother

end WebCodex.Foundation
