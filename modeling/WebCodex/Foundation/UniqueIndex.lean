import Mathlib.Data.List.Nodup
import Mathlib.Data.List.Pairwise
import Mathlib.Tactic.Common

/-!
A unique index of a table covers some of its rows and admits no two of them with the same key. A
primary key is the index that covers every row.
-/

namespace WebCodex.Foundation

variable {A K : Type*}

/-- The rows after an update of those that satisfy a condition. -/
def updateWhere (condition : A → Bool) (f : A → A) (rows : List A) : List A :=
  rows.map fun row ↦ if condition row then f row else row

variable {condition : A → Bool}

theorem mem_updateWhere {f : A → A} {rows : List A} {after : A}
    (h : after ∈ updateWhere condition f rows) :
    ∃ row ∈ rows, after = if condition row then f row else row := by
  obtain ⟨row, hrow, rfl⟩ := List.mem_map.mp h
  exact ⟨row, hrow, rfl⟩

/-- A view that the update keeps in the rows that it changes. -/
theorem map_view_updateWhere {B : Type*} {view : A → B} {f : A → A} {rows : List A}
    (hf : ∀ row, view (f row) = view row) :
    (updateWhere condition f rows).map view = rows.map view := by
  rw [updateWhere, List.map_map]
  refine List.map_congr_left fun row _ ↦ ?_
  simp only [Function.comp_apply]
  split_ifs
  · exact hf row
  · rfl

/-- An index of the rows that it covers, under a key. -/
structure UniqueIndex (A K : Type*) where
  key : A → K
  covers : A → Bool := fun _ ↦ true

variable {row other : A}

namespace UniqueIndex

variable (index : UniqueIndex A K)

/-- The rows that the index covers have distinct keys. -/
def Holds (rows : List A) : Prop := ((rows.filter index.covers).map index.key).Nodup

instance [DecidableEq K] (rows : List A) : Decidable (index.Holds rows) :=
  inferInstanceAs (Decidable (List.Nodup _))

def Clash (row other : A) : Prop :=
  index.covers row = true ∧ index.covers other = true ∧ index.key row = index.key other

variable {index} {rows : List A} {f : A → A}

theorem Clash.symm (h : index.Clash row other) : index.Clash other row := ⟨h.2.1, h.1, h.2.2.symm⟩

instance (g : A → A) : Std.Symm fun row other ↦ ¬ index.Clash (g row) (g other) :=
  ⟨fun _ _ hfree hclash ↦ hfree hclash.symm⟩

theorem holds_iff_pairwise : index.Holds rows ↔ rows.Pairwise fun row other ↦
    ¬ index.Clash row other := by
  rw [Holds, List.Nodup, List.pairwise_map, List.pairwise_filter]
  refine List.Pairwise.iff fun row other ↦ ?_
  unfold Clash
  tauto

/-- No row comes under the index, and those that stay keep their keys. -/
theorem holds_map (hf : ∀ row ∈ rows, index.covers (f row) = true →
      index.covers row = true ∧ index.key (f row) = index.key row)
    (h : index.Holds rows) : index.Holds (rows.map f) := by
  rw [holds_iff_pairwise] at h ⊢
  rw [List.pairwise_map]
  refine h.imp_of_mem fun {row other} hrow hother hfree hclash ↦ hfree ?_
  obtain ⟨hcovers, hkey⟩ := hf row hrow hclash.1
  obtain ⟨hcovers', hkey'⟩ := hf other hother hclash.2.1
  exact ⟨hcovers, hcovers', by rw [← hkey, ← hkey', hclash.2.2]⟩

theorem holds_updateWhere
    (hf : ∀ row ∈ rows, condition row = true → index.covers (f row) = true →
      index.covers row = true ∧ index.key (f row) = index.key row)
    (h : index.Holds rows) : index.Holds (updateWhere condition f rows) := by
  refine holds_map (fun row hrow hcovers ↦ ?_) h
  split_ifs at hcovers ⊢ with hcondition
  · exact hf row hrow hcondition hcovers
  · exact ⟨hcovers, rfl⟩

/-- A new row. -/
theorem holds_concat (h : index.Holds rows) (hfree : ∀ other ∈ rows, ¬ index.Clash row other) :
    index.Holds (rows ++ [row]) := by
  rw [holds_iff_pairwise] at h ⊢
  rw [List.pairwise_append]
  refine ⟨h, List.pairwise_singleton _ _, ?_⟩
  intro other hother _ hnew hclash
  obtain rfl := List.mem_singleton.mp hnew
  exact hfree other hother hclash.symm

/-- Two rows that stand in each other's way are one. -/
theorem eq_of_clash (h : index.Holds rows) (hrow : row ∈ rows) (hother : other ∈ rows)
    (hclash : index.Clash row other) : row = other := by
  by_contra hne
  have hpairwise : rows.Pairwise fun row other ↦ ¬ index.Clash (id row) (id other) :=
    holds_iff_pairwise.mp h
  exact hpairwise.forall hrow hother hne hclash

/-- Rows of an index that covers them all are one when they have one key. -/
theorem eq_of_key (hall : ∀ row, index.covers row = true) (h : index.Holds rows) (hrow : row ∈ rows)
    (hother : other ∈ rows) (hkey : index.key row = index.key other) :
    row = other :=
  eq_of_clash h hrow hother ⟨hall row, hall other, hkey⟩

/-- One row is changed and comes under the index: its key has to be free. -/
theorem holds_updateWhere_iff (hrow : row ∈ rows)
    (honly : ∀ other ∈ rows, condition other = true ↔ other = row) (hnodup : rows.Nodup)
    (h : index.Holds rows) :
    index.Holds (updateWhere condition f rows) ↔
      ∀ other ∈ rows, other ≠ row → ¬ index.Clash (f row) other := by
  have hself : (if condition row then f row else row) = f row := if_pos ((honly row hrow).mpr rfl)
  have hrest {other : A} (hother : other ∈ rows) (hne : other ≠ row) :
      (if condition other then f other else other) = other :=
    if_neg fun hcondition ↦ hne ((honly other hother).mp hcondition)
  rw [holds_iff_pairwise, updateWhere, List.pairwise_map]
  constructor
  · intro hpairwise other hother hne hclash
    have hfree := hpairwise.forall hrow hother hne.symm
    rw [hself, hrest hother hne] at hfree
    exact hfree hclash
  · intro hfree
    rw [holds_iff_pairwise] at h
    refine (h.and hnodup).imp_of_mem fun {first second} hfirst hsecond hboth hclash ↦ ?_
    by_cases hrow₁ : first = row
    · have hne : second ≠ row := fun heq ↦ hboth.2 (hrow₁.trans heq.symm)
      rw [hrow₁, hself, hrest hsecond hne] at hclash
      exact hfree second hsecond hne hclash
    · rw [hrest hfirst hrow₁] at hclash
      by_cases hrow₂ : second = row
      · rw [hrow₂, hself] at hclash
        exact hfree first hfirst hrow₁ hclash.symm
      · rw [hrest hsecond hrow₂] at hclash
        exact hboth.1 hclash

end UniqueIndex

end WebCodex.Foundation
