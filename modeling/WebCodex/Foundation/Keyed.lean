import Mathlib.Algebra.BigOperators.Group.List.Basic
import Mathlib.Algebra.GroupWithZero.Nat
import Mathlib.Data.List.Nodup
import Mathlib.Tactic.Common

/-!
The rows of a table in the order in which they were inserted, found and updated by a key. An update
that keeps the key of a row keeps the keys of the table, and when the keys are distinct it reaches
one row.
-/

namespace WebCodex.Foundation

variable {A K : Type*}

/-- A new row with a key that no row has. -/
theorem nodup_map_concat {key : A → K} {items : List A} {item : A} (hkeys : (items.map key).Nodup)
    (hnew : key item ∉ items.map key) : ((items ++ [item]).map key).Nodup := by
  rw [List.map_append, List.nodup_append]
  refine ⟨hkeys, List.nodup_singleton _, ?_⟩
  intro _ hfirst _ hsecond hsame
  rw [hsame, List.mem_singleton.mp hsecond] at hfirst
  exact hnew hfirst

variable [DecidableEq K]

/-- One row has the key of a row. -/
theorem countP_key_eq_one {key : A → K} {items : List A} {item : A} (hkeys : (items.map key).Nodup)
    (hmem : item ∈ items) : items.countP (fun other ↦ key other = key item) = 1 := by
  have hcount := List.count_eq_one_of_mem hkeys (List.mem_map_of_mem hmem)
  rw [List.count, List.countP_map] at hcount
  rw [← hcount]
  refine List.countP_congr fun other _ ↦ ?_
  simp

/-- A row after an update of the row with a key. -/
def updateRow (key : A → K) (target : K) (f : A → A) (item : A) : A :=
  if key item == target then f item else item

section Rows

variable {key : A → K} {items : List A} {item : A} {f : A → A} {target : K}

theorem updateRow_self (item : A) : updateRow key (key item) f item = f item :=
  if_pos (beq_self_eq_true _)

theorem updateRow_ne (h : key item ≠ target) : updateRow key target f item = item :=
  if_neg (by simpa using h)

/-- A view that the update keeps is kept in every row. -/
theorem view_updateRow {B : Type*} {view : A → B} (hf : ∀ item, view (f item) = view item)
    (item : A) : view (updateRow key target f item) = view item := by
  unfold updateRow
  split_ifs
  · exact hf item
  · rfl

theorem map_view_updateRow {B : Type*} {view : A → B} (hf : ∀ item, view (f item) = view item)
    (items : List A) : (items.map (updateRow key target f)).map view = items.map view := by
  rw [List.map_map]
  exact List.map_congr_left fun item _ ↦ view_updateRow hf item

/-- The row with the key after its update. -/
theorem find?_updateRow (hf : ∀ item, key (f item) = key item) (items : List A) :
    (items.map (updateRow key target f)).find? (fun item ↦ key item == target) =
      (items.find? fun item ↦ key item == target).map f := by
  induction items with
  | nil => rfl
  | cons item _ ih =>
    rw [List.map_cons, List.find?_cons, List.find?_cons, view_updateRow hf]
    by_cases htarget : key item = target
    · subst htarget
      simp [updateRow_self]
    · have hfalse : (key item == target) = false := by simpa using htarget
      rw [hfalse]
      exact ih

theorem mem_of_find?_key (h : items.find? (fun item ↦ key item == target) = some item) :
    item ∈ items ∧ key item = target :=
  ⟨List.mem_of_find?_eq_some h, by simpa using List.find?_some h⟩

/-- A row is found under its key. -/
theorem find?_key_of_mem (hkeys : (items.map key).Nodup) (hmem : item ∈ items) :
    items.find? (fun other ↦ key other == key item) = some item := by
  have hsome : (items.find? fun other ↦ key other == key item).isSome :=
    List.find?_isSome.mpr ⟨item, hmem, beq_self_eq_true (key item)⟩
  obtain ⟨_, hfound⟩ := Option.isSome_iff_exists.mp hsome
  obtain ⟨hfoundMem, hsame⟩ := mem_of_find?_key hfound
  rw [hfound, List.inj_on_of_nodup_map hkeys hfoundMem hmem hsame]

/-- The row with any key after a row with a new key was added. -/
theorem find?_key_concat (hfree : items.find? (fun other ↦ key other == key item) = none)
    (target : K) : (items ++ [item]).find? (fun other ↦ key other == target) =
      if target = key item then some item else items.find? fun other ↦ key other == target := by
  rw [List.find?_append, List.find?_singleton]
  split_ifs with hbeq hsame hsame
  · rw [hsame, hfree]
    rfl
  · exact absurd (beq_iff_eq.mp hbeq).symm hsame
  · exact absurd (beq_iff_eq.mpr hsame.symm) hbeq
  · rw [Option.or_none]

/-- The row with any key after the update of one row. -/
theorem find?_map_updateRow (hf : ∀ item, key (f item) = key item) (other : K) (items : List A) :
    (items.map (updateRow key target f)).find? (fun item ↦ key item == other) =
      (items.find? fun item ↦ key item == other).map (updateRow key target f) := by
  rw [List.find?_map]
  congr 2
  funext item
  simp [view_updateRow hf]

theorem mem_map_updateRow (hmem : item ∈ items) : f item ∈ items.map (updateRow key (key item) f) :=
  List.mem_map.mpr ⟨item, hmem, updateRow_self item⟩

/-- The rows after an update of one of them. -/
theorem mem_updateRow (hkeys : (items.map key).Nodup) (hmem : item ∈ items) {after : A}
    (hafter : after ∈ items.map (updateRow key (key item) f)) :
    after = f item ∨ (after ∈ items ∧ after ≠ item) := by
  obtain ⟨before, hbefore, rfl⟩ := List.mem_map.mp hafter
  by_cases hsame : key before = key item
  · obtain rfl := List.inj_on_of_nodup_map hkeys hbefore hmem hsame
    exact Or.inl (updateRow_self before)
  · rw [updateRow_ne hsame]
    exact Or.inr ⟨hbefore, fun heq ↦ hsame (congrArg key heq)⟩

/-- A sum over the rows after an update of one of them. -/
theorem sum_map_updateRow (weight : A → ℕ) (hkeys : (items.map key).Nodup) (hmem : item ∈ items) :
    ((items.map (updateRow key (key item) f)).map weight).sum + weight item =
      (items.map weight).sum + weight (f item) := by
  induction items with
  | nil => cases hmem
  | cons head rest ih =>
    rw [List.map_cons, List.nodup_cons] at hkeys
    simp only [List.map_cons, List.sum_cons]
    obtain rfl | hrest := List.mem_cons.mp hmem
    · -- No other row has the key.
      have hsame : rest.map (updateRow key (key item) f) = rest := by
        refine (List.map_congr_left fun other hother ↦ updateRow_ne fun heq ↦ ?_).trans
          (List.map_id rest)
        exact hkeys.1 (heq ▸ List.mem_map_of_mem hother)
      rw [hsame, updateRow_self]
      omega
    · have hne : key head ≠ key item := fun heq ↦ hkeys.1 (heq ▸ List.mem_map_of_mem hrest)
      rw [updateRow_ne hne]
      have hstep := ih hkeys.2 hrest
      omega

end Rows

end WebCodex.Foundation
