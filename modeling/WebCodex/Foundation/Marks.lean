import Mathlib.Data.List.Nodup
import Mathlib.Data.List.Perm.Subperm
import Mathlib.Tactic.Common

/-!
What was handled once is marked, so that it is not handled again. There is room for a bounded number
of marks. When it is used up, a mark is discarded that the current inventory does not name: an
inventory is no longer than the bound, and an item that it has dropped never comes back
(`NeverReturns`).
-/

namespace WebCodex.Foundation

variable {α : Type*}

/-- An item that an inventory has dropped is in no later one. -/
def NeverReturns (inventories : List (List α)) : Prop :=
  ∀ first second third, [first, second, third].Sublist inventories →
    ∀ item ∈ first, item ∉ second → item ∉ third

theorem NeverReturns.of_append {before after : List (List α)} (h : NeverReturns (before ++ after)) :
    NeverReturns before := fun first second third hsub ↦
  h first second third (hsub.trans (List.sublist_append_left _ _))

/-- An item was in one of the inventories and not in a later one. -/
def Dropped (inventories : List (List α)) (item : α) : Prop :=
  ∃ first second, [first, second].Sublist inventories ∧ item ∈ first ∧ item ∉ second

variable {item : α}

theorem Dropped.append {inventories : List (List α)} (h : Dropped inventories item)
    (inventory : List α) :
    Dropped (inventories ++ [inventory]) item := by
  obtain ⟨first, second, hsub, hfirst, hsecond⟩ := h
  exact ⟨first, second, hsub.trans (List.sublist_append_left _ _), hfirst, hsecond⟩

variable {inventory marks room : List α}

theorem not_mem_of_dropped {inventories : List (List α)}
    (h : NeverReturns (inventories ++ [inventory])) (hdropped : Dropped inventories item) :
    item ∉ inventory := by
  obtain ⟨first, second, hsub, hfirst, hsecond⟩ := hdropped
  exact h first second inventory (hsub.append (List.Sublist.refl [inventory])) item hfirst hsecond

/-- The items handled so far are marked or dropped from the inventories; none was handled twice. -/
structure HandledOnce (bound : ℕ) (inventories : List (List α)) (handled marks : List α) :
    Prop where
  nodup : marks.Nodup
  bounded : marks.length ≤ bound
  once : handled.Nodup
  recorded : ∀ mark ∈ marks, mark ∈ handled
  named : ∀ item ∈ handled, ∃ inventory ∈ inventories, item ∈ inventory
  marked : ∀ item ∈ handled, item ∈ marks ∨ Dropped inventories item

theorem HandledOnce.start (bound : ℕ) : HandledOnce bound ([] : List (List α)) [] [] where
  nodup := List.nodup_nil
  bounded := Nat.zero_le _
  once := List.nodup_nil
  recorded _ hmark := hmark
  named _ hitem := absurd hitem List.not_mem_nil
  marked _ hitem := Or.inl hitem

variable {bound : ℕ} {inventories : List (List α)} {handled marks : List α}

/-- Another inventory is seen and nothing is handled. -/
theorem HandledOnce.see (h : HandledOnce bound inventories handled marks) (inventory : List α) :
    HandledOnce bound (inventories ++ [inventory]) handled marks where
  nodup := h.nodup
  bounded := h.bounded
  once := h.once
  recorded := h.recorded
  named := by
    intro item hitem
    obtain ⟨other, hother, hmem⟩ := h.named item hitem
    exact ⟨other, List.mem_append_left _ hother, hmem⟩
  marked := by
    intro item hitem
    rcases h.marked item hitem with hmark | hdropped
    · exact Or.inl hmark
    · exact Or.inr (hdropped.append inventory)

/-- An item of the inventory that is not marked was not handled before. -/
theorem HandledOnce.not_handled (h : HandledOnce bound inventories handled marks)
    (hreturns : NeverReturns (inventories ++ [inventory])) (hitem : item ∈ inventory)
    (hnew : item ∉ marks) :
    item ∉ handled := by
  intro hhandled
  rcases h.marked item hhandled with hmark | hdropped
  · exact hnew hmark
  · exact not_mem_of_dropped hreturns hdropped hitem

variable [DecidableEq α]

/-- Discards as many marks, each time the first one that the inventory does not name. -/
def discardStale (inventory : List α) : ℕ → List α → Option (List α)
  | 0, marks => some marks
  | count + 1, marks =>
    if marks.all inventory.contains then none
    else discardStale inventory count (marks.eraseP fun mark ↦ !inventory.contains mark)

/-- Discards marks until there is room for one more. -/
def makeRoom (bound : ℕ) (inventory marks : List α) : Option (List α) :=
  discardStale inventory (marks.length + 1 - bound) marks

/-- What is left is some of the marks, and all that the inventory names. -/
theorem discardStale_eq_some {count : ℕ} (h : discardStale inventory count marks = some room) :
    room.Sublist marks ∧ room.length + count = marks.length ∧
      ∀ mark ∈ marks, mark ∈ inventory → mark ∈ room := by
  induction count generalizing marks with
  | zero =>
    obtain rfl : marks = room := Option.some.inj h
    exact ⟨List.Sublist.refl _, rfl, fun _ hmark _ ↦ hmark⟩
  | succ _ ih =>
    rw [discardStale] at h
    split_ifs at h with hall
    obtain ⟨hsub, hlength, hkept⟩ := ih h
    obtain ⟨stale, hstale, hnot⟩ : ∃ mark ∈ marks, inventory.contains mark = false := by
      simpa using hall
    refine ⟨hsub.trans List.eraseP_sublist, ?_, ?_⟩
    · rw [List.length_eraseP_of_mem hstale (by simpa using hnot)] at hlength
      have hpos := List.length_pos_of_mem hstale
      omega
    · intro mark hmark hnamed
      refine hkept mark ?_ hnamed
      exact (List.mem_eraseP_of_neg (by simpa using hnamed)).mpr hmark

theorem makeRoom_eq_some {bound : ℕ} (h : makeRoom bound inventory marks = some room) :
    room.Sublist marks ∧ room.length < bound ∧ ∀ mark ∈ marks, mark ∈ inventory → mark ∈ room := by
  obtain ⟨hsub, _, hkept⟩ := discardStale_eq_some h
  exact ⟨hsub, by omega, hkept⟩

/-- There is room for an item of the inventory that is not marked. -/
theorem exists_makeRoom {bound : ℕ} (hnodup : marks.Nodup) (hbounded : marks.length ≤ bound)
    (hinventory : inventory.length ≤ bound) (hitem : item ∈ inventory) (hnew : item ∉ marks) :
    ∃ room, makeRoom bound inventory marks = some room := by
  rcases Nat.lt_or_eq_of_le hbounded with hless | hfull
  · exact ⟨marks, by rw [makeRoom, Nat.sub_eq_zero_of_le hless]; rfl⟩
  · have hstale : ¬ marks.all inventory.contains = true := by
      intro hall
      -- the item and the marks would be more than the inventory can name
      have hsubset : item :: marks ⊆ inventory := by
        refine List.cons_subset.mpr ⟨hitem, fun mark hmark ↦ ?_⟩
        simpa using List.all_eq_true.mp hall mark hmark
      have hlength := ((List.nodup_cons.mpr ⟨hnew, hnodup⟩).subperm hsubset).length_le
      rw [List.length_cons] at hlength
      omega
    refine ⟨marks.eraseP fun mark ↦ !inventory.contains mark, ?_⟩
    have hone : marks.length + 1 - bound = 1 := by omega
    rw [makeRoom, hone, discardStale, if_neg hstale]
    rfl

/-- An item of the inventory that is not marked is handled, and marked. -/
theorem HandledOnce.handle (h : HandledOnce bound inventories handled marks)
    (hreturns : NeverReturns (inventories ++ [inventory])) (hitem : item ∈ inventory)
    (hnew : item ∉ marks)
    (hroom : makeRoom bound inventory marks = some room) :
    HandledOnce bound (inventories ++ [inventory]) (handled ++ [item]) (room ++ [item]) := by
  obtain ⟨hsub, hlength, hkept⟩ := makeRoom_eq_some hroom
  have hfresh : item ∉ handled := h.not_handled hreturns hitem hnew
  refine ⟨?_, ?_, ?_, ?_, ?_, ?_⟩
  · rw [← List.concat_eq_append]
    exact (hsub.nodup h.nodup).concat fun hmem ↦ hnew (hsub.subset hmem)
  · rw [List.length_append, List.length_singleton]
    exact hlength
  · rw [← List.concat_eq_append]
    exact h.once.concat hfresh
  · intro mark hmark
    rcases List.mem_append.mp hmark with hold | hlast
    · exact List.mem_append_left _ (h.recorded mark (hsub.subset hold))
    · exact List.mem_append_right _ hlast
  · intro other hother
    rcases List.mem_append.mp hother with hold | hlast
    · obtain ⟨earlier, hearlier, hmem⟩ := h.named other hold
      exact ⟨earlier, List.mem_append_left _ hearlier, hmem⟩
    · rw [List.mem_singleton.mp hlast]
      exact ⟨inventory, List.mem_append_right _ (List.mem_singleton_self _), hitem⟩
  · intro other hother
    rcases List.mem_append.mp hother with hold | hlast
    · rcases h.marked other hold with hmark | hdropped
      · by_cases hnamed : other ∈ inventory
        · exact Or.inl (List.mem_append_left _ (hkept other hmark hnamed))
        · -- it may have been discarded, and then the inventory has dropped it
          obtain ⟨earlier, hearlier, hmem⟩ := h.named other hold
          refine Or.inr ⟨earlier, inventory, ?_, hmem, hnamed⟩
          exact (List.singleton_sublist.mpr hearlier).append (List.Sublist.refl [inventory])
      · exact Or.inr (hdropped.append inventory)
    · exact Or.inl (List.mem_append_right _ hlast)

end WebCodex.Foundation
