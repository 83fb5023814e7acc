import Mathlib.Data.List.Duplicate
import Mathlib.Data.List.Nodup
import Mathlib.Data.List.Sublists
import Mathlib.Tactic.Common

/-!
Items wait in one queue for each recipient and are handed out from the front of a queue. Two logs
accompany a run: the items in the order in which they were enqueued, and those that were handed out.
The queues are in order when, for each recipient, the items handed out so far and then those that
still wait are among the items enqueued for it, in the same order (`InOrder`).
-/

namespace WebCodex.Foundation.Delivery

variable {K R : Type*} [DecidableEq K]

def itemsOf (key : K) (log : List (K × R)) : List R :=
  (log.filter fun entry ↦ entry.1 = key).map Prod.snd

theorem mem_itemsOf {key : K} {log : List (K × R)} {item : R} :
    item ∈ itemsOf key log ↔ (key, item) ∈ log := by
  simp [itemsOf]

theorem itemsOf_append_self (key : K) (log : List (K × R)) (item : R) :
    itemsOf key (log ++ [(key, item)]) = itemsOf key log ++ [item] := by
  simp [itemsOf]

theorem itemsOf_append_ne {key other : K} (hne : other ≠ key) (log : List (K × R)) (item : R) :
    itemsOf key (log ++ [(other, item)]) = itemsOf key log := by
  simp [itemsOf, hne]

/-- The items handed out and the items that wait, in the order in which they were enqueued. -/
structure InOrder (queue : K → List R) (enqueued handed : List (K × R)) : Prop where
  distinct : (enqueued.map Prod.snd).Nodup
  order : ∀ key, (itemsOf key handed ++ queue key).Sublist (itemsOf key enqueued)

namespace InOrder

variable {queue : K → List R} {enqueued handed : List (K × R)} {key : K} {item : R}

theorem initial : InOrder (fun _ : K ↦ ([] : List R)) [] [] where
  distinct := List.nodup_nil
  order _ := List.Sublist.refl []

theorem mem_enqueued_of_mem_handed (h : InOrder queue enqueued handed)
    (hmem : (key, item) ∈ handed) : (key, item) ∈ enqueued := by
  have hitem : item ∈ itemsOf key handed := mem_itemsOf.mpr hmem
  exact mem_itemsOf.mp ((h.order key).subset (List.mem_append_left _ hitem))

theorem mem_enqueued_of_mem_queue (h : InOrder queue enqueued handed) (hmem : item ∈ queue key) :
    (key, item) ∈ enqueued :=
  mem_itemsOf.mp ((h.order key).subset (List.mem_append_right _ hmem))

/-- An item was enqueued for one recipient only. -/
theorem key_eq (h : InOrder queue enqueued handed) {other : K} (hmem : (key, item) ∈ enqueued)
    (hother : (other, item) ∈ enqueued) : other = key := by
  have hsame := List.inj_on_of_nodup_map h.distinct hother hmem rfl
  exact congrArg Prod.fst hsame

theorem itemsOf_nodup (h : InOrder queue enqueued handed) (key : K) :
    (itemsOf key enqueued).Nodup :=
  h.distinct.sublist (List.filter_sublist.map Prod.snd)

/-- An item that waits has not been handed out. -/
theorem notMem_handed_of_mem_queue (h : InOrder queue enqueued handed)
    (hmem : item ∈ queue key) : item ∉ handed.map Prod.snd := by
  intro hhanded
  obtain ⟨⟨other, same⟩, hentry, hsame⟩ := List.mem_map.mp hhanded
  subst hsame
  have hkey : other = key :=
    h.key_eq (h.mem_enqueued_of_mem_queue hmem) (h.mem_enqueued_of_mem_handed hentry)
  subst hkey
  have hnodup := (h.itemsOf_nodup other).sublist (h.order other)
  exact (List.nodup_append.mp hnodup).2.2 same (mem_itemsOf.mpr hentry) same hmem rfl

/-- Each item is handed out at most once. -/
theorem handed_nodup (h : InOrder queue enqueued handed) : (handed.map Prod.snd).Nodup := by
  have hlog : handed.Nodup := by
    rw [List.nodup_iff_sublist]
    rintro ⟨key, item⟩ htwice
    -- an entry that occurs twice in the log occurs twice among the items of its recipient
    have hitems : [item, item].Sublist (itemsOf key handed) := by
      simpa [itemsOf] using (htwice.filter fun entry ↦ entry.1 = key).map Prod.snd
    have hsub := hitems.trans ((List.sublist_append_left _ (queue key)).trans (h.order key))
    exact List.nodup_iff_sublist.mp (h.itemsOf_nodup key) item hsub
  refine List.Nodup.map_on ?_ hlog
  rintro ⟨key, item⟩ hentry ⟨_, _⟩ hother hsame
  subst hsame
  rw [h.key_eq (h.mem_enqueued_of_mem_handed hother) (h.mem_enqueued_of_mem_handed hentry)]

/-- Queues may lose items. -/
theorem shrink (h : InOrder queue enqueued handed) {rest : K → List R}
    (hrest : ∀ key, (rest key).Sublist (queue key)) : InOrder rest enqueued handed where
  distinct := h.distinct
  order key := ((List.Sublist.refl _).append (hrest key)).trans (h.order key)

/-- A new item goes to the back of a queue. -/
theorem push (h : InOrder queue enqueued handed) {after : K → List R}
    (hnew : item ∉ enqueued.map Prod.snd) (hkey : after key = queue key ++ [item])
    (hother : ∀ other, other ≠ key → after other = queue other) :
    InOrder after (enqueued ++ [(key, item)]) handed where
  distinct := by
    rw [List.map_append, List.nodup_append]
    refine ⟨h.distinct, List.nodup_singleton item, ?_⟩
    intro _ hold new hitem hsame
    have hnewitem : new = item := List.mem_singleton.mp hitem
    rw [hsame, hnewitem] at hold
    exact hnew hold
  order other := by
    by_cases hsame : other = key
    · subst hsame
      rw [hkey, itemsOf_append_self, ← List.append_assoc]
      exact (h.order other).append_right [item]
    · rw [hother other hsame, itemsOf_append_ne (Ne.symm hsame)]
      exact h.order other

/-- The front of a queue is handed out. -/
theorem pop (h : InOrder queue enqueued handed) {after : K → List R}
    (hkey : queue key = item :: after key)
    (hother : ∀ other, other ≠ key → after other = queue other) :
    InOrder after enqueued (handed ++ [(key, item)]) where
  distinct := h.distinct
  order other := by
    by_cases hsame : other = key
    · subst hsame
      have horder := h.order other
      rw [hkey] at horder
      rw [itemsOf_append_self, List.append_assoc]
      exact horder
    · rw [hother other hsame, itemsOf_append_ne (Ne.symm hsame)]
      exact h.order other

end InOrder

end WebCodex.Foundation.Delivery
