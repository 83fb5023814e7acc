import Mathlib.Order.Basic
import WebCodex.Foundation.Table

/-!
The values of a table carry a stamp, drawn from a counter when a value is first stored. A value is
replaced by a later version with its stamp, removed, or stored anew with a later stamp. One store
evolves into another when every value of the second is new or a later version of the first's; what
a version may change (`carries`) and what a new value looks like (`fresh`) are parameters.
-/

namespace WebCodex.Foundation

/-- A table with the counter that its stamps are drawn from. -/
structure Store (K V : Type*) where
  table : Table K V
  next : ℕ

namespace Store

variable {K V A : Type*} [DecidableEq K]

/-- Every stamp in the store was drawn before. -/
def Stamped (stamp : V → ℕ) (store : Store K V) : Prop :=
  ∀ key value, store.table.lookup key = some value → stamp value < store.next

/-- Every value after is new or carries on from the value before. -/
structure Evolves (stamp : V → ℕ) (fresh : K → V → Prop) (carries : K → V → V → Prop)
    (before after : Store K V) : Prop where
  next_le : before.next ≤ after.next
  origin : ∀ key value, after.table.lookup key = some value →
    (before.next ≤ stamp value ∧ stamp value < after.next ∧ fresh key value) ∨
      ∃ old, before.table.lookup key = some old ∧ carries key old value

structure Versions (stamp : V → ℕ) (fresh : K → V → Prop) (carries : K → V → V → Prop) : Prop where
  refl : ∀ key value, carries key value value
  trans : ∀ {key first middle last}, carries key first middle → carries key middle last →
    carries key first last
  stamp_eq : ∀ {key old value}, carries key old value → stamp value = stamp old
  fresh_of_carries : ∀ {key old value}, carries key old value → fresh key old → fresh key value

variable {stamp : V → ℕ} {fresh : K → V → Prop} {carries : K → V → V → Prop}

namespace Evolves

variable (rules : Versions stamp fresh carries) (store : Store K V)

include rules

/-- A store whose values are all among those of the store before. -/
theorem of_lookup_imp {before after : Store K V} (hnext : before.next ≤ after.next)
    (hlookup : ∀ key value, after.table.lookup key = some value →
      before.table.lookup key = some value) :
    Evolves stamp fresh carries before after where
  next_le := hnext
  origin key value h := Or.inr ⟨value, hlookup key value h, rules.refl key value⟩

theorem refl : Evolves stamp fresh carries store store :=
  of_lookup_imp rules le_rfl fun _ _ h ↦ h

theorem of_eq {before after : Store K V} (h : after = before) :
    Evolves stamp fresh carries before after :=
  h ▸ refl rules before

theorem trans {first middle last : Store K V}
    (hfirst : Evolves stamp fresh carries first middle)
    (hlast : Evolves stamp fresh carries middle last) :
    Evolves stamp fresh carries first last where
  next_le := hfirst.next_le.trans hlast.next_le
  origin key value h := by
    rcases hlast.origin key value h with ⟨hlow, hhigh, hfresh⟩ | ⟨old, hold, hcarries⟩
    · exact Or.inl ⟨hfirst.next_le.trans hlow, hhigh, hfresh⟩
    · have hstamp := rules.stamp_eq hcarries
      rcases hfirst.origin key old hold with ⟨hlow, hhigh, hfresh⟩ | ⟨oldest, holdest, hearlier⟩
      · refine Or.inl ⟨by omega, ?_, rules.fresh_of_carries hcarries hfresh⟩
        have hnext := hlast.next_le
        omega
      · exact Or.inr ⟨oldest, holdest, rules.trans hearlier hcarries⟩

/-- Changing the value of a key in place, to a version of itself. -/
theorem modify (key : K) (f : V → V)
    (hf : ∀ value, store.table.lookup key = some value → carries key value (f value)) :
    Evolves stamp fresh carries store ⟨Table.modify key f store.table, store.next⟩ where
  next_le := le_rfl
  origin other value h := by
    rw [Table.lookup_modify] at h
    by_cases hkey : other = key
    · subst hkey
      rw [if_pos rfl, Option.map_eq_some_iff] at h
      obtain ⟨old, hold, rfl⟩ := h
      exact Or.inr ⟨old, hold, hf old hold⟩
    · rw [if_neg hkey] at h
      exact Or.inr ⟨value, h, rules.refl other value⟩

/-- Replacing the value of a key by a version of itself. -/
theorem replace (key : K) {old value : V} (hold : store.table.lookup key = some old)
    (hcarries : carries key old value) :
    Evolves stamp fresh carries store ⟨store.table.insert key value, store.next⟩ where
  next_le := le_rfl
  origin other found h := by
    rw [Table.lookup_insert_eq] at h
    by_cases hkey : other = key
    · subst hkey
      rw [if_pos rfl, Option.some.injEq] at h
      exact Or.inr ⟨old, hold, h ▸ hcarries⟩
    · rw [if_neg hkey] at h
      exact Or.inr ⟨found, h, rules.refl other found⟩

/-- Storing a value under the next stamp. -/
theorem insert (key : K) (value : V) (hstamp : stamp value = store.next)
    (hfresh : fresh key value) :
    Evolves stamp fresh carries store ⟨store.table.insert key value, store.next + 1⟩ where
  next_le := Nat.le_succ _
  origin other found h := by
    rw [Table.lookup_insert_eq] at h
    by_cases hkey : other = key
    · subst hkey
      rw [if_pos rfl, Option.some.injEq] at h
      subst h
      exact Or.inl ⟨hstamp.ge, by show stamp value < store.next + 1; omega, hfresh⟩
    · rw [if_neg hkey] at h
      exact Or.inr ⟨found, h, rules.refl other found⟩

theorem keep (p : K → V → Bool) :
    Evolves stamp fresh carries store ⟨Table.keep p store.table, store.next⟩ := by
  refine of_lookup_imp rules le_rfl fun _ _ h ↦ ?_
  rw [Table.lookup_keep, Option.filter_eq_some_iff] at h
  exact h.1

theorem erase (key : K) :
    Evolves stamp fresh carries store ⟨store.table.erase key, store.next⟩ := by
  refine of_lookup_imp rules le_rfl fun other _ h ↦ ?_
  rw [Table.lookup_erase_eq] at h
  by_cases hkey : other = key
  · simp [hkey] at h
  · simpa [hkey] using h

/-- A fold evolves the store when each of its steps does. -/
theorem foldl {S : Type*} (view : S → Store K V) (f : S → A → S) (items : List A)
    (hf : ∀ state, ∀ item ∈ items, Evolves stamp fresh carries (view state) (view (f state item)))
    (state : S) : Evolves stamp fresh carries (view state) (view (items.foldl f state)) := by
  induction items generalizing state with
  | nil => exact refl rules _
  | cons item _ ih =>
    have hfirst := hf state item List.mem_cons_self
    have hrest := ih (fun next other hother ↦ hf next other (List.mem_cons_of_mem item hother))
      (f state item)
    exact trans rules hfirst hrest

/-- Evolution keeps the stamps below the counter. -/
theorem stamped {before after : Store K V}
    (h : Evolves stamp fresh carries before after) (hbefore : before.Stamped stamp) :
    after.Stamped stamp := by
  intro key value hvalue
  rcases h.origin key value hvalue with ⟨_, hhigh, _⟩ | ⟨old, hold, hcarries⟩
  · exact hhigh
  · have hlow := hbefore key old hold
    have hstamp := rules.stamp_eq hcarries
    have hnext := h.next_le
    omega

omit rules in
/-- A value with the stamp of an earlier one is a version of the value that stood under its key. -/
theorem carries_of_stamp_lt {before after : Store K V}
    (h : Evolves stamp fresh carries before after) {key : K} {value : V}
    (hvalue : after.table.lookup key = some value) (hlow : stamp value < before.next) :
    ∃ old, before.table.lookup key = some old ∧ carries key old value := by
  rcases h.origin key value hvalue with ⟨_, _, _⟩ | hold
  · omega
  · exact hold

end Evolves

end Store

end WebCodex.Foundation
