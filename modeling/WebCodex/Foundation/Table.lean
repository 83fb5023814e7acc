import Mathlib.Data.List.AList
import Mathlib.Tactic.Common

/-!
A table is an association list without repeated keys, the `AList` of Mathlib at a constant family.
The order of its entries stands for the iteration order of a hash map and carries no meaning. Added
here are the operations that visit every entry (`mapValues`, `keep`) and the one that changes the
entry of a key in place (`modify`), each with the lemma that says what a lookup sees afterwards.
-/

namespace WebCodex.Foundation

/-- A fold whose steps leave a view of the state alone leaves it alone. -/
theorem foldl_view_eq {S A T : Type*} (view : S → T) (f : S → A → S)
    (hf : ∀ state item, view (f state item) = view state) (items : List A) (state : S) :
    view (items.foldl f state) = view state := by
  induction items generalizing state with
  | nil => rfl
  | cons item _ ih => exact (ih (f state item)).trans (hf state item)

abbrev Table (K V : Type*) := AList fun _ : K ↦ V

namespace Table

variable {K V W : Type*}

def mapValues (f : K → V → W) (table : Table K V) : Table K W where
  entries := table.entries.map fun entry ↦ ⟨entry.1, f entry.1 entry.2⟩
  nodupKeys := by
    have hkeys : (table.entries.map fun entry ↦
        (⟨entry.1, f entry.1 entry.2⟩ : Σ _ : K, W)).keys = table.entries.keys := by
      simp [List.keys, Function.comp_def]
    rw [List.NodupKeys, hkeys]
    exact table.nodupKeys

/-- Keeps the entries that satisfy a predicate. -/
def keep (p : K → V → Bool) (table : Table K V) : Table K V where
  entries := table.entries.filter fun entry ↦ p entry.1 entry.2
  nodupKeys := table.nodupKeys.sublist List.filter_sublist

def values (table : Table K V) : List V := table.entries.map fun entry ↦ entry.2

variable [DecidableEq K]

/-- Changes the value of a key, when it has one. -/
def modify (key : K) (f : V → V) (table : Table K V) : Table K V :=
  mapValues (fun other value ↦ if other = key then f value else value) table

def has (key : K) (table : Table K V) : Bool := (table.lookup key).isSome

@[simp] theorem lookup_mapValues (f : K → V → W) (table : Table K V) (key : K) :
    (mapValues f table).lookup key = (table.lookup key).map (f key) :=
  List.dlookup_map₂ key

@[simp] theorem lookup_modify (key : K) (f : V → V) (table : Table K V) (other : K) :
    (modify key f table).lookup other =
      if other = key then (table.lookup other).map f else table.lookup other := by
  rw [modify, lookup_mapValues]
  split_ifs
  · rfl
  · exact Option.map_id'

theorem lookup_modify_self (key : K) (f : V → V) (table : Table K V) :
    (modify key f table).lookup key = (table.lookup key).map f := by
  simp

theorem lookup_modify_ne {key other : K} (hne : other ≠ key) (f : V → V) (table : Table K V) :
    (modify key f table).lookup other = table.lookup other := by
  simp [hne]

@[simp] theorem lookup_keep (p : K → V → Bool) (table : Table K V) (key : K) :
    (keep p table).lookup key = (table.lookup key).filter (p key) := by
  ext value
  rw [Option.filter_eq_some_iff, ← Option.mem_def, ← Option.mem_def, AList.mem_lookup_iff,
    AList.mem_lookup_iff]
  simp [keep]

theorem lookup_insert_eq (key : K) (value : V) (table : Table K V) (other : K) :
    (table.insert key value).lookup other = if other = key then some value
      else table.lookup other := by
  split_ifs with hsame
  · subst hsame
    exact AList.lookup_insert table
  · exact AList.lookup_insert_ne hsame

theorem lookup_erase_eq (key : K) (table : Table K V) (other : K) :
    (table.erase key).lookup other = if other = key then none else table.lookup other := by
  split_ifs with hsame
  · subst hsame
    exact AList.lookup_erase other table
  · exact AList.lookup_erase_ne hsame

/-- The values of a table are those that its lookups give. -/
theorem mem_values {table : Table K V} {value : V} :
    value ∈ values table ↔ ∃ key, table.lookup key = some value := by
  simp only [values, List.mem_map, Sigma.exists, exists_eq_right]
  exact exists_congr fun key ↦ AList.mem_lookup_iff.symm

/-- A fold that changes the values of several keys, each once. -/
theorem lookup_foldl_modify {S A : Type*} (view : S → Table K V) (step : S → A → S) (key : A → K)
    (f : V → V) (hstep : ∀ state item, view (step state item) = modify (key item) f (view state))
    (items : List A) (hnodup : (items.map key).Nodup) (state : S) (other : K) :
    (view (items.foldl step state)).lookup other =
      if other ∈ items.map key then ((view state).lookup other).map f
      else (view state).lookup other := by
  induction items generalizing state with
  | nil => simp
  | cons item rest ih =>
    rw [List.map_cons, List.nodup_cons] at hnodup
    rw [List.foldl_cons, ih hnodup.2, hstep, lookup_modify, List.map_cons]
    by_cases hother : other = key item
    · have hrest : other ∉ rest.map key := hother ▸ hnodup.1
      rw [if_neg hrest, if_pos hother, if_pos (hother ▸ List.mem_cons_self)]
    · rw [if_neg hother]
      by_cases hrest : other ∈ rest.map key
      · rw [if_pos hrest, if_pos (List.mem_cons_of_mem (key item) hrest)]
      · rw [if_neg hrest, if_neg (List.not_mem_cons_of_ne_of_not_mem hother hrest)]

/-- The entries of a table are its lookups. -/
theorem mem_entries {table : Table K V} {entry : Σ _ : K, V} :
    entry ∈ table.entries ↔ table.lookup entry.1 = some entry.2 :=
  AList.mem_lookup_iff.symm

/-- Nothing is lost when every entry satisfies the predicate. -/
theorem keep_eq_self {p : K → V → Bool} {table : Table K V}
    (h : ∀ key value, table.lookup key = some value → p key value = true) :
    keep p table = table := by
  refine AList.ext (List.filter_eq_self.mpr fun entry hentry ↦ ?_)
  exact h entry.1 entry.2 (mem_entries.mp hentry)

theorem keep_eq_empty {p : K → V → Bool} {table : Table K V}
    (h : ∀ key value, table.lookup key = some value → p key value = false) : keep p table = ∅ := by
  refine AList.ext (List.filter_eq_nil_iff.mpr fun entry hentry ↦ ?_)
  simp [h entry.1 entry.2 (mem_entries.mp hentry)]

/-- A table without lookups is empty. -/
theorem eq_empty_of_lookup {table : Table K V} (h : ∀ key value, table.lookup key ≠ some value) :
    table = ∅ := by
  refine AList.ext (List.eq_nil_iff_forall_not_mem.mpr fun entry hentry ↦ ?_)
  exact h entry.1 entry.2 (mem_entries.mp hentry)

end Table

end WebCodex.Foundation
