import Mathlib.Algebra.GroupWithZero.Nat
import Mathlib.Algebra.Order.BigOperators.Group.List
import Mathlib.Algebra.Order.Group.Nat
import Mathlib.Tactic.Common

/-!
A text is split at its separators and some of its components are joined again by one of them. What
is joined is not longer than the text (`length_join_le`), and its components are those that were
kept (`splitOnP_join`).
-/

namespace WebCodex.Foundation

variable {α : Type*} {separates : α → Bool}

variable {text : List α}

/-- The characters of a component are those of the text that do not separate. -/
theorem mem_component {component : List α} (h : component ∈ text.splitOnP separates) :
    ∀ c ∈ component, c ∈ text ∧ separates c = false := by
  induction text generalizing component with
  | nil =>
    rw [List.splitOnP_nil, List.mem_singleton] at h
    simp [h]
  | cons d text ih =>
    obtain ⟨_, _, heq⟩ := List.exists_cons_of_ne_nil (List.splitOnP_ne_nil separates text)
    have hlonger : ∀ {part : List α}, part ∈ text.splitOnP separates →
        ∀ c ∈ part, c ∈ d :: text ∧ separates c = false := fun hpart c hc ↦
      ⟨List.mem_cons_of_mem _ (ih hpart c hc).1, (ih hpart c hc).2⟩
    rw [List.splitOnP_cons_eq_if_modifyHead] at h
    by_cases hd : separates d = true
    · rw [if_pos hd, List.mem_cons] at h
      rcases h with rfl | hrest
      · simp
      · exact hlonger hrest
    · rw [if_neg hd, heq, List.modifyHead_cons, List.mem_cons] at h
      rw [heq] at hlonger
      rcases h with rfl | hrest
      · rw [List.forall_mem_cons]
        exact ⟨⟨List.mem_cons_self, by simpa using hd⟩, hlonger List.mem_cons_self⟩
      · exact hlonger (List.mem_cons_of_mem _ hrest)

/-- Every separator adds a component. -/
theorem length_splitOnP (text : List α) :
    ((text.splitOnP separates).map List.length).sum + (text.splitOnP separates).length =
      text.length + 1 := by
  induction text with
  | nil => simp
  | cons _ text ih =>
    rw [List.splitOnP_cons_eq_if_modifyHead]
    obtain ⟨_, _, heq⟩ := List.exists_cons_of_ne_nil (List.splitOnP_ne_nil separates text)
    rw [heq] at ih ⊢
    split_ifs
    · simp only [List.map_cons, List.sum_cons, List.length_cons, List.length_nil] at ih ⊢
      omega
    · simp only [List.modifyHead_cons, List.map_cons, List.sum_cons, List.length_cons] at ih ⊢
      omega

/-- Two separators next to each other have nothing between them. -/
theorem nil_mem_splitOnP {a b : α} (ha : separates a = true) (hb : separates b = true)
    (h : [a, b] <:+: text) : [] ∈ text.splitOnP separates := by
  obtain ⟨before, after, rfl⟩ := h
  have hassoc : before ++ [a, b] ++ after = before ++ a :: ([] ++ b :: after) := by simp
  rw [hassoc, List.splitOnP_append_cons before _ ha, List.splitOnP_append_cons [] after hb,
    List.splitOnP_nil]
  exact List.mem_append_right _ (List.mem_append_left _ (List.mem_singleton_self _))

variable {separator : α}

variable {components : List (List α)}

theorem length_join (hne : components ≠ []) : ([separator].intercalate components).length + 1 =
      (components.map List.length).sum + components.length := by
  induction components with
  | nil => exact absurd rfl hne
  | cons _ rest ih =>
    by_cases hrest : rest = []
    · subst hrest
      simp
    · rw [List.intercalate_cons_of_ne_nil hrest]
      simp only [List.length_append, List.map_cons, List.sum_cons, List.length_cons,
        List.length_nil]
      have hlength := ih hrest
      omega

theorem mem_join {c : α} (h : c ∈ [separator].intercalate components) :
    c = separator ∨ ∃ component ∈ components, c ∈ component := by
  induction components with
  | nil => cases h
  | cons first rest ih =>
    by_cases hrest : rest = []
    · subst hrest
      rw [List.intercalate_singleton] at h
      exact Or.inr ⟨first, List.mem_cons_self, h⟩
    · rw [List.intercalate_cons_of_ne_nil hrest, List.append_assoc, List.mem_append,
        List.mem_append, List.mem_singleton] at h
      rcases h with hfirst | hseparator | htail
      · exact Or.inr ⟨first, List.mem_cons_self, hfirst⟩
      · exact Or.inl hseparator
      · rcases ih htail with hseparator | ⟨component, hmem, hc⟩
        · exact Or.inl hseparator
        · exact Or.inr ⟨component, List.mem_cons_of_mem _ hmem, hc⟩

/-- What is joined is split into the same components. -/
theorem splitOnP_join (hseparator : separates separator = true) (hne : components ≠ [])
    (h : ∀ component ∈ components, ∀ c ∈ component, separates c = false) :
    ([separator].intercalate components).splitOnP separates = components := by
  induction components with
  | nil => exact absurd rfl hne
  | cons first rest ih =>
    have hfirst := h first List.mem_cons_self
    by_cases hrest : rest = []
    · subst hrest
      rw [List.intercalate_singleton, List.splitOnP_eq_singleton hfirst]
    · rw [List.intercalate_cons_of_ne_nil hrest, List.append_assoc, List.singleton_append,
        List.splitOnP_append_cons_of_forall_mem hfirst separator hseparator,
        ih hrest fun component hmem ↦ h component (List.mem_cons_of_mem _ hmem)]

/-- Some of the components, joined, are not longer than the text. -/
theorem length_join_le (h : components.Sublist (text.splitOnP separates)) :
    ([separator].intercalate components).length ≤ text.length := by
  by_cases hne : components = []
  · subst hne
    exact Nat.zero_le _
  · have hjoin : ([separator].intercalate components).length + 1 = _ := length_join hne
    have hsplit : ((text.splitOnP separates).map List.length).sum + _ = _ := length_splitOnP text
    have hsum : (components.map List.length).sum ≤
        ((text.splitOnP separates).map List.length).sum := (h.map _).sum_le_sum fun _ _ ↦
          Nat.zero_le _
    have hlength := h.length_le
    omega

/-- What is joined starts with the first component. -/
theorem prefix_join (first : List α) (rest : List (List α)) :
    first <+: [separator].intercalate (first :: rest) := by
  by_cases hrest : rest = []
  · subst hrest
    exact List.intercalate_singleton ▸ List.prefix_refl first
  · rw [List.intercalate_cons_of_ne_nil hrest, List.append_assoc]
    exact List.prefix_append _ _

/-- What is joined ends with the last component. -/
theorem suffix_join (earlier : List (List α)) (last : List α) :
    last <:+ [separator].intercalate (earlier ++ [last]) := by
  induction earlier with
  | nil => exact List.intercalate_singleton ▸ List.suffix_refl last
  | cons _ _ ih =>
    rw [List.cons_append, List.intercalate_cons_of_ne_nil (by simp)]
    exact ih.trans (List.suffix_append _ _)

end WebCodex.Foundation
