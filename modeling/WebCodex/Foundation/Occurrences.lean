import Mathlib.Data.List.Basic
import Mathlib.Data.List.Pairwise
import Mathlib.Order.Nat
import Mathlib.Tactic.Common

/-!
A search from left to right for the places of a word in a text that goes on behind each place it
finds (`occurrences`). `Greedy` says without a search which places these are: each ends before the
next one starts, and every place of the word starts within one of them.
-/

namespace WebCodex.Foundation.Occurrences

variable {α : Type*} {word text : List α} {p q : ℕ}

def OccursAt (word text : List α) (p : ℕ) : Prop := p ≤ text.length ∧ word <+: text.drop p

/-- How far behind a place the search goes on; the empty word is passed by one letter. -/
def span (word : List α) : ℕ := max 1 word.length

/-- The places that a search from left to right finds. -/
structure Greedy (word text : List α) (places : List ℕ) : Prop where
  occurs : ∀ p ∈ places, OccursAt word text p
  apart : places.Pairwise fun p q ↦ p + span word ≤ q
  covers : ∀ q, OccursAt word text q → ∃ p ∈ places, p ≤ q ∧ q < p + span word

theorem span_pos (word : List α) : 0 < span word := Nat.le_max_left 1 _

/-- A place splits the text into what is in front of the word, the word, and what is behind it. -/
theorem occursAt_iff :
    OccursAt word text p ↔ ∃ front back, text = front ++ (word ++ back) ∧ front.length = p := by
  constructor
  · rintro ⟨hp, back, hback⟩
    exact ⟨text.take p, back, by rw [hback, List.take_append_drop], List.length_take_of_le hp⟩
  · rintro ⟨front, back, rfl, rfl⟩
    exact ⟨by simp, by simp⟩

@[simp] theorem occursAt_zero : OccursAt word text 0 ↔ word <+: text := by
  simp [OccursAt]

@[simp] theorem occursAt_succ {letter : α} :
    OccursAt word (letter :: text) (p + 1) ↔ OccursAt word text p := by
  simp [OccursAt]

theorem occursAt_nil : OccursAt word [] p ↔ word = [] ∧ p = 0 := by
  simp [OccursAt, and_comm]

namespace Greedy

variable {places others : List ℕ}

theorem sorted (h : Greedy word text places) : places.Pairwise (· < ·) := h.apart.imp fun _ ↦ by
    have hpos := span_pos word
    omega

end Greedy

variable [DecidableEq α]

/-- The places in what remains of a text, of which some letters are passed. -/
def occurrencesFrom (word : List α) : ℕ → ℕ → List α → List ℕ
  | place, 0, [] => if word = [] then [place] else []
  | _, _ + 1, [] => []
  | place, passed + 1, _ :: rest => occurrencesFrom word (place + 1) passed rest
  | place, 0, letter :: rest =>
    if word <+: letter :: rest then place :: occurrencesFrom word (place + 1) (word.length - 1) rest
    else occurrencesFrom word (place + 1) 0 rest

def occurrences (word text : List α) : List ℕ := occurrencesFrom word 0 0 text

/-- What is found in what remains of a text behind the letters that are passed. -/
theorem occurrencesFrom_spec (word : List α) (place passed : ℕ) (text : List α) :
    (∀ p ∈ occurrencesFrom word place passed text,
        ∃ i, p = place + i ∧ passed ≤ i ∧ OccursAt word text i) ∧
      (occurrencesFrom word place passed text).Pairwise (fun p q ↦ p + span word ≤ q) ∧
      ∀ i, passed ≤ i → OccursAt word text i →
        ∃ p ∈ occurrencesFrom word place passed text, p ≤ place + i ∧
          place + i < p + span word := by
  induction text generalizing place passed with
  | nil =>
    have hpos := span_pos word
    cases passed with
    | zero =>
      rw [occurrencesFrom]
      split_ifs with hempty
      · refine ⟨fun p hp ↦ ⟨0, by simpa using hp, le_rfl, occursAt_nil.mpr ⟨hempty, rfl⟩⟩,
          List.pairwise_singleton _ _, fun i _ hoccurs ↦ ⟨place, List.mem_singleton_self _, ?_⟩⟩
        obtain ⟨-, rfl⟩ := occursAt_nil.mp hoccurs
        omega
      · exact ⟨nofun, .nil, fun i _ hoccurs ↦ absurd (occursAt_nil.mp hoccurs).1 hempty⟩
    | succ =>
      refine ⟨nofun, .nil, fun i hi hoccurs ↦ ?_⟩
      obtain ⟨-, rfl⟩ := occursAt_nil.mp hoccurs
      cases hi
  | cons _ _ ih =>
    cases passed with
    | succ passed =>
      obtain ⟨hoccurs, hapart, hcovers⟩ := ih (place + 1) passed
      refine ⟨fun p hp ↦ ?_, hapart, fun i hi hat ↦ ?_⟩
      · obtain ⟨i, rfl, hi, hat⟩ := hoccurs p hp
        exact ⟨i + 1, by omega, Nat.succ_le_succ hi, occursAt_succ.mpr hat⟩
      · obtain ⟨j, rfl⟩ := Nat.exists_eq_add_of_le' (Nat.one_le_of_lt hi)
        obtain ⟨p, hp, hle, hlt⟩ := hcovers j (Nat.le_of_succ_le_succ hi) (occursAt_succ.mp hat)
        exact ⟨p, hp, by omega, by omega⟩
    | zero =>
      rw [occurrencesFrom]
      split_ifs with hhere
      · obtain ⟨hoccurs, hapart, hcovers⟩ := ih (place + 1) (word.length - 1)
        have hspan : span word = word.length - 1 + 1 := by
          unfold span
          omega
        refine ⟨List.forall_mem_cons.mpr ⟨⟨0, rfl, le_rfl, occursAt_zero.mpr hhere⟩, fun p hp ↦ ?_⟩,
          List.pairwise_cons.mpr ⟨fun q hq ↦ ?_, hapart⟩, fun i _ hat ↦ ?_⟩
        · obtain ⟨i, rfl, -, hat⟩ := hoccurs p hp
          exact ⟨i + 1, by omega, Nat.zero_le _, occursAt_succ.mpr hat⟩
        · obtain ⟨i, rfl, hi, -⟩ := hoccurs q hq
          omega
        · rcases Nat.lt_or_ge i (span word) with hnear | hfar
          · exact ⟨place, List.mem_cons_self, by omega, by omega⟩
          · obtain ⟨j, rfl⟩ := Nat.exists_eq_add_of_le' (show 1 ≤ i by omega)
            obtain ⟨p, hp, hle, hlt⟩ := hcovers j (by omega) (occursAt_succ.mp hat)
            exact ⟨p, List.mem_cons_of_mem _ hp, by omega, by omega⟩
      · obtain ⟨hoccurs, hapart, hcovers⟩ := ih (place + 1) 0
        refine ⟨fun p hp ↦ ?_, hapart, fun i _ hat ↦ ?_⟩
        · obtain ⟨i, rfl, -, hat⟩ := hoccurs p hp
          exact ⟨i + 1, by omega, Nat.zero_le _, occursAt_succ.mpr hat⟩
        · cases i with
          | zero => exact absurd (occursAt_zero.mp hat) hhere
          | succ i =>
            obtain ⟨p, hp, hle, hlt⟩ := hcovers i (Nat.zero_le i) (occursAt_succ.mp hat)
            exact ⟨p, hp, by omega, by omega⟩

/-- The search finds the places that `Greedy` describes. -/
theorem greedy_occurrences (word text : List α) : Greedy word text (occurrences word text) := by
  obtain ⟨hoccurs, hapart, hcovers⟩ := occurrencesFrom_spec word 0 0 text
  refine ⟨fun p hp ↦ ?_, hapart, fun q hq ↦ ?_⟩
  · obtain ⟨_, rfl, -, _⟩ := hoccurs p hp
    rwa [Nat.zero_add]
  · obtain ⟨p, hp, _, _⟩ := hcovers q (Nat.zero_le q) hq
    exact ⟨p, hp, by omega, by omega⟩

end WebCodex.Foundation.Occurrences
