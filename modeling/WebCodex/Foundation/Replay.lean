import Mathlib.Data.List.Pairwise
import Mathlib.Tactic.Common

/-!
Messages are delivered to a state one after another, some of them more than once and out of order.
The state admits a message or passes it over. When a message that is passed over leaves no trace in
a view of the state, and what happens to the view depends on the view alone, then the view after a
delivery is the one that the admitted messages alone lead to (`view_foldl_admitted`).
-/

namespace WebCodex.Foundation.Replay

variable {S M : Type*} (deliver : S → M → S) (admits : S → M → Bool)

/-- The messages that are admitted when the messages of a list are delivered. -/
def admitted : S → List M → List M
  | _, [] => []
  | state, message :: rest =>
    if admits state message then message :: admitted (deliver state message) rest
    else admitted (deliver state message) rest

/-- A condition holds at each delivery, of the state before it and the message. -/
def Along (condition : S → M → Prop) : S → List M → Prop
  | _, [] => True
  | state, message :: rest => condition state message ∧ Along condition (deliver state message) rest

section View

variable {V : Type*} {deliver admits} (view : S → V)
  (hdeliver : ∀ {state other} message, view state = view other →
    view (deliver state message) = view (deliver other message))
  (hpassed : ∀ {state message}, admits state message = false →
    view (deliver state message) = view state)

include hdeliver

theorem view_foldl_congr (messages : List M) {state other : S} (h : view state = view other) :
    view (messages.foldl deliver state) = view (messages.foldl deliver other) := by
  induction messages generalizing state other with
  | nil => exact h
  | cons message _ ih => exact ih (hdeliver message h)

include hpassed

/-- The admitted messages alone lead to the same view. -/
theorem view_foldl_admitted (messages : List M) (state : S) : view (messages.foldl deliver state) =
      view ((admitted deliver admits state messages).foldl deliver state) := by
  induction messages generalizing state with
  | nil => rfl
  | cons message _ ih =>
    simp only [admitted]
    split_ifs with hadmitted
    · exact ih (deliver state message)
    · have hsame : view (deliver state message) = view state :=
        hpassed (Bool.eq_false_iff.mpr hadmitted)
      rw [List.foldl_cons, ih]
      exact view_foldl_congr view hdeliver _ hsame

end View

section Order

variable {K : Type*} {deliver admits} (key : M → K) (number : M → ℕ)
  {condition : S → M → Prop} (shut : S → K → ℕ → Prop)
  (hshuts : ∀ {state message}, condition state message → admits state message = true →
    shut (deliver state message) (key message) (number message))
  (hkeeps : ∀ {state message k n}, condition state message → shut state k n →
    shut (deliver state message) k n)
  (hblocks : ∀ {state message n}, condition state message → shut state (key message) n →
    number message ≤ n → admits state message = false)

include hkeeps hblocks

/-- Once the state is shut, only greater numbers are admitted. -/
theorem lt_of_mem_admitted (messages : List M) {state : S} {k : K} {n : ℕ} (hshut : shut state k n)
    (hcondition : Along deliver condition state messages) :
    ∀ message ∈ admitted deliver admits state messages, key message = k → n < number message := by
  induction messages generalizing state with
  | nil => simp [admitted]
  | cons _ _ ih =>
    obtain ⟨hhead, hrest⟩ := hcondition
    intro message hmem hkey
    have hlater := ih (hkeeps hhead hshut) hrest
    simp only [admitted] at hmem
    split_ifs at hmem with hadmitted
    · rcases List.mem_cons.mp hmem with rfl | hmem
      · by_contra hle
        subst hkey
        have hpassed := hblocks hhead hshut (Nat.le_of_not_lt hle)
        rw [hadmitted] at hpassed
        exact Bool.noConfusion hpassed
      · exact hlater message hmem hkey
    · exact hlater message hmem hkey

include hshuts

/-- The admitted messages of a key come in the order of their numbers, each once. -/
theorem admitted_increasing [DecidableEq K] (messages : List M) (state : S)
    (hcondition : Along deliver condition state messages) (k : K) :
    (((admitted deliver admits state messages).filter fun message ↦ key message = k).map
      number).Pairwise (· < ·) := by
  induction messages generalizing state with
  | nil => exact List.Pairwise.nil
  | cons head rest ih =>
    obtain ⟨hhead, hrest⟩ := hcondition
    simp only [admitted]
    split_ifs with hadmitted
    · by_cases hkey : key head = k
      · rw [List.filter_cons_of_pos (by simpa using hkey), List.map_cons, List.pairwise_cons]
        refine ⟨?_, ih _ hrest⟩
        intro _ hlater
        obtain ⟨message, hmem, rfl⟩ := List.mem_map.mp hlater
        obtain ⟨hmem, hsame⟩ := List.mem_filter.mp hmem
        have hshut := hshuts hhead hadmitted
        exact lt_of_mem_admitted key number shut hkeeps hblocks rest hshut hrest message hmem
          ((of_decide_eq_true hsame).trans hkey.symm)
      · rw [List.filter_cons_of_neg (by simpa using hkey)]
        exact ih _ hrest
    · exact ih _ hrest

end Order

end WebCodex.Foundation.Replay
