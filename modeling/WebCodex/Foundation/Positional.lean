import Mathlib.Data.Nat.Digits.Lemmas
import Mathlib.Tactic.Common

/-!
A numeral system is a base with a letter for each digit. `Numerals.render` writes a number with its
digits, the highest first, and zero as one digit; `Numerals.read` folds the letters into a number,
and fails as soon as the number does not stay below a limit. On numerals without a leading zero the
two are inverse (`Numerals.read_eq_some_iff`), so no number has two numerals.
-/

namespace WebCodex.Foundation

/-- A base, the letter of each digit, and the digit of each letter. -/
structure Numerals (α : Type*) where
  base : ℕ
  letter : ℕ → α
  digit : α → Option ℕ

namespace Numerals

variable {α : Type*} (system : Numerals α)

/-- The letters of the digits are the letters that have a digit. -/
structure Lawful : Prop where
  base : 1 < system.base
  digit_letter : ∀ d < system.base, system.digit (system.letter d) = some d
  letter_digit : ∀ c d, system.digit c = some d → d < system.base ∧ system.letter d = c

def render (n : ℕ) : List α :=
  if n = 0 then [system.letter 0] else ((Nat.digits system.base n).reverse).map system.letter

/-- A letter is appended to a numeral, as long as the number stays below the limit. -/
def extend (limit parsed : ℕ) (c : α) : Option ℕ := do
  let d ← system.digit c
  let shifted ← if parsed * system.base < limit then some (parsed * system.base) else none
  if shifted + d < limit then some (shifted + d) else none

def read (limit : ℕ) (text : List α) : Option ℕ := text.foldlM (system.extend limit) 0

/-- A numeral has a digit, and starts with zero only if it has no other. -/
def Canonical (text : List α) : Prop :=
  text ≠ [] ∧ (1 < text.length → text.head? ≠ some (system.letter 0))

/-- The number that digits stand for behind others. -/
def value (parsed : ℕ) (digits : List ℕ) : ℕ :=
  digits.foldl (fun parsed d ↦ parsed * system.base + d) parsed

variable {system} {limit : ℕ}

theorem value_eq_ofDigits (digits : List ℕ) :
    system.value 0 digits = Nat.ofDigits system.base digits.reverse := by
  rw [value, Nat.ofDigits_eq_foldr, List.foldr_reverse]
  congr 1
  funext parsed d
  rw [Nat.cast_id, Nat.add_comm, Nat.mul_comm]

theorem le_value (h : system.Lawful) (parsed : ℕ) (digits : List ℕ) :
    parsed ≤ system.value parsed digits := by
  induction digits generalizing parsed with
  | nil => exact le_rfl
  | cons d digits ih =>
    calc parsed ≤ parsed * system.base := Nat.le_mul_of_pos_right parsed (Nat.zero_lt_of_lt h.base)
      _ ≤ parsed * system.base + d := Nat.le_add_right _ _
      _ ≤ system.value parsed (d :: digits) := ih _

theorem extend_eq_some {parsed n : ℕ} {c : α} : system.extend limit parsed c = some n ↔
      ∃ d, system.digit c = some d ∧ n = parsed * system.base + d ∧ n < limit := by
  unfold extend
  cases hd : system.digit c with
  | none => simp
  | some d =>
    by_cases hsum : parsed * system.base + d < limit
    · have hshifted : parsed * system.base < limit := (Nat.le_add_right _ d).trans_lt hsum
      simp only [Option.bind_eq_bind, Option.bind_some, if_pos hshifted, if_pos hsum,
        Option.some.injEq, exists_eq_left']
      constructor
      · rintro rfl
        exact ⟨rfl, hsum⟩
      · exact fun h ↦ h.1.symm
    · constructor
      · intro h
        split_ifs at h with hshifted <;> simp [hsum] at h
      · rintro ⟨_, hsame, rfl, hlt⟩
        obtain rfl := Option.some.inj hsame
        exact absurd hlt hsum

/-- A numeral is read when all its letters have digits and the number is below the limit: the number
only grows on the way. -/
theorem foldlM_extend (h : system.Lawful) {parsed n : ℕ} (hparsed : parsed < limit)
    {text : List α} :
    text.foldlM (system.extend limit) parsed = some n ↔
      ∃ digits, text.map system.digit = digits.map some ∧ n = system.value parsed digits ∧
        n < limit := by
  induction text generalizing parsed with
  | nil =>
    constructor
    · intro hread
      obtain rfl := Option.some.inj hread
      exact ⟨[], rfl, rfl, hparsed⟩
    · rintro ⟨digits, hdigits, rfl, -⟩
      obtain rfl := List.map_eq_nil_iff.mp hdigits.symm
      rfl
  | cons _ _ ih =>
    rw [List.foldlM_cons, Option.bind_eq_bind, Option.bind_eq_some_iff]
    constructor
    · rintro ⟨_, hm, hread⟩
      obtain ⟨d, hd, rfl, hlt⟩ := extend_eq_some.mp hm
      obtain ⟨digits, hdigits, hn, hlimit⟩ := (ih hlt).mp hread
      exact ⟨d :: digits, by rw [List.map_cons, List.map_cons, hd, hdigits], hn, hlimit⟩
    · rintro ⟨digits, hdigits, rfl, hlimit⟩
      cases digits with
      | nil => simp at hdigits
      | cons d digits =>
        rw [List.map_cons, List.map_cons, List.cons.injEq] at hdigits
        have hlt : parsed * system.base + d < limit := (le_value h _ digits).trans_lt hlimit
        exact ⟨_, extend_eq_some.mpr ⟨d, hdigits.1, rfl, hlt⟩,
          (ih hlt).mpr ⟨digits, hdigits.2, rfl, hlimit⟩⟩

theorem letter_of_digits (h : system.Lawful) {text : List α} {digits : List ℕ}
    (hdigits : text.map system.digit = digits.map some) :
    text = digits.map system.letter ∧ ∀ d ∈ digits, d < system.base := by
  induction text generalizing digits with
  | nil =>
    obtain rfl := List.map_eq_nil_iff.mp hdigits.symm
    exact ⟨rfl, by simp⟩
  | cons c _ ih =>
    cases digits with
    | nil => simp at hdigits
    | cons d =>
      rw [List.map_cons, List.map_cons, List.cons.injEq] at hdigits
      obtain ⟨rfl, hrest⟩ := ih hdigits.2
      obtain ⟨hlt, rfl⟩ := h.letter_digit c d hdigits.1
      exact ⟨rfl, List.forall_mem_cons.mpr ⟨hlt, hrest⟩⟩

theorem digits_of_letters (h : system.Lawful) {digits : List ℕ}
    (hdigits : ∀ d ∈ digits, d < system.base) :
    (digits.map system.letter).map system.digit = digits.map some := by
  rw [List.map_map]
  exact List.map_congr_left fun d hd ↦ h.digit_letter d (hdigits d hd)

theorem letter_ne_zero (h : system.Lawful) {d : ℕ} (hd : d < system.base) (hzero : d ≠ 0) :
    system.letter d ≠ system.letter 0 := by
  intro hsame
  have hdigit := h.digit_letter d hd
  rw [hsame, h.digit_letter 0 (Nat.zero_lt_of_lt h.base)] at hdigit
  exact hzero (Option.some.inj hdigit).symm

theorem canonical_render (h : system.Lawful) (n : ℕ) : system.Canonical (system.render n) := by
  unfold render
  split_ifs with hn
  · exact ⟨by simp, by simp⟩
  · have hne : Nat.digits system.base n ≠ [] := Nat.digits_ne_nil_iff_ne_zero.mpr hn
    refine ⟨by simpa using hne, fun _ hhead ↦ ?_⟩
    rw [List.head?_map, List.head?_reverse, List.getLast?_eq_getLast_of_ne_nil hne,
      Option.map_some, Option.some.injEq] at hhead
    exact letter_ne_zero h (Nat.digits_lt_base h.base (List.getLast_mem hne))
      (Nat.getLast_digit_ne_zero system.base hn) hhead

theorem read_render (h : system.Lawful) {n : ℕ} (hn : n < limit) :
    system.read limit (system.render n) = some n := by
  refine (foldlM_extend h (Nat.zero_lt_of_lt hn)).mpr ?_
  unfold render
  split_ifs with hzero
  · subst hzero
    refine ⟨[0], @digits_of_letters _ _ h [0] ?_, by simp [value], hn⟩
    simpa using Nat.zero_lt_of_lt h.base
  · refine ⟨(Nat.digits system.base n).reverse, digits_of_letters h fun _ hd ↦ ?_, ?_, hn⟩
    · exact Nat.digits_lt_base h.base (List.mem_reverse.mp hd)
    · rw [value_eq_ofDigits, List.reverse_reverse, Nat.ofDigits_digits]

theorem eq_render (h : system.Lawful) {text : List α} (hcanonical : system.Canonical text) {n : ℕ}
    (hlimit : 0 < limit) (hread : system.read limit text = some n) :
    n < limit ∧ text = system.render n := by
  obtain ⟨digits, hdigits, rfl, hlt⟩ := (foldlM_extend h hlimit).mp hread
  refine ⟨hlt, ?_⟩
  obtain ⟨rfl, hbase⟩ := letter_of_digits h hdigits
  cases digits with
  | nil => exact absurd rfl hcanonical.1
  | cons d digits =>
    obtain ⟨_, _⟩ := List.forall_mem_cons.mp hbase
    by_cases hzero : d = 0
    · subst hzero
      have hnil : digits = [] := by
        by_contra hne
        refine hcanonical.2 ?_ rfl
        have hpos := List.length_pos_iff.mpr hne
        simpa using hpos
      subst hnil
      simp [value, render]
    · have hnumber : Nat.digits system.base (system.value 0 (d :: digits)) =
          (d :: digits).reverse := by
        rw [value_eq_ofDigits]
        refine Nat.digits_ofDigits _ h.base _ (fun e he ↦ hbase e (List.mem_reverse.mp he)) ?_
        simpa using hzero
      have hne : system.value 0 (d :: digits) ≠ 0 := by
        intro hnone
        rw [hnone, Nat.digits_zero] at hnumber
        simp at hnumber
      rw [render, if_neg hne, hnumber, List.reverse_reverse]

/-- A numeral without a leading zero is read as a number just when it is that of the number. -/
theorem read_eq_some_iff (h : system.Lawful) (hlimit : 0 < limit) {text : List α} {n : ℕ} :
    (system.Canonical text ∧ system.read limit text = some n) ↔ n < limit ∧
      text = system.render n := by
  constructor
  · exact fun ⟨hcanonical, hread⟩ ↦ eq_render h hcanonical hlimit hread
  · rintro ⟨hn, rfl⟩
    exact ⟨canonical_render h n, read_render h hn⟩

end Numerals

end WebCodex.Foundation
