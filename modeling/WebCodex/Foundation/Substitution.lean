import Mathlib.Algebra.GroupWithZero.Nat
import Mathlib.Data.List.Perm.Basic
import Mathlib.Order.Nat
import Mathlib.Tactic.Common

/-!
Edits name ranges of a text and put contents in their places; a range without letters is an
insertion. `atOnce` substitutes them all at once, reading the text letter by letter. It depends on
the order of the edits only where several of them insert at one position (`atOnce_perm`).
-/

namespace WebCodex.Foundation.Substitution

variable {α : Type*}

/-- The content stands in the place of a range. -/
structure Edit (α : Type*) where
  (start stop : ℕ)
  content : List α

namespace Edit

def InsertsAt (p : ℕ) (edit : Edit α) : Prop := edit.start = p ∧ edit.stop = p

/-- The edit replaces letters from a position on. -/
def ReplacesFrom (p : ℕ) (edit : Edit α) : Prop := edit.start = p ∧ p < edit.stop

def Covers (p : ℕ) (edit : Edit α) : Prop := edit.start ≤ p ∧ p < edit.stop

/-- The ranges have a letter in common, or an insertion lies inside a range. -/
def Overlaps (first second : Edit α) : Prop := first.start < second.stop ∧ second.start < first.stop

def Before (first second : Edit α) : Prop := first.stop ≤ second.start

/-- The ranges in the order in which they are sorted. -/
def RangeLe (first second : Edit α) : Prop :=
  first.start < second.start ∨ first.start = second.start ∧ first.stop ≤ second.stop

instance (p : ℕ) (edit : Edit α) : Decidable (edit.InsertsAt p) :=
    inferInstanceAs (Decidable (_ ∧ _))
instance (p : ℕ) (edit : Edit α) : Decidable (edit.ReplacesFrom p) :=
    inferInstanceAs (Decidable (_ ∧ _))
instance (p : ℕ) (edit : Edit α) : Decidable (edit.Covers p) := inferInstanceAs (Decidable (_ ∧ _))

theorem Overlaps.symm {first second : Edit α} (h : first.Overlaps second) : second.Overlaps first :=
  ⟨h.2, h.1⟩

end Edit

open Edit

variable {edit : Edit α} {edits others : List (Edit α)}

/-- When each edit ends before its neighbour starts, it ends before all later ones start. -/
theorem pairwise_before_of_neighbours (hranges : ∀ edit ∈ edits, edit.start ≤ edit.stop)
    (h : edits.IsChain Before) : edits.Pairwise Before := by
  induction edits with
  | nil => exact .nil
  | cons first rest ih =>
    obtain ⟨-, hrest⟩ := List.forall_mem_cons.mp hranges
    have hpairwise := ih hrest h.of_cons
    refine List.pairwise_cons.mpr ⟨fun edit hedit ↦ ?_, hpairwise⟩
    cases rest with
    | nil => cases hedit
    | cons second =>
      have hfirst : first.stop ≤ second.start := h.rel
      rcases List.mem_cons.mp hedit with rfl | hlater
      · exact hfirst
      · have hsecond : second.stop ≤ edit.start := (List.pairwise_cons.mp hpairwise).1 edit hlater
        have hrange := hrest second List.mem_cons_self
        exact hfirst.trans (hrange.trans hsecond)

/-- Sorted by their ranges, edits are in order when no two of them overlap. -/
theorem pairwise_before_iff (hranges : ∀ edit ∈ edits, edit.start ≤ edit.stop)
    (hsorted : edits.Pairwise RangeLe) :
    edits.Pairwise Before ↔ edits.Pairwise fun first second ↦ ¬ first.Overlaps second := by
  constructor
  · intro h
    exact h.imp fun {first second} (hbefore : first.stop ≤ second.start) hoverlap ↦
      Nat.not_lt_of_le hbefore hoverlap.2
  · intro h
    refine (hsorted.and h).imp_of_mem fun {first second} hfirst hsecond hboth ↦ ?_
    obtain ⟨hle, hapart⟩ := hboth
    have hrange' := hranges second hsecond
    unfold Overlaps at hapart
    unfold Before
    rcases hle with hlt | ⟨heq, hstop⟩ <;> omega

/-- What the edits insert at a position, in their order. -/
def insertedAt (edits : List (Edit α)) (p : ℕ) : List α :=
  (edits.filter (·.InsertsAt p)).flatMap Edit.content

/-- What stands in the place of a range that starts at a position. -/
def replacedAt (edits : List (Edit α)) (p : ℕ) : List α :=
  (edits.filter (·.ReplacesFrom p)).flatMap Edit.content

theorem insertedAt_cons_of_pos {p : ℕ} (h : edit.InsertsAt p) :
    insertedAt (edit :: edits) p = edit.content ++ insertedAt edits p := by
  simp [insertedAt, h]

theorem insertedAt_cons_of_neg {p : ℕ} (h : ¬ edit.InsertsAt p) :
    insertedAt (edit :: edits) p = insertedAt edits p := by
  simp [insertedAt, h]

theorem replacedAt_cons_of_pos {p : ℕ} (h : edit.ReplacesFrom p) :
    replacedAt (edit :: edits) p = edit.content ++ replacedAt edits p := by
  simp [replacedAt, h]

theorem replacedAt_cons_of_neg {p : ℕ} (h : ¬ edit.ReplacesFrom p) :
    replacedAt (edit :: edits) p = replacedAt edits p := by
  simp [replacedAt, h]

section Sizes

variable (size : α → ℕ)

def measure (text : List α) : ℕ := (text.map size).sum

/-- The text from a position on, with the edits substituted at once. -/
def atOnce (edits : List (Edit α)) : ℕ → List α → List α
  | p, [] => insertedAt edits p ++ replacedAt edits p
  | p, letter :: rest =>
    insertedAt edits p ++ replacedAt edits p ++
      (if ∃ edit ∈ edits, edit.Covers p then [] else [letter]) ++ atOnce edits
        (p + size letter) rest

end Sizes

variable {size : α → ℕ} {p : ℕ} {text : List α}

@[simp] theorem measure_nil : measure size [] = 0 := rfl

@[simp] theorem measure_cons (letter : α) (rest : List α) :
    measure size (letter :: rest) = size letter + measure size rest := by
  simp [measure]

/-- Edits with the same insertions, replacements and covered positions are substituted alike. -/
theorem atOnce_congr (hinserted : ∀ q, insertedAt edits q = insertedAt others q)
    (hreplaced : ∀ q, replacedAt edits q = replacedAt others q)
    (hcovers : ∀ q, (∃ edit ∈ edits, edit.Covers q) ↔ ∃ edit ∈ others, edit.Covers q) :
    atOnce size edits p text = atOnce size others p text := by
  induction text generalizing p with
  | nil => rw [atOnce, atOnce, hinserted, hreplaced]
  | cons _ _ ih => simp only [atOnce, hinserted, hreplaced, hcovers, ih]

/-- The order of the edits matters only for insertions at one position. -/
theorem atOnce_perm (hperm : edits.Perm others)
    (happart : edits.Pairwise fun first second ↦ ¬ first.Overlaps second)
    (hinserted : ∀ q, insertedAt edits q = insertedAt others q) :
    atOnce size edits p text = atOnce size others p text := by
  refine atOnce_congr hinserted (fun q ↦ ?_) fun q ↦ ?_
  · -- At most one range starts at a position.
    have hfilter := hperm.filter (·.ReplacesFrom q)
    have hfew := happart.filter (·.ReplacesFrom q)
    unfold replacedAt
    cases hones : edits.filter (·.ReplacesFrom q) with
    | nil => rw [hones] at hfilter; rw [List.nil_perm.mp hfilter]
    | cons first rest =>
      rw [hones] at hfilter hfew
      cases rest with
      | nil => rw [List.singleton_perm.mp hfilter]
      | cons second rest =>
        have hmem : ∀ edit ∈ first :: second :: rest, edit.ReplacesFrom q := fun edit hedit ↦ by
          rw [← hones] at hedit
          exact of_decide_eq_true (List.mem_filter.mp hedit).2
        obtain ⟨_, _⟩ := hmem first (by simp)
        obtain ⟨_, _⟩ := hmem second (by simp)
        refine absurd ?_ ((List.pairwise_cons.mp hfew).1 second (by simp))
        exact ⟨by omega, by omega⟩
  · exact exists_congr fun edit ↦ and_congr_left fun _ ↦ hperm.mem_iff

/-- An edit whose range is passed does nothing. -/
theorem atOnce_passed (hstart : edit.start < p) (hstop : edit.stop ≤ p) :
    atOnce size (edit :: edits) p text = atOnce size edits p text := by
  have hnone : ∀ q, p ≤ q → insertedAt (edit :: edits) q = insertedAt edits q ∧
      replacedAt (edit :: edits) q = replacedAt edits q ∧
      ((∃ other ∈ edit :: edits, other.Covers q) ↔ ∃ other ∈ edits, other.Covers q) := by
    intro q hle
    have hinserts : ¬ edit.InsertsAt q := by
      unfold InsertsAt
      omega
    have hreplaces : ¬ edit.ReplacesFrom q := by
      unfold ReplacesFrom
      omega
    have hcovers : ¬ edit.Covers q := by
      unfold Covers
      omega
    refine ⟨insertedAt_cons_of_neg hinserts, replacedAt_cons_of_neg hreplaces, ?_⟩
    simp [hcovers]
  induction text generalizing p with
  | nil => rw [atOnce, atOnce, (hnone p le_rfl).1, (hnone p le_rfl).2.1]
  | cons _ _ ih =>
    obtain ⟨hinserted, hreplaced, hcovers⟩ := hnone p le_rfl
    rw [atOnce, atOnce, hinserted, hreplaced, ih (by omega) (by omega) fun q hle ↦
      hnone q (by omega)]
    simp only [hcovers]

/-- A position in front of all edits. -/
theorem untouched (h : ∀ edit ∈ edits, p < edit.start ∧ edit.start ≤ edit.stop) :
    insertedAt edits p = [] ∧ replacedAt edits p = [] ∧ ¬ ∃ edit ∈ edits, edit.Covers p := by
  refine ⟨?_, ?_, ?_⟩
  · rw [insertedAt, List.filter_eq_nil_iff.mpr fun edit hedit hat ↦ ?_]
    · rfl
    · have hlt := (h edit hedit).1
      have hat' : edit.start = p := (of_decide_eq_true hat).1
      omega
  · rw [replacedAt, List.filter_eq_nil_iff.mpr fun edit hedit hat ↦ ?_]
    · rfl
    · have hlt := (h edit hedit).1
      have hat' : edit.start = p := (of_decide_eq_true hat).1
      omega
  · rintro ⟨edit, hedit, _, -⟩
    have hlt := (h edit hedit).1
    omega

/-- Up to the first range the text is left alone. -/
theorem atOnce_gap (hsize : ∀ letter, 0 < size letter) {gap : List α}
    (h : ∀ edit ∈ edits, p + measure size gap ≤ edit.start ∧ edit.start ≤ edit.stop) :
    atOnce size edits p (gap ++ text) = gap ++ atOnce size edits (p + measure size gap) text := by
  induction gap generalizing p with
  | nil => rfl
  | cons letter _ ih =>
    have hpos := hsize letter
    simp only [measure_cons] at h ⊢
    obtain ⟨hinserted, hreplaced, hcovers⟩ := untouched (p := p) fun edit hedit ↦
      ⟨by have := (h edit hedit).1; omega, (h edit hedit).2⟩
    rw [List.cons_append, atOnce, hinserted, hreplaced, if_neg hcovers,
      ih fun edit hedit ↦ ⟨by have := (h edit hedit).1; omega, (h edit hedit).2⟩, Nat.add_assoc]
    rfl

theorem atOnce_nil : atOnce size [] p text = text := by
  induction text generalizing p with
  | nil => rfl
  | cons _ _ ih => simp [atOnce, ih, insertedAt, replacedAt]

/-- An insertion is done before the other edits. -/
theorem atOnce_insertion (hsize : ∀ letter, 0 < size letter) (h : edit.InsertsAt p) :
    atOnce size (edit :: edits) p text = edit.content ++ atOnce size edits p text := by
  obtain ⟨hstart, hstop⟩ := h
  have hinserted : insertedAt (edit :: edits) p = edit.content ++ insertedAt edits p :=
    insertedAt_cons_of_pos ⟨hstart, hstop⟩
  have hreplaced : replacedAt (edit :: edits) p = replacedAt edits p :=
    replacedAt_cons_of_neg fun hreplaces ↦ hreplaces.2.ne hstop.symm
  have hcovers : (∃ other ∈ edit :: edits, other.Covers p) ↔ ∃ other ∈ edits, other.Covers p := by
    simp [Covers, hstop]
  cases text with
  | nil => rw [atOnce, atOnce, hinserted, hreplaced, List.append_assoc]
  | cons letter =>
    have hpos := hsize letter
    rw [atOnce, atOnce, hinserted, hreplaced, atOnce_passed (by omega) (by omega)]
    simp only [hcovers, List.append_assoc]

/-- The letters that a range covers are left out. -/
theorem atOnce_covered (hsize : ∀ letter, 0 < size letter) {covered : List α}
    (hstart : edit.start < p) (hstop : edit.stop = p + measure size covered)
    (hlater : ∀ other ∈ edits, edit.stop ≤ other.start ∧ other.start ≤ other.stop) :
    atOnce size (edit :: edits) p (covered ++ text) = atOnce size edits edit.stop text := by
  induction covered generalizing p with
  | nil =>
    rw [measure_nil, Nat.add_zero] at hstop
    rw [List.nil_append, atOnce_passed hstart hstop.le, hstop]
  | cons letter _ ih =>
    have hpos := hsize letter
    rw [measure_cons] at hstop
    obtain ⟨hinserted, hreplaced, -⟩ := untouched (p := p) fun other hother ↦
      ⟨by have := (hlater other hother).1; omega, (hlater other hother).2⟩
    rw [List.cons_append, atOnce, insertedAt_cons_of_neg fun hinserts ↦ hstart.ne hinserts.1,
      replacedAt_cons_of_neg fun hreplaces ↦ hstart.ne hreplaces.1, hinserted, hreplaced,
      if_pos ⟨edit, List.mem_cons_self, by omega, by omega⟩, ih (by omega) (by omega)]
    rfl

/-- A replacement is done before the edits behind its range. -/
theorem atOnce_replacement (hsize : ∀ letter, 0 < size letter) {covered : List α}
    (h : edit.ReplacesFrom p) (hstop : edit.stop = p + measure size covered)
    (hlater : ∀ other ∈ edits, edit.stop ≤ other.start ∧ other.start ≤ other.stop) :
    atOnce size (edit :: edits) p (covered ++ text) =
      edit.content ++ atOnce size edits edit.stop text := by
  obtain ⟨hstart, hlt⟩ := h
  cases covered with
  | nil =>
    rw [measure_nil] at hstop
    omega
  | cons letter =>
    have hpos := hsize letter
    rw [measure_cons] at hstop
    obtain ⟨hinserted, hreplaced, -⟩ := untouched (p := p) fun other hother ↦
      ⟨by have := (hlater other hother).1; omega, (hlater other hother).2⟩
    rw [List.cons_append, atOnce, insertedAt_cons_of_neg fun hinserts ↦ hlt.ne' hinserts.2,
      replacedAt_cons_of_pos ⟨hstart, hlt⟩, hinserted, hreplaced,
      if_pos ⟨edit, List.mem_cons_self, hstart.le, hlt⟩,
      atOnce_covered hsize (by omega) (by omega) hlater]
    simp

end WebCodex.Foundation.Substitution
