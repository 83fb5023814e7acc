import Mathlib.Data.List.Basic
import Mathlib.Order.Nat
import Mathlib.Tactic.Common

/-!
A pattern over any alphabet is read as a list of segments (`Signs.segments`): a doubled star is any
run of letters, a single star a run without the slash, a question mark one letter other than the
slash, and every other letter itself. `Signs.Matches` says which texts the segments describe, and
`Signs.Fits` the same of what remains of a pattern and of a text.
-/

namespace WebCodex.Foundation.Glob

variable {α : Type*}

/-- The letters of an alphabet with a meaning of their own. -/
structure Signs (α : Type*) where
  (star question slash : α)

inductive Segment (α : Type*) where
  | literal (letter : α)
  | one
  | run
  | deepRun

/-- A star that was passed: where the pattern goes on behind it, how far it reaches now, and whether
it may take a slash. -/
structure Frame where
  (resumeP resumeT : ℕ)
  crossesSlash : Bool

variable {letter : α}

theorem drop_eq_cons {list : List α} {n : ℕ} (h : list[n]? = some letter) :
    list.drop n = letter :: list.drop (n + 1) := by
  obtain ⟨hlt, rfl⟩ := List.getElem?_eq_some_iff.mp h
  exact List.drop_eq_getElem_cons hlt

variable {text : List α} {t : ℕ} {crosses : Bool}

namespace Signs

variable (signs : Signs α)

def Accepts : Segment α → List α → Prop
  | .literal letter, piece => piece = [letter]
  | .one, piece => ∃ letter, piece = [letter] ∧ letter ≠ signs.slash
  | .run, piece => signs.slash ∉ piece
  | .deepRun, _ => True

/-- A text is one piece for each segment, in order. -/
def Matches : List (Segment α) → List α → Prop
  | [], text => text = []
  | first :: rest, text =>
    ∃ piece tail, text = piece ++ tail ∧ signs.Accepts first piece ∧ Matches rest tail

variable {signs}

/-- A segment takes a number of letters off the text. -/
theorem matches_cons {first : Segment α} {rest : List (Segment α)} :
    signs.Matches (first :: rest) text ↔
      ∃ n, signs.Accepts first (text.take n) ∧ signs.Matches rest (text.drop n) := by
  constructor
  · rintro ⟨piece, _, rfl, haccepts, hrest⟩
    exact ⟨piece.length, by simpa using haccepts, by simpa using hrest⟩
  · rintro ⟨n, haccepts, hrest⟩
    exact ⟨_, _, (List.take_append_drop n text).symm, haccepts, hrest⟩

theorem accepts_deepRun (piece : List α) : signs.Accepts .deepRun piece := trivial

/-- A run is a stretch of the text in which no letter is the slash. -/
theorem accepts_run {n : ℕ} : signs.Accepts .run ((text.drop t).take n) ↔
      ∀ i, t ≤ i → i < t + n → text[i]? ≠ some signs.slash := by
  constructor
  · intro h i hle hlt hslash
    refine h (List.mem_iff_getElem?.mpr ⟨i - t, ?_⟩)
    rw [List.getElem?_take_of_lt (by omega), List.getElem?_drop, Nat.add_sub_cancel' hle, hslash]
  · intro h hmem
    obtain ⟨i, hi⟩ := List.mem_iff_getElem?.mp hmem
    have hlt : i < n := by
      by_contra hge
      rw [List.getElem?_take_eq_none (Nat.le_of_not_lt hge)] at hi
      cases hi
    rw [List.getElem?_take_of_lt hlt, List.getElem?_drop] at hi
    exact h (t + i) (Nat.le_add_right t i) (Nat.add_lt_add_left hlt t) hi

/-- A star may stand for the text from `t` up to `u`. -/
def Covers (signs : Signs α) (text : List α) (crosses : Bool) (t u : ℕ) : Prop :=
  t ≤ u ∧ (crosses = true ∨ ∀ i, t ≤ i → i < u → text[i]? ≠ some signs.slash)

theorem Covers.refl (text : List α) (crosses : Bool) (t : ℕ) : signs.Covers text crosses t t :=
  ⟨le_refl t, Or.inr fun _ hle hlt ↦ absurd hlt (Nat.not_lt_of_le hle)⟩

theorem Covers.succ {u : ℕ} (h : signs.Covers text crosses t u)
    (hnext : crosses = true ∨ text[u]? ≠ some signs.slash) :
    signs.Covers text crosses t (u + 1) := by
  refine ⟨Nat.le_succ_of_le h.1, ?_⟩
  rcases h.2 with hcrosses | hclear
  · exact Or.inl hcrosses
  · refine hnext.imp id fun hslash i hle hlt ↦ ?_
    rcases Nat.lt_succ_iff_lt_or_eq.mp hlt with hbefore | rfl
    · exact hclear i hle hbefore
    · exact hslash

variable [DecidableEq α]

/-- What a letter stands for that is not part of a doubled star. -/
def segment (signs : Signs α) (letter : α) : Segment α :=
  if letter = signs.star then .run else if letter = signs.question then .one else .literal letter

def segments (signs : Signs α) : List α → List (Segment α)
  | [] => []
  | [letter] => [signs.segment letter]
  | letter :: next :: rest =>
    if letter = signs.star ∧ next = signs.star then .deepRun :: segments signs rest
    else signs.segment letter :: segments signs (next :: rest)

theorem segments_deepRun (rest : List α) :
    signs.segments (signs.star :: signs.star :: rest) = .deepRun :: signs.segments rest := by
  rw [segments, if_pos ⟨rfl, rfl⟩]

theorem segments_cons {letter : α} {rest : List α}
    (h : ¬ (letter = signs.star ∧ rest.head? = some signs.star)) :
    signs.segments (letter :: rest) = signs.segment letter :: signs.segments rest := by
  cases rest with
  | nil => rfl
  | cons =>
    rw [segments, if_neg]
    simpa using h

theorem segments_run {rest : List α} (h : rest.head? ≠ some signs.star) :
    signs.segments (signs.star :: rest) = .run :: signs.segments rest := by
  rw [segments_cons fun hboth ↦ h hboth.2, segment, if_pos rfl]

theorem segments_letter {letter : α} (h : letter ≠ signs.star) (rest : List α) :
    signs.segments (letter :: rest) = signs.segment letter :: signs.segments rest :=
  segments_cons fun hboth ↦ h hboth.1

/-- Letters without a meaning of their own stand for themselves. -/
theorem segments_literals {front : List α}
    (h : ∀ letter ∈ front, letter ≠ signs.star ∧ letter ≠ signs.question) (rest : List α) :
    signs.segments (front ++ rest) = front.map .literal ++ signs.segments rest := by
  induction front with
  | nil => rfl
  | cons _ _ ih =>
    obtain ⟨⟨hstar, hquestion⟩, hfront⟩ := List.forall_mem_cons.mp h
    rw [List.cons_append, segments_letter hstar, ih hfront, segment, if_neg hstar, if_neg hquestion]
    rfl

omit [DecidableEq α] in
theorem matches_literals {front : List α} {rest : List (Segment α)} :
    signs.Matches (front.map .literal ++ rest) text ↔
      ∃ tail, text = front ++ tail ∧ signs.Matches rest tail := by
  induction front generalizing text with
  | nil => simp
  | cons letter front ih =>
    constructor
    · rintro ⟨_, _, rfl, rfl, hrest⟩
      obtain ⟨tail, rfl, htail⟩ := ih.mp hrest
      exact ⟨tail, rfl, htail⟩
    · rintro ⟨tail, rfl, htail⟩
      exact ⟨[letter], front ++ tail, rfl, rfl, ih.mpr ⟨tail, rfl, htail⟩⟩

omit [DecidableEq α] in
/-- Without stars every segment takes one letter. -/
theorem length_of_matches {segs : List (Segment α)} (h : signs.Matches segs text)
    (hstars : Segment.run ∉ segs ∧ Segment.deepRun ∉ segs) : text.length = segs.length := by
  induction segs generalizing text with
  | nil =>
    obtain rfl : text = [] := h
    rfl
  | cons first _ ih =>
    obtain ⟨piece, _, rfl, haccepts, hrest⟩ := h
    simp only [List.mem_cons, not_or] at hstars
    have hone : piece.length = 1 := by
      cases first with
      | literal letter => rw [show piece = [letter] from haccepts, List.length_singleton]
      | one =>
        obtain ⟨letter, rfl, -⟩ := haccepts
        rfl
      | run => exact absurd rfl hstars.1.1
      | deepRun => exact absurd rfl hstars.2.1
    rw [List.length_append, hone, ih hrest ⟨hstars.1.2, hstars.2.2⟩, List.length_cons, Nat.add_comm]

/-- The pattern from `p` on describes the text from `t` on. -/
def Fits (signs : Signs α) (pattern text : List α) (p t : ℕ) : Prop :=
  signs.Matches (signs.segments (pattern.drop p)) (text.drop t)

variable {pattern text : List α} {p t u : ℕ}

theorem fits_of_pattern_end (hp : pattern.length ≤ p) :
    signs.Fits pattern text p t ↔ text.length ≤ t := by
  rw [Fits, List.drop_eq_nil_of_le hp]
  exact List.drop_eq_nil_iff

/-- Beyond the end of the text all places are alike. -/
theorem fits_of_text_end (ht : text.length ≤ t) (hu : text.length ≤ u) :
    signs.Fits pattern text p t ↔ signs.Fits pattern text p u := by
  rw [Fits, Fits, List.drop_eq_nil_of_le ht, List.drop_eq_nil_of_le hu]

/-- A star of the pattern may stand for any stretch it covers. -/
theorem fits_star (hstar : pattern[p]? = some signs.star)
    (hcrosses : crosses = (pattern[p + 1]? == some signs.star)) :
    signs.Fits pattern text p t ↔ ∃ u, signs.Covers text crosses t u ∧
        signs.Fits pattern text (p + if crosses then 2 else 1) u := by
  have hdrop := drop_eq_cons hstar
  cases crosses with
  | true =>
    have hnext : pattern[p + 1]? = some signs.star := by simpa using hcrosses.symm
    rw [Fits, hdrop, drop_eq_cons hnext, segments_deepRun, matches_cons]
    constructor
    · rintro ⟨n, -, hrest⟩
      exact ⟨t + n, ⟨Nat.le_add_right t n, Or.inl rfl⟩, by simpa [Fits] using hrest⟩
    · rintro ⟨u, ⟨hle, -⟩, hrest⟩
      refine ⟨u - t, accepts_deepRun _, ?_⟩
      simpa [Fits, Nat.add_sub_cancel' hle] using hrest
  | false =>
    have hnext : (pattern.drop (p + 1)).head? ≠ some signs.star := by
      simpa using hcrosses.symm
    rw [Fits, hdrop, segments_run hnext, matches_cons]
    constructor
    · rintro ⟨n, haccepts, hrest⟩
      exact ⟨t + n, ⟨Nat.le_add_right t n, Or.inr (accepts_run.mp haccepts)⟩,
        by simpa [Fits] using hrest⟩
    · rintro ⟨u, ⟨hle, hclear⟩, hrest⟩
      refine ⟨u - t, accepts_run.mpr ?_, ?_⟩
      · rw [Nat.add_sub_cancel' hle]
        exact hclear.resolve_left Bool.false_ne_true
      · simpa [Fits, Nat.add_sub_cancel' hle] using hrest

/-- Any other letter of the pattern takes one letter off the text. -/
theorem fits_letter (hletter : pattern[p]? = some letter) (hstar : letter ≠ signs.star) :
    signs.Fits pattern text p t ↔ ∃ c, text[t]? = some c ∧
      signs.Accepts (signs.segment letter) [c] ∧
        signs.Fits pattern text (p + 1) (t + 1) := by
  rw [Fits, drop_eq_cons hletter, segments_letter hstar]
  constructor
  · rintro ⟨piece, tail, htext, haccepts, hrest⟩
    have hone : ∃ c, piece = [c] := by
      rw [segment, if_neg hstar] at haccepts
      split_ifs at haccepts
      · exact haccepts.imp fun _ h ↦ h.1
      · exact ⟨letter, haccepts⟩
    obtain ⟨c, rfl⟩ := hone
    have hc : text[t]? = some c := by
      rw [← List.head?_drop, htext]
      rfl
    rw [drop_eq_cons hc] at htext
    obtain rfl : text.drop (t + 1) = tail := by simpa using htext
    exact ⟨c, hc, haccepts, hrest⟩
  · rintro ⟨c, hc, haccepts, hrest⟩
    exact ⟨[c], text.drop (t + 1), drop_eq_cons hc, haccepts, hrest⟩

/-- What is left of the pattern at the end of the text may only be stars. -/
theorem matches_segments_nil (pattern : List α) :
    signs.Matches (signs.segments pattern) [] ↔ ∀ letter ∈ pattern, letter = signs.star := by
  have hcons : ∀ (first : Segment α) rest,
      signs.Matches (first :: rest) [] ↔ signs.Accepts first [] ∧ signs.Matches rest [] := by
    intro first rest
    rw [matches_cons]
    simp
  have hsegment : ∀ letter, signs.Accepts (signs.segment letter) [] ↔ letter = signs.star := by
    intro letter
    unfold segment
    split_ifs with hstar hquestion <;> simp [Accepts, hstar]
  fun_induction segments signs pattern with
  | case1 => simp [Matches]
  | case2 => simp [hsegment, Matches]
  | case3 _ _ _ hstars ih => simp [hcons, accepts_deepRun, ih, hstars]
  | case4 _ _ _ _ ih => simp only [hcons, hsegment, ih, List.forall_mem_cons]

theorem fits_end (ht : text.length ≤ t) :
    signs.Fits pattern text p t ↔ ∀ letter ∈ pattern.drop p, letter = signs.star := by
  rw [Fits, List.drop_eq_nil_of_le ht, matches_segments_nil]

/-- From one place the search came to another without a choice: the rest fits here if it fits there,
and whatever fits further on here leads to something that fits further on there. -/
structure Leads (signs : Signs α) (pattern text : List α) (p t q u : ℕ) : Prop where
  fits : signs.Fits pattern text p t ↔ signs.Fits pattern text q u
  further : ∀ t', t ≤ t' → signs.Fits pattern text p t' → ∃ u', u ≤ u' ∧
    signs.Fits pattern text q u'

/-- The search came to a place by way of the frames, the last one first: behind its star at `q`, a
frame has tried everything between `start` and where it reaches now. -/
def Chain (signs : Signs α) (pattern text : List α) : List Frame → ℕ → ℕ → Prop
  | [], p, t => signs.Leads pattern text 0 0 p t
  | frame :: frames, p, t =>
    signs.Leads pattern text frame.resumeP frame.resumeT p t ∧ ∃ q start,
        (∀ v, signs.Fits pattern text q v ↔ ∃ u, signs.Covers text frame.crossesSlash v u ∧
          signs.Fits pattern text frame.resumeP u) ∧
        signs.Covers text frame.crossesSlash start frame.resumeT ∧
        (∀ u, start ≤ u → u < frame.resumeT → ¬ signs.Fits pattern text frame.resumeP u) ∧
        Chain signs pattern text frames q start

theorem Leads.refl (p t : ℕ) : signs.Leads pattern text p t p t :=
  ⟨Iff.rfl, fun t' hle hfits ↦ ⟨t', hle, hfits⟩⟩

theorem Leads.trans {p q u r v : ℕ} (h : signs.Leads pattern text p t q u)
    (h' : signs.Leads pattern text q u r v) : signs.Leads pattern text p t r v := by
  refine ⟨h.fits.trans h'.fits, fun t' hle hfits ↦ ?_⟩
  obtain ⟨u', hle', hfits'⟩ := h.further t' hle hfits
  exact h'.further u' hle' hfits'

namespace Chain

variable {frames : List Frame} {frame : Frame} {q v : ℕ}

theorem init : signs.Chain pattern text [] 0 0 := Leads.refl 0 0

/-- A step without a choice. -/
theorem step (h : signs.Chain pattern text frames p t) (hstep : signs.Leads pattern text p t q u) :
    signs.Chain pattern text frames q u := by
  cases frames with
  | nil => exact Leads.trans h hstep
  | cons => exact ⟨h.1.trans hstep, h.2⟩

/-- A star is passed, and stands for nothing as yet. -/
theorem push (h : signs.Chain pattern text frames p t)
    (hstar : ∀ v, signs.Fits pattern text p v ↔ ∃ u, signs.Covers text crosses v u ∧
      signs.Fits pattern text q u) :
    signs.Chain pattern text (⟨q, t, crosses⟩ :: frames) q t :=
  ⟨Leads.refl q t, p, t, hstar, Covers.refl text crosses t,
    fun _ hle hlt ↦ absurd hlt (Nat.not_lt_of_le hle), h⟩

/-- Where the rest fits, the whole fits. -/
theorem fits (h : signs.Chain pattern text frames p t) (hfits : signs.Fits pattern text p t) :
    signs.Fits pattern text 0 0 := by
  induction frames generalizing p t with
  | nil => exact (Leads.fits h).mpr hfits
  | cons _ _ ih =>
    obtain ⟨hleads, _, start, hstar, hcovers, -, hrest⟩ := h
    exact ih hrest ((hstar start).mpr ⟨_, hcovers, hleads.fits.mpr hfits⟩)

/-- Where nothing fits from a place on, nothing fits at all: a wider star leads only further on. -/
theorem exhausted (h : signs.Chain pattern text frames p t)
    (hnone : ∀ u, t ≤ u → ¬ signs.Fits pattern text p u) : ¬ signs.Fits pattern text 0 0 := by
  induction frames generalizing p t with
  | nil => exact fun hfits ↦ hnone t (le_refl t) ((Leads.fits h).mp hfits)
  | cons frame _ ih =>
    obtain ⟨hleads, _, start, hstar, -, htried, hrest⟩ := h
    have hbehind : ∀ u, start ≤ u → ¬ signs.Fits pattern text frame.resumeP u := by
      intro u hle hfits
      rcases Nat.lt_or_ge u frame.resumeT with hlt | hge
      · exact htried u hle hlt hfits
      · obtain ⟨u', hle', hfits'⟩ := hleads.further u hge hfits
        exact hnone u' hle' hfits'
    refine ih hrest fun v hle hfits ↦ ?_
    obtain ⟨u, hcovers, hfits'⟩ := (hstar v).mp hfits
    exact hbehind u (hle.trans hcovers.1) hfits'

/-- The last star takes one letter more, after the place failed. -/
theorem widened (h : signs.Chain pattern text (frame :: frames) p t)
    (hfails : ¬ signs.Fits pattern text p t)
    (hnext : frame.crossesSlash = true ∨ text[frame.resumeT]? ≠ some signs.slash) :
    signs.Chain pattern text ({ frame with resumeT := frame.resumeT + 1 } :: frames) frame.resumeP
      (frame.resumeT + 1) := by
  obtain ⟨hleads, q, start, hstar, hcovers, htried, hrest⟩ := h
  refine ⟨Leads.refl _ _, q, start, hstar, hcovers.succ hnext, fun u hle hlt hfits ↦ ?_, hrest⟩
  rcases Nat.lt_succ_iff_lt_or_eq.mp hlt with hbefore | rfl
  · exact htried u hle hbefore hfits
  · exact hfails (hleads.fits.mp hfits)

/-- A star that cannot take another letter fails at its own place. -/
theorem blocked (h : signs.Chain pattern text (frame :: frames) p t)
    (hfails : ¬ signs.Fits pattern text p t)
    (hnext : text.length ≤ frame.resumeT ∨
      frame.crossesSlash = false ∧ text[frame.resumeT]? = some signs.slash) :
    ∃ q start, signs.Chain pattern text frames q start ∧ ¬ signs.Fits pattern text q start := by
  obtain ⟨hleads, q, start, hstar, hcovers, htried, hrest⟩ := h
  refine ⟨q, start, hrest, fun hfits ↦ ?_⟩
  obtain ⟨u, hreach, hfits⟩ := (hstar start).mp hfits
  have hhere : ¬ signs.Fits pattern text frame.resumeP frame.resumeT := fun h ↦
    hfails (hleads.fits.mp h)
  rcases Nat.lt_trichotomy u frame.resumeT with hlt | rfl | hgt
  · exact htried u hreach.1 hlt hfits
  · exact hhere hfits
  · rcases hnext with hend | ⟨hrun, hslash⟩
    · exact hhere ((fits_of_text_end hend (hend.trans hgt.le)).mpr hfits)
    · exact hreach.2.resolve_left (by simp [hrun]) frame.resumeT hcovers.1 hgt hslash

end Chain

end Signs

end WebCodex.Foundation.Glob
