import Mathlib.Algebra.GroupWithZero.Nat
import Mathlib.Data.List.TakeWhile
import WebCodex.Foundation.Framing
import WebCodex.Foundation.Glob

/-!
`glob_match_segment` walks over the bytes of a pattern and of a path with a stack of the stars it
has passed; where the walk is stuck, the last star that may take one byte more does so, and the
stars behind it are forgotten. Every round of the loop lowers a weight (`weight_next`), so it ends,
and it accepts exactly the bytes that the pattern describes (`globMatchSegment_iff`).
-/

namespace WebCodex.ProjectListing

open Foundation.Framing (Bytes)
open Foundation.Glob
open Foundation.Glob.Signs
    (Accepts Chain Leads segment fits_end fits_letter fits_of_pattern_end fits_star)

/-- `b'*'`, `b'?'` and `b'/'`. -/
def globBytes : Signs UInt8 := ⟨0x2a, 0x3f, 0x2f⟩

/-- The variables of the loop; the last star that was pushed comes first. -/
structure GlobState where
  (p t : ℕ)
  stars : List Frame

section Loop

variable (pattern text : Bytes)

/-- The part of a round that takes a byte of the pattern; `none` where it falls through. -/
def GlobState.advance (state : GlobState) : Option GlobState :=
  match pattern[state.p]?, text[state.t]? with
  | some byte, some textByte =>
    if byte = globBytes.star then
      let crossesSlash := pattern[state.p + 1]? == some globBytes.star
      let p := state.p + if crossesSlash then 2 else 1
      some ⟨p, state.t, ⟨p, state.t, crossesSlash⟩ :: state.stars⟩
    else if byte = globBytes.question ∧ textByte ≠ globBytes.slash then
      some ⟨state.p + 1, state.t + 1, state.stars⟩
    else if byte = textByte then some ⟨state.p + 1, state.t + 1, state.stars⟩
    else none
  | _, _ => none

/-- The loop over the stars: the last one that may take another byte is resumed. -/
def resume : List Frame → Option GlobState
  | [] => none
  | frame :: stars =>
    match text[frame.resumeT]? with
    | some textByte =>
      if frame.crossesSlash = true ∨ textByte ≠ globBytes.slash then
        some ⟨frame.resumeP, frame.resumeT + 1, { frame with resumeT := frame.resumeT + 1 } ::
          stars⟩
      else resume stars
    | none => resume stars

/-- A round of the loop; `none` where it returns `false`. -/
def GlobState.next (state : GlobState) : Option GlobState :=
  match state.advance pattern text with
  | some state => some state
  | none => resume text state.stars

/-- What is left of the search: each place of the pattern, and each byte a star may still take. -/
def weight (state : GlobState) : ℕ := (text.length + 2) ^ (pattern.length - state.p) +
    (state.stars.map fun frame ↦
      (text.length - frame.resumeT) * (text.length + 2) ^ (pattern.length - frame.resumeP)).sum

end Loop

variable {pattern text : Bytes} {state after : GlobState}

/-- What a byte of the pattern may do. -/
theorem advance_cases (h : state.advance pattern text = some after) :
    ∃ byte textByte, pattern[state.p]? = some byte ∧ text[state.t]? = some textByte ∧
      ((byte = globBytes.star ∧ ∃ crosses p, crosses =
        (pattern[state.p + 1]? == some globBytes.star) ∧
          p = (state.p + if crosses then 2 else 1) ∧
          after = ⟨p, state.t, ⟨p, state.t, crosses⟩ :: state.stars⟩) ∨
        (byte ≠ globBytes.star ∧ globBytes.Accepts (globBytes.segment byte) [textByte] ∧
          after = ⟨state.p + 1, state.t + 1, state.stars⟩)) := by
  unfold GlobState.advance at h
  split at h
  · next byte textByte hbyte htext =>
    refine ⟨byte, textByte, hbyte, htext, ?_⟩
    split_ifs at h with hstar hquestion hsame
    · exact Or.inl ⟨hstar, _, _, rfl, rfl, (Option.some.inj h).symm⟩
    · refine Or.inr ⟨hstar, ?_, (Option.some.inj h).symm⟩
      rw [Signs.segment, if_neg hstar, if_pos hquestion.1]
      exact ⟨textByte, rfl, hquestion.2⟩
    · refine Or.inr ⟨hstar, ?_, (Option.some.inj h).symm⟩
      subst hsame
      rw [Signs.segment, if_neg hstar]
      split_ifs with hsign
      · exact ⟨byte, rfl, by rw [hsign]; decide⟩
      · rfl
  · cases h

/-- Where no byte is taken, nothing fits. -/
theorem not_fits_of_advance (hend : state.t < text.length) (h : state.advance pattern text = none) :
    ¬ globBytes.Fits pattern text state.p state.t := by
  intro hfits
  have htext := List.getElem?_eq_getElem hend
  cases hbyte : pattern[state.p]? with
  | none =>
    exact absurd ((fits_of_pattern_end (List.getElem?_eq_none_iff.mp hbyte)).mp hfits)
      (Nat.not_le_of_lt hend)
  | some =>
    simp only [GlobState.advance, hbyte, htext] at h
    split_ifs at h with hstar hquestion hsame
    obtain ⟨_, hc, haccepts, -⟩ := (fits_letter hbyte hstar).mp hfits
    obtain rfl := Option.some.inj (hc.symm.trans htext)
    rw [Signs.segment, if_neg hstar] at haccepts
    split_ifs at haccepts with hsign
    · obtain ⟨_, hone, hslash⟩ := haccepts
      obtain rfl := List.cons.inj hone |>.1
      exact hquestion ⟨hsign, hslash⟩
    · exact hsame (List.cons.inj haccepts).1.symm

variable (pattern text) in
theorem pow_pattern_pos (p : ℕ) : 0 < (text.length + 2) ^ (pattern.length - p) :=
  Nat.pow_pos (Nat.succ_pos _)

variable (text) in
/-- A place further on in the pattern weighs less, by more than the length of the text. -/
theorem mul_pow_le {p q : ℕ} (hp : p < pattern.length) (hq : p < q) :
    (text.length + 2) * (text.length + 2) ^ (pattern.length - q) ≤
      (text.length + 2) ^ (pattern.length - p) := by
  rw [← Nat.pow_succ']
  exact Nat.pow_le_pow_right (Nat.succ_pos _) (by omega)

theorem weight_advance (h : state.advance pattern text = some after) :
    weight pattern text after < weight pattern text state := by
  obtain ⟨_, _, hbyte, -, hcase⟩ := advance_cases h
  have hlt := (List.getElem?_eq_some_iff.mp hbyte).1
  obtain ⟨-, _, p, -, hp, rfl⟩ | ⟨-, -, rfl⟩ := hcase
  · have hpow := mul_pow_le text hlt (show state.p < p by rw [hp]; split <;> omega)
    have hpos := pow_pattern_pos pattern text p
    have hle := Nat.mul_le_mul_right ((text.length + 2) ^ (pattern.length - p))
      (Nat.sub_le text.length state.t)
    simp only [weight, List.map_cons, List.sum_cons]
    rw [Nat.add_mul] at hpow
    omega
  · have hpow := mul_pow_le text hlt (Nat.lt_add_one state.p)
    have hpos := pow_pattern_pos pattern text (state.p + 1)
    simp only [weight]
    rw [Nat.add_mul] at hpow
    omega

theorem weight_resume {stars : List Frame} (h : resume text stars = some after) :
    weight pattern text after ≤ (stars.map fun frame ↦
        (text.length - frame.resumeT) * (text.length + 2) ^
            (pattern.length - frame.resumeP)).sum := by
  induction stars with
  | nil => cases h
  | cons frame stars ih =>
    have hpass : resume text stars = some after → weight pattern text after ≤
        ((frame :: stars).map fun frame ↦
          (text.length - frame.resumeT) * (text.length + 2) ^
              (pattern.length - frame.resumeP)).sum := by
      intro hrest
      exact Nat.le_add_left_of_le (ih hrest)
    rw [resume] at h
    split at h
    · next textByte htext =>
      split_ifs at h
      · obtain rfl := Option.some.inj h
        have hlt := (List.getElem?_eq_some_iff.mp htext).1
        obtain ⟨left, _⟩ := Nat.exists_eq_add_of_lt hlt
        simp only [weight, List.map_cons, List.sum_cons]
        have h₁ : text.length - frame.resumeT = left + 1 := by omega
        have h₂ : text.length - (frame.resumeT + 1) = left := by omega
        rw [h₁, h₂, Nat.add_mul]
        omega
      · exact hpass h
    · exact hpass h

theorem weight_next (h : state.next pattern text = some after) :
    weight pattern text after < weight pattern text state := by
  unfold GlobState.next at h
  split at h
  · next hadvance =>
    obtain rfl := Option.some.inj h
    exact weight_advance hadvance
  · refine (weight_resume h).trans_lt ?_
    exact Nat.lt_add_of_pos_left (pow_pattern_pos pattern text state.p)

/-- The loop, and the stars that are left of the pattern behind it. -/
def globLoop (pattern text : Bytes) (state : GlobState) : Bool :=
  if state.t < text.length then
    match _h : state.next pattern text with
    | some after => globLoop pattern text after
    | none => false
  else
    let stars := (pattern.drop state.p).takeWhile (· == globBytes.star)
    state.p + stars.length == pattern.length
termination_by weight pattern text state
decreasing_by exact weight_next _h

def globMatchSegment (pattern text : Bytes) : Bool := globLoop pattern text ⟨0, 0, []⟩

/-- The stars of the loop are the frames of a search, and all its places are in the pattern. -/
structure GlobState.Sound (pattern text : Bytes) (state : GlobState) : Prop where
  chain : globBytes.Chain pattern text state.stars state.p state.t
  bound : state.p ≤ pattern.length
  starsBound : ∀ frame ∈ state.stars, frame.resumeP ≤ pattern.length

theorem sound_advance (h : state.Sound pattern text)
    (hnext : state.advance pattern text = some after) : after.Sound pattern text := by
  obtain ⟨_, textByte, hbyte, htext, hcase⟩ := advance_cases hnext
  have hlt := (List.getElem?_eq_some_iff.mp hbyte).1
  obtain ⟨rfl, crosses, p, hcrosses, rfl, rfl⟩ | ⟨hstar, haccepts, rfl⟩ := hcase
  · have hbound : (state.p + if crosses then 2 else 1) ≤ pattern.length := by
      cases crosses with
      | true =>
        have hnext : pattern[state.p + 1]? = some globBytes.star := by simpa using hcrosses.symm
        exact (List.getElem?_eq_some_iff.mp hnext).1
      | false => exact hlt
    exact ⟨h.chain.push fun _ ↦ fits_star hbyte hcrosses, hbound,
      List.forall_mem_cons.mpr ⟨hbound, h.starsBound⟩⟩
  · refine ⟨h.chain.step ⟨?_, fun t' hle hfits ↦ ?_⟩, hlt, h.starsBound⟩
    · rw [fits_letter hbyte hstar]
      exact ⟨fun ⟨_, _, _, hfits⟩ ↦ hfits, fun hfits ↦ ⟨textByte, htext, haccepts, hfits⟩⟩
    · obtain ⟨_, _, _, hfits'⟩ := (fits_letter hbyte hstar).mp hfits
      exact ⟨t' + 1, Nat.succ_le_succ hle, hfits'⟩

/-- A place that fails hands over to a star, or the whole fails. -/
theorem sound_resume {stars : List Frame} {p t : ℕ} (h : globBytes.Chain pattern text stars p t)
    (hfails : ¬ globBytes.Fits pattern text p t)
    (hbound : ∀ frame ∈ stars, frame.resumeP ≤ pattern.length) :
    (∃ after, resume text stars = some after ∧ after.Sound pattern text) ∨
      resume text stars = none ∧ ¬ globBytes.Fits pattern text 0 0 := by
  induction stars generalizing p t with
  | nil => exact Or.inr ⟨rfl, fun hfits ↦ hfails ((Leads.fits h).mp hfits)⟩
  | cons frame stars ih =>
    obtain ⟨hstar, hstars⟩ := List.forall_mem_cons.mp hbound
    have hpass (hblocked : text.length ≤ frame.resumeT ∨
        frame.crossesSlash = false ∧ text[frame.resumeT]? = some globBytes.slash) :
        (∃ after, resume text stars = some after ∧ after.Sound pattern text) ∨
          resume text stars = none ∧ ¬ globBytes.Fits pattern text 0 0 := by
      obtain ⟨_, _, hrest, hfails'⟩ := h.blocked hfails hblocked
      exact ih hrest hfails' hstars
    rw [resume]
    split
    · next textByte htext =>
      split_ifs with hmay
      · refine Or.inl ⟨_, rfl, h.widened hfails ?_, hstar, List.forall_mem_cons.mpr ⟨hstar, hstars⟩⟩
        exact hmay.imp id fun hne ↦ by rw [htext]; simpa using hne
      · rw [not_or, Bool.not_eq_true, not_not] at hmay
        exact hpass (Or.inr ⟨hmay.1, by rw [htext, hmay.2]⟩)
    · next htext => exact hpass (Or.inl (List.getElem?_eq_none_iff.mp htext))

/-- The stars that are left are all that is left. -/
theorem stars_to_end {p : ℕ} (hp : p ≤ pattern.length) :
    p + ((pattern.drop p).takeWhile (· == globBytes.star)).length = pattern.length ↔
      ∀ letter ∈ pattern.drop p, letter = globBytes.star := by
  have hlength := List.length_drop (i := p) (l := pattern)
  have hsub := List.takeWhile_prefix (l := pattern.drop p) (· == globBytes.star)
  constructor
  · intro h letter hmem
    have hall : (pattern.drop p).takeWhile (· == globBytes.star) = pattern.drop p :=
      hsub.eq_of_length (by omega)
    simpa using List.takeWhile_eq_self_iff.mp hall letter hmem
  · intro h
    rw [List.takeWhile_eq_self_iff.mpr fun letter hmem ↦ by simpa using h letter hmem]
    omega

theorem globLoop_iff (h : state.Sound pattern text) :
    globLoop pattern text state = true ↔ globBytes.Fits pattern text 0 0 := by
  fun_induction globLoop pattern text state with
  | case1 _ hend _ hnext ih =>
    refine ih ?_
    unfold GlobState.next at hnext
    split at hnext
    · next hadvance =>
      obtain rfl := Option.some.inj hnext
      exact sound_advance h hadvance
    · next hadvance =>
      have hcase := sound_resume h.chain (not_fits_of_advance hend hadvance) h.starsBound
      rw [hnext] at hcase
      obtain ⟨_, hsame, hsound⟩ | ⟨hnone, -⟩ := hcase
      · obtain rfl := Option.some.inj hsame
        exact hsound
      · cases hnone
  | case2 _ hend hnext =>
    unfold GlobState.next at hnext
    split at hnext
    · cases hnext
    · next hadvance =>
      have hcase := sound_resume h.chain (not_fits_of_advance hend hadvance) h.starsBound
      rw [hnext] at hcase
      obtain ⟨_, hsame, -⟩ | ⟨-, hfails⟩ := hcase
      · cases hsame
      · exact iff_of_false Bool.false_ne_true hfails
  | case3 state =>
    rw [beq_iff_eq, stars_to_end h.bound]
    have hall : ∀ u, state.t ≤ u → (globBytes.Fits pattern text state.p u ↔
        ∀ letter ∈ pattern.drop state.p, letter = globBytes.star) := fun u hle ↦
      fits_end (by omega)
    constructor
    · exact fun hstars ↦ h.chain.fits ((hall _ le_rfl).mpr hstars)
    · intro hfits
      by_contra hstars
      exact h.chain.exhausted (fun u hle hu ↦ hstars ((hall u hle).mp hu)) hfits

/-- The matcher accepts the bytes that the pattern describes. -/
theorem globMatchSegment_iff_bytes (pattern text : Bytes) : globMatchSegment pattern text = true ↔
      globBytes.Matches (globBytes.segments pattern) text := by
  have hsound : GlobState.Sound pattern text ⟨0, 0, []⟩ := ⟨Chain.init, Nat.zero_le _, by simp⟩
  rw [globMatchSegment, globLoop_iff hsound]
  rfl

end WebCodex.ProjectListing
