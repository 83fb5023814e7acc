import WebCodex.Foundation.Utf8
import WebCodex.ProjectListing.GlobMatch

/-!
The documentation of `glob_matches` speaks of characters, and `glob_match_segment` compares bytes.
Literal characters and stars mean the same either way (`matches_of_bytes`); a question mark stands
for one byte, which is one character of a path in ASCII (`matches_bytes_iff`). For every other path
there is a pattern with which the two differ (`not_agrees_questions`).
-/

namespace WebCodex.ProjectListing

open String (utf8Len utf8EncodeChar)
open Foundation.Glob
open Foundation.Glob.Signs (Accepts Matches segment segments_cons segments_deepRun segments_letter)
open Foundation.Framing (Bytes utf8Bytes length_utf8Bytes)
open Foundation.Text (Str)
open Foundation.Utf8

/-- The signs of `glob_matches` as characters. -/
def globChars : Signs Char := ⟨'*', '?', '/'⟩

/-- The pattern describes the path by what is documented: `*` any run except `/`, `?` one character
except `/`, `**` any run including `/`. -/
def Describes (pattern path : Str) : Prop := globChars.Matches (globChars.segments pattern) path

/-- The matcher does with a pattern and a path what is documented. -/
def Agrees (pattern path : Str) : Prop :=
  globMatchSegment (utf8Bytes pattern) (utf8Bytes path) = true ↔ Describes pattern path

def byteSegments : Segment Char → List (Segment UInt8)
  | .literal c => (utf8EncodeChar c).map .literal
  | .one => [.one]
  | .run => [.run]
  | .deepRun => [.deepRun]

theorem segments_utf8EncodeChar {c : Char} {rest : Bytes}
    (h : ¬ (c = '*' ∧ rest.head? = some globBytes.star)) :
    globBytes.segments (utf8EncodeChar c ++ rest) =
      byteSegments (globChars.segment c) ++ globBytes.segments rest := by
  by_cases hstar : c = '*'
  · subst hstar
    exact @segments_cons _ globBytes _ _ _ fun hboth ↦ h ⟨rfl, hboth.2⟩
  · by_cases hquestion : c = '?'
    · subst hquestion
      exact segments_letter (by decide) rest
    · have hsegment : globChars.segment c = .literal c := (if_neg hstar).trans (if_neg hquestion)
      rw [hsegment]
      refine Signs.segments_literals (fun _ hb ↦ ⟨?_, ?_⟩) rest
      · rintro rfl
        exact hstar ((mem_utf8EncodeChar '*' (by decide) (by decide)).mp hb)
      · rintro rfl
        exact hquestion ((mem_utf8EncodeChar '?' (by decide) (by decide)).mp hb)

theorem head?_utf8Bytes {text : Str} : (utf8Bytes text).head? = some globBytes.star ↔
    text.head? = some '*' := by
  cases text with
  | nil => simp
  | cons c =>
    rw [utf8Bytes_cons]
    constructor
    · intro h
      obtain ⟨_, _, hc, -⟩ := utf8EncodeChar_eq_cons c
      rw [hc, List.cons_append, List.head?_cons, Option.some.injEq] at h
      have hmem : globBytes.star ∈ utf8EncodeChar c := by simp [hc, h]
      rw [(mem_utf8EncodeChar '*' (by decide) (by decide)).mp hmem]
      rfl
    · intro h
      rw [List.head?_cons, Option.some.injEq] at h
      subst h
      rfl

/-- The bytes of a pattern stand for the bytes of its segments. -/
theorem segments_utf8Bytes (pattern : Str) :
    globBytes.segments (utf8Bytes pattern) = (globChars.segments pattern).flatMap byteSegments := by
  fun_induction Signs.segments globChars pattern with
  | case1 => rfl
  | case2 =>
    rw [utf8Bytes_cons, segments_utf8EncodeChar (by simp)]
    simp [Signs.segments]
  | case3 _ _ rest hstars ih =>
    obtain ⟨rfl, rfl⟩ := hstars
    rw [List.flatMap_cons, ← ih]
    exact @segments_deepRun _ globBytes _ (utf8Bytes rest)
  | case4 _ _ _ hstars ih =>
    rw [List.flatMap_cons, ← ih, utf8Bytes_cons, segments_utf8EncodeChar]
    rw [head?_utf8Bytes]
    simpa [globChars] using hstars

variable {segs : List (Segment Char)} {text : Str}

theorem matches_bytes (h : (∀ c ∈ text, c.utf8Size = 1) ∨ Segment.one ∉ segs)
    (hmatches : globChars.Matches segs text) :
    globBytes.Matches (segs.flatMap byteSegments) (utf8Bytes text) := by
  induction segs generalizing text with
  | nil => rw [show text = [] from hmatches]; rfl
  | cons first _ ih =>
    obtain ⟨piece, tail, rfl, haccepts, hrest⟩ := hmatches
    have htail := ih (h.imp (fun hascii c hc ↦ hascii c (List.mem_append_right piece hc))
      fun hnone hmem ↦ hnone (List.mem_cons_of_mem first hmem)) hrest
    rw [List.flatMap_cons, utf8Bytes_append]
    cases first with
    | literal c =>
      obtain rfl : piece = [c] := haccepts
      exact Signs.matches_literals.mpr ⟨utf8Bytes tail, by simp, htail⟩
    | one =>
      obtain ⟨c, rfl, hc⟩ := haccepts
      have hascii := h.resolve_right (by simp) c (by simp)
      refine ⟨utf8Bytes [c], utf8Bytes tail, rfl, ⟨c.val.toUInt8, ?_, ?_⟩, htail⟩
      · simpa using String.utf8EncodeChar_eq_singleton hascii
      · intro hslash
        refine hc ((mem_utf8EncodeChar '/' rfl (by decide)).mp ?_)
        rw [String.utf8EncodeChar_eq_singleton hascii, hslash]
        exact List.mem_singleton_self _
    | run =>
      refine ⟨utf8Bytes piece, utf8Bytes tail, rfl, ?_, htail⟩
      exact fun hmem ↦ haccepts ((mem_utf8Bytes '/' (by decide) (by decide)).mp hmem)
    | deepRun => exact ⟨utf8Bytes piece, utf8Bytes tail, rfl, trivial, htail⟩

/-- The bytes of characters in ASCII continue no other character. -/
theorem not_isContinuation_of_ascii (h : ∀ c ∈ text, c.utf8Size = 1) {b : UInt8}
    (hb : b ∈ utf8Bytes text) : ¬ IsContinuation b := by
  rw [utf8Bytes, List.mem_flatMap] at hb
  obtain ⟨c, hc, hmem⟩ := hb
  obtain ⟨_, _, hcons, _, -⟩ := utf8EncodeChar_eq_cons c
  have hlength := String.length_utf8EncodeChar c
  rw [hcons, h c hc, List.length_cons] at hlength
  obtain rfl := List.length_eq_zero_iff.mp (Nat.succ.inj hlength)
  rw [hcons, List.mem_singleton] at hmem
  rwa [hmem]

/-- Where a star ends inside a character, it may end behind it. -/
theorem exists_of_piece {piece tail junk : Bytes} (hjunk : ∀ b ∈ junk, IsContinuation b)
    (h : junk ++ utf8Bytes text = piece ++ tail) :
    ∃ first second rest, text = first ++ second ∧ tail = rest ++ utf8Bytes second ∧
      (∀ b ∈ rest, IsContinuation b) ∧
      (∀ b ∈ utf8Bytes first, b ∈ piece ∨ IsContinuation b) ∧
      ((∀ c ∈ text, c.utf8Size = 1) → junk = [] → rest = []) := by
  rcases List.append_eq_append_iff.mp h with ⟨front, rfl, htext⟩ | ⟨rest, rfl, rfl⟩
  · obtain ⟨first, second, rest, rfl, rfl, hrest, hfirst⟩ := exists_of_cut htext
    refine ⟨first, second, rest, rfl, rfl, hrest, fun b hb ↦ ?_, fun hascii _ ↦ ?_⟩
    · rw [hfirst, List.mem_append] at hb
      exact hb.imp (List.mem_append_right junk) (hrest b)
    · refine List.eq_nil_iff_forall_not_mem.mpr fun b hb ↦ ?_
      refine not_isContinuation_of_ascii (fun c hc ↦ hascii c (List.mem_append_left second hc)) ?_
        (hrest b hb)
      rw [hfirst]
      exact List.mem_append_right front hb
  · exact ⟨[], text, rest, rfl, rfl, fun b hb ↦ hjunk b (List.mem_append_right piece hb),
      by simp, fun _ hnone ↦ (List.append_eq_nil_iff.mp hnone).2⟩

/-- A match of bytes is one of characters, also behind a star that ended inside a character. -/
theorem matches_of_bytes {junk : Bytes} (hjunk : ∀ b ∈ junk, IsContinuation b)
    (h : ((∀ c ∈ text, c.utf8Size = 1) ∧ junk = []) ∨ Segment.one ∉ segs)
    (hmatches : globBytes.Matches (segs.flatMap byteSegments) (junk ++ utf8Bytes text)) :
    globChars.Matches segs text := by
  induction segs generalizing text junk with
  | nil => exact utf8Bytes_eq_nil.mp (List.append_eq_nil_iff.mp hmatches).2
  | cons first rest ih =>
    have hrest : ((∀ c ∈ text, c.utf8Size = 1) ∧ junk = []) ∨ Segment.one ∉ rest :=
      h.imp id fun hnone hmem ↦ hnone (List.mem_cons_of_mem first hmem)
    have hstar {segment} (hsegment : byteSegments first = [segment])
        (haccepts : ∀ piece, globBytes.Accepts segment piece → ∀ front : Str,
          (∀ b ∈ utf8Bytes front, b ∈ piece ∨ IsContinuation b) → globChars.Accepts first front) :
        globChars.Matches (first :: rest) text := by
      rw [List.flatMap_cons, hsegment] at hmatches
      obtain ⟨piece, tail, htext, hpiece, htail⟩ := hmatches
      obtain ⟨front, second, _, rfl, rfl, hleft, hfront, hascii⟩ := exists_of_piece hjunk htext
      refine ⟨front, second, rfl, haccepts piece hpiece front hfront, ih hleft ?_ htail⟩
      exact hrest.imp (fun hboth ↦ ⟨fun c hc ↦ hboth.1 c (List.mem_append_right front hc),
        hascii hboth.1 hboth.2⟩) id
    cases first with
    | literal c =>
      obtain ⟨tail, htext, htail⟩ := Signs.matches_literals.mp hmatches
      obtain ⟨_, _, hlead, hstarts, -⟩ := utf8EncodeChar_eq_cons c
      have hnone : junk = [] := by
        cases junk with
        | nil => rfl
        | cons b =>
          rw [hlead, List.cons_append, List.cons_append] at htext
          rw [← (List.cons.inj htext).1] at hstarts
          exact absurd (hjunk b (List.mem_cons_self ..)) hstarts
      subst hnone
      cases text with
      | nil => simp [hlead] at htext
      | cons d text =>
        obtain ⟨rfl, rfl⟩ := utf8EncodeChar_append_inj htext
        refine ⟨[d], text, rfl, rfl, ih hjunk ?_ htail⟩
        exact hrest.imp (fun hboth ↦ ⟨fun c hc ↦ hboth.1 c (List.mem_cons_of_mem d hc), rfl⟩) id
    | one =>
      obtain ⟨hascii, rfl⟩ := h.resolve_right (by simp)
      obtain ⟨_, tail, htext, ⟨b, rfl, hb⟩, htail⟩ := hmatches
      cases text with
      | nil => simp at htext
      | cons d text =>
        rw [List.nil_append, utf8Bytes_cons,
          String.utf8EncodeChar_eq_singleton (hascii d (List.mem_cons_self ..))] at htext
        obtain ⟨rfl, rfl⟩ := List.cons.inj htext
        refine ⟨[d], text, rfl, ⟨d, rfl, ?_⟩, ih hjunk (Or.inl ⟨?_, rfl⟩) htail⟩
        · rintro rfl
          exact hb rfl
        · exact fun c hc ↦ hascii c (List.mem_cons_of_mem d hc)
    | run =>
      refine hstar rfl fun piece hpiece front hfront hslash ↦ ?_
      have hmem := (mem_utf8Bytes '/' rfl (by decide)).mpr hslash
      rcases hfront _ hmem with hin | hcontinues
      · exact hpiece hin
      · exact absurd hcontinues (by decide)
    | deepRun => exact hstar rfl fun _ _ _ _ ↦ trivial

theorem matches_bytes_iff (h : (∀ c ∈ text, c.utf8Size = 1) ∨ Segment.one ∉ segs) :
    globBytes.Matches (segs.flatMap byteSegments) (utf8Bytes text) ↔ globChars.Matches segs text :=
  ⟨fun hmatches ↦ @matches_of_bytes _ _ [] (by simp) (h.imp (fun hascii ↦ ⟨hascii, rfl⟩) id)
    hmatches, matches_bytes h⟩

/-- What the matcher accepts, for every pattern and every path: a question mark stands for a
byte. -/
theorem globMatchSegment_iff (pattern path : Str) :
    globMatchSegment (utf8Bytes pattern) (utf8Bytes path) = true ↔
      globBytes.Matches ((globChars.segments pattern).flatMap byteSegments) (utf8Bytes path) := by
  rw [globMatchSegment_iff_bytes, segments_utf8Bytes]

theorem one_notMem_segments {pattern : Str} (h : '?' ∉ pattern) :
    Segment.one ∉ globChars.segments pattern := by
  have hsegment : ∀ c, c ≠ '?' → Segment.one ≠ globChars.segment c := by
    intro c hc
    unfold Signs.segment
    split_ifs with hstar hquestion
    · rintro ⟨⟩
    · exact absurd hquestion hc
    · rintro ⟨⟩
  fun_induction Signs.segments globChars pattern with
  | case1 => exact List.not_mem_nil
  | case2 c =>
    rw [List.mem_singleton] at h ⊢
    exact hsegment c (Ne.symm h)
  | case3 _ _ _ _ ih =>
    simp only [List.mem_cons, not_or] at h ⊢
    exact ⟨by rintro ⟨⟩, ih h.2.2⟩
  | case4 c _ _ _ ih =>
    rw [List.mem_cons, not_or] at h ⊢
    exact ⟨hsegment c (Ne.symm h.1), ih h.2⟩

theorem agrees_of_ascii {path : Str} (h : ∀ c ∈ path, c.utf8Size = 1) (pattern : Str) :
    Agrees pattern path := by
  rw [Agrees, globMatchSegment_iff]
  exact matches_bytes_iff (Or.inl h)

theorem agrees_of_no_question {pattern : Str} (h : '?' ∉ pattern) (path : Str) :
    Agrees pattern path := by
  rw [Agrees, globMatchSegment_iff]
  exact matches_bytes_iff (Or.inr (one_notMem_segments h))

/-- The pattern with a question mark for every character, and the slashes of the path. -/
def questions (path : Str) : Str := path.map fun c ↦ if c = '/' then '/' else '?'

theorem segments_questions (path : Str) : globChars.segments (questions path) =
      path.map fun c ↦ if c = '/' then .literal '/' else .one := by
  induction path with
  | nil => rfl
  | cons c _ ih =>
    have hstar : (if c = '/' then '/' else '?') ≠ '*' := by split <;> decide
    rw [questions, List.map_cons, List.map_cons, ← ih]
    refine (@segments_letter _ globChars _ _ hstar _).trans ?_
    congr 1
    split <;> rfl

theorem describes_questions (path : Str) : Describes (questions path) path := by
  rw [Describes, segments_questions]
  induction path with
  | nil => rfl
  | cons c path ih =>
    refine ⟨[c], path, rfl, ?_, ih⟩
    dsimp only
    split_ifs with hslash
    · rw [hslash]; rfl
    · exact ⟨c, rfl, hslash⟩

theorem length_le_utf8Len (text : Str) : text.length ≤ utf8Len text := by
  induction text with
  | nil => exact Nat.zero_le _
  | cons c =>
    have hpos := Char.utf8Size_pos c
    rw [List.length_cons, String.utf8Len_cons]
    omega

theorem ascii_of_utf8Len {text : Str} (h : utf8Len text = text.length) :
    ∀ c ∈ text, c.utf8Size = 1 := by
  induction text with
  | nil => simp
  | cons c text ih =>
    have hpos := Char.utf8Size_pos c
    have hle := length_le_utf8Len text
    rw [List.length_cons, String.utf8Len_cons] at h
    exact List.forall_mem_cons.mpr ⟨by omega, ih (by omega)⟩

/-- With a character of several bytes, a path has more bytes than question marks that describe
it. -/
theorem not_agrees_questions {path : Str} (h : ¬ ∀ c ∈ path, c.utf8Size = 1) :
    ¬ Agrees (questions path) path := by
  intro hagrees
  have hmatches := (globMatchSegment_iff _ _).mp (hagrees.mpr (describes_questions path))
  have hsegments : (globChars.segments (questions path)).flatMap byteSegments =
      path.map fun c ↦ if c = '/' then .literal 0x2f else .one := by
    rw [segments_questions, List.flatMap_map, List.map_eq_flatMap]
    refine List.flatMap_congr fun c _ ↦ ?_
    split_ifs <;> rfl
  rw [hsegments] at hmatches
  have hplain : ∀ segment ∈ path.map fun c ↦ if c = '/' then Segment.literal
      (0x2f : UInt8) else .one, segment = .literal 0x2f ∨ segment = .one := by
    intro segment hmem
    obtain ⟨c, -, rfl⟩ := List.mem_map.mp hmem
    split_ifs <;> simp
  have hlength := Signs.length_of_matches hmatches
    ⟨fun hmem ↦ by simpa using hplain _ hmem, fun hmem ↦ by simpa using hplain _ hmem⟩
  rw [length_utf8Bytes, List.length_map] at hlength
  exact h (ascii_of_utf8Len hlength)

/-- What the matcher accepts for every pattern is what a question mark for one byte describes. That
is what is documented of a path just when all its characters are bytes, and of every path when the
pattern has no question mark. -/
theorem globMatchSegment_agrees_iff (path : Str) :
    (∀ pattern, globMatchSegment (utf8Bytes pattern) (utf8Bytes path) = true ↔
        globBytes.Matches ((globChars.segments pattern).flatMap byteSegments) (utf8Bytes path)) ∧
      ((∀ pattern, Agrees pattern path) ↔ ∀ c ∈ path, c.utf8Size = 1) ∧
      ∀ pattern, '?' ∉ pattern → Agrees pattern path := by
  refine ⟨fun pattern ↦ globMatchSegment_iff pattern path, ⟨fun hagrees ↦ ?_, agrees_of_ascii⟩,
    fun pattern hnone ↦ agrees_of_no_question hnone path⟩
  by_contra hascii
  exact not_agrees_questions hascii (hagrees (questions path))

/-- A question mark stands for one byte, so it does not match a character of two bytes. -/
theorem question_misses_character : ¬ Agrees ['?'] ['é'] :=
  @not_agrees_questions ['é'] fun h ↦ absurd (h 'é' List.mem_cons_self) (by decide)

/-- The last component of a path, `rsplit('/').next()`. -/
def basename (path : Str) : Str := (path.reverse.takeWhile (· != '/')).reverse

def globMatches (pattern path : Str) : Bool :=
  if !pattern.contains '/' && globMatchSegment (utf8Bytes pattern)
    (utf8Bytes (basename path)) then true
  else globMatchSegment (utf8Bytes pattern) (utf8Bytes path)

/-- A pattern without a slash may also describe the base name. -/
theorem globMatches_iff {pattern path : Str} (h : (∀ c ∈ path, c.utf8Size = 1) ∨ '?' ∉ pattern) :
    globMatches pattern path = true ↔
      ('/' ∉ pattern ∧ Describes pattern (basename path)) ∨ Describes pattern path := by
  have hbase : Agrees pattern (basename path) := by
    rcases h with hascii | hnone
    · refine agrees_of_ascii (fun c hc ↦ hascii c ?_) pattern
      exact List.mem_reverse.mp ((List.takeWhile_sublist _).subset (List.mem_reverse.mp hc))
    · exact agrees_of_no_question hnone _
  have hpath : Agrees pattern path := h.elim (agrees_of_ascii · pattern)
    (agrees_of_no_question · path)
  unfold globMatches
  unfold Agrees at hbase hpath
  rw [← hbase, ← hpath]
  simp

/-- A Rust source is found by its base name. -/
theorem globMatches_rust_source : globMatches "*.rs".toList "src/lib.rs".toList = true ↔
    ('/' ∉ "*.rs".toList ∧ Describes "*.rs".toList (basename "src/lib.rs".toList)) ∨
      Describes "*.rs".toList "src/lib.rs".toList :=
  globMatches_iff (.inr (by decide))

end WebCodex.ProjectListing
