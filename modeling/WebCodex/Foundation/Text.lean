import Mathlib.Data.String.Basic
import Mathlib.Tactic.Common

/-!
Text is a list of Unicode scalar values. Programs that hold UTF-8 strings address the same text in
two further ways, and both are partial views of the list: by byte offset, where an offset inside a
character addresses nothing (`splitAtByte`), and by line, where a line ends at a line feed and a
carriage return in front of that line feed belongs to the ending (`lines`).
-/

namespace WebCodex.Foundation.Text

open String (utf8Len utf8Len_nil utf8Len_cons utf8Len_append utf8Len_eq_zero)

abbrev Str := List Char

/-- The two sides of a byte offset. An offset inside a character, or past the end, has no sides:
slicing there is a panic in a language that checks character boundaries. -/
def splitAtByte : ℕ → Str → Option (Str × Str)
  | 0, s => some ([], s)
  | _ + 1, [] => none
  | n + 1, c :: s =>
    if c.utf8Size ≤ n + 1 then
      (splitAtByte (n + 1 - c.utf8Size) s).map fun sides ↦ (c :: sides.1, sides.2)
    else none

/-- A byte offset splits a text exactly when it is the length of one of its prefixes. -/
theorem splitAtByte_eq_some_iff {n : ℕ} {s before after : Str} :
    splitAtByte n s = some (before, after) ↔ s = before ++ after ∧ utf8Len before = n := by
  induction s generalizing n before with
  | nil =>
    cases n with
    | zero => cases before <;> simp [splitAtByte, eq_comm]
    | succ =>
      simp only [splitAtByte, reduceCtorEq, false_iff, not_and]
      intro happend
      obtain ⟨rfl, -⟩ := List.append_eq_nil_iff.mp happend.symm
      simp
  | cons _ _ ih =>
    cases n with
    | zero =>
      simp only [splitAtByte, Option.some.injEq, Prod.mk.injEq, utf8Len_eq_zero]
      constructor
      · rintro ⟨rfl, rfl⟩
        exact ⟨rfl, rfl⟩
      · rintro ⟨happend, rfl⟩
        exact ⟨rfl, happend⟩
    | succ =>
      simp only [splitAtByte]
      split_ifs with hfits
      · simp only [Option.map_eq_some_iff, Prod.exists, Prod.mk.injEq]
        constructor
        · rintro ⟨_, _, hsplit, rfl, rfl⟩
          obtain ⟨rfl, hlen⟩ := ih.mp hsplit
          refine ⟨rfl, ?_⟩
          rw [utf8Len_cons, hlen]
          omega
        · rintro ⟨happend, hlen⟩
          cases before with
          | nil => simp at hlen
          | cons _ before =>
            obtain ⟨rfl, rfl⟩ := happend
            rw [utf8Len_cons] at hlen
            exact ⟨before, after, ih.mpr ⟨rfl, by omega⟩, rfl, rfl⟩
      · simp only [false_iff, not_and]
        intro happend hlen
        cases before with
        | nil => simp at hlen
        | cons =>
          obtain ⟨rfl, rfl⟩ := happend
          rw [utf8Len_cons] at hlen
          omega

/-- Whether a byte offset lies between two characters (or at an end). -/
def isCharBoundary (n : ℕ) (s : Str) : Bool := (splitAtByte n s).isSome

/-- The byte offset of the first occurrence of a character. -/
def find (target : Char) : Str → Option ℕ
  | [] => none
  | c :: s => if c = target then some 0 else (find target s).map (· + c.utf8Size)

/-- The character found stands at the offset, and not before it. -/
theorem find_eq_some {target : Char} {s : Str} {n : ℕ} (hfind : find target s = some n) :
    ∃ before after, s = before ++ target :: after ∧ utf8Len before = n ∧ target ∉ before := by
  induction s generalizing n with
  | nil => simp [find] at hfind
  | cons c s ih =>
    simp only [find] at hfind
    split_ifs at hfind with hc
    · subst hc
      exact ⟨[], s, rfl, by simpa using hfind, by simp⟩
    · obtain ⟨_, hm, rfl⟩ := Option.map_eq_some_iff.mp hfind
      obtain ⟨before, after, rfl, hlen, hnot⟩ := ih hm
      refine ⟨c :: before, after, rfl, by rw [utf8Len_cons, hlen], ?_⟩
      simp only [List.mem_cons, not_or]
      exact ⟨fun hsame ↦ hc hsame.symm, hnot⟩

/-- The pieces of a text that end at its line feeds, each with its line feed, and what follows the
last one when that is not empty. -/
def splitInclusive : Str → List Str
  | [] => []
  | c :: s =>
    if c = '\n' then [c] :: splitInclusive s
    else match splitInclusive s with
      | [] => [[c]]
      | piece :: pieces => (c :: piece) :: pieces

/-- Removes one trailing character, when it is the given one. -/
def stripSuffixChar (target : Char) (s : Str) : Str :=
  if s.getLast? = some target then s.dropLast else s

/-- Removes the line ending of a piece: a line feed, and a carriage return in front of it. A
carriage return with no line feed behind it is content. -/
def stripLineEnding (piece : Str) : Str :=
  if piece.getLast? = some '\n' then stripSuffixChar '\r' piece.dropLast else piece

variable (s : Str)

/-- The lines of a text, without their endings. -/
def lines : List Str := (splitInclusive s).map stripLineEnding

def newlines : ℕ := s.count '\n'

/-- The text is not empty and its last line has no line feed. -/
def endsPartial : Bool := !s.isEmpty && !(s.getLast? == some '\n')

@[simp] theorem lines_nil : lines [] = [] := rfl

@[simp] theorem newlines_nil : newlines [] = 0 := rfl

@[simp] theorem newlines_append (t : Str) : newlines (s ++ t) = newlines s + newlines t := by
  simp [newlines]

@[simp] theorem newlines_cons_newline : newlines ('\n' :: s) = newlines s + 1 := by
  simp [newlines]

theorem newlines_cons_of_ne {c : Char} (hc : c ≠ '\n') (s : Str) :
    newlines (c :: s) = newlines s := by
  simp [newlines, hc]

theorem splitInclusive_cons_newline : splitInclusive ('\n' :: s) = ['\n'] :: splitInclusive s := by
  simp [splitInclusive]

/-- A character that is no line feed joins the first piece of what follows it. -/
theorem splitInclusive_cons_of_ne {c : Char} (hc : c ≠ '\n') (s : Str) : splitInclusive (c :: s) =
      (c :: (splitInclusive s).headD []) :: (splitInclusive s).tail := by
  simp only [splitInclusive, if_neg hc]
  cases splitInclusive s <;> rfl

theorem splitInclusive_eq_nil {s : Str} : splitInclusive s = [] ↔ s = [] := by
  cases s with
  | nil => simp [splitInclusive]
  | cons c =>
    by_cases hc : c = '\n'
    · subst hc
      simp [splitInclusive_cons_newline]
    · simp [splitInclusive_cons_of_ne hc]

theorem endsPartial_cons_newline : endsPartial ('\n' :: s) = endsPartial s := by
  cases s with
  | nil => rfl
  | cons => simp [endsPartial, List.getLast?_cons_cons]

theorem endsPartial_cons_of_ne {c : Char} (hc : c ≠ '\n') (s : Str) :
    endsPartial (c :: s) = (s.isEmpty || endsPartial s) := by
  cases s with
  | nil => simp [endsPartial, hc]
  | cons => simp [endsPartial, List.getLast?_cons_cons]

/-- A text has one line for each line feed, and one more when its last line is partial. -/
theorem length_lines : (lines s).length = newlines s + (if endsPartial s then 1 else 0) := by
  simp only [lines, List.length_map]
  induction s with
  | nil => rfl
  | cons c s ih =>
    by_cases hc : c = '\n'
    · subst hc
      rw [splitInclusive_cons_newline, List.length_cons, ih, newlines_cons_newline,
        endsPartial_cons_newline]
      omega
    · rw [splitInclusive_cons_of_ne hc, List.length_cons, List.length_tail, ih,
        newlines_cons_of_ne hc, endsPartial_cons_of_ne hc]
      cases s with
      | nil => rfl
      | cons d s =>
        have hpos : 0 < (splitInclusive (d :: s)).length :=
          List.length_pos_iff.mpr (by simp [splitInclusive_eq_nil])
        simp only [List.isEmpty_cons, Bool.false_or]
        omega

/-- What follows the first `k` line feeds; nothing when there are fewer. -/
def afterNewlines : ℕ → Str → Str
  | 0, s => s
  | _ + 1, [] => []
  | k + 1, c :: s => if c = '\n' then afterNewlines k s else afterNewlines (k + 1) s

@[simp] theorem afterNewlines_zero : afterNewlines 0 s = s := by
  cases s <;> rfl

/-- Dropping pieces is dropping the text up to as many line feeds. -/
theorem splitInclusive_drop (k : ℕ) (s : Str) :
    (splitInclusive s).drop k = splitInclusive (afterNewlines k s) := by
  induction s generalizing k with
  | nil => cases k <;> simp [splitInclusive, afterNewlines]
  | cons c _ ih =>
    cases k with
    | zero => rfl
    | succ k =>
      by_cases hc : c = '\n'
      · subst hc
        simpa [splitInclusive_cons_newline, afterNewlines] using ih k
      · rw [splitInclusive_cons_of_ne hc, List.drop_succ_cons, ← List.drop_one, List.drop_drop,
          Nat.add_comm, ih]
        simp [afterNewlines, hc]

/-- Dropping lines is dropping the text up to as many line feeds. -/
theorem lines_drop (k : ℕ) (s : Str) : (lines s).drop k = lines (afterNewlines k s) := by
  simp only [lines, ← List.map_drop, splitInclusive_drop]

/-- Line feeds that the first part of a concatenation cannot give are taken from the second. -/
theorem afterNewlines_append_of_lt {k : ℕ} {s : Str} (hlt : newlines s < k) (t : Str) :
    afterNewlines k (s ++ t) = afterNewlines (k - newlines s) t := by
  induction s generalizing k with
  | nil => simp
  | cons c _ ih =>
    obtain ⟨k, rfl⟩ : ∃ j, k = j + 1 := ⟨k - 1, by omega⟩
    by_cases hc : c = '\n'
    · subst hc
      rw [newlines_cons_newline] at hlt
      rw [List.cons_append, afterNewlines, if_pos rfl, ih (by omega), newlines_cons_newline,
        Nat.add_sub_add_right]
    · rw [newlines_cons_of_ne hc] at hlt
      rw [List.cons_append, afterNewlines, if_neg hc, ih hlt, newlines_cons_of_ne hc]

/-- A first part that ends at a line boundary is exactly what its own line feeds drop. -/
theorem afterNewlines_append_of_boundary {s : Str} (hboundary : endsPartial s = false) (t : Str) :
    afterNewlines (newlines s) (s ++ t) = t := by
  induction s with
  | nil => simp
  | cons c s ih =>
    by_cases hc : c = '\n'
    · subst hc
      rw [endsPartial_cons_newline] at hboundary
      rw [newlines_cons_newline, List.cons_append, afterNewlines, if_pos rfl, ih hboundary]
    · rw [endsPartial_cons_of_ne hc, Bool.or_eq_false_iff] at hboundary
      have hpos : newlines s ≠ 0 := by
        intro hzero
        obtain ⟨hne, hlast⟩ := hboundary
        cases s with
        | nil => simp at hne
        | cons d s =>
          have hmem : (d :: s).getLast (by simp) ∈ d :: s := List.getLast_mem _
          simp only [endsPartial, List.isEmpty_cons, Bool.not_false, Bool.true_and,
            Bool.not_eq_false', beq_iff_eq, List.getLast?_eq_some_getLast (List.cons_ne_nil d s),
            Option.some.injEq] at hlast
          rw [hlast] at hmem
          exact List.count_eq_zero.mp hzero hmem
      obtain ⟨k, hk⟩ : ∃ k, newlines s = k + 1 := ⟨newlines s - 1, by omega⟩
      rw [newlines_cons_of_ne hc, hk, List.cons_append, afterNewlines, if_neg hc, ← hk,
        ih hboundary.2]

end WebCodex.Foundation.Text
