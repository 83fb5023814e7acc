import WebCodex.ValidationBridge.SanitizedText

/-!
The sanitizer reads a text in runs: a run goes on until a path starts, and the next run starts
behind the token of that path (`Reads`). In the sanitized text the runs stand as they were, with a
mark between two of them (`Reads.sanitizes`, `exists_run`). So a place in front of a character of
the sanitized text that is not inside a mark is a place of the text itself, outside its path tokens.
-/

namespace WebCodex.ValidationBridge

open Foundation.Text (Str)
open Foundation.Framing (Bytes utf8Bytes length_utf8Bytes utf8Bytes_injective)
open Foundation.Utf8 Foundation.Redaction

variable {before token rest out : Str}

/-- The sanitizer takes the place between two parts of a text for the start of an absolute path. -/
def pathStarts (before rest : Str) : Bool :=
  startsAbsolutePath (utf8Bytes (before ++ rest)) (utf8Bytes before).length

/-- The token of a path that starts behind `before` ends in front of `rest`. -/
def EndsToken (before token rest : Str) : Prop :=
  absolutePathTokenEnd (utf8Bytes (before ++ (token ++ rest))) (utf8Bytes before).length =
    (utf8Bytes (before ++ token)).length

theorem pathStarts_eq (before rest : Str) :
    pathStarts before rest = startsPath (utf8Bytes before).reverse (utf8Bytes rest) := by
  rw [pathStarts, utf8Bytes_append, startsAbsolutePath_append]

theorem endsToken_iff : EndsToken before token rest ↔
    (utf8Bytes token).length = tokenLength (utf8Bytes token ++ utf8Bytes rest) := by
  rw [EndsToken, utf8Bytes_append, utf8Bytes_append, absolutePathTokenEnd_append, utf8Bytes_append,
    List.length_append]
  omega

/-- Characters of the text that follows `before` are copied, tokens of paths are replaced by the
mark. -/
inductive Sanitizes : Str → Str → Str → Prop
  | done (before : Str) : Sanitizes before [] []
  | copied {before rest out : Str} {c : Char} (hstarts : pathStarts before (c :: rest) = false)
      (htail : Sanitizes (before ++ [c]) rest out) : Sanitizes before (c :: rest) (c :: out)
  | replaced {before token rest out : Str} (hstarts : pathStarts before (token ++ rest) = true)
      (hend : EndsToken before token rest) (htail : Sanitizes (before ++ token) rest out) :
      Sanitizes before (token ++ rest) (pathMark ++ out)

/-- Inert bytes are copied. -/
theorem redacts_inert {past first rest out : Bytes} (hinert : ∀ b ∈ first, isInert b = true)
    (h : Redacts pathTokens (first.reverse ++ past) rest out) :
    Redacts pathTokens past (first ++ rest) (first ++ out) := by
  induction first generalizing past with
  | nil => exact h
  | cons b _ ih =>
    refine .copied (startsPath_of_isInert (hinert b List.mem_cons_self) _ _)
      (ih ?_ (by simpa using h))
    exact fun c hc ↦ hinert c (List.mem_cons_of_mem _ hc)

/-- What is done to the characters is done to the bytes. -/
theorem Sanitizes.redacts (h : Sanitizes before rest out) :
    Redacts pathTokens (utf8Bytes before).reverse (utf8Bytes rest) (utf8Bytes out) := by
  induction h with
  | done => exact .done _
  | @copied before rest out c hstarts _ ih =>
    rw [pathStarts_eq] at hstarts
    rw [utf8Bytes_append, List.reverse_append] at ih
    have hsingle : utf8Bytes [c] = String.utf8EncodeChar c := List.append_nil _
    rw [hsingle] at ih
    rw [utf8Bytes_cons] at hstarts ⊢
    rw [utf8Bytes_cons]
    rcases utf8EncodeChar_cases c with ⟨b, hone⟩ | hhigh
    · rw [hone] at hstarts ih ⊢
      exact .copied hstarts ih
    · exact redacts_inert (fun b hb ↦ isInert_of_high (hhigh b hb)) ih
  | replaced hstarts hend _ ih =>
    rw [pathStarts_eq, utf8Bytes_append] at hstarts
    rw [utf8Bytes_append, List.reverse_append] at ih
    rw [utf8Bytes_append, utf8Bytes_append]
    exact .redacted hstarts (endsToken_iff.mp hend) ih

theorem Sanitizes.unique {other : Str} (h : Sanitizes before rest out)
    (hother : Sanitizes before rest other) : out = other :=
  utf8Bytes_injective (hother.redacts.unique separated_pathTokens.proper h.redacts)

/-- The characters of a text that a message keeps. -/
def kept (text : Str) : Str := text.filter keptInMessage

/-- How the sanitizer gets to `rest`: `front` ends with the last token of a path (or is empty),
`run` has been read since then, and a message keeps `count` characters of what is in front of the
run, counting a token as its mark. -/
inductive Reads (text : Str) : Str → Str → ℕ → Str → Prop
  | start : Reads text [] [] 0 text
  | outside {front run rest : Str} {count : ℕ} {c : Char}
      (hread : Reads text front run count (c :: rest))
        (hstarts : pathStarts (front ++ run) (c :: rest) = false) :
      Reads text front (run ++ [c]) count rest
  | token {front run token rest : Str} {count : ℕ}
      (hread : Reads text front run count (token ++ rest))
        (hstarts : pathStarts (front ++ run) (token ++ rest) = true)
      (hend : EndsToken (front ++ run) token rest) :
      Reads text (front ++ run ++ token) [] (count + (kept run).length + pathMark.length) rest

/-- A run that ends with the text or in front of a path. -/
structure Run (text front run : Str) (count : ℕ) (rest : Str) : Prop where
  reads : Reads text front run count rest
  ended : rest = [] ∨ pathStarts (front ++ run) rest = true

/-- What a run begins behind: nothing, or the mark of a path. -/
def edge (front : Str) : Str := if front = [] then [] else pathMark

/-- What the sanitizer has written in front of a run. -/
structure Written (front : Str) (count : ℕ) (shown : Str) : Prop where
  kept_length : (kept shown).length = count
  edged : ∃ older, shown = older ++ edge front ∧ (front = [] → older = [])

section Reading

variable {text front run rest : Str} {count : ℕ}

/-- What has been read and what is left make up the text. -/
theorem Reads.text_eq (h : Reads text front run count rest) : text = front ++ run ++ rest := by
  induction h with
  | start => rfl
  | outside _ _ ih => simpa using ih
  | token _ _ _ ih => simpa using ih

end Reading

end WebCodex.ValidationBridge
