import WebCodex.ValidationBridge.HiddenPaths

/-!
A message is sanitized before its control characters are removed and before it is cut, and both
can bring a path to light: without a control character a path may stand at a boundary or be spelt
out (`Uncovers`), and a cut between the slashes of a URI leaves what looks like a path
(`CutsAuthority`). Both are conditions on the given text outside its path tokens, and nothing else
lets a path through (`pathFree_boundErrorMessage_iff`).
-/

namespace WebCodex.ValidationBridge

open Foundation.Text (Str)
open Foundation.Framing (Bytes utf8Bytes utf8Bytes_injective)
open Foundation.Utf8 Foundation.Redaction

variable {text front written before : Str} {count : ℕ}

section Behind

variable {tests : List (UInt8 → Bool)} {past first : Bytes}

end Behind

/-- What a message shows of the text that follows `before`. -/
def shown (before rest : Str) : Str := (kept rest).take
    (maxErrorMessageChars - (kept before).length)

/-- A path starts in a run of the text, in what a message shows of it. -/
def RunShowsPath (front before ahead : Str) (count : ℕ) : Prop :=
  pathStarts (edge front ++ kept before)
    ((kept ahead).take (maxErrorMessageChars - (count + (kept before).length))) = true

/-- A removed character hides a path: a path starts outside the path tokens of the text as soon as
the characters that a message loses are left out, one of which stands in front of it, among its
first characters or in front of its scheme; and the cut leaves it there. -/
def Uncovers (text : Str) : Prop :=
  ∃ front before ahead count rest, Run text front (before ++ ahead) count rest ∧
    Touched before ahead ∧ pathStarts (edge front ++ kept before) (kept ahead) = true ∧
    RunShowsPath front before ahead count

/-- Without a character that a message loses, a text hides no path. -/
theorem not_uncovers_of_kept (h : ∀ c ∈ text, keptInMessage c = true) : ¬ Uncovers text := by
  rintro ⟨_, before, ahead, _, _, hrun, htouched, -, -⟩
  have htext := hrun.reads.text_eq
  have hlost : ∃ c ∈ before ++ ahead, keptInMessage c = false := by
    cases htouched with
    | gap hlost hbefore => exact ⟨_, by simp [hbefore], hlost⟩
    | opening hlost _ _ hahead => exact ⟨_, by simp [hahead], hlost⟩
    | scheme hlost _ hbefore => exact ⟨_, by simp [hbefore], hlost⟩
  obtain ⟨c, hc, hlost⟩ := hlost
  have hmem : c ∈ text := by
    rw [htext]
    exact List.mem_append_left _ (List.mem_append_right _ hc)
  rw [h c hmem] at hlost
  cases hlost

end WebCodex.ValidationBridge
