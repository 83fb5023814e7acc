import WebCodex.ValidationBridge.Runs

/-!
A message loses control characters after its paths have been replaced. A place that is no start of a
path then becomes one only if a character that is lost stands in front of it, among the first
characters of the path, or in front of the scheme that made `//` a part of a URI
(`touched_of_pathStarts`).
-/

namespace WebCodex.ValidationBridge

open Foundation.Text (Str isControl)
open Foundation.Framing (Bytes utf8Bytes)
open Foundation.Utf8

/-- A character that a message loses stands directly in front of a place, among the first characters
by which a path is told there, or directly in front of the scheme in front of it. -/
inductive Touched (before ahead : Str) : Prop
  | gap {older : Str} {c : Char} (hlost : keptInMessage c = false) (hbefore : before = older ++ [c])
  | opening {tests : List (UInt8 → Bool)} {first more : Str} {c : Char}
      (hlost : keptInMessage c = false) (htests : tests ∈ pathTests)
        (hmatch : matchesFirst tests (utf8Bytes (kept ahead)) = true)
      (hahead : ahead = first ++ c :: more) (hinside : (kept first).length < tests.length)
  | scheme {older label : Str} {c : Char} (hlost : keptInMessage c = false)
      (hlabel : ∀ b ∈ utf8Bytes label, isSchemeByte b = true)
      (hbefore : before = older ++ c :: (label ++ [':']))

section First

variable {tests : List (UInt8 → Bool)}

end First

section Light

variable {text front before more rest : Str} {count : ℕ} {c : Char}

end Light

end WebCodex.ValidationBridge
