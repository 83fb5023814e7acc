import WebCodex.Foundation.Layout

/-!
Edits are matched and applied on text whose lines end with line feeds. A file with carriage returns
is accepted when every line feed has one in front of it and none stands alone
(`detectApplyTextLineEnding`); it is canonicalized before the edit and restored afterwards.
-/

namespace WebCodex.TextEdit

open Foundation.Text

inductive ApplyTextLineEnding
  | none | lf | crlf
  deriving DecidableEq

/-- The scan for line endings, with what was seen so far. -/
def scanLineEndings : Str → Bool → Bool → Except String (Bool × Bool)
  | [], sawLf, sawCrlf => .ok (sawLf, sawCrlf)
  | '\r' :: '\n' :: rest, sawLf, _ => scanLineEndings rest sawLf true
  | '\r' :: _, _, _ => .error "file contains unsupported bare CR line endings"
  | '\n' :: rest, _, sawCrlf => scanLineEndings rest true sawCrlf
  | _ :: rest, sawLf, sawCrlf => scanLineEndings rest sawLf sawCrlf

def detectApplyTextLineEnding (text : Str) : Except String ApplyTextLineEnding :=
  match scanLineEndings text false false with
  | .error message => .error message
  | .ok (true, true) => .error "file contains mixed LF and CRLF line endings"
  | .ok (true, false) => .ok .lf
  | .ok (false, true) => .ok .crlf
  | .ok (false, false) => .ok .none

/-- Whether some carriage return has no line feed behind it. -/
def hasBareCr : Str → Bool
  | [] => false
  | '\r' :: rest => rest.head? != some '\n' || hasBareCr rest
  | _ :: rest => hasBareCr rest

def canonicalizeApplyTextLineEndings (text : Str) (lineEnding : ApplyTextLineEnding) :
    Except String Str :=
  if !text.contains '\r' then .ok text
  else if hasBareCr text then .error "edit text contains unsupported bare CR line endings"
  else if lineEnding == .none then .ok text
  else .ok (replaceCrlf text)

def restoreApplyTextLineEndings (text : Str) : ApplyTextLineEnding → Str
  | .crlf => expandLf text
  | .none => text
  | .lf => text

/-- What ends a line in a file of the convention. -/
def ApplyTextLineEnding.ending : ApplyTextLineEnding → Str
  | .crlf => ['\r', '\n']
  | .none => ['\n']
  | .lf => ['\n']

/-- Restoring lines gives each the ending of the convention. Assumes: no line holds a line feed. -/
theorem restoreApplyTextLineEndings_terminated {pieces : List Str}
    (hlines : ∀ piece ∈ pieces, '\n' ∉ piece) (lineEnding : ApplyTextLineEnding) :
    restoreApplyTextLineEndings (terminated pieces) lineEnding =
      (pieces.map fun piece ↦ piece ++ lineEnding.ending).flatten := by
  cases lineEnding with
  | none | lf => rfl
  | crlf =>
    have hline : ∀ piece : Str, '\n' ∉ piece → expandLf piece = piece := by
      intro piece hpiece
      induction piece with
      | nil => rfl
      | cons _ _ ih =>
        simp only [List.mem_cons, not_or] at hpiece
        have hrest := ih hpiece.2
        simp only [expandLf, List.flatMap_cons] at hrest ⊢
        rw [if_neg fun hsame ↦ hpiece.1 hsame.symm, hrest, List.singleton_append]
    simp only [restoreApplyTextLineEndings]
    induction pieces with
    | nil => rfl
    | cons piece _ ih =>
      have hpieces := ih fun other hother ↦ hlines other (by simp [hother])
      have hpiece := hline piece (hlines piece (by simp))
      simp only [terminated, expandLf, List.map_cons, List.flatten_cons, List.flatMap_append]
        at hpieces hpiece ⊢
      rw [hpieces, hpiece]
      rfl

end WebCodex.TextEdit
