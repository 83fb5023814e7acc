import Mathlib.Data.List.Sort
import WebCodex.TextEdit.LineEnding
import WebCodex.TextEdit.MatchResolution

/-!
`editPlan`, after `edit_plan` of the Runner: every edit of a batch is checked and resolved to a
range of the canonical original (`resolveEdit`), the ranges are sorted and compared with their
neighbours (`firstOverlap`), and the new text is put together from left to right (`assemble`) and
given the line endings of the original again.
-/

namespace WebCodex.TextEdit

open String (utf8Len)
open Foundation Foundation.Text

def applyTextEditsMaxEdits : ℕ := 20

def applyTextEditsMaxFieldBytes : ℕ := 512 * 1024

inductive ApplyTextEditKind where
  | replaceExact | insertAfter | insertBefore | deleteExact
  deriving DecidableEq

namespace ApplyTextEditKind

def asStr : ApplyTextEditKind → String
  | replaceExact => "replace_exact"
  | insertAfter => "insert_after"
  | insertBefore => "insert_before"
  | deleteExact => "delete_exact"

def isInsertion : ApplyTextEditKind → Bool
  | insertBefore | insertAfter => true
  | replaceExact | deleteExact => false

end ApplyTextEditKind

structure ApplyTextEditInput where
  kind : ApplyTextEditKind
  oldText : Option Str := none
  newText : Option Str := none
  anchorText : Option Str := none
  occurrence : Option ℕ := none
  lineScope : Option ApplyTextLineScope := none
  deriving DecidableEq

inductive EditPlanConflict where
  | ofMatch (conflict : ApplyTextMatchConflict)
  | overlap (firstEditIndex secondEditIndex : ℕ)
  deriving DecidableEq

structure EditPlanError where
  editIndex : ℕ
  (editKind message : String)
  conflict : Option EditPlanConflict
  deriving DecidableEq

def plain (editIndex : ℕ) (editKind message : String) : Failure EditPlanError :=
  .reported ⟨editIndex, editKind, message, none⟩

/-- One of the `ops`: the text stands in the place of a range of the original. -/
structure PlannedEdit where
  (start stop : ℕ)
  text : Str
  index : ℕ
  deriving DecidableEq

structure EditSummary where
  index : ℕ
  kind : String
  (oldStartLine oldEndLine newLineCount : ℕ)
  deriving DecidableEq

/-- The text that is looked for, and what is put in its place or next to it. -/
def editTexts (index : ℕ) (edit : ApplyTextEditInput) :
    Except (Failure EditPlanError) (Str × Str) :=
  let fail := plain index edit.kind.asStr
  match edit.kind with
  | .replaceExact => do
    let old ← required (edit.oldText.filter (!·.isEmpty)) (fail "old_text must be non-empty")
    ensure edit.anchorText.isNone (fail "anchor_text is not allowed")
    pure (old, edit.newText.getD [])
  | .deleteExact => do
    let old ← required (edit.oldText.filter (!·.isEmpty)) (fail "old_text must be non-empty")
    ensure (edit.newText.isNone && edit.anchorText.isNone)
      (fail "new_text and anchor_text are not allowed")
    pure (old, [])
  | .insertBefore | .insertAfter => do
    let anchor ← required (edit.anchorText.filter (!·.isEmpty))
      (fail "anchor_text must be non-empty")
    let newText ← required edit.newText (fail "new_text is required")
    ensure edit.oldText.isNone (fail "old_text is not allowed")
    pure (anchor, newText)

/-- The message for a match that failed; a conflict about the lines has to carry them. -/
def conflictMessage (conflict : ApplyTextMatchConflict) : Except (Failure EditPlanError) String :=
  let requested := conflict.requestedOccurrence.getD 0
  match conflict.kind with
  | .matchNotFound =>
    if conflict.lineScope.isSome then .ok "match text was not found within line_scope"
    else .ok "match text was not found"
  | .multipleMatches =>
    let count := conflict.lineScopeMatchCount.getD conflict.matchCount
    if conflict.lineScope.isSome then .ok s!"match text matched {count} times within line_scope"
    else .ok s!"match text matched {count} times"
  | .occurrenceOutOfRange =>
    .ok s!"requested occurrence {requested} is out of range for {conflict.matchCount} exact matches"
  | .occurrenceOutsideLineScope => do
    let scope ← required conflict.lineScope .panicked
    pure s!"requested occurrence {requested} is outside line_scope {scope.startLine}..={scope.endLine}"

/-- The failure of an edit whose match failed. -/
def matchFailure (index : ℕ) (kind : ApplyTextEditKind) :
    Failure ApplyTextMatchConflict → Failure EditPlanError
  | .panicked => .panicked
  | .reported conflict =>
    match conflictMessage conflict with
    | .ok message => .reported ⟨index, kind.asStr, message, some (.ofMatch conflict)⟩
    | .error failure => failure

/-- The range of an edit, given that of the text it looks for. -/
def editRange (kind : ApplyTextEditKind) (start stop : ℕ) : ℕ × ℕ :=
  match kind with
  | .insertBefore => (start, start)
  | .insertAfter => (stop, stop)
  | .replaceExact | .deleteExact => (start, stop)

/-- A turn of the loop over the edits; an insertion of nothing is passed over. -/
def resolveEdit (original : Str) (lineEnding : ApplyTextLineEnding) (edit : ApplyTextEditInput)
    (index : ℕ) : Except (Failure EditPlanError) (Option PlannedEdit) := do
  let fail := plain index edit.kind.asStr
  ensure (edit.occurrence != some 0) (fail "occurrence must be at least 1")
  edit.lineScope.forM fun scope ↦ scope.validate.mapError fail
  let (needle, replacement) ← editTexts index edit
  ensure (!(needle.contains '\x00' || replacement.contains '\x00'))
    (fail "edit text cannot contain NUL bytes")
  ensure (!(decide (applyTextEditsMaxFieldBytes < utf8Len needle) ||
      decide (applyTextEditsMaxFieldBytes < utf8Len replacement))) (fail "edit field is too large")
  let needle ← (canonicalizeApplyTextLineEndings needle lineEnding).mapError fail
  let replacement ← (canonicalizeApplyTextLineEndings replacement lineEnding).mapError fail
  if edit.kind.isInsertion && replacement.isEmpty then pure none
  else
    let (start, stop) ←
      (resolveApplyTextMatch original needle edit.occurrence edit.lineScope).mapError
        (matchFailure index edit.kind)
    let range := editRange edit.kind start stop
    pure (some ⟨range.1, range.2, replacement, index⟩)

/-- The ranges of the edits that put in or take out something, in the order of the batch. -/
def resolveEdits (original : Str) (lineEnding : ApplyTextLineEnding)
    (edits : List ApplyTextEditInput) : Except (Failure EditPlanError) (List PlannedEdit) := do
  let planned ← edits.zipIdx.mapM fun (edit, index) ↦ resolveEdit original lineEnding edit index
  pure planned.reduceOption

def PlannedEdit.KeyLe (first second : PlannedEdit) : Prop :=
  first.start < second.start ∨ first.start = second.start ∧
    (first.stop < second.stop ∨ first.stop = second.stop ∧ first.index ≤ second.index)

instance : DecidableRel PlannedEdit.KeyLe := fun _ _ ↦
    inferInstanceAs (Decidable (_ ∨ _ ∧ (_ ∨ _ ∧ _)))

/-- The first two neighbours of which the second one starts in front of the end of the first one. -/
def firstOverlap : List PlannedEdit → Option (PlannedEdit × PlannedEdit)
  | first :: second :: rest =>
    if second.start < first.stop then some (first, second) else firstOverlap (second :: rest)
  | _ => none

def summarize (original : Str) (edits : List ApplyTextEditInput) (op : PlannedEdit) :
    Option EditSummary := do
  let before ← textBetween original 0 op.start
  let upTo ← textBetween original 0 op.stop
  let edit ← edits[op.index]?
  let startLine := 1 + newlines before
  let endLine := 1 + newlines upTo
  let endLine :=
    if op.start < op.stop ∧ (Framing.utf8Bytes original)[op.stop - 1]? = some 0x0a then
      max (endLine - 1) startLine
    else endLine
  some
    { index := op.index
      kind := edit.kind.asStr
      oldStartLine := startLine
      oldEndLine := if op.stop = op.start then startLine else endLine
      newLineCount := if op.text.isEmpty then 0 else (lines op.text).length }

/-- The new text from a cursor on, with the summaries of the edits behind it. -/
def assemble (original : Str) (edits : List ApplyTextEditInput) :
    ℕ → List PlannedEdit → Option (Str × List EditSummary)
  | cursor, [] => do
    let rest ← textBetween original cursor (utf8Len original)
    some (rest, [])
  | cursor, op :: ops => do
    let gap ← textBetween original cursor op.start
    let summary ← summarize original edits op
    let (rest, summaries) ← assemble original edits op.stop ops
    some (gap ++ (op.text ++ rest), summary :: summaries)

def editPlan (original : Str) (edits : List ApplyTextEditInput) :
    Except (Failure EditPlanError) (Str × List EditSummary) := do
  ensure (!(edits.isEmpty || decide (applyTextEditsMaxEdits < edits.length)))
    (plain 0 "edit" s!"edits must contain 1..={applyTextEditsMaxEdits} entries")
  let lineEnding ← (detectApplyTextLineEnding original).mapError (plain 0 "edit")
  let canonical ← (canonicalizeApplyTextLineEndings original lineEnding).mapError (plain 0 "edit")
  let ops ← resolveEdits canonical lineEnding edits
  let ops := ops.insertionSort PlannedEdit.KeyLe
  match firstOverlap ops with
  | some (first, second) => do
    let edit ← required edits[second.index]? .panicked
    .error (.reported
      ⟨second.index, edit.kind.asStr, "edits overlap", some (.overlap first.index second.index)⟩)
  | none => do
    let (replacement, summaries) ← required (assemble canonical edits 0 ops) .panicked
    pure (restoreApplyTextLineEndings replacement lineEnding, summaries)

end WebCodex.TextEdit
