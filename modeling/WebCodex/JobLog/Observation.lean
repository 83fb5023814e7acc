import WebCodex.Foundation.Layout
import WebCodex.JobLog.Retention

/-!
`projectLogStream` selects what an observation shows of one retained stream: the retained text or
its last lines for a baseline or reset, and for a delta the lines from the one that the cursor
names, or a reset when that is not retained. The next cursor is the next line, less one when the
last line is still partial, so that it is delivered again when it grows.
-/

namespace WebCodex.JobLog

open Foundation.Text

inductive JobLogDeltaStatus
  | baseline | delta | unchanged | reset
  deriving DecidableEq

inductive JobLogSelectionMode
  | baseline
  | delta (cursor : ℕ)
  | reset

structure JobLogStreamProjection where
  text : Str
  (nextLine totalLines returnedLines firstRetainedLine : ℕ)
  (truncated deltaReset : Bool)

/-- The line a baseline starts at: the first one, or the first of the last `tail` lines. -/
def baselineStart (lineCount : ℕ) (tailBound : Option ℕ) : ℕ :=
  match tailBound with
  | some tail => lineCount - tail
  | none => 0

/-- The first line that is selected, and whether the selection is a reset of the delta. -/
def selectionStart (lineCount firstRetainedLine observedNextLine : ℕ) (snapshotConsistent : Bool)
    (tailBound : Option ℕ) : JobLogSelectionMode → ℕ × Bool
  | .baseline => (baselineStart lineCount tailBound, false)
  | .reset => (baselineStart lineCount tailBound, true)
  | .delta cursor =>
    let continuous := snapshotConsistent &&
      (decide (cursor ≥ firstRetainedLine) && decide (cursor ≤ observedNextLine))
    if !continuous then (baselineStart lineCount tailBound, true)
    else
      let deltaStart := min (cursor - firstRetainedLine) lineCount
      let boundedStart :=
        match tailBound with
        | some tail => max (lineCount - tail) deltaStart
        | none => deltaStart
      (boundedStart, decide (boundedStart > deltaStart))

/-- The selected lines as text: joined by line feeds, with one more at the end on request. -/
def renderSelected (selectedLines : List Str) (preserveTrailingNewline : Bool) : Str :=
  let selected := List.intercalate ['\n'] selectedLines
  if preserveTrailingNewline && !selected.isEmpty then selected ++ ['\n'] else selected

def projectLogStream (retainedText : Str) (firstRetainedLine nextLine : ℕ)
    (storageTruncated : Bool) (tailLines : Option ℕ) (mode : JobLogSelectionMode)
    (preserveTrailingNewline : Bool) : JobLogStreamProjection :=
  let lines := lines retainedText
  let firstRetainedLine := max firstRetainedLine 1
  let expectedNext := firstRetainedLine + lines.length
  let observedNextLine := max nextLine 1
  let snapshotConsistent := observedNextLine == expectedNext
  -- A visible final partial line is not conclusively consumed.
  let nextLine :=
    if snapshotConsistent && endsPartial retainedText then
      max (observedNextLine - 1) firstRetainedLine
    else observedNextLine
  let tailBound := tailLines.filter fun tail ↦ decide (tail > 0)
  let (start, deltaReset) :=
    selectionStart lines.length firstRetainedLine observedNextLine snapshotConsistent tailBound mode
  let baselineOrReset :=
    match mode with
    | .baseline => true
    | .reset => true
    | .delta _ => false
  { text := renderSelected (lines.drop start) preserveTrailingNewline
    nextLine := nextLine
    totalLines := observedNextLine - 1
    returnedLines := lines.length - start
    firstRetainedLine := firstRetainedLine
    truncated := (baselineOrReset || deltaReset) &&
      (storageTruncated || decide (firstRetainedLine > 1) || decide (start > 0))
    deltaReset := deltaReset }

def combinedDeltaStatus (mode : JobLogSelectionMode) (stdout stderr : JobLogStreamProjection) :
    JobLogDeltaStatus :=
  match mode with
  | .baseline => .baseline
  | .reset => .reset
  | .delta _ =>
    if stdout.deltaReset || stderr.deltaReset then .reset
    else if stdout.text.isEmpty && stderr.text.isEmpty then .unchanged
    else .delta

/-- The part of `JobObservationToken` that selects the log range: the epoch of the job's
observations and, for a token that carries them, the next line of each stream. -/
structure JobObservationToken where
  epoch : String
  (stdoutCursor stderrCursor : Option ℕ)

/-- The mode of one stream of an observation that comes after a token. A token without cursors, or
of another epoch, proves nothing about the lines already received. -/
def selectionMode (epoch : String) (after : Option JobObservationToken)
    (cursor : JobObservationToken → Option ℕ) : JobLogSelectionMode :=
  match after with
  | none => .baseline
  | some token =>
    if token.stdoutCursor.isNone || !(token.epoch == epoch) then .reset
    else
      match cursor token with
      | some line => .delta line
      | none => .reset

/-- The projection of a retained stream as the registry takes it. -/
def observeStream (log : ShellJobLogState) (tailLines : Option ℕ) (mode : JobLogSelectionMode) :
    JobLogStreamProjection :=
  projectLogStream log.tail log.firstRetainedLine log.nextLine log.truncated tailLines mode true

/-- The joined text of some lines is empty when there are none or the only one is blank. -/
theorem intercalate_newline_eq_nil {selectedLines : List Str} :
    List.intercalate ['\n'] selectedLines = [] ↔ selectedLines = [] ∨ selectedLines = [[]] := by
  rcases selectedLines with _ | ⟨line, _ | ⟨next, rest⟩⟩
  · simp
  · simp
  · simp [List.intercalate_cons_cons]

/-- The text of selected lines is each line with its line feed, unless the selection is a single
blank line. Assumes: the selection is not a single blank line. -/
theorem renderSelected_eq_terminated {selectedLines : List Str} (hblank : selectedLines ≠ [[]]) :
    renderSelected selectedLines true = terminated selectedLines := by
  cases selectedLines with
  | nil => rfl
  | cons line rest =>
    have hne : List.intercalate ['\n'] (line :: rest) ≠ [] := by
      rw [Ne, intercalate_newline_eq_nil]
      simpa using hblank
    simp only [renderSelected, Bool.true_and, Bool.not_eq_true', List.isEmpty_eq_false_iff]
    rw [if_pos hne, intercalate_append_newline]

/-- The text of a selection that is not a single blank line is empty only when nothing is selected.
Assumes: the selection is not a single blank line. -/
theorem renderSelected_eq_nil {selectedLines : List Str} (hblank : selectedLines ≠ [[]])
    (hempty : renderSelected selectedLines true = []) : selectedLines = [] := by
  rw [renderSelected_eq_terminated hblank] at hempty
  cases selectedLines with
  | nil => rfl
  | cons => simp [terminated] at hempty

section Projection

variable {log : ShellJobLogState} {output : Str} (htracks : Tracks log output)
include htracks

theorem Tracks.one_le_first : 1 ≤ log.firstRetainedLine := by
  obtain ⟨_, -, _, -⟩ := htracks.suffix
  omega

theorem Tracks.max_first : max log.firstRetainedLine 1 = log.firstRetainedLine :=
  max_eq_left htracks.one_le_first

theorem Tracks.max_next : max log.nextLine 1 = log.nextLine :=
  max_eq_left (htracks.one_le_first.trans htracks.first_le_next)

/-- Where the next cursor stands. In a consistent snapshot it is the line after the last line feed
of the output; otherwise it is the recorded next line, which is not past that line. -/
theorem observeStream_nextLine (tailLines : Option ℕ) (mode : JobLogSelectionMode) :
    (observeStream log tailLines mode).nextLine = 1 + newlines output ∨
      ((observeStream log tailLines mode).nextLine = log.nextLine ∧
        log.nextLine ≤ 1 + newlines output) := by
  have hplace := htracks.first_add_newlines
  have hnext := htracks.next_le
  simp only [observeStream, projectLogStream, htracks.max_first, htracks.max_next, beq_iff_eq,
    Bool.and_eq_true]
  simp only [retainedLineCount, length_lines] at hnext ⊢
  by_cases hconsistent : log.nextLine =
      log.firstRetainedLine + (newlines log.tail + if endsPartial log.tail then 1 else 0)
  · left
    cases hunfinished : endsPartial log.tail with
    | true =>
      simp only [hunfinished, if_true] at hconsistent ⊢
      rw [if_pos ⟨hconsistent, trivial⟩]
      omega
    | false =>
      simp only [hunfinished] at hconsistent ⊢
      simp only [Bool.false_eq_true, if_false, and_false] at hconsistent ⊢
      omega
  · right
    rw [if_neg fun hboth ↦ hconsistent hboth.1]
    refine ⟨rfl, ?_⟩
    split_ifs at hnext hconsistent <;> omega

/-- The lines of the tail from an absolute line on are the lines of the output from that line on,
unless the tail begins inside that line. Assumes: the line is retained and not past the end, and
the tail does not begin inside it. -/
theorem Tracks.lines_drop_eq {cursor : ℕ} (hfirst : log.firstRetainedLine ≤ cursor)
    (hmidLine : ¬ (cursor = log.firstRetainedLine ∧ endsPartial (droppedOutput log output) =
      true)) :
    (lines log.tail).drop (cursor - log.firstRetainedLine) = (lines output).drop (cursor - 1) := by
  obtain ⟨dropped, houtput, _, -⟩ := htracks.suffix
  rw [droppedOutput_of_eq_append houtput] at hmidLine
  rw [lines_drop, lines_drop, houtput]
  rcases Nat.eq_or_lt_of_le hfirst with hsame | hlater
  · have hboundary : endsPartial dropped = false := by
      rw [← Bool.not_eq_true]
      exact fun hunfinished ↦ hmidLine ⟨hsame.symm, hunfinished⟩
    have hcount : cursor - 1 = newlines dropped := by omega
    rw [hcount, afterNewlines_append_of_boundary hboundary, ← hsame, Nat.sub_self,
      afterNewlines_zero]
  · rw [afterNewlines_append_of_lt (show newlines dropped < cursor - 1 by omega),
      show cursor - 1 - newlines dropped = cursor - log.firstRetainedLine by omega]

/-- A delta observation that is no reset shows the output from the cursor's line on. Assumes: the
tail does not begin inside the cursor's line. -/
theorem observeStream_delta_text {tailLines : Option ℕ} {cursor : ℕ}
    (hmidLine : ¬ (cursor = log.firstRetainedLine ∧ endsPartial (droppedOutput log output) = true))
    (hreset : (observeStream log tailLines (.delta cursor)).deltaReset = false) :
    (observeStream log tailLines (.delta cursor)).text =
      renderSelected ((lines output).drop (cursor - 1)) true := by
  simp only [observeStream, projectLogStream, htracks.max_first, htracks.max_next,
    selectionStart] at hreset ⊢
  split_ifs at hreset ⊢ with hcontinuous
  simp only [Bool.not_eq_true', Bool.not_eq_false, Bool.and_eq_true, decide_eq_true_eq]
    at hcontinuous
  have hstart : ∀ start, start ≤ min (cursor - log.firstRetainedLine) (lines log.tail).length →
      min (cursor - log.firstRetainedLine) (lines log.tail).length ≤ start →
      (lines log.tail).drop start = (lines output).drop (cursor - 1) := by
    intro start hle hge
    rw [← htracks.lines_drop_eq hcontinuous.2.1 hmidLine, Nat.le_antisymm hle hge]
    rcases Nat.le_total (cursor - log.firstRetainedLine) (lines log.tail).length with hin | hout
    · rw [min_eq_left hin]
    · rw [min_eq_right hout, List.drop_of_length_le hout, List.drop_length]
  simp only [decide_eq_false_iff_not, Nat.not_lt] at hreset
  congr 1
  refine hstart _ hreset ?_
  split
  · exact le_max_right _ _
  · exact le_rfl

/-- A baseline observation that is not truncated shows the whole output. -/
theorem observeStream_baseline_text {tailLines : Option ℕ}
    (htruncated : (observeStream log tailLines .baseline).truncated = false) :
    (observeStream log tailLines .baseline).text = renderSelected (lines output) true := by
  simp only [observeStream, projectLogStream, htracks.max_first, selectionStart, Bool.true_or,
    Bool.true_and, Bool.or_eq_false_iff] at htruncated ⊢
  obtain ⟨⟨hstorage, -⟩, hstart⟩ := htruncated
  obtain ⟨_, houtput, -, hcomplete⟩ := htracks.suffix
  rw [Nat.eq_zero_of_not_pos (of_decide_eq_false hstart), List.drop_zero, houtput,
    hcomplete hstorage, List.nil_append]

end Projection

end WebCodex.JobLog
