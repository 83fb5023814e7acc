import WebCodex.JobLog.Observation

/-!
A session of one job is its two retained streams, everything appended so far, and what of it had
been appended at the last observation. An observation loses a line in two situations only
(`DeliversWholeLines` excludes both): the new output is exactly one blank line, or the tail was
cut inside the very line that the cursor names. Outside them it is lossless whatever came before
(`observe_lossless`).
-/

namespace WebCodex.JobLog

open Foundation.Text

/-- One stream of a session: what is retained, everything that was appended, and how much of that
was there at the last observation. -/
structure StreamSession where
  log : ShellJobLogState := {}
  output : Str := []
  observedOutput : Str := []

/-- The observed job: its streams, the epoch of its observations and the token of the last one. -/
structure Session where
  epoch : String
  stdout : StreamSession := {}
  stderr : StreamSession := {}
  token : Option JobObservationToken := none

inductive Event
  | appendStdout (chunk : Option Str)
  | appendStderr (chunk : Option Str)
  | observe (tailLines : Option ℕ)

structure JobLogObservation where
  (stdout stderr : JobLogStreamProjection)
  logDeltaStatus : JobLogDeltaStatus
  token : JobObservationToken

def StreamSession.append (stream : StreamSession) (chunk : Option Str) : StreamSession :=
  { stream with
    log := (appendLogLimited stream.log chunk).state
    output := stream.output ++ chunk.getD [] }

def StreamSession.observed (stream : StreamSession) : StreamSession :=
  { stream with observedOutput := stream.output }

def Session.stdoutMode (session : Session) : JobLogSelectionMode :=
  selectionMode session.epoch session.token JobObservationToken.stdoutCursor

def Session.stderrMode (session : Session) : JobLogSelectionMode :=
  selectionMode session.epoch session.token JobObservationToken.stderrCursor

/-- An automatic observation: both streams are projected in the mode their cursor gives, and the new
token carries the next line of each. -/
def observe (session : Session) (tailLines : Option ℕ) : JobLogObservation :=
  let stdout := observeStream session.stdout.log tailLines session.stdoutMode
  let stderr := observeStream session.stderr.log tailLines session.stderrMode
  { stdout := stdout
    stderr := stderr
    logDeltaStatus := combinedDeltaStatus session.stdoutMode stdout stderr
    token := ⟨session.epoch, some stdout.nextLine, some stderr.nextLine⟩ }

def step (session : Session) : Event → Session
  | .appendStdout chunk => { session with stdout := session.stdout.append chunk }
  | .appendStderr chunk => { session with stderr := session.stderr.append chunk }
  | .observe tailLines =>
    { session with
      stdout := session.stdout.observed
      stderr := session.stderr.observed
      token := some (observe session tailLines).token }

/-- The session after some events, oldest first, on a job that has produced nothing. -/
def run (epoch : String) (events : List Event) : Session := events.foldl step { epoch := epoch }

/-- The cursors of the session's token, if an observation has been made. -/
def Session.stdoutCursor (session : Session) : Option ℕ :=
  session.token.bind JobObservationToken.stdoutCursor

def Session.stderrCursor (session : Session) : Option ℕ :=
  session.token.bind JobObservationToken.stderrCursor

/-- A projection that reports neither a reset nor truncation shows the output from the cursor's
line on; without a cursor, all of it. -/
def ShowsOutputFrom (output : Str) (cursor : Option ℕ) (projection : JobLogStreamProjection) :
    Prop :=
  projection.deltaReset = false → projection.truncated = false →
    projection.text = terminated ((lines output).drop (cursor.getD 1 - 1))

structure Lossless (session : Session) (observation : JobLogObservation) : Prop where
  stdout_shown : ShowsOutputFrom session.stdout.output session.stdoutCursor observation.stdout
  stderr_shown : ShowsOutputFrom session.stderr.output session.stderrCursor observation.stderr
  stdout_monotone : ∀ cursor ∈ session.stdoutCursor, cursor ≤ observation.stdout.nextLine
  stderr_monotone : ∀ cursor ∈ session.stderrCursor, cursor ≤ observation.stderr.nextLine
  unchanged : observation.logDeltaStatus = .unchanged →
    session.stdout.output = session.stdout.observedOutput ∧
      session.stderr.output = session.stderr.observedOutput

/-- The stream is in neither of the situations that lose a line: the output from the cursor's line
on is exactly one blank line, or the retained tail begins inside the line the cursor names. -/
def DeliversWholeLines (stream : StreamSession) (cursor : Option ℕ) : Prop :=
  (lines stream.output).drop (cursor.getD 1 - 1) ≠ [[]] ∧
    ¬ (cursor = some stream.log.firstRetainedLine ∧
      endsPartial (droppedOutput stream.log stream.output) = true)

/-- A stream and its cursor: the retained state describes the output, the output has only grown
since the last observation, and the cursor is neither past the recorded next line nor past the last
line that had begun when it was taken. -/
structure StreamInvariant (stream : StreamSession) (cursor : Option ℕ) : Prop where
  tracks : Tracks stream.log stream.output
  grown : stream.observedOutput <+: stream.output
  cursor_le_next : ∀ line ∈ cursor, line ≤ stream.log.nextLine
  cursor_le_observed : ∀ line ∈ cursor, line ≤ 1 + newlines stream.observedOutput

theorem newlines_le_of_isPrefix {s t : Str} (hinitial : s <+: t) : newlines s ≤ newlines t :=
  hinitial.sublist.count_le _

theorem streamInvariant_default : StreamInvariant {} none :=
  ⟨tracks_default, List.prefix_refl _, by simp, by simp⟩

variable {stream : StreamSession} {cursor : Option ℕ}

theorem StreamInvariant.cursor_le_output (hinvariant : StreamInvariant stream cursor) :
    ∀ line ∈ cursor, line ≤ 1 + newlines stream.output := fun line hline ↦
  (hinvariant.cursor_le_observed line hline).trans
    (Nat.add_le_add_left (newlines_le_of_isPrefix hinvariant.grown) 1)

theorem StreamInvariant.append (hinvariant : StreamInvariant stream cursor) (chunk : Option Str) :
    StreamInvariant (stream.append chunk) cursor := by
  have htracks := appendLogLimited_tracks hinvariant.tracks chunk
  have hgrown : stream.observedOutput <+: stream.output ++ chunk.getD [] :=
    hinvariant.grown.trans (List.prefix_append _ _)
  refine ⟨htracks, hgrown, fun line hline ↦ ?_, hinvariant.cursor_le_observed⟩
  simp only [StreamSession.append]
  rcases appendLogLimited_nextLine stream.log chunk with hsame | hend
  · rw [hsame]
    exact hinvariant.cursor_le_next line hline
  · have hobserved := hinvariant.cursor_le_observed line hline
    have hcount := newlines_le_of_isPrefix hgrown
    have hplace := htracks.first_add_newlines
    rw [hend, retainedLineCount, length_lines]
    omega

/-- The next cursor of a projection is not before the old one, not past the recorded next line and
not past the last line that has begun. -/
theorem StreamInvariant.observeStream_nextLine (hinvariant : StreamInvariant stream cursor)
    (tailLines : Option ℕ) (mode : JobLogSelectionMode) :
    (∀ line ∈ cursor, line ≤ (observeStream stream.log tailLines mode).nextLine) ∧
      (observeStream stream.log tailLines mode).nextLine ≤ 1 + newlines stream.output := by
  rcases JobLog.observeStream_nextLine hinvariant.tracks tailLines mode with hplace | ⟨hsame, hle⟩
  · rw [hplace]
    exact ⟨hinvariant.cursor_le_output, le_rfl⟩
  · rw [hsame]
    exact ⟨hinvariant.cursor_le_next, hle⟩

/-- The next cursor of a projection is not past the recorded next line. -/
theorem observeStream_nextLine_le (log : ShellJobLogState) (output : Str)
    (htracks : Tracks log output) (tailLines : Option ℕ) (mode : JobLogSelectionMode) :
    (observeStream log tailLines mode).nextLine ≤ log.nextLine := by
  simp only [observeStream, projectLogStream, htracks.max_first, htracks.max_next]
  have hfirst := htracks.first_le_next
  split_ifs <;> omega

theorem StreamInvariant.observed (hinvariant : StreamInvariant stream cursor) (tailLines : Option ℕ)
    (mode : JobLogSelectionMode) :
    StreamInvariant stream.observed (some (observeStream stream.log tailLines mode).nextLine) := by
  refine ⟨hinvariant.tracks, List.prefix_refl _, ?_, ?_⟩
  · rintro line ⟨⟩
    exact observeStream_nextLine_le stream.log stream.output hinvariant.tracks tailLines mode
  · rintro line ⟨⟩
    exact (hinvariant.observeStream_nextLine tailLines mode).2

/-- The invariant of a session. Its token, when there is one, is of the session's epoch and carries
both cursors. -/
structure SessionInvariant (session : Session) : Prop where
  stdout : StreamInvariant session.stdout session.stdoutCursor
  stderr : StreamInvariant session.stderr session.stderrCursor
  token : ∀ token ∈ session.token, token.epoch = session.epoch ∧
    token.stdoutCursor.isSome ∧ token.stderrCursor.isSome

variable {session : Session}

theorem step_invariant (hinvariant : SessionInvariant session) (event : Event) :
    SessionInvariant (step session event) := by
  cases event with
  | appendStdout chunk =>
    exact ⟨hinvariant.stdout.append chunk, hinvariant.stderr, hinvariant.token⟩
  | appendStderr chunk =>
    exact ⟨hinvariant.stdout, hinvariant.stderr.append chunk, hinvariant.token⟩
  | observe tailLines =>
    refine ⟨hinvariant.stdout.observed tailLines session.stdoutMode,
      hinvariant.stderr.observed tailLines session.stderrMode, ?_⟩
    rintro token ⟨⟩
    exact ⟨rfl, rfl, rfl⟩

/-- Every session a run reaches satisfies the invariant. -/
theorem run_invariant (epoch : String) (events : List Event) :
    SessionInvariant (run epoch events) := by
  refine List.foldlRecOn events step ?_ fun _ hsession event _ ↦ step_invariant hsession event
  exact ⟨streamInvariant_default, streamInvariant_default, by simp⟩

/-- The mode of a stream is a baseline before the first observation, and afterwards the delta from
the stream's cursor. -/
theorem selectionMode_eq (hinvariant : SessionInvariant session)
    {cursorOf : JobObservationToken → Option ℕ}
    (hcursor : ∀ token ∈ session.token, (cursorOf token).isSome) :
    (session.token.bind cursorOf = none ∧
        selectionMode session.epoch session.token cursorOf = .baseline) ∨
      ∃ line, session.token.bind cursorOf = some line ∧
        selectionMode session.epoch session.token cursorOf = .delta line := by
  cases htoken : session.token with
  | none => exact Or.inl ⟨rfl, rfl⟩
  | some token =>
    obtain ⟨hepoch, hstdout, -⟩ := hinvariant.token token htoken
    obtain ⟨line, hline⟩ := Option.isSome_iff_exists.mp (hcursor token htoken)
    refine Or.inr ⟨line, hline, ?_⟩
    simp [selectionMode, hline, hepoch, Option.isSome_iff_ne_none.mp hstdout]

/-- The two streams of an observation are deltas together. -/
theorem stderrMode_eq_delta (hinvariant : SessionInvariant session) {line : ℕ}
    (hstdout : session.stdoutMode = .delta line) :
    ∃ line', session.stderrMode = .delta line' := by
  cases htoken : session.token with
  | none => simp [Session.stdoutMode, selectionMode, htoken] at hstdout
  | some token =>
    obtain ⟨hepoch, hsome, hsome'⟩ := hinvariant.token token htoken
    obtain ⟨line', hline'⟩ := Option.isSome_iff_exists.mp hsome'
    refine ⟨line', ?_⟩
    simp [Session.stderrMode, selectionMode, htoken, hline', hepoch,
      Option.isSome_iff_ne_none.mp hsome]

section Observation

variable {stream : StreamSession} {cursor : Option ℕ} {mode : JobLogSelectionMode}
  (hinvariant : StreamInvariant stream cursor) (hwhole : DeliversWholeLines stream cursor)
  (hmode : (cursor = none ∧ mode = .baseline) ∨ ∃ line, cursor = some line ∧ mode = .delta line)
include hinvariant hwhole hmode

/-- A stream that delivers whole lines shows the output from its cursor's line on. -/
theorem observeStream_showsOutputFrom (tailLines : Option ℕ) :
    ShowsOutputFrom stream.output cursor (observeStream stream.log tailLines mode) := by
  intro hreset htruncated
  rw [← renderSelected_eq_terminated hwhole.1]
  rcases hmode with ⟨rfl, rfl⟩ | ⟨_, rfl, rfl⟩
  · exact observeStream_baseline_text hinvariant.tracks htruncated
  · refine observeStream_delta_text hinvariant.tracks (fun hmid ↦ ?_) hreset
    exact hwhole.2 ⟨congrArg some hmid.1, hmid.2⟩

/-- A delta of a stream that delivers whole lines is empty only when nothing was appended since the
last observation: otherwise the appended text completes or begins a line at or after the cursor. -/
theorem output_eq_observedOutput_of_text_nil {tailLines : Option ℕ} {line : ℕ}
    (hdelta : mode = .delta line)
    (hreset : (observeStream stream.log tailLines mode).deltaReset = false)
    (htext : (observeStream stream.log tailLines mode).text = []) :
    stream.output = stream.observedOutput := by
  subst hdelta
  rcases hmode with ⟨-, hbaseline⟩ | ⟨line', rfl, hsame⟩
  · simp at hbaseline
  obtain rfl : line = line' := by simpa using hsame
  rw [observeStream_delta_text hinvariant.tracks (fun hmid ↦ hwhole.2
    ⟨congrArg some hmid.1, hmid.2⟩) hreset] at htext
  have hnone : (lines stream.output).drop (line - 1) = [] := renderSelected_eq_nil hwhole.1 htext
  have hcount : newlines stream.output + (if endsPartial stream.output then 1 else 0) ≤
      newlines stream.observedOutput := by
    have hle := List.drop_eq_nil_iff.mp hnone
    have hcursor := hinvariant.cursor_le_observed line rfl
    rw [length_lines] at hle
    omega
  obtain ⟨appended, happended⟩ := hinvariant.grown
  rw [← happended, newlines_append] at hcount
  have hnoNewline : '\n' ∉ appended := fun hmem ↦ by
    have hpos : 0 < newlines appended := List.count_pos_iff.mpr hmem
    omega
  rcases List.eq_nil_or_concat appended with rfl | ⟨front, last, rfl⟩
  · rw [← happended, List.append_nil]
  · have hunfinished : endsPartial (stream.observedOutput ++ front.concat last) = true := by
      simp only [List.concat_eq_append, List.mem_append, List.mem_singleton, not_or] at hnoNewline
      simp [endsPartial, eq_comm (a := last), hnoNewline.2]
    rw [if_pos hunfinished] at hcount
    omega

end Observation

/-- An observation made while both streams deliver whole lines is lossless, after any appends and
observations whatever. Assumes: neither stream's new output is exactly one blank line, and neither
retained tail begins inside the line its cursor names. -/
theorem observe_lossless (epoch : String) (events : List Event) (tailLines : Option ℕ)
    (hstdout : DeliversWholeLines (run epoch events).stdout (run epoch events).stdoutCursor)
    (hstderr : DeliversWholeLines (run epoch events).stderr (run epoch events).stderrCursor) :
    Lossless (run epoch events) (observe (run epoch events) tailLines) := by
  have hinvariant := run_invariant epoch events
  generalize run epoch events = session at hinvariant hstdout hstderr ⊢
  have hstdoutMode := selectionMode_eq hinvariant fun token htoken ↦
    (hinvariant.token token htoken).2.1
  have hstderrMode := selectionMode_eq hinvariant fun token htoken ↦
    (hinvariant.token token htoken).2.2
  refine ⟨observeStream_showsOutputFrom hinvariant.stdout hstdout hstdoutMode tailLines,
    observeStream_showsOutputFrom hinvariant.stderr hstderr hstderrMode tailLines,
    (hinvariant.stdout.observeStream_nextLine tailLines _).1,
    (hinvariant.stderr.observeStream_nextLine tailLines _).1, fun hunchanged ↦ ?_⟩
  -- Unchanged is said of a delta in which no stream was reset and both texts are empty.
  simp only [observe, combinedDeltaStatus] at hunchanged
  split at hunchanged
  · cases hunchanged
  · cases hunchanged
  · rename_i line hline
    split_ifs at hunchanged with hreset hempty
    simp only [Bool.or_eq_true, not_or, Bool.not_eq_true] at hreset
    simp only [Bool.and_eq_true, List.isEmpty_iff] at hempty
    refine ⟨output_eq_observedOutput_of_text_nil hinvariant.stdout hstdout hstdoutMode hline
      hreset.1 hempty.1, ?_⟩
    obtain ⟨_, hline'⟩ := stderrMode_eq_delta hinvariant hline
    exact output_eq_observedOutput_of_text_nil hinvariant.stderr hstderr hstderrMode hline'
      hreset.2 hempty.2

/-- A blank line alone between two observations: the second one shows nothing and says that nothing
has changed. -/
theorem observe_blank_line_not_lossless :
    ¬ Lossless (run "epoch" [.appendStdout (some "a\n".toList), .observe none,
        .appendStdout (some "\n".toList)])
      (observe (run "epoch" [.appendStdout (some "a\n".toList), .observe none,
        .appendStdout (some "\n".toList)]) none) := by
  intro hlossless
  have hunchanged := hlossless.unchanged (by decide)
  exact absurd hunchanged.1 (by decide)

/-- The hypotheses of `observe_lossless` at a stream whose last line grows between two
observations. -/
theorem observe_lossless_partial_line :
    DeliversWholeLines
        (run "epoch" [.appendStdout (some "a\nb".toList), .observe none,
          .appendStdout (some "c\n".toList)]).stdout (some 2) ∧
      Lossless (run "epoch" [.appendStdout (some "a\nb".toList), .observe none,
          .appendStdout (some "c\n".toList)])
        (observe (run "epoch" [.appendStdout (some "a\nb".toList), .observe none,
          .appendStdout (some "c\n".toList)]) none) :=
  ⟨by unfold DeliversWholeLines; decide,
    observe_lossless "epoch" _ none (by unfold DeliversWholeLines; decide)
      (by unfold DeliversWholeLines; decide)⟩

end WebCodex.JobLog
