import WebCodex.Foundation.Text

/-!
The registry keeps, for each stream of a job, a tail of the output and the absolute line numbers
that place it (`ShellJobLogState`). A tail that has grown past its bound is cut, at a line feed
when the kept window has one (`appendLogLimited`). The window is taken by byte offset, and an
offset inside a character panics: the chunk is then pushed and nothing else changed, and the
registry goes on from there (`AppendOutcome`). Line numbers are natural numbers here; the source
saturates at the largest machine word, which no output reaches.
-/

namespace WebCodex.JobLog

open Foundation.Text
open String (utf8Len)

def liveJobStreamRetentionBytes : ℕ := 256 * 1024

structure ShellJobLogState where
  tail : Str := []
  firstRetainedLine : ℕ := 1
  nextLine : ℕ := 1
  truncated : Bool := false
  deriving DecidableEq

def retainedLineCount (value : Str) : ℕ := (lines value).length

/-- The loop that moves a byte offset forward to the next character boundary. -/
def advanceToBoundary (s : Str) : ℕ → ℕ → ℕ
  | 0, start => start
  | fuel + 1, start =>
    if start < utf8Len s && !isCharBoundary start s then advanceToBoundary s fuel (start + 1)
    else start

/-- The byte offset at which a tail with the given minimal start is cut: behind the first line feed
of the window, or at the start of a window that has none. -/
def cutOffset (tail window : Str) (minimumStart : ℕ) : ℕ :=
  match find '\n' window with
  | some relativeNewline => minimumStart + relativeNewline + 1
  | none => advanceToBoundary tail (utf8Len tail - minimumStart) minimumStart

/-- Cuts a tail that is longer than a limit. There is no result when a slice is taken inside a
character. -/
def trimTailTo (limit : ℕ) (target : ShellJobLogState) : Option ShellJobLogState := do
  let observedNext := target.firstRetainedLine + retainedLineCount target.tail
  let minimumStart := utf8Len target.tail - limit
  let (_, window) ← splitAtByte minimumStart target.tail
  let (dropped, kept) ← splitAtByte (cutOffset target.tail window minimumStart) target.tail
  some
    { target with
      tail := kept
      firstRetainedLine :=
        if kept.isEmpty then observedNext else target.firstRetainedLine + newlines dropped
      truncated := true }

/-- How a call that mutates its target ends: it returns, or a panic leaves the target as it stood
at that point. -/
inductive AppendOutcome
  | returned (state : ShellJobLogState)
  | panicked (state : ShellJobLogState)

def AppendOutcome.state : AppendOutcome → ShellJobLogState
  | .returned state => state
  | .panicked state => state

/-- Pushes a chunk, cuts the tail to a limit and renumbers. -/
def appendLogWithin (limit : ℕ) (target : ShellJobLogState) (chunk : Option Str) : AppendOutcome :=
  match chunk with
  | none => .returned target
  | some chunk =>
    let pushed := { target with tail := target.tail ++ chunk }
    if utf8Len pushed.tail > limit then
      match trimTailTo limit pushed with
      | none => .panicked pushed
      | some trimmed => .returned
          { trimmed with nextLine := trimmed.firstRetainedLine + retainedLineCount trimmed.tail }
    else .returned
      { pushed with nextLine := pushed.firstRetainedLine + retainedLineCount pushed.tail }

/-- `append_log_limited`: the registry appends within its retention bound. -/
def appendLogLimited : ShellJobLogState → Option Str → AppendOutcome :=
  appendLogWithin liveJobStreamRetentionBytes

structure ShellJobStreamSnapshot where
  tail : Str := []
  firstRetainedLine : ℕ := 1
  nextLine : ℕ := 1
  truncated : Bool := false

/-- The text behind a byte offset that is a character boundary. -/
def suffixFromByte (start : ℕ) (s : Str) : Str :=
  match splitAtByte start s with
  | none => []
  | some (_, suffix) => suffix

def retainResultStreamTo (maxBytes : ℕ) (value : Str) : Str :=
  if utf8Len value ≤ maxBytes then value
  else
    let minimumStart := utf8Len value - maxBytes
    let start := advanceToBoundary value (utf8Len value - minimumStart) minimumStart
    s!"[output truncated to last {maxBytes} bytes]\n".toList ++ suffixFromByte start value

/-- A text that starts with one of the markers of an earlier truncation. -/
def hasLeadingResultRetentionTruncationMarker (value : Str) : Bool :=
  "[output truncated]\n".toList.isPrefixOf value || "[...]\n".toList.isPrefixOf value ||
    match "[output truncated to last ".toList.isPrefixOf? value with
    | none => false
    | some rest =>
      rest.contains '\n' &&
        match " bytes]".toList.isSuffixOf? (rest.takeWhile fun c ↦ c != '\n') with
        | none => false
        | some byteCount => !byteCount.isEmpty && byteCount.all Char.isDigit

def replaceLogLimited (target : ShellJobLogState) (value : Option Str) : ShellJobLogState :=
  match value with
  | none => target
  | some value =>
    let retained := retainResultStreamTo liveJobStreamRetentionBytes value
    ⟨retained, 1, 1 + retainedLineCount retained, hasLeadingResultRetentionTruncationMarker
      retained⟩

def replaceLogFromSnapshot (snapshot : ShellJobStreamSnapshot) : ShellJobLogState :=
  ⟨snapshot.tail, snapshot.firstRetainedLine, snapshot.nextLine, snapshot.truncated⟩

/-- The retained state describes the output: the tail is the output less a dropped part, the first
retained line counts the line feeds dropped, a state that is not marked truncated has dropped
nothing, and the next line lies between the first retained line and the end of the tail. The last
two bounds meet at the end of the tail unless an append has panicked since the numbers were set. -/
structure Tracks (log : ShellJobLogState) (output : Str) : Prop where
  suffix : ∃ dropped, output = dropped ++ log.tail ∧
    log.firstRetainedLine = 1 + newlines dropped ∧ (log.truncated = false → dropped = [])
  first_le_next : log.firstRetainedLine ≤ log.nextLine
  next_le : log.nextLine ≤ log.firstRetainedLine + retainedLineCount log.tail

/-- The part of the output that is no longer retained. -/
def droppedOutput (log : ShellJobLogState) (output : Str) : Str :=
  output.take (output.length - log.tail.length)

variable {log target : ShellJobLogState} {output : Str}

theorem droppedOutput_of_eq_append {dropped : Str} (houtput : output = dropped ++ log.tail) :
    droppedOutput log output = dropped := by
  subst houtput
  simp [droppedOutput]

/-- A fresh stream describes the empty output. -/
theorem tracks_default : Tracks {} [] := ⟨⟨[], rfl, rfl, fun _ ↦ rfl⟩, le_rfl, le_rfl⟩

/-- Appending text does not lower the number of lines. -/
theorem retainedLineCount_le_append (s t : Str) :
    retainedLineCount s ≤ retainedLineCount (s ++ t) := by
  simp only [retainedLineCount, length_lines, newlines_append]
  by_cases hunfinished : endsPartial s = true
  · by_cases hnewline : '\n' ∈ t
    · have hpos : 0 < newlines t := List.count_pos_iff.mpr hnewline
      split_ifs <;> omega
    · have happend : endsPartial (s ++ t) = true := by
        rcases List.eq_nil_or_concat t with rfl | ⟨front, last, rfl⟩
        · simpa using hunfinished
        · simp only [endsPartial, List.concat_eq_append, List.mem_append, List.mem_singleton,
            not_or] at hnewline ⊢
          simp [eq_comm (a := last), hnewline.2]
      simp only [hunfinished, happend]
      omega
  · rw [if_neg hunfinished]
    omega

/-- The two numbers that place the end of the tail in the output agree. -/
theorem Tracks.first_add_newlines (htracks : Tracks log output) :
    log.firstRetainedLine + newlines log.tail = 1 + newlines output := by
  obtain ⟨_, houtput, hfirst, -⟩ := htracks.suffix
  rw [houtput, newlines_append, hfirst]
  omega

/-- A window of positive length that has no line feed is cut at its start. -/
theorem cutOffset_of_find_none {tail window before : Str} {minimumStart : ℕ}
    (hsplit : splitAtByte minimumStart tail = some (before, window))
    (hfind : find '\n' window = none) :
    cutOffset tail window minimumStart = minimumStart := by
  have hboundary : isCharBoundary minimumStart tail = true := by
    simp [isCharBoundary, hsplit]
  simp only [cutOffset, hfind]
  cases utf8Len tail - minimumStart <;> simp [advanceToBoundary, hboundary]

/-- Cutting drops a prefix of the tail that leaves no more than the limit, counts its line feeds,
and marks the state truncated. With no room at all the whole tail is dropped, and a line that it has
not finished is counted as well. -/
theorem trimTailTo_eq_some {limit : ℕ} {trimmed : ShellJobLogState}
    (hlong : utf8Len target.tail > limit) (htrim : trimTailTo limit target = some trimmed) :
    ∃ dropped, target.tail = dropped ++ trimmed.tail ∧ utf8Len trimmed.tail ≤ limit ∧
      trimmed.firstRetainedLine = target.firstRetainedLine + newlines dropped +
        (if limit = 0 ∧ endsPartial target.tail = true then 1 else 0) ∧
      (trimmed.tail = [] → 0 < limit → endsPartial target.tail = false) ∧
      trimmed.truncated = true := by
  simp only [trimTailTo, Option.bind_eq_bind, Option.bind_eq_some_iff, Prod.exists] at htrim
  obtain ⟨before, window, hwindow, dropped, kept, hcut, hresult⟩ := htrim
  obtain rfl := Option.some.inj hresult
  obtain ⟨htail, hdropped⟩ := splitAtByte_eq_some_iff.mp hcut
  obtain ⟨htailWindow, _⟩ := splitAtByte_eq_some_iff.mp hwindow
  have hlen : utf8Len target.tail = utf8Len dropped + utf8Len kept := by
    rw [htail, String.utf8Len_append]
  have hlenWindow : utf8Len target.tail = utf8Len before + utf8Len window := by
    rw [htailWindow, String.utf8Len_append]
  have hends : kept = [] → 0 < limit → endsPartial target.tail = false := by
    rintro rfl _
    rw [String.utf8Len_nil] at hlen
    cases hfind : find '\n' window with
    | none =>
      rw [cutOffset_of_find_none hwindow hfind] at hdropped
      omega
    | some =>
      obtain ⟨_, rest, hline, _, -⟩ := find_eq_some hfind
      have hnewline : ('\n' : Char).utf8Size = 1 := by decide
      rw [hline, String.utf8Len_append, String.utf8Len_cons] at hlenWindow
      simp only [cutOffset, hfind] at hdropped
      have hrest : rest = [] := by
        rw [← String.utf8Len_eq_zero]
        omega
      rw [htailWindow, hline, hrest]
      simp [endsPartial]
  refine ⟨dropped, htail, ?_, ?_, hends, rfl⟩
  · have hle : utf8Len target.tail - limit ≤ utf8Len dropped := by
      cases hfind : find '\n' window with
      | none =>
        rw [cutOffset_of_find_none hwindow hfind] at hdropped
        exact hdropped.ge
      | some =>
        simp only [cutOffset, hfind] at hdropped
        omega
    dsimp only
    omega
  · simp only [List.isEmpty_iff]
    split_ifs with hkept hnone hnone
    · -- Nothing is kept, because there is no room or because the cut lies behind a last line feed.
      rw [hkept, List.append_nil] at htail
      rw [retainedLineCount, length_lines, htail, ← htail, if_pos hnone.2, Nat.add_assoc]
    · rw [hkept, List.append_nil] at htail
      have hwhole : endsPartial target.tail = false := by
        rcases Nat.eq_zero_or_pos limit with hzero | hpos
        · simpa [hzero] using hnone
        · exact hends hkept hpos
      rw [retainedLineCount, length_lines, hwhole, ← htail]
      rfl
    · refine absurd ?_ hkept
      rw [← String.utf8Len_eq_zero]
      have hle : utf8Len target.tail ≤ utf8Len dropped := by
        cases hfind : find '\n' window with
        | none =>
          rw [cutOffset_of_find_none hwindow hfind] at hdropped
          omega
        | some =>
          simp only [cutOffset, hfind] at hdropped
          omega
      omega
    · rfl

/-- Every append keeps the description of the output, whether it returns or panics. -/
theorem appendLogLimited_tracks (htracks : Tracks log output) (chunk : Option Str) :
    Tracks (appendLogLimited log chunk).state (output ++ chunk.getD []) := by
  obtain ⟨dropped, houtput, hfirst, hcomplete⟩ := htracks.suffix
  cases chunk with
  | none => simpa [appendLogLimited, appendLogWithin, AppendOutcome.state] using htracks
  | some chunk =>
    have hpushed : output ++ chunk = dropped ++ (log.tail ++ chunk) := by
      rw [houtput, List.append_assoc]
    simp only [appendLogLimited, appendLogWithin, Option.getD_some]
    split_ifs with hlong
    · cases htrim : trimTailTo liveJobStreamRetentionBytes
          { log with tail := log.tail ++ chunk } with
      | none =>
        exact ⟨⟨dropped, hpushed, hfirst, hcomplete⟩, htracks.first_le_next,
          htracks.next_le.trans (Nat.add_le_add_left (retainedLineCount_le_append _ _) _)⟩
      | some =>
        obtain ⟨cut, htail, -, hcutFirst, -, hcutTruncated⟩ := trimTailTo_eq_some hlong htrim
        rw [if_neg (by simp [liveJobStreamRetentionBytes]), Nat.add_zero] at hcutFirst
        refine ⟨⟨dropped ++ cut, ?_, ?_, ?_⟩, Nat.le_add_right _ _, le_rfl⟩
        · simp only [AppendOutcome.state]
          rw [hpushed, List.append_assoc, ← htail]
        · simp only [AppendOutcome.state]
          rw [hcutFirst, hfirst, newlines_append]
          omega
        · simp [AppendOutcome.state, hcutTruncated]
    · exact ⟨⟨dropped, hpushed, hfirst, hcomplete⟩, Nat.le_add_right _ _, le_rfl⟩

/-- After an append the next line is the end of the tail, or the append panicked and the next line
is the one it was. -/
theorem appendLogLimited_nextLine (log : ShellJobLogState) (chunk : Option Str) :
    (appendLogLimited log chunk).state.nextLine = log.nextLine ∨
      (appendLogLimited log chunk).state.nextLine =
        (appendLogLimited log chunk).state.firstRetainedLine +
          retainedLineCount (appendLogLimited log chunk).state.tail := by
  cases chunk with
  | none => exact Or.inl rfl
  | some chunk =>
    simp only [appendLogLimited, appendLogWithin]
    split_ifs
    · cases trimTailTo liveJobStreamRetentionBytes { log with tail := log.tail ++ chunk } with
      | none => exact Or.inl rfl
      | some => exact Or.inr rfl
    · exact Or.inr rfl

/-- The retained window would start inside a character. -/
def CutsInside (limit : ℕ) (log : ShellJobLogState) (chunk : Option Str) : Prop :=
  ∃ text, chunk = some text ∧ limit < utf8Len (log.tail ++ text) ∧
    isCharBoundary (utf8Len (log.tail ++ text) - limit) (log.tail ++ text) = false

/-- Whether the retention bound falls inside a character of the tail with the chunk pushed. -/
def cutsCharacter (log : ShellJobLogState) (chunk : Option Str) : Bool := chunk.any fun chunk ↦
    decide (utf8Len (log.tail ++ chunk) > liveJobStreamRetentionBytes) &&
      !isCharBoundary (utf8Len (log.tail ++ chunk) - liveJobStreamRetentionBytes)
        (log.tail ++ chunk)

theorem cutsCharacter_iff {chunk : Option Str} : cutsCharacter log chunk = true ↔
    CutsInside liveJobStreamRetentionBytes log chunk := by
  simp [cutsCharacter, CutsInside, Option.any_eq_true]

/-- A tail is cut between characters when its window starts between characters. -/
theorem splitAtByte_cutOffset {tail before window : Str} {minimumStart : ℕ}
    (hsplit : splitAtByte minimumStart tail = some (before, window)) :
    ∃ sides, splitAtByte (cutOffset tail window minimumStart) tail = some sides := by
  cases hfind : find '\n' window with
  | none => exact ⟨_, (cutOffset_of_find_none hsplit hfind).symm ▸ hsplit⟩
  | some =>
    obtain ⟨inLine, rest, hline, _, -⟩ := find_eq_some hfind
    obtain ⟨htail, _⟩ := splitAtByte_eq_some_iff.mp hsplit
    refine ⟨(before ++ inLine ++ ['\n'], rest), splitAtByte_eq_some_iff.mpr ⟨?_, ?_⟩⟩
    · rw [htail, hline]
      simp
    · have hnewline : ('\n' : Char).utf8Size = 1 := by decide
      simp only [cutOffset, hfind, String.utf8Len_append, String.utf8Len_cons, String.utf8Len_nil]
      omega

/-- A window that starts between characters is cut. -/
theorem trimTailTo_isSome {limit : ℕ}
    (h : isCharBoundary (utf8Len target.tail - limit) target.tail = true) :
    ∃ trimmed, trimTailTo limit target = some trimmed := by
  obtain ⟨⟨_, _⟩, hsplit⟩ := Option.isSome_iff_exists.mp h
  obtain ⟨_, hcut⟩ := splitAtByte_cutOffset hsplit
  simp [trimTailTo, hsplit, hcut]

/-- An append returns unless its window starts inside a character. -/
theorem appendLogLimited_of_whole {chunk : Option Str} (h : cutsCharacter log chunk = false) :
    ∃ state, appendLogLimited log chunk = .returned state := by
  cases chunk with
  | none => exact ⟨log, rfl⟩
  | some chunk =>
    simp only [appendLogLimited, appendLogWithin]
    split_ifs with hlong
    · have hboundary : isCharBoundary
          (utf8Len (log.tail ++ chunk) - liveJobStreamRetentionBytes)
              (log.tail ++ chunk) = true := by
        by_contra hinside
        rw [Bool.not_eq_true] at hinside
        have hcuts := cutsCharacter_iff.mpr ⟨chunk, rfl, hlong, hinside⟩
        rw [h] at hcuts
        cases hcuts
      obtain ⟨_, htrim⟩ := @trimTailTo_isSome { log with tail := log.tail ++ chunk } _ hboundary
      rw [htrim]
      exact ⟨_, rfl⟩
    · exact ⟨_, rfl⟩

/-- An append whose window starts inside a character panics, and leaves the chunk pushed. -/
theorem appendLogWithin_of_cuts {limit : ℕ} {chunk : Str} (h : CutsInside limit log (some chunk)) :
    appendLogWithin limit log (some chunk) = .panicked { log with tail := log.tail ++ chunk } := by
  obtain ⟨_, hchunk, hlong, hinside⟩ := h
  obtain rfl := Option.some.inj hchunk
  simp only [isCharBoundary, Option.isSome_eq_false_iff, Option.isNone_iff_eq_none] at hinside
  simp only [appendLogWithin]
  rw [if_pos hlong]
  simp only [trimTailTo, hinside, Option.bind_eq_bind, Option.bind_none]

theorem appendLogLimited_of_cuts {chunk : Str} (h : cutsCharacter log (some chunk) = true) :
    appendLogLimited log (some chunk) = .panicked { log with tail := log.tail ++ chunk } :=
  appendLogWithin_of_cuts (cutsCharacter_iff.mp h)

theorem utf8Len_replicate (n : ℕ) (c : Char) : utf8Len (List.replicate n c) = n * c.utf8Size := by
  induction n with
  | zero => simp
  | succ _ ih =>
    rw [List.replicate_succ, String.utf8Len_cons, ih, Nat.add_one_mul]

/-- The bound falls inside a character of a long text of characters of three bytes. -/
theorem cutsCharacter_replicate {log : ShellJobLogState} {c : Char} (hsize : c.utf8Size = 3)
    {m n : ℕ} (htail : log.tail = List.replicate m c)
    (hlong : (m + n) * 3 > liveJobStreamRetentionBytes) :
    cutsCharacter log (some (List.replicate n c)) = true := by
  have hlen : utf8Len (List.replicate (m + n) c) = (m + n) * 3 := by
    rw [utf8Len_replicate, hsize]
  simp only [cutsCharacter, Option.any_some, htail, List.replicate_append_replicate, hlen,
    Bool.and_eq_true, decide_eq_true_eq, Bool.not_eq_true', isCharBoundary,
    Option.isSome_eq_false_iff, Option.isNone_iff_eq_none]
  refine ⟨hlong, ?_⟩
  by_contra hsplit
  obtain ⟨⟨_, _⟩, hsides⟩ := Option.ne_none_iff_exists'.mp hsplit
  obtain ⟨htext, hbefore⟩ := splitAtByte_eq_some_iff.mp hsides
  obtain ⟨-, hwhole, -⟩ := List.append_eq_replicate_iff.mp htext.symm
  rw [hwhole, utf8Len_replicate, hsize] at hbefore
  simp only [liveJobStreamRetentionBytes] at hbefore hlong
  omega

end WebCodex.JobLog
