import WebCodex.FileRead.RangeReader
import WebCodex.Foundation.Segments

/-!
The state of the scan is a function of the lines that are ended and of what there is of the next
line (`scanned`): every byte takes it to the state of one byte more (`scanByte_of_ne`,
`scanByte_lf`). So the content of a whole scan is that of the selected lines, joined, as long as it
is within the budget.
-/

namespace WebCodex.FileRead

open Foundation.Framing (Bytes)
open Foundation.Segments

variable {startLine endLine budget : ℕ} {done : List Bytes} {line content : Bytes} {byte : UInt8}
  {scan : RangeScan}

/-- The number of the line behind some lines is within the range. -/
def Selects (startLine endLine : ℕ) (done : List Bytes) : Prop :=
  startLine ≤ done.length + 1 ∧ done.length + 1 ≤ endLine

instance : Decidable (Selects startLine endLine done) := inferInstanceAs (Decidable (_ ∧ _))

/-- The lines of the range, each without a carriage return at its end. -/
def keptLines (startLine endLine : ℕ) (lines : List Bytes) : List Bytes :=
  ((lines.take endLine).drop (startLine - 1)).map (strip cr)

def joined (lines : List Bytes) : Bytes := List.intercalate [lf] lines

theorem keptLines_concat_of_selects (h : Selects startLine endLine done) :
    keptLines startLine endLine (done ++ [line]) = keptLines startLine endLine done ++
      [strip cr line] := by
  obtain ⟨_, hend⟩ := h
  rw [keptLines, keptLines, List.take_of_length_le (by simpa using hend),
    List.take_of_length_le (Nat.le_of_succ_le hend), List.drop_append_of_le_length (by omega),
    List.map_append]
  rfl

theorem keptLines_concat_of_not_selects (h : ¬ Selects startLine endLine done) :
    keptLines startLine endLine (done ++ [line]) = keptLines startLine endLine done := by
  unfold Selects at h
  rw [keptLines, keptLines]
  by_cases hend : done.length + 1 ≤ endLine
  · rw [List.take_of_length_le (by simpa using hend), List.take_of_length_le
      (Nat.le_of_succ_le hend), List.drop_of_length_le (by simp; omega), List.drop_of_length_le
        (by omega)]
  · rw [List.take_append_of_le_length (by omega)]

theorem keptLines_withOpen_of_not_selects (h : ¬ Selects startLine endLine done) :
    keptLines startLine endLine (withOpen done line) = keptLines startLine endLine done := by
  unfold withOpen
  split_ifs
  · rfl
  · exact keptLines_concat_of_not_selects h

/-- What is in front of a line that is started: the lines before it, with their ends. -/
def before (startLine endLine : ℕ) (done : List Bytes) : Bytes :=
  if keptLines startLine endLine done = [] then [] else joined
    (keptLines startLine endLine done) ++ [lf]

theorem joined_concat (h : Selects startLine endLine done) :
    joined (keptLines startLine endLine (done ++ [line])) = before startLine endLine done ++
      strip cr line := by
  rw [keptLines_concat_of_selects h, joined, intercalate_concat, before]
  split_ifs <;> simp [joined]

theorem strip_append_mark : strip cr line ++ (if line.getLast? = some cr then [cr] else []) =
    line := by
  unfold strip
  split_ifs with hlast
  · exact List.dropLast_append_getLast? cr hlast
  · exact List.append_nil line

namespace RangeScan

/-- The scan with a content, as far as the budget goes. -/
def withContent (scan : RangeScan) (budget : ℕ) (content : Bytes) : RangeScan :=
  { scan with
    content := if budget < content.length then [] else content
    rangeTooLarge := budget < content.length }

theorem pushSelectedByte_withContent :
    (scan.withContent budget content).pushSelectedByte byte budget =
      scan.withContent budget (content ++ [byte]) := by
  unfold pushSelectedByte withContent
  rcases Nat.lt_trichotomy budget content.length with hlt | heq | hgt
  · simp [hlt, Nat.lt_succ_of_lt hlt]
  · simp [heq]
  · have hnot : ¬ budget < content.length := by omega
    have hsucc : ¬ budget < content.length + 1 := by omega
    have hle : ¬ budget ≤ content.length := by omega
    simp [hnot, hsucc, hle]

/-- The scan behind lines that are ended, and what there is of the next one. -/
def scanned (startLine endLine budget : ℕ) (done : List Bytes) (line : Bytes) : RangeScan :=
    withContent
    { totalLines := done.length
      wroteAnyLine := !(keptLines startLine endLine (withOpen done line)).isEmpty
      currentLineHasBytes := !line.isEmpty
      selectedLineStarted := decide (Selects startLine endLine done) && !line.isEmpty
      pendingSelectedCr := decide (Selects startLine endLine done) && line.getLast? == some cr }
    budget (joined (keptLines startLine endLine (withOpen done line)))

/-- The scan when a selected line has been started. -/
def started (startLine endLine budget : ℕ) (done : List Bytes) (line : Bytes) : RangeScan :=
    withContent
    { totalLines := done.length
      wroteAnyLine := true
      currentLineHasBytes := true
      selectedLineStarted := true
      pendingSelectedCr := line.getLast? == some cr }
    budget (before startLine endLine done ++ strip cr line)

theorem scanned_of_selects (h : Selects startLine endLine done) (hne : line ≠ []) :
    scanned startLine endLine budget done line = started startLine endLine budget done line := by
  have hempty : line.isEmpty = false := by simpa using hne
  have hwrote : (keptLines startLine endLine done ++ [strip cr line]).isEmpty = false :=
    List.isEmpty_eq_false_iff.mpr (List.append_ne_nil_of_right_ne_nil _ (List.cons_ne_nil _ _))
  rw [scanned, started, withOpen_of_ne hne, joined_concat h, hempty, keptLines_concat_of_selects h,
    decide_eq_true h, hwrote]
  rfl

theorem startSelectedLine_withContent (h : scan.selectedLineStarted = false) :
    startSelectedLine (scan.withContent budget content) budget =
      withContent { scan with wroteAnyLine := true, selectedLineStarted := true } budget
        (if scan.wroteAnyLine then content ++ [lf] else content) := by
  unfold startSelectedLine
  rw [if_neg (show ¬ (scan.withContent budget content).selectedLineStarted =
    true by simp [withContent, h])]
  cases hwrote : scan.wroteAnyLine with
  | false =>
    rw [if_neg (show ¬ (scan.withContent budget content).wroteAnyLine =
      true by simp [withContent, hwrote])]
    rfl
  | true =>
    rw [if_pos (show (scan.withContent budget content).wroteAnyLine = true from hwrote),
      pushSelectedByte_withContent]
    rfl

theorem scanned_nil : scanned startLine endLine budget done [] = withContent
        { totalLines := done.length, wroteAnyLine := !(keptLines startLine endLine done).isEmpty }
        budget (joined (keptLines startLine endLine done)) := by
  simp [scanned]

theorem startSelectedLine_scanned (h : Selects startLine endLine done) :
    startSelectedLine
      { scanned startLine endLine budget done line with currentLineHasBytes := true } budget =
      started startLine endLine budget done line := by
  by_cases hne : line = []
  · subst hne
    rw [scanned_nil]
    refine (@startSelectedLine_withContent _ _
      { totalLines := done.length, wroteAnyLine := !(keptLines startLine endLine done).isEmpty,
        currentLineHasBytes := true } rfl).trans ?_
    rw [started, before]
    by_cases hkept : keptLines startLine endLine done = []
    · simp [hkept, strip, joined]
    · simp [hkept, strip]
  · rw [scanned_of_selects h hne]
    rfl

theorem flushPendingCr_started :
    flushPendingCr (started startLine endLine budget done line) budget =
      withContent
        { totalLines := done.length
          wroteAnyLine := true
          currentLineHasBytes := true
          selectedLineStarted := true }
        budget (before startLine endLine done ++ line) := by
  have hline : strip cr line ++ (if line.getLast? = some cr then [cr] else []) = line :=
    strip_append_mark
  by_cases hlast : line.getLast? = some cr
  · rw [if_pos hlast] at hline
    have hpending : (started startLine endLine budget done line).pendingSelectedCr = true := by
      simp [started, withContent, hlast]
    rw [flushPendingCr, if_pos hpending, started, pushSelectedByte_withContent,
      List.append_assoc, hline]
    rfl
  · rw [if_neg hlast, List.append_nil] at hline
    have hpending : (line.getLast? == some cr) = false := beq_eq_false_iff_ne.mpr hlast
    rw [started, hpending, hline]
    rfl

theorem currentLineSelected_scanned :
    (scanned startLine endLine budget done line).currentLineSelected startLine endLine =
      decide (Selects startLine endLine done) := by
  unfold currentLineSelected
  rw [Bool.eq_iff_iff, Bool.and_eq_true, decide_eq_true_iff, decide_eq_true_iff, decide_eq_true_iff]
  rfl

/-- A byte that is no line feed belongs to the line. -/
theorem scanByte_of_ne (hbyte : byte ≠ lf) :
    scanByte startLine endLine budget (scanned startLine endLine budget done line) byte =
      scanned startLine endLine budget done (line ++ [byte]) := by
  have hne : line ++ [byte] ≠ [] := List.append_ne_nil_of_right_ne_nil _ (List.cons_ne_nil _ _)
  rw [scanByte, currentLineSelected_scanned]
  dsimp only
  rw [if_neg hbyte]
  by_cases h : Selects startLine endLine done
  · rw [decide_eq_true h, startSelectedLine_scanned h, flushPendingCr_started,
      scanned_of_selects h hne, started]
    by_cases hcr : byte = cr
    · subst hcr
      simp [strip, withContent]
    · have hlast : ((line ++ [byte]).getLast? == some cr) = false := by
        simpa using hcr
      rw [if_neg hcr, pushSelectedByte_withContent, hlast, strip,
        if_neg (beq_eq_false_iff_ne.mp hlast), List.append_assoc]
      rfl
  · rw [decide_eq_false h, scanned, scanned, keptLines_withOpen_of_not_selects h,
      withOpen_of_ne hne, keptLines_concat_of_not_selects h, decide_eq_false h]
    simp [withContent]

theorem startSelectedLine_hasBytes (hasBytes : Bool) :
    startSelectedLine { scan with currentLineHasBytes := hasBytes } budget =
      { startSelectedLine scan budget with currentLineHasBytes := hasBytes } := by
  unfold startSelectedLine pushSelectedByte
  split_ifs <;> rfl

/-- A line feed ends the line. -/
theorem scanByte_lf :
    scanByte startLine endLine budget (scanned startLine endLine budget done line) lf =
      scanned startLine endLine budget (done ++ [line]) [] := by
  rw [scanByte, currentLineSelected_scanned, scanned_nil]
  by_cases h : Selects startLine endLine done
  · have hstart : startSelectedLine
        { scanned startLine endLine budget done line with currentLineHasBytes := true }
            budget = _ :=
      startSelectedLine_scanned h
    rw [startSelectedLine_hasBytes] at hstart
    have hwrote : (keptLines startLine endLine (done ++ [line])).isEmpty = false := by
      rw [keptLines_concat_of_selects h]
      exact List.isEmpty_eq_false_iff.mpr
        (List.append_ne_nil_of_right_ne_nil _ (List.cons_ne_nil _ _))
    rw [decide_eq_true h, if_pos rfl, joined_concat h, hwrote]
    refine (congrArg (fun scan : RangeScan ↦ { scan with
      totalLines := scan.totalLines + 1
      currentLineHasBytes := false
      selectedLineStarted := false
      pendingSelectedCr := false }) hstart).trans ?_
    simp [started, withContent]
  · rw [decide_eq_false h, keptLines_concat_of_not_selects h, scanned,
      keptLines_withOpen_of_not_selects h]
    simp [withContent]

/-- A scan of a whole content. -/
theorem scanChunk_eq (bytes : Bytes) : ({} : RangeScan).scanChunk bytes startLine endLine budget =
      scanned startLine endLine budget (bytes.splitOn lf).dropLast
        ((bytes.splitOn lf).getLastD []) := by
  have hinitial : ({} : RangeScan) = scanned startLine endLine budget [] [] := by
    simp [scanned, withContent, keptLines, joined]
  rw [hinitial]
  exact @foldl_segments _ _ _ lf (scanByte startLine endLine budget)
    (scanned startLine endLine budget) (fun done line _ hbyte ↦ scanByte_of_ne hbyte)
      (fun done line ↦ scanByte_lf) bytes

end RangeScan

end WebCodex.FileRead
