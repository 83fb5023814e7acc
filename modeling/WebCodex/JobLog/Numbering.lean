import Mathlib.Data.List.Induction
import WebCodex.JobLog.Retention

/-!
`Exact` is what the state of a stream should be after some output: the tail is what is left behind
a dropped part, it fits, and the two counters number its lines. An append loses this when the
retained window starts inside a character, because the call panics, and when nothing may be
retained and the chunk leaves a line unfinished, which is counted as ended
(`appendLogWithin_exact`). Only a run in which neither happens is exact (`appends_exactly_iff`).
-/

namespace WebCodex.JobLog

open Foundation.Text
open String (utf8Len)

variable {limit : ℕ} {log next : ShellJobLogState} {chunk : Option Str} {output : Str}

/-- The log after a sequence of appends to the empty stream, whatever way they end. -/
def appendAll (limit : ℕ) (chunks : List (Option Str)) : ShellJobLogState :=
  chunks.foldl (fun log chunk ↦ (appendLogWithin limit log chunk).state) {}

def fullOutput (chunks : List (Option Str)) : Str := chunks.flatMap (·.getD [])

/-- The state that a log should have after some output. -/
structure Exact (limit : ℕ) (log : ShellJobLogState) (output : Str) : Prop where
  suffix : output = droppedOutput log output ++ log.tail
  within : utf8Len log.tail ≤ limit
  first : log.firstRetainedLine = 1 + newlines (droppedOutput log output)
  next : log.nextLine = 1 + retainedLineCount output

/-- Nothing may be retained, and the chunk leaves a line unfinished. -/
def LeavesOpen (limit : ℕ) (chunk : Option Str) : Prop :=
  limit = 0 ∧ endsPartial (chunk.getD []) = true

theorem endsPartial_append_of_ne_nil (front : Str) {back : Str} (h : back ≠ []) :
    endsPartial (front ++ back) = endsPartial back := by
  rw [endsPartial, endsPartial, List.getLast?_append_of_ne_nil front h,
    List.isEmpty_eq_false_iff.mpr h,
    List.isEmpty_eq_false_iff.mpr (List.append_ne_nil_of_right_ne_nil front h)]

theorem exact_default (limit : ℕ) : Exact limit {} [] :=
  ⟨rfl, Nat.zero_le limit, rfl, rfl⟩

/-- The next line tells whether the line behind an empty tail is finished. -/
theorem Exact.of_next (hsuffix : ∃ dropped, output = dropped ++ log.tail ∧
      log.firstRetainedLine = 1 + newlines dropped) (hwithin : utf8Len log.tail ≤ limit)
    (hnext : log.nextLine = log.firstRetainedLine + retainedLineCount log.tail)
    (hends : log.tail = [] → endsPartial output = false) : Exact limit log output := by
  obtain ⟨dropped, houtput, hfirst⟩ := hsuffix
  have hdropped := droppedOutput_of_eq_append houtput
  refine ⟨hdropped.symm ▸ houtput, hwithin, hdropped.symm ▸ hfirst, ?_⟩
  rw [hnext, hfirst, houtput, retainedLineCount, retainedLineCount, length_lines, length_lines,
    newlines_append]
  by_cases htail : log.tail = []
  · have hwhole : endsPartial dropped = false := by simpa [houtput, htail] using hends htail
    rw [htail, List.append_nil, hwhole]
    rfl
  · rw [endsPartial_append_of_ne_nil dropped htail]
    omega

/-- With an empty tail all the output is dropped. -/
theorem Exact.droppedOutput_eq (h : Exact limit log output) (htail : log.tail = []) :
    droppedOutput log output = output := by
  rw [← List.append_nil (droppedOutput log output), ← htail, ← h.suffix]

/-- Behind an empty tail the last line is finished. -/
theorem Exact.endsPartial_of_tail_nil (h : Exact limit log output)
    (hnext : log.nextLine = log.firstRetainedLine + retainedLineCount log.tail)
    (htail : log.tail = []) : endsPartial output = false := by
  have hcount := h.next
  rw [hnext, h.first, h.droppedOutput_eq htail, htail, retainedLineCount, retainedLineCount,
    length_lines output, lines_nil, List.length_nil] at hcount
  by_contra hopen
  rw [if_pos (Bool.eq_true_of_not_eq_false hopen)] at hcount
  omega

/-- An append whose window starts between characters, and that leaves no line open without room for
it, keeps the state exact. -/
theorem appendLogWithin_exact (h : Exact limit log output)
    (hnumbers : log.nextLine = log.firstRetainedLine + retainedLineCount log.tail)
    (hwhole : ¬ CutsInside limit log chunk) (hclosed : ¬ LeavesOpen limit chunk) :
    ∃ next, appendLogWithin limit log chunk = .returned next ∧
      Exact limit next (output ++ chunk.getD []) ∧
      next.nextLine = next.firstRetainedLine + retainedLineCount next.tail ∧
      log.firstRetainedLine ≤ next.firstRetainedLine := by
  cases chunk with
  | none => exact ⟨log, rfl, by simpa using h, hnumbers, le_rfl⟩
  | some text =>
    have hpushed : output ++ text = droppedOutput log output ++ (log.tail ++ text) := by
      rw [← List.append_assoc, ← h.suffix]
    have hopen : log.tail ++ text = [] → endsPartial (output ++ text) = false := by
      intro hnil
      obtain ⟨htail, rfl⟩ := List.append_eq_nil_iff.mp hnil
      rw [List.append_nil]
      exact h.endsPartial_of_tail_nil hnumbers htail
    simp only [appendLogWithin, Option.getD_some]
    split_ifs with hlong
    · have hboundary : isCharBoundary (utf8Len (log.tail ++ text) - limit)
          (log.tail ++ text) = true := by
        by_contra hinside
        exact hwhole ⟨text, rfl, hlong, Bool.not_eq_true _ ▸ hinside⟩
      obtain ⟨trimmed, htrim⟩ := trimTailTo_isSome
        (show isCharBoundary _ { log with tail := log.tail ++ text : ShellJobLogState }.tail =
            true from
          hboundary)
      obtain ⟨dropped, htail, hwithin, hfirst, hends, -⟩ := trimTailTo_eq_some hlong htrim
      change log.tail ++ text = dropped ++ trimmed.tail at htail
      have hroom : ¬ (limit = 0 ∧ endsPartial (log.tail ++ text) = true) := by
        rintro ⟨rfl, hpartial⟩
        have hnone : log.tail = [] := String.utf8Len_eq_zero.mp (Nat.le_zero.mp h.within)
        exact hclosed ⟨rfl, by simpa [hnone] using hpartial⟩
      rw [if_neg hroom, Nat.add_zero] at hfirst
      rw [htrim]
      refine ⟨_, rfl, .of_next ⟨droppedOutput log output ++ dropped, ?_, ?_⟩ hwithin rfl ?_,
        rfl, ?_⟩
      · rw [hpushed, htail, List.append_assoc]
      · dsimp only
        rw [hfirst, h.first, newlines_append, Nat.add_assoc]
      · intro hnil
        have hlimit : endsPartial (log.tail ++ text) = false := by
          rcases Nat.eq_zero_or_pos limit with hzero | hpos
          · simpa [hzero] using hroom
          · exact hends hnil hpos
        by_cases hempty : log.tail ++ text = []
        · exact hopen hempty
        · rw [hpushed, endsPartial_append_of_ne_nil _ hempty, hlimit]
      · exact hfirst ▸ Nat.le_add_right _ _
    · exact ⟨_, rfl, .of_next ⟨_, hpushed, h.first⟩ (Nat.not_lt.mp hlong) rfl hopen, rfl, le_rfl⟩

/-- Without room, an append that leaves a line open numbers the line as if it had ended. -/
theorem not_exact_of_leavesOpen (h : Exact limit log output) (hopen : LeavesOpen limit chunk)
    (hreturned : appendLogWithin limit log chunk = .returned next) :
    ¬ Exact limit next (output ++ chunk.getD []) := by
  obtain ⟨rfl, hpartial⟩ := hopen
  have hnone : log.tail = [] := String.utf8Len_eq_zero.mp (Nat.le_zero.mp h.within)
  cases chunk with
  | none => simp [endsPartial] at hpartial
  | some text =>
    rw [Option.getD_some] at hpartial ⊢
    have hlong : 0 < utf8Len (log.tail ++ text) := by
      rw [Nat.pos_iff_ne_zero, Ne, String.utf8Len_eq_zero]
      rintro hnil
      simp [(List.append_eq_nil_iff.mp hnil).2, endsPartial] at hpartial
    simp only [appendLogWithin, gt_iff_lt] at hreturned
    rw [if_pos hlong] at hreturned
    cases htrim : trimTailTo 0 { log with tail := log.tail ++ text } with
    | none => simp [htrim] at hreturned
    | some trimmed =>
      obtain ⟨dropped, htail, -, hfirst, -⟩ := trimTailTo_eq_some hlong htrim
      rw [htrim] at hreturned
      obtain rfl := AppendOutcome.returned.inj hreturned
      intro hexact
      have hempty : trimmed.tail = [] := String.utf8Len_eq_zero.mp (Nat.le_zero.mp hexact.within)
      have hcount := hexact.first
      rw [if_pos ⟨rfl, by simpa [hnone] using hpartial⟩] at hfirst
      rw [hexact.droppedOutput_eq hempty, hfirst, h.first, h.droppedOutput_eq hnone,
        newlines_append] at hcount
      have hsame : text = dropped := by simpa [hnone, hempty] using htail
      rw [hsame] at hcount
      omega

/-- Every append of the run returns, leaves an exact state, and lowers neither counter. -/
def AppendsExactly (limit : ℕ) (chunks : List (Option Str)) : Prop :=
  ∀ before chunk after, chunks = before ++ chunk :: after →
    ∃ next, appendLogWithin limit (appendAll limit before) chunk = .returned next ∧
      Exact limit next (fullOutput (before ++ [chunk])) ∧
      (appendAll limit before).firstRetainedLine ≤ next.firstRetainedLine ∧
      (appendAll limit before).nextLine ≤ next.nextLine

theorem appendAll_append_singleton (limit : ℕ) (chunks : List (Option Str)) (chunk : Option Str) :
    appendAll limit (chunks ++ [chunk]) =
      (appendLogWithin limit (appendAll limit chunks) chunk).state := by
  simp [appendAll, List.foldl_append]

theorem fullOutput_append_singleton (chunks : List (Option Str)) (chunk : Option Str) :
    fullOutput (chunks ++ [chunk]) = fullOutput chunks ++ chunk.getD [] := by
  simp [fullOutput]

/-- The state after a run without the two exceptions. -/
theorem exact_appendAll {chunks : List (Option Str)}
    (h : ∀ before chunk after, chunks = before ++ chunk :: after →
      ¬ CutsInside limit (appendAll limit before) chunk ∧ ¬ LeavesOpen limit chunk) :
    Exact limit (appendAll limit chunks) (fullOutput chunks) ∧
      (appendAll limit chunks).nextLine =
        (appendAll limit chunks).firstRetainedLine + retainedLineCount
        (appendAll limit chunks).tail := by
  induction chunks using List.reverseRecOn with
  | nil => exact ⟨exact_default limit, rfl⟩
  | append_singleton chunks chunk ih =>
    obtain ⟨hexact, hnumbers⟩ := ih fun before other after hchunks ↦
      h before other (after ++ [chunk]) (by rw [hchunks]; simp)
    obtain ⟨hwhole, hclosed⟩ := h chunks chunk [] rfl
    obtain ⟨_, hnext, hexact', hnumbers', -⟩ := appendLogWithin_exact hexact hnumbers hwhole hclosed
    rw [appendAll_append_singleton, fullOutput_append_singleton, hnext]
    exact ⟨hexact', hnumbers'⟩

/-- A run of appends to the empty stream is exact throughout just when no window starts inside a
character and, without room to retain anything, no chunk leaves a line unfinished. -/
theorem appends_exactly_iff (limit : ℕ) (chunks : List (Option Str)) :
    AppendsExactly limit chunks ↔ ∀ before chunk after, chunks = before ++ chunk :: after →
      ¬ CutsInside limit (appendAll limit before) chunk ∧ ¬ LeavesOpen limit chunk := by
  constructor
  · intro h before chunk after hchunks
    obtain ⟨next, hnext, hexact, -⟩ := h before chunk after hchunks
    refine ⟨fun hinside ↦ ?_, fun hopen ↦ ?_⟩
    · obtain ⟨_, rfl, -⟩ := id hinside
      rw [appendLogWithin_of_cuts hinside] at hnext
      cases hnext
    have hbefore : Exact limit (appendAll limit before) (fullOutput before) := by
      rcases List.eq_nil_or_concat before with rfl | ⟨front, last, rfl⟩
      · exact exact_default limit
      · rw [List.concat_eq_append] at hchunks ⊢
        obtain ⟨_, hlast, hfront, -⟩ := h front last (chunk :: after) (by rw [hchunks]; simp)
        rw [appendAll_append_singleton, hlast]
        exact hfront
    rw [fullOutput_append_singleton] at hexact
    exact not_exact_of_leavesOpen hbefore hopen hnext hexact
  · intro h before chunk after hchunks
    have hfront : ∀ front other back, before = front ++ other :: back →
        ¬ CutsInside limit (appendAll limit front) other ∧ ¬ LeavesOpen limit other :=
      fun front other back hbefore ↦
        h front other (back ++ chunk :: after) (by rw [hchunks, hbefore]; simp)
    obtain ⟨hexact, hnumbers⟩ := exact_appendAll hfront
    obtain ⟨hwhole, hclosed⟩ := h before chunk after hchunks
    obtain ⟨next, hnext, hexact', -, hfirst⟩ :=
      appendLogWithin_exact hexact hnumbers hwhole hclosed
    rw [← fullOutput_append_singleton] at hexact'
    refine ⟨next, hnext, hexact', hfirst, ?_⟩
    rw [hexact.next, hexact'.next, fullOutput_append_singleton]
    exact Nat.add_le_add_left (retainedLineCount_le_append _ _) 1

/-- One chunk of characters of three bytes, two bytes longer than the retention bound, is not
appended. -/
theorem long_chunk_is_not_appended :
    ¬ AppendsExactly liveJobStreamRetentionBytes [some (List.replicate 87382 '€')] := by
  intro h
  obtain ⟨_, hnext, -⟩ := h [] (some (List.replicate 87382 '€')) [] rfl
  have hcuts := @appendLogLimited_of_cuts {} _
    (@cutsCharacter_replicate {} '€' (by decide) 0 87382 rfl (by decide))
  rw [show appendAll liveJobStreamRetentionBytes [] = {} from rfl, ← appendLogLimited,
    hcuts] at hnext
  cases hnext

end WebCodex.JobLog
