import WebCodex.FileRead.RangeReader
import WebCodex.FileRead.Scanning

/-!
After some chunks the validator holds the bytes that no character of them has completed
(`Utf8Validator.Holds`), so the content is accepted at its end just when it is a text
(`readChunks_cases`). The lines of a text end with line feeds, less a carriage return
(`contentLines`). However a file is cut into chunks, the reader accepts it just when it is a text
whose selected lines are within the budget, and answers with these lines and the number of all
lines (`range_read_is_whole_file_read`).
-/

namespace WebCodex.FileRead

open Foundation Foundation.Utf8
open String (utf8Len utf8EncodeChar)
open Foundation.Framing (Bytes utf8Bytes length_utf8Bytes)
open Foundation.Segments
open Foundation.Text (Str)

section

variable {first : UInt8} {bytes rest seen : Bytes} {validator : Utf8Validator}
    {bounds : List (ℕ × ℕ)}

/-- A width is one more than the number of bytes that follow. -/
theorem utf8SequenceWidth_eq_some {width : ℕ} : utf8SequenceWidth first = some width ↔
      2 ≤ width ∧ ∃ bounds, following first = some bounds ∧ bounds.length + 1 = width := by
  constructor
  · intro h
    unfold utf8SequenceWidth at h
    dsimp only at h
    split_ifs at h with h₂ h₃ h₄ <;> obtain rfl := Option.some.inj h
    · refine ⟨le_rfl, [(0x80, 0xBF)], ?_, rfl⟩
      rw [following, if_neg (by omega), if_neg (by omega), if_pos (by omega)]
    · exact ⟨by decide, _, following_three (by omega), rfl⟩
    · exact ⟨by decide, _, following_four (by omega), rfl⟩
  · rintro ⟨hwidth, bounds, hfollowing, rfl⟩
    rcases following_eq_some hfollowing with ⟨hfirst, rfl⟩ | ⟨hfirst, rfl⟩ | ⟨hfirst,
      rfl⟩ | ⟨hfirst, rfl⟩
    · exact absurd hwidth (by decide)
    · exact if_pos (by omega)
    · exact (if_neg (by omega)).trans (if_pos (by omega))
    · exact (if_neg (by omega)).trans ((if_neg (by omega)).trans (if_pos (by omega)))

/-- Fewer bytes than a character takes are no character's. -/
theorem firstSequence_ne_character (h : following first = some bounds)
    (hshort : rest.length < bounds.length) (c : Char) (rest' : Bytes) :
    firstSequence (first :: rest) ≠ .character c rest' := by
  intro hcharacter
  rw [firstSequence_cons h] at hcharacter
  split at hcharacter
  · next hcomplete =>
    have := length_of_complete hcomplete
    omega
  · cases hcharacter
  · cases hcharacter

/-- As many bytes as a character takes are the character, or broken. -/
theorem firstSequence_of_length (h : following first = some bounds)
    (hlength : rest.length = bounds.length) :
    (∃ c, firstSequence (first :: rest) = .character c []) ∨
      ∃ length, firstSequence (first :: rest) = .broken length := by
  rw [firstSequence_cons h]
  split
  · exact .inl ⟨_, by rw [← hlength, List.drop_length]⟩
  · exact .inr ⟨_, rfl⟩
  · next hincomplete =>
    have := length_of_incomplete hincomplete
    omega

/-! ### Chunks -/

namespace Utf8Validator

/-- The bytes of an unfinished character: a first byte, and fewer bytes behind it than it asks
for. -/
def IsOpen (carry : Bytes) : Prop :=
  ∀ first rest, carry = first :: rest → ∃ bounds, following first = some bounds ∧
    rest.length < bounds.length

/-- The bytes so far are a text and the bytes that are held. -/
def Holds (validator : Utf8Validator) (seen : Bytes) : Prop :=
  IsOpen validator.carry ∧ ∃ text, seen = utf8Bytes text ++ validator.carry

theorem validateRemaining_cases (remaining : Bytes) :
    (∃ validator, validateRemaining remaining = .ok validator ∧ validator.Holds remaining) ∨
      validateRemaining remaining = .error .invalidUtf8 ∧ StartsNoText remaining := by
  unfold validateRemaining
  cases hresult : fromUtf8 remaining with
  | ok text =>
    exact .inl ⟨{}, rfl, nofun, text, (fromUtf8_eq_ok.mp hresult).trans (List.append_nil _).symm⟩
  | error =>
    obtain ⟨text, rest, rfl, hne, hvalid, ⟨_, hbroken, hlen⟩ | ⟨hincomplete, hlen⟩⟩ :=
      fromUtf8_eq_error hresult
    · dsimp only
      rw [hlen]
      exact .inr ⟨rfl, (startsNoText_of_broken hbroken).append_left text⟩
    · refine .inl ⟨{ carry := rest }, ?_, ?_, text, rfl⟩
      · obtain ⟨first, tail, rfl⟩ := List.exists_cons_of_ne_nil hne
        obtain ⟨_, hfollowing, _⟩ := firstSequence_eq_incomplete hincomplete
        have hbounds := length_following hfollowing
        dsimp only
        rw [hlen, hvalid, List.drop_left, if_neg (by simp), if_neg (by
          simp only [List.isEmpty_cons, Bool.false_eq_true, List.length_cons, false_or]
          omega)]
      · rintro first tail rfl
        exact firstSequence_eq_incomplete hincomplete

/-- What is behind a text is checked for itself. -/
theorem validateRemaining_append_cases (front : List Char) (remaining : Bytes) :
    (∃ next, validateRemaining remaining = .ok next ∧ next.Holds (utf8Bytes front ++ remaining)) ∨
      validateRemaining remaining = .error .invalidUtf8 ∧
        StartsNoText (utf8Bytes front ++ remaining) := by
  rcases validateRemaining_cases remaining with ⟨next, hnext, hopen, rest, hrest⟩ | ⟨herror, hno⟩
  · exact .inl ⟨next, hnext, hopen, front ++ rest, by rw [utf8Bytes_append,
      List.append_assoc, ← hrest]⟩
  · exact .inr ⟨herror, hno.append_left front⟩

/-- A chunk is refused only when no text starts with the bytes so far. -/
theorem validateChunk_cases (h : validator.Holds seen) (bytes : Bytes) :
    (∃ next, validator.validateChunk bytes = .ok next ∧ next.Holds (seen ++ bytes)) ∨
      validator.validateChunk bytes = .error .invalidUtf8 ∧ StartsNoText (seen ++ bytes) := by
  obtain ⟨hopen, text, rfl⟩ := h
  cases hcarry : validator.carry with
  | nil =>
    rw [validateChunk, hcarry, List.append_nil]
    exact validateRemaining_append_cases text bytes
  | cons first tail =>
    obtain ⟨bounds, hfollowing, _⟩ := hopen first tail hcarry
    have hwidth : utf8SequenceWidth first = some (bounds.length + 1) :=
      utf8SequenceWidth_eq_some.mpr ⟨by omega, bounds, hfollowing, rfl⟩
    rw [validateChunk, hcarry]
    dsimp only
    rw [required_eq_ok.mpr hwidth, ok_bind, List.length_cons, List.length_append, List.length_cons,
      List.length_take]
    by_cases hshort : bytes.length < bounds.length - tail.length
    · rw [if_pos (by omega), List.take_of_length_le (by omega)]
      refine .inl ⟨_, rfl, ?_, text, by rw [List.append_assoc]⟩
      rintro other _ hother
      obtain ⟨rfl, rfl⟩ := List.cons.inj hother
      refine ⟨bounds, hfollowing, ?_⟩
      simp only [List.append_eq, List.length_append]
      omega
    · have htaken : min (bounds.length + 1 - (tail.length + 1)) bytes.length = bounds.length -
          tail.length := by
        omega
      rw [htaken, if_neg (by omega), List.take_of_length_le (by simp; omega)]
      have hfull : (tail ++ bytes.take (bounds.length - tail.length)).length = bounds.length := by
        rw [List.length_append, List.length_take]
        omega
      have hsplit : utf8Bytes text ++ first :: tail ++ bytes = utf8Bytes text ++
          (first :: (tail ++ bytes.take (bounds.length - tail.length)) ++
            bytes.drop (bounds.length - tail.length)) := by
        simp
      rw [hsplit]
      rcases firstSequence_of_length hfollowing hfull with ⟨c, hc⟩ | ⟨length, hbroken⟩
      · have hbytes : first :: (tail ++ bytes.take (bounds.length - tail.length)) = utf8Bytes
            [c] := by
          simpa using firstSequence_eq_character.mp hc
        have hchar : fromUtf8 (first :: tail ++ bytes.take (bounds.length - tail.length)) =
            .ok [c] :=
          fromUtf8_eq_ok.mpr hbytes
        rw [hchar, hbytes, ← List.append_assoc, ← utf8Bytes_append]
        exact validateRemaining_append_cases (text ++ [c])
          (bytes.drop (bounds.length - tail.length))
      · have hno : StartsNoText (first :: (tail ++ bytes.take (bounds.length - tail.length))) :=
          startsNoText_of_broken hbroken
        refine .inr ⟨?_, (hno.append_right _).append_left text⟩
        cases hresult : fromUtf8 (first :: tail ++ bytes.take (bounds.length - tail.length)) with
        | error => rfl
        | ok other =>
          exact absurd ((List.append_nil _).trans (fromUtf8_eq_ok.mp hresult)) (hno [] other)

/-- What is held at the end says whether the bytes are a text. -/
theorem finish_cases (h : validator.Holds seen) :
    (validator.finish = .ok () ∧ ∃ text, seen = utf8Bytes text) ∨
      validator.finish = .error .invalidUtf8 ∧ ∀ text, seen ≠ utf8Bytes text := by
  obtain ⟨hopen, text, rfl⟩ := h
  unfold finish
  cases hcarry : validator.carry with
  | nil => exact .inl ⟨rfl, text, List.append_nil _⟩
  | cons first rest =>
    obtain ⟨_, hfollowing, hshort⟩ := hopen first rest hcarry
    refine .inr ⟨rfl, fun _ hother ↦ ?_⟩
    obtain ⟨tail, -, htail⟩ := utf8Bytes_append_eq hother
    cases tail with
    | nil => cases htail
    | cons c tail =>
      exact firstSequence_ne_character hfollowing hshort c (utf8Bytes tail)
        (firstSequence_eq_character.mpr (htail.trans (utf8Bytes_cons c tail)))

end Utf8Validator

variable {startLine endLine contentBudget : ℕ}

/-- Reading chunks is scanning their bytes, unless no text starts with them. -/
theorem readChunks_cases {chunks : List Bytes} (hchunks : ∀ chunk ∈ chunks, chunk ≠ [])
    (h : validator.Holds seen) (hashed : Bytes) (scan : RangeScan) :
    (∃ next, RangeScan.readChunks startLine endLine contentBudget (chunks.map .ok) hashed
      validator scan =
        .ok (hashed ++ chunks.flatten, next, scan.scanChunk chunks.flatten startLine endLine
          contentBudget) ∧
        next.Holds (seen ++ chunks.flatten)) ∨
      RangeScan.readChunks startLine endLine contentBudget (chunks.map .ok) hashed validator scan =
        .error .invalidUtf8 ∧ StartsNoText (seen ++ chunks.flatten) := by
  induction chunks generalizing seen validator hashed scan with
  | nil =>
    exact .inl ⟨validator, by simp [RangeScan.readChunks, RangeScan.scanChunk], by simpa using h⟩
  | cons _ chunks ih =>
    obtain ⟨hchunk, hrest⟩ := List.forall_mem_cons.mp hchunks
    obtain ⟨byte, tail, rfl⟩ := List.exists_cons_of_ne_nil hchunk
    have hscan : scan.scanChunk (byte :: tail ++ chunks.flatten) startLine endLine contentBudget =
        (scan.scanChunk (byte :: tail) startLine endLine contentBudget).scanChunk chunks.flatten
          startLine endLine contentBudget := List.foldl_append
    rw [List.map_cons, RangeScan.readChunks, List.flatten_cons, hscan, ← List.append_assoc,
      ← List.append_assoc]
    rcases Utf8Validator.validateChunk_cases h
      (byte :: tail) with ⟨next, hnext, hholds⟩ | ⟨herror, hno⟩
    · rw [hnext, ok_bind]
      exact ih hrest hholds _ _
    · rw [herror]
      exact .inr ⟨rfl, hno.append_right _⟩

end

/-! ### The whole file -/

def contentLines (text : Str) : List Str := (segments '\n' text).map (strip '\r')

def selectedText (text : Str) (range : EffectiveRange) : Str :=
  List.intercalate ['\n'] (((contentLines text).take range.endLine).drop (range.startLine - 1))

variable {range : EffectiveRange} {text : Str} {bytes : Bytes} {budget : ℕ}
    {digest : Bytes → String}
  {chunks : List Bytes}

theorem utf8EncodeChar_ne_nil (c : Char) : utf8EncodeChar c ≠ [] := by
  obtain ⟨_, _, h, -⟩ := utf8EncodeChar_eq_cons c
  rw [h]
  exact List.cons_ne_nil _ _

theorem lf_notMem (c : Char) (h : c ≠ '\n') : lf ∉ utf8EncodeChar c :=
  fun hmem ↦ h ((mem_utf8EncodeChar '\n' (by decide) (by decide)).mp hmem)

theorem cr_notMem (c : Char) (h : c ≠ '\r') : cr ∉ utf8EncodeChar c :=
  fun hmem ↦ h ((mem_utf8EncodeChar '\r' (by decide) (by decide)).mp hmem)

/-- The lines that are kept are the bytes of the selected lines. -/
theorem joined_keptLines (text : Str) (range : EffectiveRange) :
    joined (keptLines range.startLine range.endLine (segments lf (utf8Bytes text))) =
      utf8Bytes (selectedText text range) := by
  have hsegments : segments lf (utf8Bytes text) = (segments '\n' text).map utf8Bytes :=
    segments_flatMap utf8EncodeChar_ne_nil (by decide) lf_notMem
  have hstrip : ∀ line : Str, strip cr (utf8Bytes line) = utf8Bytes (strip '\r' line) :=
    fun line ↦ strip_flatMap utf8EncodeChar_ne_nil (by decide) cr_notMem
  have hjoined : ∀ lines : List Str,
      utf8Bytes (List.intercalate ['\n'] lines) = List.intercalate [lf] (lines.map utf8Bytes) :=
    fun lines ↦ intercalate_flatMap (by decide) lines
  rw [keptLines, hsegments, selectedText, hjoined, joined, contentLines, ← List.map_take, ←
    List.map_drop, ← List.map_take, ← List.map_drop, List.map_map, List.map_map]
  exact congrArg _ (List.map_congr_left fun line _ ↦ hstrip line)

theorem length_segments_utf8Bytes (text : Str) :
    (segments lf (utf8Bytes text)).length = (contentLines text).length := by
  have hsegments : segments lf (utf8Bytes text) = (segments '\n' text).map utf8Bytes :=
    segments_flatMap utf8EncodeChar_ne_nil (by decide) lf_notMem
  rw [hsegments, contentLines, List.length_map, List.length_map]

/-! ### Reading -/

/-- What the scan of whole contents ends with. -/
theorem endLastLine_scanChunk (bytes : Bytes) (startLine endLine budget : ℕ) :
    let scan := (({} : RangeScan).scanChunk bytes startLine endLine budget).endLastLine
    let selected := joined (keptLines startLine endLine (segments lf bytes))
    (scan.content = if budget < selected.length then [] else selected) ∧
      scan.rangeTooLarge = decide (budget < selected.length) ∧
          scan.totalLines = (segments lf bytes).length := by
  rw [RangeScan.scanChunk_eq, segments]
  generalize (bytes.splitOn lf).dropLast = done
  generalize (bytes.splitOn lf).getLastD [] = line
  cases line with
  | nil => exact ⟨rfl, rfl, rfl⟩
  | cons =>
    rw [withOpen_of_ne (List.cons_ne_nil _ _), List.length_append]
    exact ⟨rfl, rfl, rfl⟩

/-- The scan is refused for bytes that are no text, and for a selection that is too large. -/
theorem run_cases (digest : Bytes → String) (hchunks : ∀ chunk ∈ chunks, chunk ≠ [])
    (startLine endLine budget : ℕ) :
    let result := ({} : RangeScan).run digest (chunks.map .ok) startLine endLine budget
    let selected := joined (keptLines startLine endLine (segments lf chunks.flatten))
    ((∀ text, chunks.flatten ≠ utf8Bytes text) ∧ result = .error .invalidUtf8) ∨
      (∃ text, chunks.flatten = utf8Bytes text) ∧
        (budget < selected.length ∧ result = .error .rangeTooLarge ∨
        selected.length ≤ budget ∧ ∃ scan, result = .ok scan ∧ scan.content = selected ∧
          scan.sha256 = digest chunks.flatten ∧ scan.totalLines =
              (segments lf chunks.flatten).length) := by
  have hinitial : ({} : Utf8Validator).Holds [] := ⟨nofun, [], rfl⟩
  rw [RangeScan.run]
  rcases readChunks_cases hchunks hinitial [] {} with ⟨_, hread, hholds⟩ | ⟨hread, hno⟩
  · obtain ⟨hcontent, hlarge, htotal⟩ := endLastLine_scanChunk chunks.flatten startLine
      endLine budget
    rw [hread, ok_bind]
    dsimp only
    generalize (({} : RangeScan).scanChunk chunks.flatten startLine endLine budget).endLastLine =
      scan at hcontent hlarge htotal ⊢
    rcases Utf8Validator.finish_cases hholds with ⟨hfinish, htext⟩ | ⟨hfinish, hno⟩
    · refine .inr ⟨htext, ?_⟩
      rw [hfinish, ok_bind]
      by_cases hbudget :
        budget < (joined (keptLines startLine endLine (segments lf chunks.flatten))).length
      · rw [decide_eq_true hbudget] at hlarge
        refine .inl ⟨hbudget, ?_⟩
        rw [ensure_of_false (by simpa using hlarge)]
        rfl
      · rw [decide_eq_false hbudget] at hlarge
        rw [if_neg hbudget] at hcontent
        refine .inr ⟨Nat.not_lt.mp hbudget, { scan with sha256 := digest ([] ++ chunks.flatten) },
          ?_, hcontent, rfl, htotal⟩
        rw [show (!scan.rangeTooLarge) = true by simp [hlarge]]
        rfl
    · exact .inl ⟨hno, by rw [hfinish]; rfl⟩
  · exact .inl ⟨fun text ↦ by simpa using hno [] text, by rw [hread]; rfl⟩

/-- An answer is given just when the bytes are a text and its selected lines are within the
budget. -/
theorem readRangeFromWithBudget_eq_ok (hchunks : ∀ chunk ∈ chunks, chunk ≠ []) {contentBudget : ℕ}
    {answer : FileReadRange} :
    readRangeFromWithBudget digest (chunks.map .ok) range contentBudget = .ok answer ↔
      ∃ text, chunks.flatten = utf8Bytes text ∧
        utf8Len (selectedText text range) ≤ clampBudget contentBudget ∧
        answer = .new (selectedText text range) (digest chunks.flatten)
          (contentLines text).length range := by
  rw [readRangeFromWithBudget]
  rcases run_cases digest hchunks range.startLine range.endLine (clampBudget contentBudget) with
    ⟨hno, hresult⟩ | ⟨⟨text, htext⟩, ⟨hlarge, hresult⟩ | ⟨hbudget, scan, hresult, hcontent, hdigest,
      htotal⟩⟩
  · rw [hresult]
    exact iff_of_false nofun fun ⟨text, htext, _⟩ ↦ hno text htext
  · rw [hresult]
    refine iff_of_false nofun fun ⟨other, hother, hbudget, _⟩ ↦ ?_
    rw [hother, joined_keptLines, length_utf8Bytes] at hlarge
    omega
  · rw [htext, joined_keptLines] at hbudget hcontent
    rw [htext, length_segments_utf8Bytes] at htotal
    rw [length_utf8Bytes] at hbudget
    rw [hresult, ok_bind, hcontent, fromUtf8_eq_ok.mpr rfl, hdigest, htotal]
    constructor
    · intro hanswer
      exact ⟨text, htext, hbudget, (Except.ok.inj hanswer).symm⟩
    · rintro ⟨other, hother, -, rfl⟩
      obtain rfl := Framing.utf8Bytes_injective (htext.symm.trans hother)
      rfl

/-- However the bytes are cut into chunks, the answer is given just when they are a text and its
selected lines are within the budget; these are the content of the answer, which comes with the
number of all lines. The bytes that the scan keeps are always a text, and the validator accepts the
chunks just when the whole content is one. -/
theorem range_read_is_whole_file_read (digest : Bytes → String) (chunks : List Bytes)
    (hchunks : ∀ chunk ∈ chunks, chunk ≠ []) (range : EffectiveRange) (contentBudget : ℕ) :
    (∀ answer, readRangeFromWithBudget digest (chunks.map .ok) range contentBudget = .ok answer ↔
      ∃ text, chunks.flatten = utf8Bytes text ∧
        utf8Len (selectedText text range) ≤ clampBudget contentBudget ∧
        answer = .new (selectedText text range) (digest chunks.flatten)
          (contentLines text).length range) ∧
    (∀ scan, ({} : RangeScan).run digest (chunks.map .ok) range.startLine range.endLine
        (clampBudget contentBudget) = .ok scan → ∃ content, fromUtf8 scan.content = .ok content) ∧
    ((∃ hashed validator scan, RangeScan.readChunks range.startLine range.endLine
        (clampBudget contentBudget) (chunks.map .ok) [] {} {} = .ok (hashed, validator, scan) ∧
          validator.finish = .ok ()) ↔
      ∃ text, chunks.flatten = utf8Bytes text) := by
  refine ⟨fun answer ↦ readRangeFromWithBudget_eq_ok hchunks, ?_, ?_⟩
  · intro scan hscan
    rcases run_cases digest hchunks range.startLine range.endLine (clampBudget contentBudget) with
      ⟨-, hresult⟩ | ⟨⟨text, htext⟩, ⟨-, hresult⟩ | ⟨-, other, hresult, hcontent, -, -⟩⟩
    · cases hscan.symm.trans hresult
    · cases hscan.symm.trans hresult
    · obtain rfl := Except.ok.inj (hscan.symm.trans hresult)
      rw [htext, joined_keptLines] at hcontent
      exact ⟨_, fromUtf8_eq_ok.mpr hcontent⟩
  · have hinitial : ({} : Utf8Validator).Holds [] := ⟨nofun, [], rfl⟩
    rcases readChunks_cases hchunks hinitial [] {} with ⟨validator, hread, hholds⟩ | ⟨hread, hno⟩
    · rw [hread]
      rcases Utf8Validator.finish_cases hholds with ⟨hfinish, htext⟩ | ⟨hfinish, hno⟩
      · exact iff_of_true ⟨_, _, _, rfl, hfinish⟩ htext
      · refine iff_of_false ?_ fun ⟨text, htext⟩ ↦ hno text htext
        rintro ⟨hashed, other, scan, hother, haccepted⟩
        obtain ⟨rfl, -⟩ := Prod.mk.inj (Prod.mk.inj (Except.ok.inj hother)).2
        cases haccepted.symm.trans hfinish
    · rw [hread]
      refine iff_of_false (fun ⟨_, _, _, hother, _⟩ ↦ nomatch hother) fun ⟨text, htext⟩ ↦
        hno [] text ?_
      simpa using htext

/-- A character that three chunks share, and pairs that chunks divide. -/
theorem divided_character_and_pair_are_read :
    readRangeFromWithBudget (fun _ ↦ "")
      (([[0x31, 0x0D], [0x0A, 0xE2], [0x82], [0xAC, 0x0D]] : List Bytes).map .ok) ⟨2, 5⟩ 3 = .ok
      (.new "€".toList "" 2 ⟨2, 5⟩) :=
  ((range_read_is_whole_file_read (fun _ ↦ "") _ (by decide) ⟨2, 5⟩ 3).1 _).mpr
    ⟨"1\r\n€\r".toList, by decide, by decide, by decide⟩

end WebCodex.FileRead
