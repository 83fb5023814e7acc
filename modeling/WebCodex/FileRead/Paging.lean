import WebCodex.FileRead.WholeFile

/-!
A client reads a file page by page: every answer says where the next one starts (`Paged`). The
number of lines that an answer returns is counted in the joined text, also where lines are empty
(`countReturnedLines_selectedText`). So a client that reaches the end has got every line once, and
it reaches the end unless a page is larger than the budget (`paging_covers_file`).
-/

namespace WebCodex.FileRead

open String (utf8Len)
open Foundation
open Foundation.Framing (Bytes utf8Bytes)
open Foundation.Segments
open Foundation.Text (Str)

def FileReadRange.lines (answer : FileReadRange) : List Str :=
  if answer.returnedLines = 0 then [] else answer.content.splitOn '\n'

/-- The answers that a client gets which starts at a line and goes on as they say. -/
inductive Paged (read : ℕ → Except ReadFileReason FileReadRange) : ℕ → List FileReadRange → Prop
  | last {startLine : ℕ} {page : FileReadRange} (hread : read startLine = .ok page)
      (hnext : page.nextStartLine = none) : Paged read startLine [page]
  | next {startLine nextLine : ℕ} {page : FileReadRange} {pages : List FileReadRange}
      (hread : read startLine = .ok page) (hnext : page.nextStartLine = some nextLine)
      (hpages : Paged read nextLine pages) : Paged read startLine (page :: pages)

variable {text : Str} {startLine limit contentBudget : ℕ} {digest : Bytes → String}

def window (text : Str) (startLine limit : ℕ) : List Str :=
  ((contentLines text).drop (startLine - 1)).take limit

theorem selectedText_eq (hstart : 1 ≤ startLine) :
    selectedText text ⟨startLine, limit⟩ = List.intercalate ['\n']
      (window text startLine limit) := by
  rw [selectedText, window, EffectiveRange.endLine, List.drop_take,
    show startLine + limit - 1 - (startLine - 1) = limit by omega]

theorem notMem_of_mem_strip {line : Str} (h : '\n' ∉ line) : '\n' ∉ strip '\r' line := by
  unfold strip
  split_ifs
  · exact fun hmem ↦ h (List.dropLast_subset _ hmem)
  · exact h

theorem notMem_of_mem_window {line : Str} (h : line ∈ window text startLine limit) :
    '\n' ∉ line := by
  obtain ⟨_, hpiece, rfl⟩ := List.mem_map.mp (List.mem_of_mem_drop (List.mem_of_mem_take h))
  exact notMem_of_mem_strip (notMem_of_mem_segments hpiece)

/-- Splitting the joined lines of a page gives these lines. -/
theorem splitOn_window (hne : window text startLine limit ≠ []) :
    (List.intercalate ['\n'] (window text startLine limit)).splitOn '\n' = window text startLine
      limit :=
  List.splitOn_intercalate '\n' (fun _ ↦ notMem_of_mem_window) hne

theorem length_window :
    (window text startLine limit).length = min limit
    ((contentLines text).length - (startLine - 1)) := by
  rw [window, List.length_take, List.length_drop]

/-- The count of the returned lines is the number of lines that were joined. -/
theorem countReturnedLines_selectedText (hstart : 1 ≤ startLine) (hlimit : 0 < limit) :
    countReturnedLines (selectedText text ⟨startLine, limit⟩) (contentLines text).length startLine =
      (window text startLine limit).length := by
  rw [selectedText_eq hstart, countReturnedLines]
  by_cases hpast : (contentLines text).length < startLine
  · rw [if_pos (.inl hpast), length_window]
    omega
  · have hne : window text startLine limit ≠ [] := by
      rw [ne_eq, ← List.length_eq_zero_iff, length_window]
      omega
    rw [if_neg (by omega)]
    by_cases hempty : (List.intercalate ['\n'] (window text startLine limit)).isEmpty
    · -- Only one line that is empty is joined to nothing.
      have hsplit := splitOn_window hne
      rw [List.isEmpty_iff.mp hempty, List.splitOn_nil] at hsplit
      rw [if_pos hempty, if_pos (by omega), ← hsplit, List.length_singleton]
    · rw [if_neg hempty, splitOn_window hne]

def pageOf (digest : String) (text : Str) (startLine limit : ℕ) : FileReadRange :=
  .new (selectedText text ⟨startLine, limit⟩) digest (contentLines text).length ⟨startLine, limit⟩

theorem lines_pageOf (sha256 : String) (hstart : 1 ≤ startLine) (hlimit : 0 < limit) :
    (pageOf sha256 text startLine limit).lines = window text startLine limit := by
  have hreturned : (pageOf sha256 text startLine limit).returnedLines =
      (window text startLine limit).length :=
    countReturnedLines_selectedText hstart hlimit
  rw [FileReadRange.lines, hreturned]
  by_cases hempty : window text startLine limit = []
  · rw [hempty]
    rfl
  · rw [if_neg (by simpa using hempty)]
    exact (congrArg (List.splitOn '\n') (selectedText_eq hstart)).trans (splitOn_window hempty)

/-- The next page starts behind a full one, as long as lines are left. -/
theorem nextStartLine_pageOf (sha256 : String) (hstart : 1 ≤ startLine) (hlimit : 0 < limit) :
    (pageOf sha256 text startLine limit).nextStartLine =
      if startLine + limit ≤ (contentLines text).length then some
        (startLine + limit) else none := by
  have hreturned : countReturnedLines (selectedText text ⟨startLine, limit⟩)
    (contentLines text).length startLine =
      min limit ((contentLines text).length - (startLine - 1)) :=
    (countReturnedLines_selectedText hstart hlimit).trans length_window
  rw [pageOf, FileReadRange.new, hreturned]
  dsimp only
  by_cases hmore : startLine + limit ≤ (contentLines text).length
  · rw [if_pos hmore, min_eq_left (by omega), if_pos hlimit, Option.any_some,
      decide_eq_true (by omega), if_pos rfl, Option.map_some]
    exact congrArg some (by omega)
  · rw [if_neg hmore]
    by_cases hsome : 0 < min limit ((contentLines text).length - (startLine - 1))
    · rw [if_pos hsome, Option.any_some, decide_eq_false (by omega)]
      rfl
    · rw [if_neg hsome]
      rfl

/-- A reader that gives the bytes of the text, cut into any chunks. -/
def Reads (text : Str) (chunks : List Bytes) : Prop :=
  (∀ chunk ∈ chunks, chunk ≠ []) ∧ chunks.flatten = utf8Bytes text

/-- Reading a page of a file, which is opened again for every page. -/
def readPage (digest : Bytes → String) (reader : ℕ → List Bytes)
    (limit contentBudget startLine : ℕ) :
    Except ReadFileReason FileReadRange :=
  readRangeFromWithBudget digest ((reader startLine).map .ok) ⟨startLine, limit⟩ contentBudget

/-- The lines of a page are within the budget. -/
def Fits (text : Str) (startLine limit contentBudget : ℕ) : Prop :=
  utf8Len (selectedText text ⟨startLine, limit⟩) ≤ clampBudget contentBudget

instance : Decidable (Fits text startLine limit contentBudget) :=
    inferInstanceAs (Decidable (_ ≤ _))

variable {reader : ℕ → List Bytes} {pages : List FileReadRange}

theorem readPage_eq_ok (hreader : ∀ startLine, Reads text (reader startLine))
    {page : FileReadRange} :
    readPage digest reader limit contentBudget startLine = .ok page ↔
      Fits text startLine limit contentBudget ∧ page = pageOf
        (digest (utf8Bytes text)) text startLine limit := by
  obtain ⟨hchunks, hbytes⟩ := hreader startLine
  rw [readPage, readRangeFromWithBudget_eq_ok hchunks, hbytes]
  constructor
  · rintro ⟨_, hother, hfits, rfl⟩
    obtain rfl := Framing.utf8Bytes_injective hother
    exact ⟨hfits, rfl⟩
  · rintro ⟨hfits, rfl⟩
    exact ⟨text, rfl, hfits, rfl⟩

/-- Behind the end of the file there is nothing that could be too large. -/
theorem fits_of_past (h : (contentLines text).length < startLine) :
    Fits text startLine limit contentBudget := by
  have hempty : window text startLine limit = [] := by
    rw [← List.length_eq_zero_iff, length_window]
    omega
  rw [Fits, selectedText_eq (by omega), hempty]
  exact Nat.zero_le _

/-- A client that reaches the end has got every line from its start on, and all the pages were
within the budget. -/
theorem Paged.spec (hreader : ∀ startLine, Reads text (reader startLine)) (hlimit : 0 < limit)
    (h : Paged (readPage digest reader limit contentBudget) startLine pages)
    (hstart : 1 ≤ startLine) :
    pages.flatMap FileReadRange.lines = (contentLines text).drop (startLine - 1) ∧
      ∀ k, Fits text (startLine + k * limit) limit contentBudget := by
  induction h with
  | @last startLine page hread hnext =>
    obtain ⟨hfits, rfl⟩ := (readPage_eq_ok hreader).mp hread
    rw [nextStartLine_pageOf _ hstart hlimit] at hnext
    have hend : ¬ startLine + limit ≤ (contentLines text).length := fun hmore ↦ by
      rw [if_pos hmore] at hnext
      cases hnext
    refine ⟨?_, fun k ↦ ?_⟩
    · rw [List.flatMap_singleton, lines_pageOf _ hstart hlimit, window, List.take_of_length_le]
      rw [List.length_drop]
      omega
    · cases k with
      | zero => simpa using hfits
      | succ =>
        refine fits_of_past ?_
        rw [Nat.succ_mul]
        omega
  | @next startLine nextLine page pages hread hnext hpages ih =>
    obtain ⟨hfits, rfl⟩ := (readPage_eq_ok hreader).mp hread
    rw [nextStartLine_pageOf _ hstart hlimit] at hnext
    split_ifs at hnext with hmore
    obtain rfl := Option.some.inj hnext
    obtain ⟨hlines, hrest⟩ := ih (by omega)
    refine ⟨?_, fun k ↦ ?_⟩
    · rw [List.flatMap_cons, lines_pageOf _ hstart hlimit, hlines, window,
        show startLine + limit - 1 = startLine - 1 + limit by omega, ← List.drop_drop,
        List.take_append_drop]
    · cases k with
      | zero => simpa using hfits
      | succ k =>
        have := hrest k
        rwa [Nat.add_assoc, Nat.add_comm limit, ← Nat.succ_mul] at this

/-- Where all pages are within the budget, the client reaches the end. -/
theorem exists_paged (hreader : ∀ startLine, Reads text (reader startLine)) (hlimit : 0 < limit)
    (hstart : 1 ≤ startLine) (hfits : ∀ k, Fits text (startLine + k * limit) limit contentBudget) :
    ∃ pages, Paged (readPage digest reader limit contentBudget) startLine pages := by
  induction hleft : (contentLines text).length - startLine using Nat.strong_induction_on
      generalizing startLine with
  | _ _ ih =>
    have hread : readPage digest reader limit contentBudget startLine = .ok _ :=
      (readPage_eq_ok hreader).mpr ⟨by simpa using hfits 0, rfl⟩
    have hnext : (pageOf (digest (utf8Bytes text)) text startLine limit).nextStartLine = _ :=
      nextStartLine_pageOf _ hstart hlimit
    by_cases hmore : startLine + limit ≤ (contentLines text).length
    · have hfits' : ∀ k, Fits text (startLine + limit + k * limit) limit contentBudget := by
        intro k
        have hlater := hfits (k + 1)
        rwa [Nat.succ_mul, Nat.add_comm (k * limit), ← Nat.add_assoc] at hlater
      obtain ⟨pages, hpages⟩ := ih _ (by omega) (by omega) hfits' rfl
      rw [if_pos hmore] at hnext
      exact ⟨_, .next hread hnext hpages⟩
    · rw [if_neg hmore] at hnext
      exact ⟨_, .last hread hnext⟩

/-- A client that starts at the first line and goes on as the answers say reaches the end just when
every page is within the budget, and then it has got every line of the file once. -/
theorem paging_covers_file (digest : Bytes → String) (text : Str) (reader : ℕ → List Bytes)
    (hreader : ∀ startLine, Reads text (reader startLine)) {limit : ℕ} (hlimit : 0 < limit)
    (contentBudget : ℕ) :
    ((∃ pages, Paged (readPage digest reader limit contentBudget) 1 pages) ↔
        ∀ k, Fits text (1 + k * limit) limit contentBudget) ∧
      ∀ pages, Paged (readPage digest reader limit contentBudget) 1 pages →
        pages.flatMap FileReadRange.lines = contentLines text := by
  refine ⟨⟨?_, exists_paged hreader hlimit le_rfl⟩, fun pages hpages ↦ ?_⟩
  · rintro ⟨pages, hpages⟩
    exact (hpages.spec hreader hlimit le_rfl).2
  · simpa using (hpages.spec hreader hlimit le_rfl).1

/-- A file with empty lines, page by page. -/
theorem empty_lines_are_paged :
    ∃ pages, Paged (readPage (fun _ ↦ "") (fun _ ↦ [utf8Bytes "\n\na\n".toList]) 1 10) 1 pages ∧
      pages.flatMap FileReadRange.lines = [[], [], ['a']] := by
  have hreader : ∀ _ : ℕ, Reads "\n\na\n".toList [utf8Bytes "\n\na\n".toList] :=
    fun _ ↦ ⟨by decide, by decide⟩
  have hfits : ∀ k, Fits "\n\na\n".toList (1 + k * 1) 1 10
    | 0 => by decide
    | 1 => by decide
    | 2 => by decide
    | k + 3 => fits_of_past (by
      have hthree : (contentLines "\n\na\n".toList).length = 3 := by decide
      omega)
  obtain ⟨hends, hlines⟩ := paging_covers_file (fun _ ↦ "") _ (fun _ ↦ _) hreader Nat.one_pos 10
  obtain ⟨pages, hpages⟩ := hends.mpr hfits
  exact ⟨pages, hpages, (hlines pages hpages).trans (by decide)⟩

theorem utf8Len_replicate (n : ℕ) : utf8Len (List.replicate n 'x') = n := by
  induction n with
  | zero => rfl
  | succ _ ih => rw [List.replicate_succ, String.utf8Len_cons, ih]; rfl

theorem contentLines_replicate {n : ℕ} (h : n ≠ 0) :
    contentLines (List.replicate n 'x') = [List.replicate n 'x'] := by
  have hnewline : '\n' ∉ List.replicate n 'x' := fun hmem ↦ absurd (List.eq_of_mem_replicate hmem)
    (by decide)
  have hreturn : (List.replicate n 'x').getLast? ≠ some '\r' := fun hlast ↦
    absurd (List.eq_of_mem_replicate (List.mem_of_getLast? hlast)) (by decide)
  rw [contentLines, segments, List.splitOn_eq_singleton hnewline]
  simp [withOpen, h, strip, hreturn]

/-- A line that is longer than the budget keeps a client from the end. -/
theorem not_paged_of_long_line {n : ℕ} (h : maxRangeContentBytes < n) :
    ¬ ∃ pages, Paged (readPage (fun _ ↦ "") (fun _ ↦ [utf8Bytes (List.replicate n 'x')]) 1
      maxRangeContentBytes) 1 pages := by
  have hne : n ≠ 0 := by omega
  have hreader : ∀ _ : ℕ, Reads (List.replicate n 'x') [utf8Bytes (List.replicate n 'x')] := by
    refine fun _ ↦ ⟨fun _ hchunk ↦ ?_, by simp⟩
    rw [List.mem_singleton.mp hchunk, ne_eq, Utf8.utf8Bytes_eq_nil, List.replicate_eq_nil_iff]
    exact hne
  rintro ⟨pages, hpages⟩
  have hfits := (hpages.spec hreader Nat.one_pos le_rfl).2 0
  rw [Fits, selectedText_eq (by omega), window, contentLines_replicate hne] at hfits
  have hlength : utf8Len (List.replicate n 'x') ≤ clampBudget maxRangeContentBytes := by
    simpa using hfits
  rw [utf8Len_replicate, clampBudget, min_self] at hlength
  omega

/-- A file of one line that is a byte longer than the largest budget. -/
theorem long_line_is_never_paged :
    ¬ ∃ pages, Paged
      (readPage (fun _ ↦ "") (fun _ ↦ [utf8Bytes (List.replicate (192 * 1024 + 1) 'x')]) 1
        maxRangeContentBytes) 1 pages :=
  not_paged_of_long_line (Nat.lt_succ_self _)

end WebCodex.FileRead
