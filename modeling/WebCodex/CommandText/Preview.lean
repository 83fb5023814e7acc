import WebCodex.Registry.TerminalRecords

/-!
What the audit trail and the activity view show of a command is the first line of its text
(`command_preview`), and of a process its arguments on one line (`process_preview`), both cut behind
`COMMAND_PREVIEW_MAX_CHARS` characters and redacted when they look like a secret. A preview travels
with a job, and the registry refuses a job whose preview is not its own `command_preview`.
-/

namespace WebCodex.CommandText

open Foundation Foundation.Text
open Registry (commandPreviewMaxChars Checks ShellJobContext TerminalJobReceipt validateContext)

def webcodexSecretPrefixes : List String :=
  ["wc_pat_", "wc_agent_", "wc_acct_", "wc_oat_", "wc_ort_", "wc_csec_", "wc_pair_", "wc_boot_"]

def secretLikeValue (value : Str) : Bool :=
  let lower := value.map Char.toLower
  (["-----begin", "bearer ", "api_key", "token=", "id_rsa", "id_ed25519"] ++
    webcodexSecretPrefixes).any fun pattern ↦ decide (pattern.toList <:+: lower)

def redacted : Str := "[redacted]".toList

def commandPreview (command : Str) : Str :=
  let firstLine := trim ((lines command).head?.getD [])
  if secretLikeValue firstLine then redacted
  else if firstLine.length ≤ commandPreviewMaxChars then firstLine
  else firstLine.take commandPreviewMaxChars ++ ['…']

variable (letters : Char → Bool)

/-- `char::is_alphanumeric`. Beyond ASCII the Unicode tables decide, and white space is not in
them. -/
def isAlphanumeric (c : Char) : Bool :=
  if c.toNat < 128 then c.isAlphanum else !isWhitespace c && letters c

def isSimple (value : Str) : Bool := !value.isEmpty && value.all fun c ↦
    isAlphanumeric letters c || ['_', '-', '.', '/', '\\'].contains c

/-- Adds a character to a summary that is not full. A full summary ends the loop. -/
def push (summary : Str) (character : Char) : Except Str Str :=
  if summary.length ≥ commandPreviewMaxChars then .error summary else .ok (summary ++ [character])

def shownCharacter (simple : Bool) (c : Char) : Str :=
  if c == '"' then ['\\', '"']
  else if c == '\\' && !simple then ['\\', '\\']
  else [if isControl c then '\uFFFD' else c]

def pushValue (summary value : Str) : Except Str Str := do
  let summary ← if summary.isEmpty then .ok summary else push summary ' '
  let simple := isSimple letters value
  let summary ← if simple then .ok summary else push summary '"'
  let summary ← value.foldlM (fun summary c ↦ (shownCharacter simple c).foldlM push summary) summary
  if simple then .ok summary else push summary '"'

/-- The summary of a process, and whether it was cut. -/
def processSummary (executable : Str) (args : List Str) : Str × Bool :=
  match (executable :: args).foldlM (pushValue letters) [] with
  | .ok summary => (summary, false)
  | .error summary => (summary, true)

def processPreview (executable : Str) (args : List Str) : Str :=
  let (summary, truncated) := processSummary letters executable args
  if secretLikeValue summary then redacted
  else if truncated then summary ++ ['…'] else summary

/-- A text on one trimmed line that looks like no secret, and is within the bound or was cut
there. -/
structure Canonical (text : Str) : Prop where
  oneLine : '\n' ∉ text
  trimmed : trim text = text
  clean : secretLikeValue text = false
  bounded : text.length ≤ commandPreviewMaxChars ∨
    ∃ front, front.length = commandPreviewMaxChars ∧ text = front ++ ['…']

theorem secretLikeValue_mono {part whole : Str} (hpart : part <:+: whole)
    (hclean : secretLikeValue whole = false) : secretLikeValue part = false := by
  simp only [secretLikeValue, List.any_eq_false, decide_eq_true_eq] at hclean ⊢
  exact fun pattern hpattern hmem ↦ hclean pattern hpattern (hmem.trans (hpart.map _))

/-- No pattern of a secret holds the ellipsis, so that appending it cannot complete one. -/
theorem secretLikeValue_append_ellipsis {text : Str} (hclean : secretLikeValue text = false) :
    secretLikeValue (text ++ ['…']) = false := by
  simp only [secretLikeValue, List.any_eq_false, decide_eq_true_eq] at hclean ⊢
  intro pattern hpattern hmem
  rw [List.map_append, List.map_singleton, List.infix_concat_iff, List.suffix_concat_iff] at hmem
  obtain (hempty | ⟨front, hfront, -⟩) | hpart := hmem
  · exact hclean pattern hpattern (hempty ▸ List.nil_infix)
  · have hnone : ∀ pattern ∈ ["-----begin", "bearer ", "api_key", "token=", "id_rsa",
        "id_ed25519"] ++ webcodexSecretPrefixes, pattern.toList.getLast? ≠ some '…' := by decide
    refine hnone pattern hpattern ?_
    rw [hfront]
    exact List.getLast?_concat
  · exact hclean pattern hpattern hpart

/-! ### The first line -/

theorem splitInclusive_of_notMem {text : Str} (hline : '\n' ∉ text) (hne : text ≠ []) :
    splitInclusive text = [text] := by
  induction text with
  | nil => exact absurd rfl hne
  | cons _ text ih =>
    simp only [List.mem_cons, not_or] at hline
    rw [splitInclusive_cons_of_ne (fun hsame ↦ hline.1 hsame.symm)]
    rcases eq_or_ne text [] with rfl | hrest
    · rfl
    · rw [ih hline.2 hrest]
      rfl

/-- A text without line feeds is its own first line. -/
theorem head?_lines_of_notMem {text : Str} (hline : '\n' ∉ text) :
    (lines text).head?.getD [] = text := by
  rcases eq_or_ne text [] with rfl | hne
  · rfl
  · have hlast : text.getLast? ≠ some '\n' := fun hlast ↦ hline (List.mem_of_getLast? hlast)
    rw [lines, splitInclusive_of_notMem hline hne, List.map_singleton, stripLineEnding,
      if_neg hlast]
    rfl

/-- A piece holds no line feed before its end. -/
theorem notMem_of_mem_head?_splitInclusive {text piece : Str}
    (hpiece : piece ∈ (splitInclusive text).head?) :
    '\n' ∉ piece ∨ ∃ front, '\n' ∉ front ∧ piece = front ++ ['\n'] := by
  induction text generalizing piece with
  | nil => simp [splitInclusive] at hpiece
  | cons c text ih =>
    by_cases hc : c = '\n'
    · subst hc
      rw [splitInclusive_cons_newline, List.head?_cons, Option.mem_some_iff] at hpiece
      exact Or.inr ⟨[], by simp, hpiece.symm⟩
    · have hne : '\n' ≠ c := fun hsame ↦ hc hsame.symm
      rw [splitInclusive_cons_of_ne hc] at hpiece
      cases hpieces : splitInclusive text with
      | nil =>
        rw [hpieces, List.head?_cons, Option.mem_some_iff] at hpiece
        exact Or.inl (by simp [← hpiece, hne])
      | cons first =>
        rw [hpieces, List.head?_cons, Option.mem_some_iff] at hpiece
        have hhead : first ∈ (splitInclusive text).head? := by
          rw [hpieces]
          rfl
        rcases ih hhead with hfirst | ⟨front, hfront, hfirst⟩
        · exact Or.inl (by simp [← hpiece, hne, hfirst])
        · refine Or.inr ⟨c :: front, by simp [hne, hfront], ?_⟩
          rw [← hpiece, hfirst]
          rfl

theorem notMem_stripLineEnding {piece : Str}
    (h : '\n' ∉ piece ∨ ∃ front, '\n' ∉ front ∧ piece = front ++ ['\n']) :
    '\n' ∉ stripLineEnding piece := by
  unfold stripLineEnding
  obtain hnone | ⟨front, hfront, rfl⟩ := h
  · rwa [if_neg fun hlast ↦ hnone (List.mem_of_getLast? hlast)]
  · rw [if_pos List.getLast?_concat, List.dropLast_concat, stripSuffixChar]
    split_ifs
    · exact fun hmem ↦ hfront (List.mem_of_mem_dropLast hmem)
    · exact hfront

theorem notMem_head?_lines (text : Str) : '\n' ∉ (lines text).head?.getD [] := by
  rw [lines, List.head?_map]
  cases hpiece : (splitInclusive text).head? with
  | none => simp
  | some => exact notMem_stripLineEnding (notMem_of_mem_head?_splitInclusive hpiece)

theorem Canonical.commandPreview_eq {text : Str} (h : Canonical text) :
    commandPreview text = text := by
  have hfirst : trim ((lines text).head?.getD []) = text := by
    rw [head?_lines_of_notMem h.oneLine, h.trimmed]
  rw [commandPreview, hfirst, h.clean, if_neg Bool.false_ne_true]
  obtain hfits | ⟨front, hlength, rfl⟩ := h.bounded
  · exact if_pos hfits
  · rw [if_neg (by simp [hlength]), List.take_left' hlength]

theorem canonical_redacted : Canonical redacted where
  oneLine := by decide
  trimmed := rfl
  clean := by decide
  bounded := Or.inl (by decide)

/-- A trimmed line that looks like no secret, cut at the bound, is canonical. -/
theorem canonical_cut {line : Str} (hline : '\n' ∉ line)
    (hstart : ∀ c ∈ line.head?, isWhitespace c = false)
    (hclean : secretLikeValue (line.take commandPreviewMaxChars) = false)
    (hlong : commandPreviewMaxChars < line.length) :
    Canonical (line.take commandPreviewMaxChars ++ ['…']) where
  oneLine := by
    rw [List.mem_append, not_or]
    exact ⟨fun hmem ↦ hline (List.mem_of_mem_take hmem), by decide⟩
  trimmed := by
    refine trim_eq_self_iff.mpr ⟨?_, ?_⟩
    · obtain ⟨c, _, rfl⟩ := List.exists_cons_of_length_pos (Nat.zero_lt_of_lt hlong)
      simpa [commandPreviewMaxChars] using hstart
    · simp only [List.getLast?_concat, Option.mem_some_iff, forall_eq']
      decide
  clean := secretLikeValue_append_ellipsis hclean
  bounded := Or.inr ⟨_, List.length_take_of_le hlong.le, rfl⟩

theorem canonical_commandPreview (command : Str) : Canonical (commandPreview command) := by
  unfold commandPreview
  generalize hfirst : trim ((lines command).head?.getD []) = firstLine
  have htrimmed : trim firstLine = firstLine := by rw [← hfirst, trim_trim]
  have hline : '\n' ∉ firstLine := by
    rw [← hfirst]
    exact fun hmem ↦ notMem_head?_lines command
      ((List.rdropWhile_prefix _ _).subset ((List.dropWhile_suffix _).subset hmem))
  dsimp only
  split_ifs with hsecret hfits
  · exact canonical_redacted
  · exact ⟨hline, htrimmed, Bool.not_eq_true _ ▸ hsecret, Or.inl hfits⟩
  · rw [Bool.not_eq_true] at hsecret
    exact canonical_cut hline (trim_eq_self_iff.mp htrimmed).1
      (secretLikeValue_mono (List.take_prefix _ _).isInfix hsecret) (Nat.lt_of_not_le hfits)

/-! ### The summary of a process -/

/-- Adding characters until the summary is full keeps as many of them as fit. -/
theorem foldlM_push {summary : Str} (hfits : summary.length ≤ commandPreviewMaxChars) (text : Str) :
    text.foldlM push summary =
      if (summary ++ text).length ≤ commandPreviewMaxChars then .ok (summary ++ text)
      else .error ((summary ++ text).take commandPreviewMaxChars) := by
  induction text generalizing summary with
  | nil => simp [hfits, pure, Except.pure]
  | cons _ _ ih =>
    rw [List.foldlM_cons, push]
    split_ifs with hfull hall hall
    · rw [List.length_append, List.length_cons] at hall
      omega
    · rw [error_bind, List.take_left' (by omega)]
    · rw [ok_bind, ih (by rw [List.length_append, List.length_singleton]; omega),
        if_pos (by simpa using hall)]
      simp
    · rw [ok_bind, ih (by rw [List.length_append, List.length_singleton]; omega),
        if_neg (by simpa using hall)]
      simp

/-- What a value would be shown as with room for all of it. -/
def shownValue (first : Bool) (value : Str) : Str :=
  let simple := isSimple letters value
  let mark := if simple then [] else ['"']
  (if first then [] else [' ']) ++ (mark ++ (value.flatMap (shownCharacter simple) ++ mark))

theorem foldlM_flatMap {A B : Type} (f : A → List B) (step : Str → B → Except Str Str)
    (items : List A) (summary : Str) : (items.flatMap f).foldlM step summary =
      items.foldlM (fun summary item ↦ (f item).foldlM step summary) summary := by
  induction items generalizing summary with
  | nil => rfl
  | cons _ _ ih =>
    rw [List.flatMap_cons, List.foldlM_append, List.foldlM_cons]
    exact bind_congr fun summary ↦ ih summary

theorem pushValue_eq (letters : Char → Bool) (summary value : Str) :
    pushValue letters summary value = (shownValue letters summary.isEmpty value).foldlM push
      summary := by
  have hsingle (text : Str) (c : Char) : [c].foldlM push text = push text c := bind_pure _
  have hend (x : Except Str Str) : (do let summary ← x; .ok summary) = x := bind_pure x
  unfold pushValue shownValue
  cases summary.isEmpty <;> cases isSimple letters value <;>
    simp [List.foldlM_append, hsingle, foldlM_flatMap, ok_bind, hend]

/-- What a process would be shown as with room for all of it. -/
def shownProcess (letters : Char → Bool) (executable : Str) (args : List Str) : Str :=
  shownValue letters true executable ++ args.flatMap (shownValue letters false)

theorem eq_of_push {summary after : Str} {c : Char} (hpush : push summary c = .ok after) :
    after = summary ++ [c] := by
  rw [push] at hpush
  split_ifs at hpush
  exact (Except.ok.inj hpush).symm

theorem foldlM_push_eq_ok {summary after text : Str}
    (hpush : text.foldlM push summary = .ok after) :
    after = summary ++ text := by
  induction text generalizing summary with
  | nil => simpa using (Except.ok.inj hpush).symm
  | cons _ _ ih =>
    rw [List.foldlM_cons] at hpush
    obtain ⟨_, hnext, hrest⟩ := bind_eq_ok.mp hpush
    rw [ih hrest, eq_of_push hnext, List.append_assoc, List.singleton_append]

/-- Behind a value the summary is not empty, and so every further value gets a blank in front. -/
theorem foldlM_pushValue {letters : Char → Bool} {summary : Str} (hne : summary ≠ [])
    (args : List Str) :
    args.foldlM (pushValue letters) summary =
      (args.flatMap (shownValue letters false)).foldlM push summary := by
  have hempty {summary : Str} (hne : summary ≠ []) : summary.isEmpty = false := by simpa using hne
  induction args generalizing summary with
  | nil => rfl
  | cons value _ ih =>
    rw [List.foldlM_cons, List.flatMap_cons, List.foldlM_append, pushValue_eq, hempty hne]
    cases hvalue : (shownValue letters false value).foldlM push summary with
    | error => rfl
    | ok =>
      refine ih ?_
      rw [foldlM_push_eq_ok hvalue]
      exact List.append_ne_nil_of_left_ne_nil hne _

theorem shownValue_ne_nil (letters : Char → Bool) (value : Str) :
    shownValue letters true value ≠ [] := by
  unfold shownValue
  cases hsimple : isSimple letters value with
  | false => simp
  | true =>
    rw [isSimple, Bool.and_eq_true] at hsimple
    obtain ⟨_, _, rfl⟩ := List.exists_cons_of_ne_nil (by simpa using hsimple.1 : value ≠ [])
    simp only [if_true, List.nil_append, List.append_nil, List.flatMap_cons, shownCharacter]
    split_ifs <;> simp

theorem processSummary_eq (letters : Char → Bool) (executable : Str) (args : List Str) :
    processSummary letters executable args =
      if (shownProcess letters executable args).length ≤ commandPreviewMaxChars then
        (shownProcess letters executable args, false)
      else ((shownProcess letters executable args).take commandPreviewMaxChars, true) := by
  have hloop : (executable :: args).foldlM (pushValue letters) [] =
      (shownProcess letters executable args).foldlM push [] := by
    rw [List.foldlM_cons, shownProcess, List.foldlM_append, pushValue_eq]
    cases hvalue : (shownValue letters true executable).foldlM push [] with
    | error =>
      rw [show List.isEmpty ([] : Str) = true from rfl, hvalue]
      rfl
    | ok =>
      rw [show List.isEmpty ([] : Str) = true from rfl, hvalue, ok_bind, ok_bind]
      refine foldlM_pushValue ?_ args
      rw [foldlM_push_eq_ok hvalue]
      exact shownValue_ne_nil letters executable
  rw [processSummary, hloop, foldlM_push (Nat.zero_le _), List.nil_append]
  split_ifs <;> rfl

/-! ### What a process is shown as -/

theorem isWhitespace_of_isAlphanumeric {letters : Char → Bool} {c : Char}
    (hc : isAlphanumeric letters c = true) : isWhitespace c = false := by
  unfold isAlphanumeric at hc
  split_ifs at hc with hascii
  · have htable : ∀ n < 128, (Char.ofNat n).isAlphanum = true →
        isWhitespace (Char.ofNat n) = false := by
      decide
    rw [← Char.ofNat_toNat c] at hc ⊢
    exact htable c.toNat hascii hc
  · rw [Bool.and_eq_true, Bool.not_eq_true'] at hc
    exact hc.1

theorem isWhitespace_of_isSimple {letters : Char → Bool} {value : Str}
    (hsimple : isSimple letters value = true)
    {c : Char} (hc : c ∈ value.flatMap (shownCharacter true)) : isWhitespace c = false := by
  obtain ⟨shown, hshown, hmem⟩ := List.mem_flatMap.mp hc
  have hkept := List.all_eq_true.mp (Bool.and_eq_true _ _ ▸ hsimple).2 shown hshown
  rw [Bool.or_eq_true] at hkept
  have hwhite : isWhitespace shown = false := by
    obtain hletter | hmark := hkept
    · exact isWhitespace_of_isAlphanumeric hletter
    · have hmarks : (['_', '-', '.', '/', '\\'].all fun mark ↦ !isWhitespace mark) = true := by
        decide
      simpa using List.all_eq_true.mp hmarks shown (List.contains_iff_mem.mp hmark)
  unfold shownCharacter at hmem
  split_ifs at hmem with hquote hslash hcontrol
  · have hescaped : (['\\', '"'].all fun c ↦ !isWhitespace c) = true := by decide
    simpa using List.all_eq_true.mp hescaped c hmem
  · simp at hslash
  · rw [List.mem_singleton.mp hmem]
    decide
  · rw [List.mem_singleton.mp hmem, hwhite]

theorem notMem_shownCharacter (simple : Bool) (c : Char) : '\n' ∉ shownCharacter simple c := by
  unfold shownCharacter
  split_ifs with hquote hslash hcontrol
  · decide
  · decide
  · decide
  · rw [List.mem_singleton]
    rintro rfl
    exact hcontrol rfl

theorem notMem_shownValue (first : Bool) (value : Str) : '\n' ∉ shownValue letters first value := by
  have hvalue (simple : Bool) : '\n' ∉ value.flatMap (shownCharacter simple) := by
    rw [List.mem_flatMap]
    rintro ⟨c, -, hmem⟩
    exact notMem_shownCharacter simple c hmem
  unfold shownValue
  cases first <;> cases isSimple letters value <;> simp [hvalue]

theorem notMem_shownProcess (executable : Str) (args : List Str) :
    '\n' ∉ shownProcess letters executable args := by
  rw [shownProcess, List.mem_append, List.mem_flatMap, not_or]
  refine ⟨notMem_shownValue letters true executable, ?_⟩
  rintro ⟨value, -, hmem⟩
  exact notMem_shownValue letters false value hmem

/-- A value ends with a character that is not white space. -/
theorem exists_getLast?_shownValue (first : Bool) (value : Str) :
    ∃ c, (shownValue letters first value).getLast? = some c ∧ isWhitespace c = false := by
  cases hsimple : isSimple letters value with
  | false =>
    refine ⟨'"', ?_, by decide⟩
    simp [shownValue, hsimple, List.getLast?_append, List.getLast?_cons]
  | true =>
    have hne : value.flatMap (shownCharacter true) ≠ [] := by
      simpa [shownValue, hsimple] using shownValue_ne_nil letters value
    obtain ⟨c, hc⟩ := Option.isSome_iff_exists.mp (List.getLast?_isSome.mpr hne)
    refine ⟨c, ?_, isWhitespace_of_isSimple hsimple (List.mem_of_getLast? hc)⟩
    simp [shownValue, hsimple, List.getLast?_append, hc]

theorem isWhitespace_head?_shownValue (letters : Char → Bool) (value : Str) :
    ∀ c ∈ (shownValue letters true value).head?, isWhitespace c = false := by
  cases hsimple : isSimple letters value with
  | false =>
    intro c hc
    simp only [shownValue, hsimple] at hc
    rw [← Option.mem_some_iff.mp hc]
    decide
  | true =>
    intro c hc
    refine isWhitespace_of_isSimple hsimple ?_
    simpa [shownValue, hsimple] using List.mem_of_head? hc

theorem trim_shownProcess (letters : Char → Bool) (executable : Str) (args : List Str) :
    trim (shownProcess letters executable args) = shownProcess letters executable args := by
  refine trim_eq_self_iff.mpr ⟨?_, ?_⟩
  · rw [shownProcess, List.head?_append_of_ne_nil _ (shownValue_ne_nil letters executable)]
    exact isWhitespace_head?_shownValue letters executable
  · have hlast : ∃ c, (shownProcess letters executable args).getLast? = some c ∧
        isWhitespace c = false := by
      unfold shownProcess
      rcases List.eq_nil_or_concat args with rfl | ⟨front, value, rfl⟩
      · simpa using exists_getLast?_shownValue letters true executable
      · obtain ⟨c, hc, hwhite⟩ := exists_getLast?_shownValue letters false value
        exact ⟨c, by simp [List.getLast?_append, hc], hwhite⟩
    obtain ⟨c, hc, hwhite⟩ := hlast
    rw [hc]
    rintro _ ⟨⟩
    exact hwhite

theorem canonical_processPreview (letters : Char → Bool) (executable : Str) (args : List Str) :
    Canonical (processPreview letters executable args) := by
  have htrimmed := trim_shownProcess letters executable args
  have hline := notMem_shownProcess letters executable args
  rw [processPreview, processSummary_eq]
  generalize shownProcess letters executable args = shown at htrimmed hline ⊢
  by_cases hfits : shown.length ≤ commandPreviewMaxChars
  · rw [if_pos hfits]
    dsimp only
    rw [if_neg Bool.false_ne_true]
    split_ifs with hsecret
    · exact canonical_redacted
    · exact ⟨hline, htrimmed, Bool.not_eq_true _ ▸ hsecret, Or.inl hfits⟩
  · rw [if_neg hfits]
    dsimp only
    rw [if_pos rfl]
    split_ifs with hsecret
    · exact canonical_redacted
    · rw [Bool.not_eq_true] at hsecret
      exact canonical_cut hline (trim_eq_self_iff.mp htrimmed).1 hsecret (Nat.lt_of_not_le hfits)

theorem Canonical.length_le {text : Str} (h : Canonical text) :
    text.length ≤ commandPreviewMaxChars + 1 := by
  obtain hfits | ⟨front, hlength, rfl⟩ := h.bounded
  · exact Nat.le_succ_of_le hfits
  · rw [List.length_append, hlength, List.length_singleton]

/-! ### The checks of the registry -/

/-- The answers of the core crate, with `command_preview` for the canonical preview. -/
def previewChecks (checks : Checks) : Checks :=
  { checks with commandPreview := fun text ↦ String.ofList (commandPreview text.toList) }

/-- The comparison of a preview with its own preview, and of its length with the bound, succeeds. -/
theorem Canonical.accepted {text : Str} (h : Canonical text) (checks : Checks) :
    (previewChecks checks).commandPreview (String.ofList text) = String.ofList text ∧
      (String.ofList text).length ≤ commandPreviewMaxChars + 1 := by
  refine ⟨?_, ?_⟩
  · simp [previewChecks, h.commandPreview_eq]
  · rw [String.length_ofList]
    exact h.length_le

theorem canonical_nil : Canonical [] where
  oneLine := List.not_mem_nil
  trimmed := rfl
  clean := by decide
  bounded := Or.inl (Nat.zero_le _)

def withPreview (context : ShellJobContext) (preview : Str) : ShellJobContext :=
  { context with commandPreview := String.ofList preview }

def receiptWithPreview (receipt : TerminalJobReceipt) (preview : Str) : TerminalJobReceipt :=
  { receipt with snapshot.context := withPreview receipt.snapshot.context preview }

/-- The check of a job's context sees no difference between a canonical preview and an empty one. -/
theorem validateContext_of_canonical {text : Str} (h : Canonical text) (checks : Checks)
    (clientId : String) (context : ShellJobContext) :
    validateContext (previewChecks checks) clientId (withPreview context text) =
      validateContext (previewChecks checks) clientId (withPreview context []) := by
  have haccepts (text : Str) (h : Canonical text) :
      ((previewChecks checks).commandPreview (withPreview context text).commandPreview !=
          (withPreview context text).commandPreview ||
        decide ((withPreview context text).commandPreview.length > commandPreviewMaxChars + 1)) =
            false := by
    obtain ⟨hsame, hlength⟩ := h.accepted checks
    rw [withPreview, hsame, bne_self_eq_false, Bool.false_or, decide_eq_false_iff_not]
    exact Nat.not_lt_of_le hlength
  rw [validateContext, haccepts text h, validateContext, haccepts [] canonical_nil]
  rfl

/-- The check of a receipt's context sees no difference between a canonical preview and an empty
one. -/
theorem contextIsValid_of_canonical {text : Str} (h : Canonical text) (checks : Checks)
    (receipt : TerminalJobReceipt) :
    (receiptWithPreview receipt text).contextIsValid (previewChecks checks) =
      (receiptWithPreview receipt []).contextIsValid (previewChecks checks) := by
  have haccepts (text : Str) (h : Canonical text) :
      ((previewChecks checks).commandPreview (receiptWithPreview receipt
        text).snapshot.context.commandPreview ==
          (receiptWithPreview receipt text).snapshot.context.commandPreview &&
        decide ((receiptWithPreview receipt text).snapshot.context.commandPreview.length ≤
          commandPreviewMaxChars + 1)) = true := by
    obtain ⟨hsame, hlength⟩ := h.accepted checks
    rw [receiptWithPreview, withPreview, hsame, BEq.rfl, Bool.true_and, decide_eq_true_eq]
    exact hlength
  simp only [TerminalJobReceipt.contextIsValid]
  rw [haccepts text h, haccepts [] canonical_nil]
  rfl

/-- A preview of a command or of a process, whatever characters the Unicode tables take for letters,
is its own preview, on one line, within the bound and not like a secret, and the checks of the
registry on the context of a job, from an inventory or from a receipt, see no difference between it
and an empty preview. -/
theorem preview_is_its_own_preview (letters : Char → Bool) (command executable : Str)
    (args : List Str) (checks : Checks) :
    ∀ preview ∈ [commandPreview command, processPreview letters executable args],
      commandPreview preview = preview ∧ '\n' ∉ preview ∧
        preview.length ≤ commandPreviewMaxChars + 1 ∧
        secretLikeValue preview = false ∧
        (∀ clientId context,
          validateContext (previewChecks checks) clientId (withPreview context preview) =
            validateContext (previewChecks checks) clientId (withPreview context [])) ∧
        ∀ receipt, (receiptWithPreview receipt preview).contextIsValid (previewChecks checks) =
          (receiptWithPreview receipt []).contextIsValid (previewChecks checks) := by
  intro preview hpreview
  have hcanonical : Canonical preview := by
    simp only [List.mem_cons, List.not_mem_nil, or_false] at hpreview
    obtain rfl | rfl := hpreview
    · exact canonical_commandPreview command
    · exact canonical_processPreview letters executable args
  exact ⟨hcanonical.commandPreview_eq, hcanonical.oneLine, hcanonical.length_le, hcanonical.clean,
    validateContext_of_canonical hcanonical checks, contextIsValid_of_canonical hcanonical checks⟩

/-- A process with an argument that is shown in quotes. -/
theorem quoted_argument_is_its_own_preview :
    processPreview (fun _ ↦ false) "git".toList ["two words".toList] ∈
        [commandPreview [], processPreview (fun _ ↦ false) "git".toList ["two words".toList]] ∧
      commandPreview (processPreview (fun _ ↦ false) "git".toList ["two words".toList]) =
        processPreview (fun _ ↦ false) "git".toList ["two words".toList] := by
  have hmem : processPreview (fun _ ↦ false) "git".toList ["two words".toList] ∈
      [commandPreview [], processPreview (fun _ ↦ false) "git".toList ["two words".toList]] :=
    List.mem_cons_of_mem _ List.mem_cons_self
  exact ⟨hmem, (preview_is_its_own_preview (fun _ ↦ false) [] "git".toList ["two words".toList]
    Registry.plainChecks _ hmem).1⟩

end WebCodex.CommandText
