import Mathlib.Data.List.Forall2
import WebCodex.Foundation.ShellWords

/-!
`shell_escape_simple` puts a value into single quotes, and each single quote of the value between
the end of one quoted part and the start of the next, behind a backslash. A POSIX shell reads the
result as one word, the value, whatever commands surround it (`shell_word_is_value`). The tools
for hunks run `git diff` through a shell, with the commits and the paths of the caller quoted, so
the program gets the arguments that are meant (`diff_commands_pass_arguments`).
-/

namespace WebCodex.CommandText

open Foundation.Text Foundation.ShellWords

def shellEscapeSimple (value : Str) : Str :=
  let out := value.foldl (fun out character ↦
    if character == '\'' then out ++ "'\\''".toList else out ++ [character]) ['\'']
  out ++ ['\'']

/-- What a character of a value becomes between the quotes. -/
def escapedCharacter (character : Char) : Str :=
  if character == '\'' then "'\\''".toList else [character]

theorem shellEscapeSimple_eq (value : Str) :
    shellEscapeSimple value = '\'' :: (value.flatMap escapedCharacter ++ ['\'']) := by
  have hloop (out : Str) : value.foldl (fun out character ↦
      if character == '\'' then out ++ "'\\''".toList else out ++ [character]) out =
        out ++ value.flatMap escapedCharacter := by
    induction value generalizing out with
    | nil => simp
    | cons _ _ ih =>
      rw [List.foldl_cons, ih, List.flatMap_cons, escapedCharacter]
      split_ifs <;> simp
  rw [shellEscapeSimple, hloop]
  simp

def literal (c : Char) : Char × Protection := (c, .literal)

/-- Inside single quotes an escaped character adds the character to the word and leaves the reader
inside single quotes. -/
theorem run_escapedCharacter (characters : List (Char × Protection)) (complete : List Token)
    (c : Char) :
    Reader.run ⟨.single, some characters, complete⟩ (escapedCharacter c) =
      ⟨.single, some (characters ++ [literal c]), complete⟩ := by
  unfold escapedCharacter
  split_ifs with hquote
  · rw [beq_iff_eq] at hquote
    subst hquote
    rfl
  · simp only [Reader.run, List.foldl_cons, List.foldl_nil, Reader.step]
    rw [if_neg hquote]
    rfl

theorem run_escapedCharacters (characters : List (Char × Protection)) (complete : List Token)
    (value : Str) :
    Reader.run ⟨.single, some characters, complete⟩ (value.flatMap escapedCharacter) =
      ⟨.single, some (characters ++ value.map literal), complete⟩ := by
  induction value generalizing characters with
  | nil => simp [Reader.run]
  | cons _ _ ih =>
    rw [List.flatMap_cons, Reader.run_append, run_escapedCharacter, ih, List.append_assoc]
    rfl

/-- Outside quotes, a quoted value is read as the rest of a word. -/
theorem run_shellEscapeSimple_behind (front : Option (List (Char × Protection))) (value : Str) :
    Reader.run { word := front } (shellEscapeSimple value) =
      { word := some (front.getD [] ++ value.map literal) } := by
  have hstart : Reader.step { word := front } '\'' = ⟨.single, some (front.getD []), []⟩ := rfl
  have hend (characters : List (Char × Protection)) :
      Reader.step ⟨.single, some characters, []⟩ '\'' = { word := some characters } := rfl
  rw [shellEscapeSimple_eq, Reader.run_cons, hstart, Reader.run_append, run_escapedCharacters,
    Reader.run_cons, hend]
  rfl

/-- Between words, a quoted value is read as a word that is not complete yet. -/
theorem run_shellEscapeSimple (value : Str) :
    Reader.run {} (shellEscapeSimple value) = { word := some (value.map literal) } :=
  run_shellEscapeSimple_behind none value

theorem nul_notMem_shellEscapeSimple {value : Str} (hnul : '\x00' ∉ value) :
    '\x00' ∉ shellEscapeSimple value := by
  rw [shellEscapeSimple_eq]
  simp only [List.mem_cons, List.mem_append, List.mem_flatMap, List.not_mem_nil, or_false, not_or,
    not_exists, not_and]
  refine ⟨by decide, fun _ hc hmem ↦ ?_, by decide⟩
  unfold escapedCharacter at hmem
  split_ifs at hmem
  · revert hmem
    decide
  · rw [List.mem_singleton] at hmem
    subst hmem
    exact hnul hc

def valueWord (value : Str) : Token := .word (value.map literal)

theorem text_valueWord (value : Str) : (valueWord value).text = value := by
  simp [valueWord, Token.text, literal, Function.comp_def]

theorem expands_valueWord (value : Str) : (valueWord value).expands = false := by
  simp only [valueWord, Token.expands, List.any_eq_false, List.mem_map, forall_exists_index,
    and_imp]
  rintro _ _ - rfl
  exact Bool.false_ne_true

/-- A shell reads a quoted value as one word, equal to the value after quote removal and not
expanded, and reads the same word, with the commands on both sides unchanged, between blanks in any
place outside quotes and comments. Assumes: the value has no `NUL`, which ends a command string. -/
theorem shell_word_is_value (value : Str) (hnul : '\x00' ∉ value) :
    ∃ characters, (Token.word characters).text = value ∧ (Token.word characters).expands = false ∧
      tokens (shellEscapeSimple value) = some [.word characters] ∧
      ∀ before blank blank' rest, '\x00' ∉ before → EndsOutside before →
        Reader.isBlank blank = true →
        Reader.isBlank blank' = true →
        tokens (before ++ blank :: (shellEscapeSimple value ++ blank' :: rest)) =
          (tokens before).bind fun front ↦
            (tokens rest).map fun back ↦ front ++ .word characters :: back := by
  have hescaped := nul_notMem_shellEscapeSimple hnul
  refine ⟨value.map literal, text_valueWord value, expands_valueWord value, ?_, ?_⟩
  · rw [tokens, command_eq_self hescaped, run_shellEscapeSimple]
    rfl
  · intro before blank blank' rest hbefore houtside hblank hblank'
    exact tokens_between_blanks (run_shellEscapeSimple value) hbefore hescaped houtside hblank
      hblank' rest

/-- A value with a quote and a command substitution, quoted as an argument of `echo`. -/
theorem quoted_substitution_is_one_word :
    '\x00' ∉ "a'$(b)".toList ∧ ∃ characters, (Token.word characters).text = "a'$(b)".toList ∧
      (Token.word characters).expands = false ∧
      tokens ("echo ".toList ++ ' ' ::
          (shellEscapeSimple "a'$(b)".toList ++ ' ' :: "\"$HOME\"".toList)) =
        (tokens "echo ".toList).bind fun front ↦
          (tokens "\"$HOME\"".toList).map fun back ↦ front ++ .word characters :: back := by
  have hnul : '\x00' ∉ "a'$(b)".toList := by decide
  obtain ⟨characters, htext, hexpands, -, hbetween⟩ := shell_word_is_value "a'$(b)".toList hnul
  exact ⟨hnul, characters, htext, hexpands, hbetween _ _ _ _ (by decide) (by decide) rfl rfl⟩

/-- `join(" ")`. -/
def joined (parts : List Str) : Str := [' '].intercalate parts

def texts (parts : List String) : List Str := parts.map String.toList

section Parts

variable (quote : Str → Str) (paths : List Str)

/-- The end of each command: the paths, if any, behind a separator. -/
def pathParts : List Str := if !paths.isEmpty then "--".toList :: paths.map quote else []

/-- The `parts` of `git_diff_hunks_command`, and for a fingerprint of
`git_diff_hunks_fingerprint_command`. -/
def gitDiffHunksParts (cached fingerprint : Bool) : List Str :=
  texts ["git", "diff"] ++ (if cached then texts ["--cached"] else []) ++
    texts ["--no-ext-diff", "--no-textconv"] ++
    (if fingerprint then texts ["--binary", "--full-index"] else []) ++
    (texts ["--unified=80"] ++ pathParts quote paths)

/-- The commits of `CommittedGitScope` that the commands name. -/
structure CommittedGitScope where
  (requestedHead mergeBase : Str)

/-- The `parts` of `git_diff_hunks_committed_command`. -/
def gitDiffHunksCommittedParts (scope : CommittedGitScope) (fingerprint : Bool) : List Str :=
  let headQ := quote scope.requestedHead
  texts ["git", "--no-pager", "-c", "core.quotePath=false", "-c"] ++
    ["attr.tree=".toList ++ headQ] ++
    texts ["diff", "--no-ext-diff", "--no-textconv", "--find-renames"] ++
    (if fingerprint then texts ["--binary", "--full-index"] else []) ++
    (texts ["--unified=80"] ++ ([quote scope.mergeBase, headQ] ++ pathParts quote paths))

end Parts

def gitDiffHunksCommand (paths : List Str) (cached : Bool) : Str :=
  joined (gitDiffHunksParts shellEscapeSimple paths cached false)

def gitDiffHunksFingerprintCommand (paths : List Str) (cached : Bool) : Str :=
  joined (gitDiffHunksParts shellEscapeSimple paths cached true)

def gitDiffHunksCommittedCommand (scope : CommittedGitScope) (paths : List Str)
    (fingerprint : Bool) : Str :=
  joined (gitDiffHunksCommittedParts shellEscapeSimple paths scope fingerprint)

/-- What a program gets of a word that the shell does not expand. -/
def argument : Token → Option Str
  | .word characters => if characters.any expandsAt then none else some (characters.map (·.1))
  | .operator _ => none

/-- The arguments of a command that is one program. -/
def argv (command : Str) : Option (List Str) := (tokens command).bind (·.mapM argument)

/-- The part of a command passes this argument. -/
def Passes (part value : Str) : Prop := ∃ token, Spells part [token] ∧ argument token = some value

theorem argv_joined {parts values : List Str} (h : List.Forall₂ Passes parts values) :
    argv (joined parts) = some values := by
  have hread : ∃ read, List.Forall₂ (fun part token ↦ Spells part [token]) parts read ∧
      read.mapM argument = some values := by
    induction h with
    | nil => exact ⟨[], .nil, rfl⟩
    | cons hpart _ ih =>
      obtain ⟨token, hspells, hargument⟩ := hpart
      obtain ⟨read, hread, harguments⟩ := ih
      exact ⟨token :: read, .cons hspells hread, by simp [hargument, harguments]⟩
  obtain ⟨read, hread, harguments⟩ := hread
  rw [argv, joined, (Spells.join hread).tokens, Option.bind_some, harguments]

/-- The characters of a text that stands outside quotes. -/
def unquoted (text : Str) : List (Char × Protection) := text.map fun c ↦ (c, .unquoted)

/-- A text without `NUL` that is read as it stands, and not expanded. -/
def isPlain (text : Str) : Bool :=
  !text.contains '\x00' && !(unquoted text).any expandsAt &&
    Reader.run {} text == { word := if text.isEmpty then none else some (unquoted text) }

theorem passes_of_run {part value : Str} {characters : List (Char × Protection)}
    (hnul : '\x00' ∉ part) (hrun : Reader.run {} part = { word := some characters })
    (hexpands : characters.any expandsAt = false)
    (hvalue : characters.map (·.1) = value) : Passes part value := by
  refine ⟨.word characters, ⟨hnul, ?_, ?_⟩, ?_⟩
  · rw [hrun]
  · rw [hrun]
    rfl
  · simp [argument, hexpands, hvalue]

theorem map_unquoted (text : Str) : (unquoted text).map (·.1) = text := by
  simp [unquoted, Function.comp_def]

theorem passes_texts {parts : List String}
    (h : (parts.all fun part ↦ !part.toList.isEmpty && isPlain part.toList) = true) :
    List.Forall₂ Passes (texts parts) (texts parts) := by
  refine List.forall₂_same.mpr fun part hpart ↦ ?_
  obtain ⟨word, hword, rfl⟩ := List.mem_map.mp hpart
  have hplain := List.all_eq_true.mp h word hword
  simp only [isPlain, Bool.and_eq_true, Bool.not_eq_true', beq_iff_eq] at hplain
  obtain ⟨hsome, ⟨hnul, hexpands⟩, hrun⟩ := hplain
  rw [hsome, if_neg Bool.false_ne_true] at hrun
  exact passes_of_run (by simpa using hnul) hrun hexpands (map_unquoted _)

/-- A fixed start of a part does not change what its quoted rest is. -/
theorem passes_quoted (front : Str) {value : Str} (hfront : isPlain front = true)
    (hnul : '\x00' ∉ value) :
    Passes (front ++ shellEscapeSimple value) (front ++ value) := by
  simp only [isPlain, Bool.and_eq_true, Bool.not_eq_true', beq_iff_eq] at hfront
  obtain ⟨⟨hfrontNul, hexpands⟩, hrun⟩ := hfront
  have hquoted : Reader.run {} (front ++ shellEscapeSimple value) =
      { word := some (unquoted front ++ value.map literal) } := by
    rw [Reader.run_append, hrun, run_shellEscapeSimple_behind]
    cases front <;> rfl
  refine passes_of_run (by simpa [nul_notMem_shellEscapeSimple hnul] using hfrontNul) hquoted ?_ ?_
  · rw [List.any_append, hexpands]
    exact expands_valueWord value
  · rw [List.map_append, map_unquoted]
    exact congrArg (front ++ ·) (text_valueWord value)

theorem passes_pathParts {paths : List Str} (hnul : ∀ path ∈ paths, '\x00' ∉ path) :
    List.Forall₂ Passes (pathParts shellEscapeSimple paths) (pathParts id paths) := by
  unfold pathParts
  split_ifs
  · refine List.rel_append (@passes_texts ["--"] (by decide)) ?_
    rw [List.map_id, List.forall₂_map_left_iff]
    exact List.forall₂_same.mpr fun path hpath ↦ passes_quoted [] rfl (hnul path hpath)
  · exact .nil

/-- Whatever the paths and the commits are, the program gets them as they are, each as one argument,
and nothing else besides the fixed arguments; the shell expands nothing and starts no other
program. -/
theorem diff_commands_pass_arguments (scope : CommittedGitScope) (paths : List Str)
    (cached fingerprint : Bool) (hpaths : ∀ path ∈ paths, '\x00' ∉ path)
    (hhead : '\x00' ∉ scope.requestedHead)
    (hbase : '\x00' ∉ scope.mergeBase) :
    argv (gitDiffHunksCommand paths cached) = some (gitDiffHunksParts id paths cached false) ∧
      argv (gitDiffHunksFingerprintCommand paths cached) = some
        (gitDiffHunksParts id paths cached true) ∧
      argv (gitDiffHunksCommittedCommand scope paths fingerprint) =
        some (gitDiffHunksCommittedParts id paths scope fingerprint) := by
  have hpathParts := passes_pathParts hpaths
  have hflag (flag : Bool) (words : List String)
      (hplain : (words.all fun part ↦ !part.toList.isEmpty && isPlain part.toList) = true) :
      List.Forall₂ Passes (if flag then texts words else [])
          (if flag then texts words else []) := by
    split_ifs
    · exact passes_texts hplain
    · exact .nil
  have hparts (fingerprint : Bool) : List.Forall₂ Passes
      (gitDiffHunksParts shellEscapeSimple paths cached fingerprint)
      (gitDiffHunksParts id paths cached fingerprint) :=
    List.rel_append (List.rel_append (List.rel_append (List.rel_append (passes_texts (by decide))
      (hflag _ _ (by decide))) (passes_texts (by decide))) (hflag _ _ (by decide)))
      (List.rel_append (passes_texts (by decide)) hpathParts)
  refine ⟨argv_joined (hparts false), argv_joined (hparts true), argv_joined ?_⟩
  have hheadQ := passes_quoted [] rfl hhead
  exact List.rel_append
    (List.rel_append (List.rel_append (List.rel_append (passes_texts (by decide))
      (.cons (passes_quoted _ (by decide) hhead) .nil)) (passes_texts (by decide)))
        (hflag _ _ (by decide)))
    (List.rel_append (passes_texts (by decide))
      (List.rel_append (.cons (passes_quoted [] rfl hbase) (.cons hheadQ .nil)) hpathParts))

/-- A path with a quote and a command substitution is one argument. -/
theorem odd_path_is_one_argument : argv (gitDiffHunksCommand ["a'$(b)".toList] true) =
    some (texts ["git", "diff", "--cached", "--no-ext-diff", "--no-textconv", "--unified=80", "--",
      "a'$(b)"]) :=
  (diff_commands_pass_arguments ⟨[], []⟩ ["a'$(b)".toList] true true (fun _ hpath ↦ by
    rw [List.mem_singleton] at hpath
    subst hpath
    decide) (by decide) (by decide)).1

end WebCodex.CommandText
