import WebCodex.Foundation.Text

/-!
How a shell takes a command string apart into tokens. Reading goes character by character
(`Reader.step`): white space and operators end a word, and three kinds of quoting take their
special meaning from characters (`Protection`). A character that keeps its meaning makes the shell
expand the word (`Token.expands`); otherwise quote removal leaves the characters alone
(`Token.text`).
-/

namespace WebCodex.Foundation.ShellWords

open Foundation.Text

inductive Protection where
  | unquoted | doubleQuoted | literal
  deriving DecidableEq

/-- Whether a character stands for something else than itself: the start of a parameter expansion, a
command substitution or a tilde, or a character of a pattern. -/
def expandsAt : Char × Protection → Bool
  | (c, .unquoted) => ['$', '\x60', '*', '?', '[', '~'].contains c
  | (c, .doubleQuoted) => ['$', '\x60'].contains c
  | (_, .literal) => false

inductive Token where
  /-- A word after quote removal, with the protection that each character had. -/
  | word (characters : List (Char × Protection))
  /-- A character of an operator, or a line feed. -/
  | operator (c : Char)
  deriving DecidableEq

def Token.expands : Token → Bool
  | .word characters => characters.any expandsAt
  | .operator _ => false

def Token.text : Token → Str
  | .word characters => characters.map (·.1)
  | .operator c => [c]

inductive Mode where
  | unquoted
  /-- Behind a backslash outside quotes. -/
  | escaped
  | single
  | double
  /-- Behind a backslash in double quotes. -/
  | doubleEscaped
  | comment
  deriving DecidableEq

structure Reader where
  mode : Mode := .unquoted
  /-- The word that is being read. Also an empty pair of quotes begins one. -/
  word : Option (List (Char × Protection)) := none
  complete : List Token := []
  deriving DecidableEq

namespace Reader

/-- The word that is being read, if any, is complete. -/
def delimit (reader : Reader) : Reader :=
  match reader.word with
  | none => reader
  | some characters =>
    { reader with word := none, complete := reader.complete ++ [.word characters] }

def push (reader : Reader) (c : Char) (protection : Protection) : Reader :=
  { reader with word := some (reader.word.getD [] ++ [(c, protection)]) }

/-- Enters quotes, which begin a word when none is being read. -/
def quote (reader : Reader) (mode : Mode) : Reader :=
  { reader with mode, word := some (reader.word.getD []) }

def isOperator (c : Char) : Bool := ['|', '&', ';', '<', '>', '(', ')', '\n'].contains c

def isBlank (c : Char) : Bool := c == ' ' || c == '\t'

def stepUnquoted (reader : Reader) (c : Char) : Reader :=
  if isBlank c then reader.delimit
  else if isOperator c then
    { reader.delimit with complete := reader.delimit.complete ++ [.operator c] }
  else if c == '#' && reader.word.isNone then { reader with mode := .comment }
  else if c == '\'' then reader.quote .single
  else if c == '"' then reader.quote .double
  else if c == '\\' then { reader with mode := .escaped }
  else reader.push c .unquoted

def step (reader : Reader) (c : Char) : Reader :=
  match reader.mode with
  | .unquoted => reader.stepUnquoted c
  | .escaped =>
    -- A backslash in front of a line feed joins two lines.
    if c == '\n' then { reader with mode := .unquoted }
    else { reader.push c .literal with mode := .unquoted }
  | .single =>
    if c == '\'' then { reader with mode := .unquoted } else reader.push c .literal
  | .double =>
    if c == '"' then { reader with mode := .unquoted }
    else if c == '\\' then { reader with mode := .doubleEscaped }
    else reader.push c .doubleQuoted
  | .doubleEscaped =>
    if c == '\n' then { reader with mode := .double }
    else if ['$', '\x60', '"', '\\'].contains c then { reader.push c .literal with mode := .double }
    else { (reader.push '\\' .doubleQuoted).push c .doubleQuoted with mode := .double }
  | .comment =>
    if c == '\n'
      then { reader with mode := .unquoted, complete := reader.complete ++ [.operator c] }
    else reader

def run (reader : Reader) (command : Str) : Reader := command.foldl step reader

/-- The tokens at the end of the command. Quotes that are still open are an error. -/
def finish (reader : Reader) : Option (List Token) :=
  match reader.mode with
  | .unquoted | .comment => some reader.delimit.complete
  | _ => none

end Reader

/-- What a shell gets of a text: a command string ends at its first `NUL`. -/
def command (text : Str) : Str := text.takeWhile (· != '\x00')

def tokens (text : Str) : Option (List Token) := (Reader.run {} (command text)).finish

/-- The text ends outside quotes and comments, so that what follows is read as if it stood alone. -/
def EndsOutside (text : Str) : Prop := (Reader.run {} (command text)).mode = .unquoted

instance (text : Str) : Decidable (EndsOutside text) :=
  inferInstanceAs (Decidable ((Reader.run {} (command text)).mode = .unquoted))

namespace Reader

/-- A reader that has some more complete tokens before its own. -/
def after (front : List Token) (reader : Reader) : Reader :=
  { reader with complete := front ++ reader.complete }

@[simp] theorem after_mode (front : List Token) (reader : Reader) :
    (reader.after front).mode = reader.mode := rfl

@[simp] theorem after_word (front : List Token) (reader : Reader) :
    (reader.after front).word = reader.word := rfl

theorem delimit_after (front : List Token) (reader : Reader) :
    (reader.after front).delimit = reader.delimit.after front := by
  obtain ⟨_, word, _⟩ := reader
  cases word with
  | none => rfl
  | some => simp [delimit, after]

theorem stepUnquoted_after (front : List Token) (reader : Reader) (c : Char) :
    (reader.after front).stepUnquoted c = (reader.stepUnquoted c).after front := by
  unfold stepUnquoted
  rw [delimit_after, after_word]
  split_ifs
  · rfl
  · simp [after]
  all_goals rfl

theorem step_after (front : List Token) (reader : Reader) (c : Char) :
    (reader.after front).step c = (reader.step c).after front := by
  unfold step
  rw [after_mode]
  cases reader.mode with
  | unquoted => exact stepUnquoted_after front reader c
  | comment =>
    dsimp only
    split_ifs
    · simp [after]
    · rfl
  | _ =>
    split_ifs <;> rfl

/-- Complete tokens do not influence what is read later. -/
theorem run_after (front : List Token) (reader : Reader) (text : Str) :
    (reader.after front).run text = (reader.run text).after front := by
  induction text generalizing reader with
  | nil => rfl
  | cons c text ih => exact (congrArg (run · text) (step_after front reader c)).trans (ih _)

theorem finish_after (front : List Token) (reader : Reader) :
    (reader.after front).finish = reader.finish.map (front ++ ·) := by
  unfold finish
  rw [after_mode, delimit_after]
  cases reader.mode <;> rfl

theorem run_append (reader : Reader) (text rest : Str) :
    reader.run (text ++ rest) = (reader.run text).run rest := List.foldl_append

theorem run_cons (reader : Reader) (c : Char) (rest : Str) :
    reader.run (c :: rest) = (reader.step c).run rest := rfl

/-- Between two words a blank changes nothing, and behind a word it completes the word. -/
theorem step_blank {reader : Reader} (hmode : reader.mode = .unquoted) {blank : Char}
    (hblank : isBlank blank = true) : reader.step blank = reader.delimit := by
  rw [step, hmode]
  exact if_pos hblank

theorem delimit_mode (reader : Reader) : reader.delimit.mode = reader.mode := by
  unfold delimit
  split <;> rfl

theorem delimit_word (reader : Reader) : reader.delimit.word = none := by
  unfold delimit
  split
  · assumption
  · rfl

/-- Outside quotes and between words only the complete tokens are known. -/
theorem delimit_eq_after {reader : Reader} (hmode : reader.mode = .unquoted) :
    reader.delimit = after reader.delimit.complete {} := by
  have hword := reader.delimit_word
  have hsame := reader.delimit_mode
  rw [hmode] at hsame
  generalize reader.delimit = delimited at hword hsame ⊢
  obtain ⟨mode, _, complete⟩ := delimited
  subst hword hsame
  simp [after]

end Reader

theorem command_append {text : Str} (hnul : '\x00' ∉ text) (rest : Str) :
    command (text ++ rest) = text ++ command rest := by
  refine List.takeWhile_append_of_pos fun _ hc ↦ ?_
  simp only [bne_iff_ne, ne_eq]
  rintro rfl
  exact hnul hc

theorem command_eq_self {text : Str} (hnul : '\x00' ∉ text) : command text = text := by
  simpa [command] using command_append hnul []

theorem command_cons_blank {blank : Char} (hblank : Reader.isBlank blank = true) (rest : Str) :
    command (blank :: rest) = blank :: command rest := by
  refine List.takeWhile_cons_of_pos ?_
  simp only [bne_iff_ne, ne_eq]
  rintro rfl
  revert hblank
  decide

/-- A text that ends outside quotes is read as these tokens. -/
structure Spells (text : Str) (read : List Token) : Prop where
  nul : '\x00' ∉ text
  mode : (Reader.run {} text).mode = .unquoted
  complete : (Reader.run {} text).delimit.complete = read

theorem Spells.tokens {text : Str} {read : List Token} (h : Spells text read) :
    tokens text = some read := by
  rw [ShellWords.tokens, command_eq_self h.nul, Reader.finish, h.mode, h.complete]

open Reader in
theorem Spells.run_append {text : Str} {read : List Token} (h : Spells text read) {blank : Char}
    (hblank : isBlank blank = true) (rest : Str) :
    run {} (text ++ blank :: rest) = after read (run {} rest) := by
  rw [Reader.run_append, run_cons, step_blank h.mode hblank, delimit_eq_after h.mode, h.complete,
    run_after]

/-- What follows a blank is read as if it stood alone. -/
theorem Spells.tokens_append {text : Str} {read : List Token} (h : Spells text read) {blank : Char}
    (hblank : Reader.isBlank blank = true) (rest : Str) :
    ShellWords.tokens (text ++ blank :: rest) = (ShellWords.tokens rest).map (read ++ ·) := by
  rw [ShellWords.tokens, command_append h.nul, command_cons_blank hblank, h.run_append hblank,
    Reader.finish_after]
  rfl

/-- A blank between two texts leaves what each is read as. -/
theorem Spells.append {text rest : Str} {read more : List Token} (h : Spells text read)
    (h' : Spells rest more) : Spells (text ++ ' ' :: rest) (read ++ more) := by
  have hrun := @Spells.run_append _ _ h ' ' rfl rest
  refine ⟨?_, ?_, ?_⟩
  · simp [h.nul, h'.nul]
  · rw [hrun, Reader.after_mode, h'.mode]
  · rw [hrun, Reader.delimit_after, ← h'.complete]
    rfl

open Reader in
/-- A text that is read as one word in any place between words is a word of its own between two
blanks, and the commands on both sides of it are read as before. -/
theorem tokens_between_blanks {before text : Str} {characters : List (Char × Protection)}
    (htext : run {} text = { word := some characters }) (hbefore : '\x00' ∉ before)
    (hnul : '\x00' ∉ text)
    (houtside : EndsOutside before) {blank blank' : Char} (hblank : isBlank blank = true)
    (hblank' : isBlank blank' = true) (rest : Str) :
    tokens (before ++ blank :: (text ++ blank' :: rest)) = (tokens before).bind fun front ↦
        (tokens rest).map fun back ↦ front ++ .word characters :: back := by
  rw [EndsOutside, command_eq_self hbefore] at houtside
  have hfront : Spells before (run {} before).delimit.complete := ⟨hbefore, houtside, rfl⟩
  have hword : Spells text [.word characters] := ⟨hnul, by rw [htext], by rw [htext]; rfl⟩
  rw [hfront.tokens_append hblank, hword.tokens_append hblank', hfront.tokens]
  cases tokens rest <;> rfl

/-- Words joined by blanks are read one after the other. -/
theorem Spells.join {texts : List Str} {read : List Token}
    (h : List.Forall₂ (fun text token ↦ Spells text [token]) texts read) :
    Spells ([' '].intercalate texts) read := by
  induction h with
  | nil => exact ⟨by simp, rfl, rfl⟩
  | @cons text token texts read hfirst hrest ih =>
    cases hrest with
    | nil => simpa [List.intercalate] using hfirst
    | cons =>
      have hboth := hfirst.append ih
      simpa [List.intercalate, List.intersperse] using hboth

end WebCodex.Foundation.ShellWords
