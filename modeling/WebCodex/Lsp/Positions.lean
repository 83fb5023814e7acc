import Mathlib.Algebra.GroupWithZero.Nat
import WebCodex.Foundation.Text

/-!
The tools name a place by a line and a column in characters from one; a language server counts
lines from zero and columns in the code units of an encoding. Both conversions accept exactly the
places between two characters of a line (`publicToLsp_eq_ok`, `lspToPublic_eq_some`), and there
they are inverse to each other (`positions_round_trip`).
-/

namespace WebCodex.Lsp

open Foundation.Text
open String (utf8Len)

variable {found : ℕ} {line : Str} {encoding : PositionEncoding}

inductive PositionEncoding where
  | utf8 | utf16 | utf32

def lineCount (text : Str) : ℕ := if text.isEmpty then 0 else (text.splitOn '\n').length

def lineAt (text : Str) (zeroBasedLine : ℕ) : Option Str :=
  if text.isEmpty then (if zeroBasedLine = 0 then some [] else none)
  else (text.splitOn '\n')[zeroBasedLine]?.map (stripSuffixChar '\r')

def lenUtf16 (c : Char) : ℕ := if c.toNat < 0x10000 then 1 else 2

def utf16Len (text : Str) : ℕ := (text.map lenUtf16).sum

/-- The code units in front of a character of a line. -/
def unitsBefore (encoding : PositionEncoding) (lineText : Str) (scalarIndex : ℕ) : ℕ :=
  match encoding with
  | .utf32 => scalarIndex
  | .utf16 => utf16Len (lineText.take scalarIndex)
  | .utf8 => utf8Len (lineText.take scalarIndex)

def publicToLsp (text : Str) (line column : ℕ) (encoding : PositionEncoding) :
    Except String (UInt32 × UInt32) :=
  if line = 0 ∨ column = 0 then .error "line and column must be >= 1"
  else
    let zeroLine := line - 1
    match lineAt text zeroLine with
    | none => .error s!"line {line} is out of range (document has {lineCount text} lines)"
    | some lineText =>
      let scalarLen := lineText.length
      if column > scalarLen + 1 then
        .error s!"column {column} is out of range for line {line} (length {scalarLen})"
      else .ok (.ofNat zeroLine, .ofNat (unitsBefore encoding lineText (column - 1)))

/-- The loop of `utf16_offset_to_scalar_index` from the character `index` on. -/
def scanUtf16 (utf16Offset index units : ℕ) : Str → Option ℕ
  | [] => if units = utf16Offset then some index else none
  | ch :: rest =>
    if units = utf16Offset then some index
    else if units + lenUtf16 ch > utf16Offset then none
    else scanUtf16 utf16Offset (index + 1) (units + lenUtf16 ch) rest

def utf16OffsetToScalarIndex (line : Str) (utf16Offset : ℕ) : Option ℕ :=
    scanUtf16 utf16Offset 0 0 line

def utf8OffsetToScalarIndex (line : Str) (utf8Offset : ℕ) : Option ℕ :=
  if utf8Offset > utf8Len line then none
  else if utf8Offset = utf8Len line then some line.length
  else (splitAtByte utf8Offset line).map fun sides ↦ sides.1.length

/-- The index of the character that a column of a line is in front of. -/
def scalarIndexOf (encoding : PositionEncoding) (lineText : Str) (character : ℕ) : Option ℕ :=
  match encoding with
  | .utf32 => if character > lineText.length then none else some character
  | .utf16 => utf16OffsetToScalarIndex lineText character
  | .utf8 => utf8OffsetToScalarIndex lineText character

def lspToPublic (text : Str) (line character : UInt32) (encoding : PositionEncoding) :
    Option (ℕ × ℕ) := do
  let lineText ← lineAt text line.toNat
  let scalarIndex ← scalarIndexOf encoding lineText character.toNat
  some (line.toNat + 1, scalarIndex + 1)

theorem lenUtf16_pos (c : Char) : 0 < lenUtf16 c := by
  unfold lenUtf16
  split_ifs <;> decide

/-- The scan stops in front of a character exactly when the units of those passed add up to the
offset, so it never stops between the two units of one character. -/
theorem scanUtf16_eq_some {offset index units : ℕ} :
    scanUtf16 offset index units line = some found ↔
      ∃ count ≤ line.length, found = index + count ∧ offset = units + utf16Len
        (line.take count) := by
  induction line generalizing index units with
  | nil =>
    simp only [scanUtf16, List.length_nil, Nat.le_zero, exists_eq_left, List.take_nil]
    split_ifs with hend
    · simp [hend, utf16Len, eq_comm]
    · simp [utf16Len, Ne.symm hend]
  | cons c line ih =>
    have hpos := lenUtf16_pos c
    have htake (count : ℕ) : utf16Len ((c :: line).take (count + 1)) = lenUtf16 c + utf16Len
        (line.take count) := by
      simp [utf16Len]
    rw [scanUtf16]
    split_ifs with hhere hinside
    · subst hhere
      constructor
      · rintro ⟨⟩
        exact ⟨0, Nat.zero_le _, rfl, rfl⟩
      · rintro ⟨count, -, rfl, hunits⟩
        cases count with
        | zero => rfl
        | succ =>
          rw [htake] at hunits
          omega
    · simp only [false_iff]
      rintro ⟨count, -, -, hunits⟩
      cases count with
      | zero => exact hhere hunits.symm
      | succ =>
        rw [htake] at hunits
        omega
    · rw [ih]
      constructor
      · rintro ⟨count, hle, rfl, rfl⟩
        exact ⟨count + 1, Nat.succ_le_succ hle, by omega, by rw [htake]; omega⟩
      · rintro ⟨count, hle, rfl, hunits⟩
        cases count with
        | zero => exact absurd hunits.symm hhere
        | succ count =>
          rw [htake] at hunits
          exact ⟨count, Nat.le_of_succ_le_succ hle, by omega, by omega⟩

/-- A byte offset is that of a character exactly when it is the length of what stands in front. -/
theorem utf8OffsetToScalarIndex_eq_some {offset : ℕ} :
    utf8OffsetToScalarIndex line offset = some found ↔
      found ≤ line.length ∧ offset = utf8Len (line.take found) := by
  have hsplit : utf8OffsetToScalarIndex line offset =
      (splitAtByte offset line).map fun sides ↦ sides.1.length := by
    unfold utf8OffsetToScalarIndex
    split_ifs with hbeyond hend
    · cases hsides : splitAtByte offset line with
      | none => rfl
      | some =>
        obtain ⟨rfl, rfl⟩ := splitAtByte_eq_some_iff.mp hsides
        rw [String.utf8Len_append] at hbeyond
        omega
    · rw [splitAtByte_eq_some_iff.mpr ⟨(List.append_nil line).symm, hend.symm⟩]
      rfl
    · rfl
  rw [hsplit, Option.map_eq_some_iff]
  constructor
  · rintro ⟨⟨_, _⟩, hsides, rfl⟩
    obtain ⟨rfl, rfl⟩ := splitAtByte_eq_some_iff.mp hsides
    simp
  · rintro ⟨hle, rfl⟩
    exact ⟨(line.take found, line.drop found),
      splitAtByte_eq_some_iff.mpr ⟨(List.take_append_drop found line).symm, rfl⟩,
      List.length_take_of_le hle⟩

/-- A column is in front of a character, or at the end of the line, exactly when it counts the code
units before that place. -/
theorem scalarIndexOf_eq_some {character : ℕ} :
    scalarIndexOf encoding line character = some found ↔
      found ≤ line.length ∧ character = unitsBefore encoding line found := by
  cases encoding with
  | utf8 => exact utf8OffsetToScalarIndex_eq_some
  | utf16 =>
    rw [scalarIndexOf, utf16OffsetToScalarIndex, scanUtf16_eq_some]
    simp only [Nat.zero_add, unitsBefore]
    constructor
    · rintro ⟨_, hle, rfl, hunits⟩
      exact ⟨hle, hunits⟩
    · rintro ⟨hle, hunits⟩
      exact ⟨found, hle, rfl, hunits⟩
  | utf32 =>
    simp only [scalarIndexOf, unitsBefore]
    split_ifs with hbeyond
    · simp only [false_iff, not_and]
      omega
    · rw [Option.some.injEq]
      omega

/-- The units before a place of a line are at most those of the whole line. -/
theorem unitsBefore_le {index : ℕ} (hle : index ≤ line.length) :
    unitsBefore encoding line index ≤ unitsBefore encoding line line.length := by
  have hsplit : line = line.take index ++ line.drop index := (List.take_append_drop index line).symm
  cases encoding with
  | utf32 => exact hle
  | utf16 =>
    simp only [unitsBefore, List.take_length, utf16Len]
    conv_rhs => rw [hsplit, List.map_append, List.sum_append]
    exact Nat.le_add_right _ _
  | utf8 =>
    simp only [unitsBefore, List.take_length]
    conv_rhs => rw [hsplit, String.utf8Len_append]
    exact Nat.le_add_right _ _

/-- The place in front of a character of a line, or at its end, in both ways of counting. -/
structure Place (text : Str) (encoding : PositionEncoding) (line column : ℕ) (zeroLine units : ℕ) :
    Prop where
  line : line = zeroLine + 1
  found : ∃ lineText, lineAt text zeroLine = some lineText ∧ column - 1 ≤ lineText.length ∧
    units = unitsBefore encoding lineText (column - 1)
  column : column ≠ 0

/-- What a client's line and column are converted to, in terms of the place that they name. -/
theorem publicToLsp_eq_ok {text : Str} {line column : ℕ}
    {position : UInt32 × UInt32} : publicToLsp text line column encoding = .ok position ↔
      ∃ zeroLine units, Place text encoding line column zeroLine units ∧
        position = (.ofNat zeroLine, .ofNat units) := by
  unfold publicToLsp
  constructor
  · intro hok
    split_ifs at hok with hzero
    rw [not_or] at hzero
    dsimp only at hok
    split at hok
    · cases hok
    · rename_i lineText hline
      split_ifs at hok with hcolumn
      exact ⟨line - 1, _, ⟨by omega, ⟨lineText, hline, by omega, rfl⟩, hzero.2⟩,
        (Except.ok.inj hok).symm⟩
  · rintro ⟨zeroLine, _, ⟨rfl, ⟨lineText, hline, _, rfl⟩, hcolumn⟩, rfl⟩
    rw [if_neg (by omega), Nat.add_sub_cancel]
    simp only [hline]
    exact if_neg (by omega)

/-- What a server's position is converted back to, in terms of the place that it names. -/
theorem lspToPublic_eq_some {text : Str} {line character : UInt32}
    {position : ℕ × ℕ} : lspToPublic text line character encoding = some position ↔
      Place text encoding position.1 position.2 line.toNat character.toNat := by
  obtain ⟨_, column⟩ := position
  simp only [lspToPublic, Option.bind_eq_bind, Option.bind_eq_some_iff, scalarIndexOf_eq_some,
    Option.some.injEq, Prod.mk.injEq]
  constructor
  · rintro ⟨lineText, hline, _, ⟨hle, hunits⟩, rfl, rfl⟩
    exact ⟨rfl, ⟨lineText, hline, hle, hunits⟩, Nat.succ_ne_zero _⟩
  · rintro ⟨rfl, ⟨lineText, hline, hle, hunits⟩, _⟩
    exact ⟨lineText, hline, column - 1, ⟨hle, hunits⟩, rfl, by omega⟩

/-- Lines and columns, counted in either way, are below `2 ^ 32`. -/
def FitsWord (text : Str) (encoding : PositionEncoding) : Prop :=
  ∀ zeroLine lineText, lineAt text zeroLine = some lineText →
    zeroLine < 2 ^ 32 ∧ unitsBefore encoding lineText lineText.length < 2 ^ 32

/-- The conversions accept exactly the places of a text, each is the other's inverse there, and two
places are not converted to one. -/
theorem positions_round_trip (text : Str) (encoding : PositionEncoding)
    (hfits : FitsWord text encoding) :
    (∀ line column, (∃ position, publicToLsp text line column encoding = .ok position) ↔
      1 ≤ line ∧ 1 ≤ column ∧ ∃ lineText, lineAt text (line - 1) = some lineText ∧
        column ≤ lineText.length + 1) ∧
    (∀ line character, (∃ position, lspToPublic text line character encoding = some position) ↔
      ∃ lineText, lineAt text line.toNat = some lineText ∧
        ∃ index ≤ lineText.length, character.toNat = unitsBefore encoding lineText index) ∧
    ∀ line column position, publicToLsp text line column encoding = .ok position ↔
      lspToPublic text position.1 position.2 encoding = some (line, column) := by
  refine ⟨fun line column ↦ ?_, fun line character ↦ ?_, fun line column position ↦ ?_⟩
  · simp only [publicToLsp_eq_ok]
    constructor
    · rintro ⟨_, _, _, ⟨rfl, ⟨lineText, hline, hle, -⟩, hcolumn⟩, -⟩
      exact ⟨by omega, by omega, lineText, hline, by omega⟩
    · rintro ⟨hline, hcolumn, lineText, hfound, hle⟩
      exact ⟨_, _, _, ⟨by omega, ⟨lineText, hfound, by omega, rfl⟩, by omega⟩, rfl⟩
  · simp only [lspToPublic_eq_some]
    constructor
    · rintro ⟨_, -, ⟨lineText, hline, hle, hunits⟩, -⟩
      exact ⟨lineText, hline, _, hle, hunits⟩
    · rintro ⟨lineText, hline, index, hle, hunits⟩
      exact ⟨(_, index + 1), rfl, ⟨lineText, hline, hle, hunits⟩, Nat.succ_ne_zero _⟩
  · rw [publicToLsp_eq_ok, lspToPublic_eq_some]
    constructor
    · rintro ⟨zeroLine, units, hplace, rfl⟩
      obtain ⟨lineText, hline, hle, hunits⟩ := hplace.found
      obtain ⟨hlines, hcolumns⟩ := hfits zeroLine lineText hline
      have hunitsLt : units < 2 ^ 32 := hunits ▸ (unitsBefore_le hle).trans_lt hcolumns
      rwa [UInt32.toNat_ofNat_of_lt' hlines, UInt32.toNat_ofNat_of_lt' hunitsLt]
    · intro hplace
      exact ⟨_, _, hplace, by rw [UInt32.ofNat_toNat, UInt32.ofNat_toNat]⟩

/-- A document with both line endings and a surrogate pair. -/
def astralText : Str := "a\r\n𝄞b".toList

/-- No line of the document is longer than a word can count. -/
theorem fitsWord_astralText : FitsWord astralText .utf16 := by
  intro zeroLine lineText hline
  match zeroLine with
  | 0 =>
    obtain rfl : "a".toList = lineText := Option.some.inj hline
    decide
  | 1 =>
    obtain rfl : "𝄞b".toList = lineText := Option.some.inj hline
    decide
  | _ + 2 => cases hline

/-- In the second line the column behind the surrogate pair counts two units and one character. The
position of the server is the one that the client's column was converted to. -/
theorem astral_position_round_trips : lspToPublic astralText 1 2 .utf16 = some (2, 2) :=
  ((positions_round_trip astralText .utf16 fitsWord_astralText).2.2 2 2 (1, 2)).mp rfl

end WebCodex.Lsp
