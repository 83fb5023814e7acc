import Mathlib.Data.List.DropRight
import WebCodex.Foundation.Text

/-!
Trimming removes Unicode white space (`isWhitespace`, the `White_Space` property) at one end of a
text or at both. A text whose ends are not white space is its own trim, and stays its own trim under
any longer text that keeps its last character (`trimEnd_append_of_trimmed`).
-/

namespace WebCodex.Foundation.Text

/-- `char::is_control`: the general category `Cc`. -/
def isControl (c : Char) : Bool := c.toNat ≤ 0x1F || (0x7F ≤ c.toNat && c.toNat ≤ 0x9F)

def isLowerHex (c : Char) : Bool := ('0' ≤ c && c ≤ '9') || ('a' ≤ c && c ≤ 'f')

/-- The Unicode property `White_Space`. -/
def isWhitespace (c : Char) : Bool :=
  let n := c.toNat
  (0x9 ≤ n && n ≤ 0xD) || n == 0x20 || n == 0x85 || n == 0xA0 || n == 0x1680 ||
    (0x2000 ≤ n && n ≤ 0x200A) || n == 0x2028 || n == 0x2029 || n == 0x202F || n == 0x205F ||
    n == 0x3000

def trimStart (s : Str) : Str := s.dropWhile isWhitespace

def trimEnd (s : Str) : Str := s.rdropWhile isWhitespace

def trim (s : Str) : Str := trimStart (trimEnd s)

def isBlank (s : Str) : Bool := (trim s).isEmpty

variable {c : Char}

/-- A text is its own trim at the end when its last character is not white space. -/
theorem trimEnd_append_singleton (hc : isWhitespace c = false) (s : Str) :
    trimEnd (s ++ [c]) = s ++ [c] :=
  List.rdropWhile_concat_neg _ s c (by simp [hc])

variable {s : Str}

theorem trimEnd_of_trim_eq (htrim : trim s = s) : trimEnd s = s := by
  have hlength : (trim s).length ≤ (trimEnd s).length := List.length_dropWhile_le _ _
  have hprefixed : trimEnd s <+: s := List.rdropWhile_prefix _ s
  rw [htrim] at hlength
  exact hprefixed.eq_of_length_le hlength

theorem trimStart_of_trim_eq (htrim : trim s = s) : trimStart s = s := by
  have htrim' := htrim
  rwa [trim, trimEnd_of_trim_eq htrim] at htrim'

/-- Trimming twice is trimming once. -/
theorem trim_trim (s : Str) : trim (trim s) = trim s := by
  by_cases hempty : trim s = []
  · rw [hempty]
    rfl
  · have hsuffix : trim s <:+ trimEnd s := List.dropWhile_suffix _
    have hend : trimEnd (trim s) = trim s := by
      refine List.rdropWhile_eq_self_iff.mpr fun hne ↦ ?_
      have hne' : trimEnd s ≠ [] := by
        intro hnil
        rw [hnil] at hsuffix
        exact hempty (List.suffix_nil.mp hsuffix)
      rw [hsuffix.getLast hne]
      exact List.rdropWhile_last_not _ _ hne'
    have hstart : trimStart (trim s) = trim s := List.dropWhile_idempotent _ _
    rw [trim, hend, hstart]

/-- A text is its own trim when neither end of it is white space. -/
theorem trim_eq_self_iff :
    trim s = s ↔ (∀ c ∈ s.head?, isWhitespace c = false) ∧ ∀ c ∈ s.getLast?,
      isWhitespace c = false := by
  constructor
  · intro htrim
    constructor
    · intro c hc
      obtain ⟨_, rfl⟩ := List.head?_eq_some_iff.mp hc
      have hstart := List.dropWhile_eq_self_iff.mp (trimStart_of_trim_eq htrim)
        (List.length_pos_of_mem List.mem_cons_self)
      simpa using hstart
    · intro c hc
      obtain ⟨_, rfl⟩ := List.getLast?_eq_some_iff.mp hc
      have hend := List.rdropWhile_eq_self_iff.mp (trimEnd_of_trim_eq htrim) (by simp)
      simpa using hend
  · rintro ⟨hstart, hend⟩
    have htrimEnd : trimEnd s = s := by
      refine List.rdropWhile_eq_self_iff.mpr fun hne ↦ ?_
      simp [hend _ (List.getLast?_eq_some_getLast hne)]
    rw [trim, htrimEnd]
    cases s with
    | nil => rfl
    | cons c => exact List.dropWhile_cons_of_neg (by simp [hstart c rfl])

/-- A text without white space is its own trim. -/
theorem trim_of_forall (h : ∀ c ∈ s, isWhitespace c = false) : trim s = s :=
  trim_eq_self_iff.mpr ⟨fun c hc ↦ h c (List.mem_of_head? hc), fun c hc ↦
    h c (List.mem_of_getLast? hc)⟩

/-- In front of a trimmed text that is not empty, nothing is trimmed at the end. Assumes: the text
is its own trim and not empty. -/
theorem trimEnd_append_of_trimmed (htrim : trim s = s) (hne : s ≠ []) (front : Str) :
    trimEnd (front ++ s) = front ++ s := by
  have hlast : ¬ isWhitespace (s.getLast hne) = true :=
    List.rdropWhile_eq_self_iff.mp (trimEnd_of_trim_eq htrim) hne
  rw [← List.dropLast_concat_getLast hne, ← List.append_assoc]
  exact trimEnd_append_singleton (by simpa using hlast) _

theorem trim_cons_of_whitespace (hc : isWhitespace c = true) (hne : s ≠ []) (htrim : trim s = s) :
    trim (c :: s) = s := by
  rw [trim, ← List.singleton_append, trimEnd_append_of_trimmed htrim hne, trimStart,
    List.singleton_append, List.dropWhile_cons_of_pos hc]
  exact trimStart_of_trim_eq htrim

/-- A text is blank when all its characters are white space. -/
theorem isBlank_iff : isBlank s = true ↔ ∀ c ∈ s, isWhitespace c = true := by
  simp only [isBlank, trim, trimStart, List.isEmpty_iff, List.dropWhile_eq_nil_iff]
  constructor
  · intro hall
    have hnil : trimEnd s = [] := by
      by_contra hne
      exact List.rdropWhile_last_not _ s hne (hall _ (List.getLast_mem hne))
    exact List.rdropWhile_eq_nil_iff.mp hnil
  · intro hall c hc
    exact hall c ((List.rdropWhile_prefix _ s).subset hc)

theorem isBlank_cons_of_not_whitespace (hc : isWhitespace c = false) (s : Str) :
    isBlank (c :: s) = false := by
  rw [← Bool.not_eq_true, isBlank_iff]
  intro hall
  simp [hall c (by simp)] at hc

/-- Replaces every pair of a carriage return and a line feed by the line feed. -/
def replaceCrlf : Str → Str
  | '\r' :: '\n' :: s => '\n' :: replaceCrlf s
  | c :: s => c :: replaceCrlf s
  | [] => []

/-- Replaces every line feed by a carriage return and a line feed. -/
def expandLf (s : Str) : Str := s.flatMap fun c ↦ if c = '\n' then ['\r', '\n'] else [c]

theorem replaceCrlf_cons_of_ne (hc : c ≠ '\r') (s : Str) :
    replaceCrlf (c :: s) = c :: replaceCrlf s := by
  rw [replaceCrlf]
  rintro _ ⟨⟩
  exact absurd rfl hc

theorem replaceCrlf_append (hcr : '\r' ∉ s) (t : Str) :
    replaceCrlf (s ++ t) = s ++ replaceCrlf t := by
  induction s with
  | nil => rfl
  | cons _ _ ih =>
    simp only [List.mem_cons, not_or] at hcr
    rw [List.cons_append, replaceCrlf_cons_of_ne (fun hsame ↦ hcr.1 hsame.symm), ih hcr.2,
      List.cons_append]

/-- A text without carriage returns has no pair to replace. -/
theorem replaceCrlf_of_notMem (hcr : '\r' ∉ s) : replaceCrlf s = s := by
  simpa [replaceCrlf] using replaceCrlf_append hcr []

/-- Lines joined by carriage return and line feed normalize to the lines joined by line feeds.
Assumes: no line holds a carriage return. -/
theorem replaceCrlf_intercalate {pieces : List Str} (hcr : ∀ piece ∈ pieces, '\r' ∉ piece) :
    replaceCrlf (List.intercalate ['\r', '\n'] pieces) = List.intercalate ['\n'] pieces := by
  induction pieces with
  | nil => rfl
  | cons piece pieces ih =>
    have hpiece := hcr piece (by simp)
    cases pieces with
    | nil => simpa using replaceCrlf_of_notMem hpiece
    | cons =>
      have htail := ih fun other hother ↦ hcr other (by simp [hother])
      rw [List.intercalate_cons_cons, List.intercalate_cons_cons, List.append_assoc,
        replaceCrlf_append hpiece]
      simp [replaceCrlf, htail]

/-- Lines with their endings: each one followed by a line feed. -/
def terminated (selectedLines : List Str) : Str :=
    (selectedLines.map fun line ↦ line ++ ['\n']).flatten

theorem intercalate_append_newline (line : Str) (rest : List Str) :
    List.intercalate ['\n'] (line :: rest) ++ ['\n'] = terminated (line :: rest) := by
  induction rest generalizing line with
  | nil => simp [terminated]
  | cons next _ ih =>
    have htail := ih next
    rw [List.intercalate_cons_cons, List.append_assoc, htail]
    simp [terminated]

theorem mem_intercalate_newline {pieces : List Str} (hmem : c ∈ List.intercalate ['\n'] pieces) :
    c = '\n' ∨ ∃ piece ∈ pieces, c ∈ piece := by
  induction pieces with
  | nil => simp at hmem
  | cons piece pieces ih =>
    cases pieces with
    | nil => exact Or.inr ⟨piece, by simp, by simpa using hmem⟩
    | cons =>
      rw [List.intercalate_cons_cons] at hmem
      simp only [List.mem_append, List.mem_singleton] at hmem
      rcases hmem with (hpiece | hnewline) | hrest
      · exact Or.inr ⟨piece, by simp, hpiece⟩
      · exact Or.inl hnewline
      · rcases ih hrest with hnewline | ⟨other, hother, hc⟩
        · exact Or.inl hnewline
        · exact Or.inr ⟨other, by simp [hother], hc⟩

end WebCodex.Foundation.Text
