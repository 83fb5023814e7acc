import WebCodex.Foundation.Framing

/-!
In the UTF-8 bytes of a text an ASCII byte is a character of its own, and all bytes of other
characters are higher (`utf8EncodeChar_cases`). So a text may be cut in front of an ASCII byte
(`byte_cases`). Every byte of a character but the first continues it, so a cut at any other place
leaves bytes that continue a character (`exists_of_cut`).
-/

namespace WebCodex.Foundation.Utf8

open String (utf8Len utf8Len_nil utf8Len_cons utf8Len_append utf8Len_eq_zero utf8EncodeChar)
open Foundation.Text (Str)
open Foundation.Framing (Bytes utf8Bytes length_utf8Bytes)

@[simp] theorem utf8Bytes_nil : utf8Bytes [] = [] := rfl

@[simp] theorem utf8Bytes_cons (c : Char) (text : Str) :
    utf8Bytes (c :: text) = utf8EncodeChar c ++ utf8Bytes text := List.flatMap_cons

@[simp] theorem utf8Bytes_append (first second : Str) :
    utf8Bytes (first ++ second) = utf8Bytes first ++ utf8Bytes second := List.flatMap_append

variable {text : Str}

theorem utf8Bytes_eq_nil : utf8Bytes text = [] ↔ text = [] := by
  rw [← List.length_eq_zero_iff, length_utf8Bytes, utf8Len_eq_zero]

/-- A character is one byte, or all its bytes are outside ASCII. -/
theorem utf8EncodeChar_cases (c : Char) :
    (∃ b, utf8EncodeChar c = [b]) ∨ ∀ b ∈ utf8EncodeChar c, 128 ≤ b := by
  have hhigh : ∀ n k, 128 ≤ k → k + n < 256 → (128 : UInt8) ≤ UInt8.ofNat (n + k) := by
    intro n k _ _
    change 128 ≤ (n + k) % 256
    omega
  unfold utf8EncodeChar
  dsimp only
  split_ifs
  · exact Or.inl ⟨_, rfl⟩
  all_goals
    right
    intro b hb
    simp only [List.mem_cons, List.not_mem_nil, or_false] at hb
  · rcases hb with rfl | rfl <;> exact hhigh _ _ (by omega) (by omega)
  · rcases hb with rfl | rfl | rfl <;> exact hhigh _ _ (by omega) (by omega)
  · rcases hb with rfl | rfl | rfl | rfl <;> exact hhigh _ _ (by omega) (by omega)

variable {b : UInt8}

def IsContinuation (b : UInt8) : Prop := 128 ≤ b ∧ b < 192

instance (b : UInt8) : Decidable (IsContinuation b) := by
  unfold IsContinuation
  infer_instance

/-- A character is one byte that starts it, and bytes that continue it. -/
theorem utf8EncodeChar_eq_cons (c : Char) :
    ∃ first rest, utf8EncodeChar c = first :: rest ∧ ¬ IsContinuation first ∧
      ∀ b ∈ rest, IsContinuation b := by
  have hcontinues : ∀ n, IsContinuation (UInt8.ofNat (n % 64 + 128)) := by
    intro n
    simp only [IsContinuation, UInt8.le_iff_toNat_le, UInt8.lt_iff_toNat_lt, UInt8.toNat_ofNat']
    simp
    omega
  have hstarts : ∀ n, n % 256 < 128 ∨ 192 ≤ n % 256 → ¬ IsContinuation (UInt8.ofNat n) := by
    intro n _
    simp only [IsContinuation, UInt8.le_iff_toNat_le, UInt8.lt_iff_toNat_lt, UInt8.toNat_ofNat']
    simp
    omega
  unfold utf8EncodeChar
  dsimp only
  split_ifs with h₁ h₂ h₃
  all_goals
    refine ⟨_, _, rfl, hstarts _ (by omega), ?_⟩
    simp only [List.forall_mem_cons, hcontinues, List.not_mem_nil, false_imp_iff, implies_true,
      and_self]

/-- The bytes of a text start with one character only. -/
theorem utf8EncodeChar_append_inj {c d : Char} {x y : Bytes}
    (h : utf8EncodeChar c ++ x = utf8EncodeChar d ++ y) : c = d ∧ x = y := by
  have hdecode := congrArg (fun bytes : Bytes ↦ bytes.toByteArray.utf8DecodeChar? 0) h
  simp only [List.toByteArray_append, ByteArray.utf8DecodeChar?_utf8EncodeChar_append] at hdecode
  obtain rfl := Option.some.inj hdecode
  exact ⟨rfl, List.append_cancel_left h⟩

/-- Where the bytes of a text are cut, the character that is cut leaves bytes that continue it. -/
theorem exists_of_cut {front back : Bytes} (h : utf8Bytes text = front ++ back) :
    ∃ first second junk, text = first ++ second ∧ back = junk ++ utf8Bytes second ∧
      (∀ b ∈ junk, IsContinuation b) ∧ utf8Bytes first = front ++ junk := by
  induction text generalizing front with
  | nil =>
    obtain ⟨rfl, rfl⟩ := List.append_eq_nil_iff.mp h.symm
    exact ⟨[], [], [], rfl, rfl, by simp, rfl⟩
  | cons c text ih =>
    rw [utf8Bytes_cons] at h
    rcases List.append_eq_append_iff.mp h with ⟨_, rfl, hrest⟩ | ⟨junk, hc, rfl⟩
    · obtain ⟨first, second, junk, rfl, rfl, hjunk, hfirst⟩ := ih hrest
      exact ⟨c :: first, second, junk, rfl, rfl, hjunk, by
        rw [utf8Bytes_cons, hfirst, List.append_assoc]⟩
    · cases front with
      | nil => exact ⟨[], c :: text, [], rfl, by simpa using hc.symm, by simp, rfl⟩
      | cons _ front =>
        obtain ⟨_, _, htail, -, hcontinues⟩ := utf8EncodeChar_eq_cons c
        refine ⟨[c], text, junk, rfl, rfl, fun other hother ↦
          hcontinues other ?_, by simpa using hc⟩
        rw [htail, List.cons_append] at hc
        rw [(List.cons.inj hc).2]
        exact List.mem_append_right front hother

/-- The byte of a sign belongs to no other character. -/
theorem mem_utf8EncodeChar (sign : Char) {c : Char} (hsign : utf8EncodeChar sign = [b])
    (hb : b < 128) :
    b ∈ utf8EncodeChar c ↔ c = sign := by
  constructor
  · intro hmem
    rcases utf8EncodeChar_cases c with ⟨_, hone⟩ | hhigh
    · rw [hone, List.mem_singleton] at hmem
      have hsame : utf8EncodeChar c ++ [] = utf8EncodeChar sign ++ [] := by rw [hone, hsign, hmem]
      exact (utf8EncodeChar_append_inj hsame).1
    · exact absurd hb (UInt8.not_lt.mpr (hhigh b hmem))
  · rintro rfl
    simp [hsign]

theorem mem_utf8Bytes (sign : Char) (hsign : utf8EncodeChar sign = [b]) (hb : b < 128) :
    b ∈ utf8Bytes text ↔ sign ∈ text := by
  rw [utf8Bytes, List.mem_flatMap]
  constructor
  · rintro ⟨_, _, hmem⟩
    rwa [← (mem_utf8EncodeChar sign hsign hb).mp hmem]
  · exact fun h ↦ ⟨sign, h, (mem_utf8EncodeChar sign hsign hb).mpr rfl⟩

/-- An ASCII byte is as often in the bytes of a text as its character in the text. -/
theorem count_utf8Bytes (sign : Char) (hsign : utf8EncodeChar sign = [b]) (hb : b < 128)
    (text : Str) :
    (utf8Bytes text).count b = text.count sign := by
  induction text with
  | nil => rfl
  | cons c _ ih =>
    rw [utf8Bytes_cons, List.count_append, ih]
    by_cases hc : c = sign
    · rw [hc, hsign, List.count_singleton_self, List.count_cons_self, Nat.add_comm]
    · rw [List.count_cons_of_ne hc, List.count_eq_zero.mpr, Nat.zero_add]
      exact fun hmem ↦ hc ((mem_utf8EncodeChar sign hsign hb).mp hmem)

end WebCodex.Foundation.Utf8
