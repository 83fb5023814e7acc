import WebCodex.Foundation.Utf8

/-!
What lies between two byte offsets, as characters (`textBetween`) and as bytes (`bytesBetween`). A
slice that the language would refuse has no value: offsets out of order or beyond the end, and for
characters an offset inside one.
-/

namespace WebCodex.Foundation.Text

open String (utf8Len)
open Foundation.Framing (Bytes utf8Bytes length_utf8Bytes)
open Foundation.Utf8

/-- The characters between two byte offsets, `&text[start..stop]`. -/
def textBetween (text : Str) (start stop : ℕ) : Option Str := do
  let (_, rest) ← splitAtByte start text
  let (between, _) ← (if start ≤ stop then splitAtByte (stop - start) rest else none)
  some between

/-- The bytes between two indexes, `&bytes[start..stop]`. -/
def bytesBetween (bytes : Bytes) (start stop : ℕ) : Option Bytes :=
  if start ≤ stop ∧ stop ≤ bytes.length then some ((bytes.drop start).take (stop - start)) else none

theorem textBetween_eq_some_iff {text between : Str} {start stop : ℕ} :
    textBetween text start stop = some between ↔
      ∃ front back, text = front ++ (between ++ back) ∧ utf8Len front = start ∧
        utf8Len front + utf8Len between = stop := by
  simp only [textBetween, Option.bind_eq_bind, Option.bind_eq_some_iff, Prod.exists,
    Option.some.injEq]
  constructor
  · rintro ⟨front, _, hfront, _, back, hmiddle, rfl⟩
    obtain ⟨rfl, rfl⟩ := splitAtByte_eq_some_iff.mp hfront
    split_ifs at hmiddle with hle
    obtain ⟨rfl, _⟩ := splitAtByte_eq_some_iff.mp hmiddle
    exact ⟨front, back, rfl, rfl, by omega⟩
  · rintro ⟨front, back, rfl, rfl, rfl⟩
    refine ⟨front, between ++ back, splitAtByte_eq_some_iff.mpr ⟨rfl, rfl⟩, between, back, ?_, rfl⟩
    rw [if_pos (Nat.le_add_right _ _), Nat.add_sub_cancel_left]
    exact splitAtByte_eq_some_iff.mpr ⟨rfl, rfl⟩

/-- Between the bytes of two stretches of a text are the bytes of the characters between them. -/
theorem bytesBetween_utf8Bytes (front between back : Str) :
    bytesBetween (utf8Bytes (front ++ (between ++ back))) (utf8Len front)
      (utf8Len (front ++ between)) =
      some (utf8Bytes between) := by
  have hle : utf8Len front ≤ utf8Len (front ++ between) := by
    rw [String.utf8Len_append]
    exact Nat.le_add_right _ _
  have hbound : utf8Len (front ++ between) ≤ (utf8Bytes (front ++ (between ++ back))).length := by
    rw [length_utf8Bytes, ← List.append_assoc, String.utf8Len_append (front ++ between)]
    exact Nat.le_add_right _ _
  rw [bytesBetween, if_pos ⟨hle, hbound⟩, utf8Bytes_append,
    utf8Bytes_append, ← length_utf8Bytes front, List.drop_left, length_utf8Bytes,
    String.utf8Len_append, Nat.add_sub_cancel_left,
    ← length_utf8Bytes between, List.take_left]

/-- The line feeds among the bytes of a text are its own. -/
theorem count_newline_utf8Bytes (text : Str) : (utf8Bytes text).count 0x0a = newlines text :=
  count_utf8Bytes '\n' rfl (by decide) text

end WebCodex.Foundation.Text
