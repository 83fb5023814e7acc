import WebCodex.Foundation.Text

/-!
A digest over several fields hashes each field behind its length. The text that is hashed then says
where each field ends: from two equal framings one reads off equal fields, one after the other
(`frame_append_inj`), also when their number is not known before (`flatMap_frame_inj`).
-/

namespace WebCodex.Foundation.Framing

open Foundation.Text

abbrev Bytes := List UInt8

def utf8Bytes (s : Str) : Bytes := s.flatMap String.utf8EncodeChar

theorem utf8Bytes_injective : Function.Injective utf8Bytes := by
  intro s t h
  have hencode : s.utf8Encode = t.utf8Encode := congrArg List.toByteArray h
  have hdecode := congrArg ByteArray.utf8Decode? hencode
  rw [List.utf8Decode?_utf8Encode, List.utf8Decode?_utf8Encode] at hdecode
  exact congrArg Array.toList (Option.some.inj hdecode)

theorem length_utf8Bytes (s : Str) : (utf8Bytes s).length = String.utf8Len s := by
  induction s with
  | nil => rfl
  | cons _ _ ih =>
    simp only [utf8Bytes, List.flatMap_cons, List.length_append,
      String.length_utf8EncodeChar] at ih ⊢
    rw [ih, String.utf8Len_cons, Nat.add_comm]

def be64 (n : ℕ) : Bytes :=
  [n / 2 ^ 56, n / 2 ^ 48, n / 2 ^ 40, n / 2 ^ 32, n / 2 ^ 24, n / 2 ^ 16, n / 2 ^ 8, n].map
    UInt8.ofNat

theorem length_be64 (n : ℕ) : (be64 n).length = 8 := rfl

theorem be64_inj {n m : ℕ} (hn : n < 2 ^ 64) (hm : m < 2 ^ 64) (h : be64 n = be64 m) : n = m := by
  have hbyte : ∀ a b : ℕ, UInt8.ofNat a = UInt8.ofNat b → a % 256 = b % 256 := by
    intro a b hab
    simpa using congrArg UInt8.toNat hab
  simp only [be64, List.map_cons, List.map_nil, List.cons.injEq, and_true] at h
  obtain ⟨h7, h6, h5, h4, h3, h2, h1, h0⟩ := h
  have := hbyte _ _ h7
  have := hbyte _ _ h6
  have := hbyte _ _ h5
  have := hbyte _ _ h4
  have := hbyte _ _ h3
  have := hbyte _ _ h2
  have := hbyte _ _ h1
  have := hbyte _ _ h0
  omega

def frame (field : Bytes) : Bytes := be64 field.length ++ field

theorem frame_append_inj {a b x y : Bytes} (ha : a.length < 2 ^ 64) (hb : b.length < 2 ^ 64)
    (h : frame a ++ x = frame b ++ y) : a = b ∧ x = y := by
  simp only [frame, List.append_assoc] at h
  obtain ⟨hlength, hrest⟩ := List.append_inj h (by simp [length_be64])
  exact List.append_inj hrest (be64_inj ha hb hlength)

/-- Framings of two sequences of fields, without a count. -/
theorem flatMap_frame_inj {fields others : List Bytes} (hfields : ∀ a ∈ fields, a.length < 2 ^ 64)
    (hothers : ∀ b ∈ others, b.length < 2 ^ 64)
    (h : fields.flatMap frame = others.flatMap frame) : fields = others := by
  induction fields generalizing others with
  | nil =>
    cases others with
    | nil => rfl
    | cons => simp [frame, be64] at h
  | cons a _ ih =>
    cases others with
    | nil => simp [frame, be64] at h
    | cons b =>
      simp only [List.flatMap_cons] at h
      obtain ⟨rfl, hrest⟩ := frame_append_inj (hfields a List.mem_cons_self)
        (hothers b List.mem_cons_self) h
      have htail := ih (fun c hc ↦ hfields c (List.mem_cons_of_mem _ hc))
        (fun c hc ↦ hothers c (List.mem_cons_of_mem _ hc)) hrest
      rw [htail]

end WebCodex.Foundation.Framing
