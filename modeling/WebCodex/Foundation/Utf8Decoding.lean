import WebCodex.Foundation.Utf8

/-!
A first byte says how many bytes follow it and in what bounds they lie (`following`). So bytes start
with the bytes of a character, with a sequence that is broken however they go on, or with one that
may still be completed (`firstSequence`). Decoding stops at the first sequence that is not a
character's (`fromUtf8`).
-/

namespace WebCodex.Foundation.Utf8

open String (utf8EncodeChar)
open Foundation.Text (Str)
open Foundation.Framing (Bytes utf8Bytes)

/-- The bounds of the bytes that follow a first byte, or nothing where no character starts with
it. -/
def following (first : UInt8) : Option (List (ℕ × ℕ)) :=
  let n := first.toNat
  if n < 0x80 then some []
  else if n < 0xC2 then none
  else if n < 0xE0 then some [(0x80, 0xBF)]
  else if n < 0xF0 then
    some [(if n = 0xE0 then 0xA0 else 0x80, if n = 0xED then 0x9F else 0xBF), (0x80, 0xBF)]
  else if n < 0xF5 then
    some [(if n = 0xF0 then 0x90 else 0x80, if n = 0xF4 then 0x8F else 0xBF), (0x80, 0xBF),
      (0x80, 0xBF)]
  else none

inductive Continuing where
  | complete
  | broken (length : ℕ)
  | incomplete

/-- Compares bytes with the bounds, when some have been seen already. -/
def continuing : List (ℕ × ℕ) → ℕ → Bytes → Continuing
  | [], _, _ => .complete
  | _ :: _, _, [] => .incomplete
  | (low, high) :: bounds, seen, b :: rest =>
    if low ≤ b.toNat ∧ b.toNat ≤ high then continuing bounds (seen + 1) rest else .broken seen

def scalar : Bytes → ℕ
  | [a] => a.toNat
  | [a, b] => a.toNat % 32 * 64 + b.toNat % 64
  | [a, b, c] => a.toNat % 16 * 4096 + b.toNat % 64 * 64 + c.toNat % 64
  | [a, b, c, d] => a.toNat % 8 * 262144 + b.toNat % 64 * 4096 + c.toNat % 64 * 64 + d.toNat % 64
  | _ => 0

/-- What bytes start with; a broken sequence has a length. -/
inductive Sequence where
  | character (c : Char) (rest : Bytes)
  | broken (length : ℕ)
  | incomplete

def firstSequence : Bytes → Sequence
  | [] => .incomplete
  | first :: rest =>
    match following first with
    | none => .broken 1
    | some bounds =>
      match continuing bounds 1 rest with
      | .complete =>
        .character (Char.ofNat (scalar (first :: rest.take bounds.length)))
          (rest.drop bounds.length)
      | .broken length => .broken length
      | .incomplete => .incomplete

variable {first b d e : UInt8} {bytes rest more : Bytes} {bounds : List (ℕ × ℕ)} {seen : ℕ}
    {c : Char}
  {text : Str}

theorem continuing_append (h : continuing bounds seen bytes ≠ .incomplete) (more : Bytes) :
    continuing bounds seen (bytes ++ more) = continuing bounds seen bytes := by
  fun_induction continuing bounds seen bytes with
  | case1 => rfl
  | case2 => exact absurd rfl h
  | case3 _ _ _ _ _ _ hbounds ih => rw [List.cons_append, continuing, if_pos hbounds, ih h]
  | case4 _ _ _ _ _ _ hbounds => rw [List.cons_append, continuing, if_neg hbounds]

/-- A continuation is as long as its bounds are many. -/
theorem length_of_complete (h : continuing bounds seen bytes = .complete) :
    bounds.length ≤ bytes.length := by
  fun_induction continuing bounds seen bytes with
  | case1 => exact Nat.zero_le _
  | case2 | case4 => cases h
  | case3 _ _ _ _ _ _ _ ih => exact Nat.succ_le_succ (ih h)

theorem length_of_incomplete (h : continuing bounds seen bytes = .incomplete) :
    bytes.length < bounds.length := by
  fun_induction continuing bounds seen bytes with
  | case1 | case4 => cases h
  | case2 => exact Nat.zero_lt_succ _
  | case3 _ _ _ _ _ _ _ ih => exact Nat.succ_lt_succ (ih h)

theorem length_following (h : following first = some bounds) : bounds.length ≤ 3 := by
  unfold following at h
  dsimp only at h
  split_ifs at h <;> obtain rfl := Option.some.inj h <;> decide

/-! ### Characters -/

theorem toNat_ofNat_of_isValidChar {n : ℕ} (h : n.isValidChar) : (Char.ofNat n).val.toNat = n := by
  rw [Char.ofNat, dif_pos h]
  rfl

theorem ofNat_eq {n : ℕ} (h : n = first.toNat) : UInt8.ofNat n = first := by
  rw [h, UInt8.ofNat_toNat]

theorem isValidChar_iff {n : ℕ} : n.isValidChar ↔ n < 0xD800 ∨ 0xDFFF < n ∧ n < 0x110000 := Iff.rfl

theorem utf8EncodeChar_scalar_one (h : first.toNat < 0x80) :
    utf8EncodeChar (Char.ofNat (scalar [first])) = [first] := by
  have hvalid : (scalar [first]).isValidChar := isValidChar_iff.mpr (by
    rw [scalar]
    omega)
  rw [utf8EncodeChar, toNat_ofNat_of_isValidChar hvalid]
  rw [scalar] at *
  rw [if_pos (by omega), UInt8.ofNat_toNat]

theorem utf8EncodeChar_scalar_two (hfirst : 0xC2 ≤ first.toNat ∧ first.toNat < 0xE0)
    (hb : 0x80 ≤ b.toNat ∧ b.toNat ≤ 0xBF) :
    utf8EncodeChar (Char.ofNat (scalar [first, b])) = [first, b] := by
  have hvalid : (scalar [first, b]).isValidChar := isValidChar_iff.mpr (by
    rw [scalar]
    omega)
  rw [utf8EncodeChar, toNat_ofNat_of_isValidChar hvalid]
  rw [scalar] at *
  rw [if_neg (by omega), if_pos (by omega), ofNat_eq, ofNat_eq]
  all_goals omega

theorem utf8EncodeChar_scalar_three (hfirst : 0xE0 ≤ first.toNat ∧ first.toNat < 0xF0)
    (hlow : (if first.toNat = 0xE0 then 0xA0 else 0x80) ≤ b.toNat)
    (hhigh : b.toNat ≤ if first.toNat = 0xED then 0x9F else 0xBF)
    (hd : 0x80 ≤ d.toNat ∧ d.toNat ≤ 0xBF) :
    utf8EncodeChar (Char.ofNat (scalar [first, b, d])) = [first, b, d] := by
  have hscalar : scalar [first, b, d] =
      (first.toNat - 0xE0) * 4096 + (b.toNat - 0x80) * 64 + (d.toNat - 0x80) := by
    rw [scalar]
    split_ifs at hlow hhigh <;> omega
  have hvalid : (scalar [first, b, d]).isValidChar := isValidChar_iff.mpr (by
    split_ifs at hlow hhigh <;> omega)
  rw [utf8EncodeChar, toNat_ofNat_of_isValidChar hvalid, hscalar]
  rw [if_neg (by split_ifs at hlow hhigh <;> omega), if_neg (by split_ifs at hlow hhigh <;> omega),
    if_pos (by split_ifs at hlow hhigh <;> omega), ofNat_eq, ofNat_eq, ofNat_eq]
  all_goals split_ifs at hlow hhigh <;> omega

theorem utf8EncodeChar_scalar_four (hfirst : 0xF0 ≤ first.toNat ∧ first.toNat < 0xF5)
    (hlow : (if first.toNat = 0xF0 then 0x90 else 0x80) ≤ b.toNat)
    (hhigh : b.toNat ≤ if first.toNat = 0xF4 then 0x8F else 0xBF)
    (hd : 0x80 ≤ d.toNat ∧ d.toNat ≤ 0xBF)
    (he : 0x80 ≤ e.toNat ∧ e.toNat ≤ 0xBF) :
    utf8EncodeChar (Char.ofNat (scalar [first, b, d, e])) = [first, b, d, e] := by
  have hscalar : scalar [first, b, d, e] = (first.toNat - 0xF0) * 262144 + (b.toNat - 0x80) * 4096 +
      (d.toNat - 0x80) * 64 + (e.toNat - 0x80) := by
    rw [scalar]
    split_ifs at hlow hhigh <;> omega
  have hvalid : (scalar [first, b, d, e]).isValidChar := isValidChar_iff.mpr (by
    split_ifs at hlow hhigh <;> omega)
  rw [utf8EncodeChar, toNat_ofNat_of_isValidChar hvalid, hscalar]
  rw [if_neg (by split_ifs at hlow hhigh <;> omega), if_neg (by split_ifs at hlow hhigh <;> omega),
    if_neg (by split_ifs at hlow hhigh <;> omega), ofNat_eq, ofNat_eq, ofNat_eq, ofNat_eq]
  all_goals split_ifs at hlow hhigh <;> omega

theorem continuing_cons_eq_complete {low high : ℕ}
    (h : continuing ((low, high) :: bounds) seen bytes = .complete) :
    ∃ b rest, bytes = b :: rest ∧ (low ≤ b.toNat ∧ b.toNat ≤ high) ∧
      continuing bounds (seen + 1) rest = .complete := by
  cases bytes with
  | nil => cases h
  | cons b rest =>
    rw [continuing] at h
    split_ifs at h with hbounds
    exact ⟨b, rest, rfl, hbounds, h⟩

/-- The first bytes that some character has. -/
theorem following_eq_some (h : following first = some bounds) : (first.toNat < 0x80 ∧ bounds = []) ∨
    ((0xC2 ≤ first.toNat ∧ first.toNat < 0xE0) ∧ bounds = [(0x80, 0xBF)]) ∨
    ((0xE0 ≤ first.toNat ∧ first.toNat < 0xF0) ∧ bounds =
      [(if first.toNat = 0xE0 then 0xA0 else 0x80, if first.toNat = 0xED then 0x9F else 0xBF),
        (0x80, 0xBF)]) ∨
    ((0xF0 ≤ first.toNat ∧ first.toNat < 0xF5) ∧ bounds =
      [(if first.toNat = 0xF0 then 0x90 else 0x80, if first.toNat = 0xF4 then 0x8F else 0xBF),
        (0x80, 0xBF), (0x80, 0xBF)]) := by
  unfold following at h
  by_cases h₁ : first.toNat < 0x80
  · rw [if_pos h₁] at h
    exact .inl ⟨h₁, (Option.some.inj h).symm⟩
  rw [if_neg h₁] at h
  by_cases h₂ : first.toNat < 0xC2
  · rw [if_pos h₂] at h
    cases h
  rw [if_neg h₂] at h
  by_cases h₃ : first.toNat < 0xE0
  · rw [if_pos h₃] at h
    exact .inr (.inl ⟨⟨Nat.not_lt.mp h₂, h₃⟩, (Option.some.inj h).symm⟩)
  rw [if_neg h₃] at h
  by_cases h₄ : first.toNat < 0xF0
  · rw [if_pos h₄] at h
    exact .inr (.inr (.inl ⟨⟨Nat.not_lt.mp h₃, h₄⟩, (Option.some.inj h).symm⟩))
  rw [if_neg h₄] at h
  by_cases h₅ : first.toNat < 0xF5
  · rw [if_pos h₅] at h
    exact .inr (.inr (.inr ⟨⟨Nat.not_lt.mp h₄, h₅⟩, (Option.some.inj h).symm⟩))
  · rw [if_neg h₅] at h
    cases h

/-- Within the bounds, the bytes are those of a character. -/
theorem utf8EncodeChar_scalar (h : following first = some bounds)
    (hcomplete : continuing bounds 1 rest = .complete) :
    utf8EncodeChar (Char.ofNat (scalar (first :: rest.take bounds.length))) =
      first :: rest.take bounds.length := by
  rcases following_eq_some h with ⟨hfirst, rfl⟩ | ⟨hfirst, rfl⟩ | ⟨hfirst, rfl⟩ | ⟨hfirst, rfl⟩
  · exact utf8EncodeChar_scalar_one hfirst
  · obtain ⟨b, rest, rfl, hb, -⟩ := continuing_cons_eq_complete hcomplete
    exact utf8EncodeChar_scalar_two hfirst hb
  · obtain ⟨b, rest, rfl, hb, hcomplete⟩ := continuing_cons_eq_complete hcomplete
    obtain ⟨d, rest, rfl, hd, -⟩ := continuing_cons_eq_complete hcomplete
    exact utf8EncodeChar_scalar_three hfirst hb.1 hb.2 hd
  · obtain ⟨b, rest, rfl, hb, hcomplete⟩ := continuing_cons_eq_complete hcomplete
    obtain ⟨d, rest, rfl, hd, hcomplete⟩ := continuing_cons_eq_complete hcomplete
    obtain ⟨_, rest, rfl, he, -⟩ := continuing_cons_eq_complete hcomplete
    exact utf8EncodeChar_scalar_four hfirst hb.1 hb.2 hd he

theorem toNat_ofNat_of_lt {n : ℕ} (hn : n < 256) : (UInt8.ofNat n).toNat = n := by
  rw [UInt8.toNat_ofNat', Nat.mod_eq_of_lt hn]

theorem following_three (h : 0xE0 ≤ first.toNat ∧ first.toNat < 0xF0) : following first = some
      [(if first.toNat = 0xE0 then 0xA0 else 0x80, if first.toNat = 0xED then 0x9F else 0xBF),
        (0x80, 0xBF)] := by
  rw [following, if_neg (by omega), if_neg (by omega), if_neg (by omega), if_pos (by omega)]

theorem following_four (h : 0xF0 ≤ first.toNat ∧ first.toNat < 0xF5) : following first = some
      [(if first.toNat = 0xF0 then 0x90 else 0x80, if first.toNat = 0xF4 then 0x8F else 0xBF),
        (0x80, 0xBF), (0x80, 0xBF)] := by
  rw [following, if_neg (by omega), if_neg (by omega), if_neg (by omega), if_neg (by omega),
    if_pos (by omega)]

/-- The bytes of a character are within the bounds. -/
theorem following_utf8EncodeChar (c : Char) :
    ∃ first rest bounds, utf8EncodeChar c = first :: rest ∧ following first = some bounds ∧
      bounds.length = rest.length ∧ continuing bounds 1 rest = .complete := by
  have hvalid : c.val.toNat < 0xD800 ∨ 0xDFFF < c.val.toNat ∧ c.val.toNat < 0x110000 := c.valid
  unfold utf8EncodeChar
  dsimp only
  split_ifs with h₁ h₂ h₃
  · refine ⟨_, _, [], rfl, ?_, rfl, rfl⟩
    rw [following, toNat_ofNat_of_lt (by omega), if_pos (by omega)]
  · refine ⟨_, _, [(0x80, 0xBF)], rfl, ?_, rfl, ?_⟩
    · rw [following, toNat_ofNat_of_lt (by omega), if_neg (by omega), if_neg (by omega),
        if_pos (by omega)]
    · rw [continuing, toNat_ofNat_of_lt (by omega), if_pos (by omega), continuing]
  · have hfirst : (UInt8.ofNat (c.val.toNat / 4096 % 0x10 + 0xe0)).toNat = _ :=
      toNat_ofNat_of_lt (by omega)
    refine ⟨_, _, _, rfl, following_three (by omega), rfl, ?_⟩
    rw [continuing, continuing, continuing, hfirst, toNat_ofNat_of_lt (by omega),
      toNat_ofNat_of_lt (by omega), if_pos (by split_ifs <;> omega), if_pos (by omega)]
  · have hfirst : (UInt8.ofNat (c.val.toNat / 262144 % 8 + 0xf0)).toNat = _ :=
      toNat_ofNat_of_lt (by omega)
    refine ⟨_, _, _, rfl, following_four (by omega), rfl, ?_⟩
    rw [continuing, continuing, continuing, continuing, hfirst, toNat_ofNat_of_lt (by omega),
      toNat_ofNat_of_lt (by omega), toNat_ofNat_of_lt (by omega), if_pos (by split_ifs <;> omega),
      if_pos (by omega), if_pos (by omega)]

/-! ### The first sequence of bytes -/

theorem firstSequence_cons (h : following first = some bounds) :
    firstSequence (first :: rest) = match continuing bounds 1 rest with
      | .complete =>
        .character (Char.ofNat (scalar (first :: rest.take bounds.length)))
          (rest.drop bounds.length)
      | .broken length => .broken length
      | .incomplete => .incomplete := by
  rw [firstSequence, h]

/-- A character in front is one whose bytes are in front. -/
theorem firstSequence_eq_character :
    firstSequence bytes = .character c rest ↔ bytes = utf8EncodeChar c ++ rest := by
  have hfront : ∀ {bytes c rest}, firstSequence bytes = .character c rest →
      bytes = utf8EncodeChar c ++ rest := by
    intro bytes c rest h
    cases bytes with
    | nil => cases h
    | cons first =>
      cases hfollowing : following first with
      | none =>
        rw [firstSequence, hfollowing] at h
        cases h
      | some =>
        rw [firstSequence_cons hfollowing] at h
        split at h
        · next hcomplete =>
          obtain ⟨rfl, rfl⟩ := Sequence.character.inj h
          rw [utf8EncodeChar_scalar hfollowing hcomplete, List.cons_append, List.take_append_drop]
        · cases h
        · cases h
  refine ⟨hfront, ?_⟩
  rintro rfl
  -- The bytes of the character are within the bounds, so some character is found; it is this one.
  obtain ⟨first, _, bounds, hbytes, hfollowing, -, hcomplete⟩ := following_utf8EncodeChar c
  obtain ⟨other, rest', hother⟩ : ∃ other rest',
      firstSequence (utf8EncodeChar c ++ rest) = .character other rest' := by
    rw [hbytes, List.cons_append, firstSequence_cons hfollowing,
      continuing_append (by rw [hcomplete]; exact nofun), hcomplete]
    exact ⟨_, _, rfl⟩
  obtain ⟨rfl, rfl⟩ := utf8EncodeChar_append_inj (hfront hother)
  exact hother

/-- A broken sequence is broken however the bytes go on. -/
theorem firstSequence_append_of_broken {length : ℕ} (h : firstSequence bytes = .broken length)
    (more : Bytes) :
    firstSequence (bytes ++ more) = .broken length := by
  cases bytes with
  | nil => cases h
  | cons first =>
    cases hfollowing : following first with
    | none =>
      rw [firstSequence, hfollowing] at h
      rw [List.cons_append, firstSequence, hfollowing, ← h]
    | some =>
      rw [firstSequence_cons hfollowing] at h
      split at h
      · cases h
      · next hbroken =>
        rw [List.cons_append, firstSequence_cons hfollowing,
          continuing_append (by rw [hbroken]; exact nofun), hbroken, ← h]
      · cases h

/-- A sequence that may still be completed is shorter than any character that starts with its first
byte. -/
theorem firstSequence_eq_incomplete (h : firstSequence (first :: rest) = .incomplete) :
    ∃ bounds, following first = some bounds ∧ rest.length < bounds.length := by
  cases hfollowing : following first with
  | none =>
    rw [firstSequence, hfollowing] at h
    cases h
  | some bounds =>
    rw [firstSequence_cons hfollowing] at h
    split at h
    · cases h
    · cases h
    · next hincomplete => exact ⟨bounds, rfl, length_of_incomplete hincomplete⟩

theorem length_of_firstSequence_character (h : firstSequence bytes = .character c rest) :
    rest.length < bytes.length := by
  rw [firstSequence_eq_character.mp h, List.length_append, String.length_utf8EncodeChar]
  exact Nat.lt_add_of_pos_left c.utf8Size_pos

/-! ### Decoding -/

/-- The characters that bytes start with, and the bytes behind them. -/
def decoded (bytes : Bytes) : Str × Bytes :=
  match _ : firstSequence bytes with
  | .character c rest => (c :: (decoded rest).1, (decoded rest).2)
  | .broken _ => ([], bytes)
  | .incomplete => ([], bytes)
termination_by bytes.length
decreasing_by all_goals exact length_of_firstSequence_character ‹_›

structure Utf8Error where
  validUpTo : ℕ
  errorLen : Option ℕ

def fromUtf8 (bytes : Bytes) : Except Utf8Error Str :=
  match decoded bytes with
  | (text, []) => .ok text
  | (_, rest) =>
    .error
      { validUpTo := bytes.length - rest.length
        errorLen := match firstSequence rest with
          | .broken length => some length
          | _ => none }

theorem decoded_of_character (h : firstSequence bytes = .character c rest) :
    decoded bytes = (c :: (decoded rest).1, (decoded rest).2) := by
  rw [decoded]
  split
  · next other rest' hother =>
    obtain ⟨rfl, rfl⟩ := Sequence.character.inj (h.symm.trans hother)
    rfl
  · next hother => cases h.symm.trans hother
  · next hother => cases h.symm.trans hother

theorem decoded_of_ne (h : ∀ c rest, firstSequence bytes ≠ .character c rest) :
    decoded bytes = ([], bytes) := by
  rw [decoded]
  split
  · next c rest hcharacter => exact absurd hcharacter (h c rest)
  · rfl
  · rfl

@[simp] theorem decoded_nil : decoded [] = ([], []) := decoded_of_ne nofun

@[simp] theorem decoded_utf8Bytes_append (text : Str) (rest : Bytes) :
    decoded (utf8Bytes text ++ rest) = (text ++ (decoded rest).1, (decoded rest).2) := by
  induction text with
  | nil => rfl
  | cons c text ih =>
    have hfirst : firstSequence (utf8Bytes (c :: text) ++ rest) = .character c
        (utf8Bytes text ++ rest) :=
      firstSequence_eq_character.mpr (by rw [utf8Bytes_cons, List.append_assoc])
    rw [decoded_of_character hfirst, ih]
    rfl

/-- What was decoded is what the bytes start with, and behind it is no character. -/
theorem decoded_spec (bytes : Bytes) : bytes = utf8Bytes (decoded bytes).1 ++ (decoded bytes).2 ∧
      ∀ c rest, firstSequence (decoded bytes).2 ≠ .character c rest := by
  fun_induction decoded bytes with
  | case1 _ _ _ hfirst ih =>
    refine ⟨?_, ih.2⟩
    rw [utf8Bytes_cons, List.append_assoc, ← ih.1]
    exact firstSequence_eq_character.mp hfirst
  | case2 _ _ hfirst => exact ⟨rfl, fun c rest h ↦ nomatch hfirst.symm.trans h⟩
  | case3 _ hfirst => exact ⟨rfl, fun c rest h ↦ nomatch hfirst.symm.trans h⟩

/-- Bytes are accepted as the text that they are the bytes of. -/
theorem fromUtf8_eq_ok : fromUtf8 bytes = .ok text ↔ bytes = utf8Bytes text := by
  unfold fromUtf8
  constructor
  · intro h
    have hspec := (decoded_spec bytes).1
    split at h
    · next text' hdecoded =>
      obtain rfl := Except.ok.inj h
      rwa [hdecoded, List.append_nil] at hspec
    · cases h
  · rintro rfl
    have hdecoded : decoded (utf8Bytes text) = (text, []) := by
      simpa using decoded_utf8Bytes_append text []
    rw [hdecoded]

/-- Bytes that are not accepted are a text and behind it a sequence that is broken or may be
completed. -/
theorem fromUtf8_eq_error {error : Utf8Error} (h : fromUtf8 bytes = .error error) :
    ∃ text rest, bytes = utf8Bytes text ++ rest ∧ rest ≠ [] ∧
      error.validUpTo = (utf8Bytes text).length ∧
      ((∃ length, firstSequence rest = .broken length ∧ error.errorLen = some length) ∨
        firstSequence rest = .incomplete ∧ error.errorLen = none) := by
  obtain ⟨hbytes, hnone⟩ := decoded_spec bytes
  unfold fromUtf8 at h
  split at h
  · cases h
  · next text rest hrest hdecoded =>
    rw [hdecoded] at hbytes hnone
    obtain rfl := Except.error.inj h
    refine ⟨text, rest, hbytes, fun hnil ↦ hrest hnil, ?_, ?_⟩
    · rw [hbytes, List.length_append, Nat.add_sub_cancel]
    · dsimp only at hnone ⊢
      cases hfirst : firstSequence rest with
      | character c rest' => exact absurd hfirst (hnone c rest')
      | broken length => exact .inl ⟨length, rfl, rfl⟩
      | incomplete => exact .inr ⟨rfl, rfl⟩

/-- A text that starts with another one goes on with a text. -/
theorem utf8Bytes_append_eq {front other : Str} (h : utf8Bytes front ++ bytes = utf8Bytes other) :
    ∃ rest, other = front ++ rest ∧ bytes = utf8Bytes rest := by
  have hother : decoded (utf8Bytes other) = (other, []) := by
    simpa using decoded_utf8Bytes_append other []
  rw [← h, decoded_utf8Bytes_append] at hother
  obtain ⟨hfront, hnone⟩ := Prod.mk.inj hother
  refine ⟨(decoded bytes).1, hfront.symm, ?_⟩
  simpa [hnone] using (decoded_spec bytes).1

/-- The bytes are not those of a text, however they go on. -/
def StartsNoText (bytes : Bytes) : Prop := ∀ more text, bytes ++ more ≠ utf8Bytes text

theorem StartsNoText.append_left (h : StartsNoText bytes) (front : Str) :
    StartsNoText (utf8Bytes front ++ bytes) := by
  intro more _ htext
  rw [List.append_assoc] at htext
  obtain ⟨rest, -, hrest⟩ := utf8Bytes_append_eq htext
  exact h more rest hrest

theorem StartsNoText.append_right (h : StartsNoText bytes) (more : Bytes) :
    StartsNoText (bytes ++ more) :=
  fun others text htext ↦ h (more ++ others) text (by rw [← List.append_assoc, htext])

theorem startsNoText_of_broken {length : ℕ} (h : firstSequence bytes = .broken length) :
    StartsNoText bytes := by
  intro more text htext
  have hbroken := firstSequence_append_of_broken h more
  rw [htext] at hbroken
  cases text with
  | nil => cases hbroken
  | cons c text => cases (firstSequence_eq_character.mpr (utf8Bytes_cons c text)).symm.trans hbroken

end WebCodex.Foundation.Utf8
