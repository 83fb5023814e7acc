import Mathlib
import WebCodex.Foundation.Fallible
import WebCodex.Foundation.Positional
import WebCodex.Foundation.Text

/-!
A token names a job, an epoch and a revision of its observations, and in its second version the
next line of each stream. It is written as fields between colons, with numbers in base 36 or, in
the legacy version, decimal. The parser reads a text only when the token that it builds is written
as that text, so tokens and accepted texts are in bijection (`parse_encode`, `encode_of_parse`);
every token passes because the numerals are unique (`parseBase36_eq_ok`).
-/

namespace WebCodex.JobObservation

open Foundation
open Foundation.Text (Str)
open String (utf8Len)

def legacyTokenPrefix : Str := "wjob1".toList
def tokenV2Prefix : Str := "wj2a".toList
def maxJobObservationTokenLen : ℕ := 192
def maxJobIdLen : ℕ := 80
def maxEpochLen : ℕ := 64

inductive JobObservationTokenError where
  | malformed | oversized | wrongJob

/-- The two cursors are both present or both absent. -/
structure JobObservationToken where
  (jobId epoch : Str)
  revision : UInt64
  (stdoutCursor stderrCursor : Option UInt64)
  paired : stdoutCursor.isSome = stderrCursor.isSome

def base36 : Numerals Char where
  base := 36
  letter d := if d < 10 then Char.ofNat ('0'.toNat + d) else Char.ofNat ('a'.toNat + d - 10)
  digit c :=
    if '0' ≤ c ∧ c ≤ '9' then some (c.toNat - '0'.toNat)
    else if 'a' ≤ c ∧ c ≤ 'z' then some (c.toNat - 'a'.toNat + 10)
    else none

/-- `Display` and `FromStr` of `u64`. -/
def decimal : Numerals Char where
  base := 10
  letter d := Char.ofNat ('0'.toNat + d)
  digit c := if '0' ≤ c ∧ c ≤ '9' then some (c.toNat - '0'.toNat) else none

/-- The loop of `encode_base36`, which fills its buffer from the end. -/
def encodeBase36Loop (value : ℕ) (encoded : Str) : Str :=
  if value = 0 then encoded
  else encodeBase36Loop (value / 36) (base36.letter (value % 36) :: encoded)

def encodeBase36 (value : UInt64) : Str :=
  if value = 0 then ['0'] else encodeBase36Loop value.toNat []

/-- The text is empty, or starts with a zero and goes on. -/
def badStart (value : Str) : Bool :=
  value.isEmpty || (decide (1 < utf8Len value) && value.head? == some '0')

def parseBase36 (value : Str) : Except JobObservationTokenError UInt64 := do
  ensure (!badStart value) .malformed
  let parsed ← required (base36.read (2 ^ 64) value) .malformed
  pure (UInt64.ofNat parsed)

def parseDecimal (value : Str) : Except JobObservationTokenError UInt64 := do
  ensure (!(badStart value || !value.all Char.isDigit)) .malformed
  let parsed ← required (decimal.read (2 ^ 64) value) .malformed
  pure (UInt64.ofNat parsed)

/-! ### Tokens -/

def isComponentChar (c : Char) : Bool := c.isAlphanum || c == '-' || c == '_' || c == '.'

def validateComponent (value : Str) (maxLen : ℕ) : Except JobObservationTokenError Unit := do
  ensure (!(value.isEmpty || decide (maxLen < utf8Len value))) .malformed
  ensure (value.all isComponentChar) .malformed

def joined (fields : List Str) : Str := [':'].intercalate fields

namespace JobObservationToken

def encode : JobObservationToken → Str
  | ⟨jobId, epoch, revision, some stdoutCursor, some stderrCursor, _⟩ =>
    joined [tokenV2Prefix, jobId, epoch, encodeBase36 revision, encodeBase36 stdoutCursor,
      encodeBase36 stderrCursor]
  | ⟨jobId, epoch, revision, none, none, _⟩ =>
    joined [legacyTokenPrefix, ['a'], jobId, epoch, decimal.render revision.toNat]

def build (jobId epoch : Str) (revision : UInt64) (stdoutCursor stderrCursor : Option UInt64) :
    Except JobObservationTokenError JobObservationToken :=
  if paired : stdoutCursor.isSome = stderrCursor.isSome then do
    ensure (!(stdoutCursor == some 0 || stderrCursor == some 0)) .malformed
    let token : JobObservationToken := ⟨jobId, epoch, revision, stdoutCursor, stderrCursor, paired⟩
    validateComponent token.jobId maxJobIdLen
    validateComponent token.epoch maxEpochLen
    ensure (!decide (maxJobObservationTokenLen < utf8Len token.encode)) .oversized
    pure token
  else .error .malformed

def new (jobId epoch : Str) (revision stdoutCursor stderrCursor : UInt64) :
    Except JobObservationTokenError JobObservationToken :=
  build jobId epoch revision (some stdoutCursor) (some stderrCursor)

def newLegacy (jobId epoch : Str) (revision : UInt64) :
    Except JobObservationTokenError JobObservationToken :=
  build jobId epoch revision none none

/-- Whatever field is missing, left over or wrong, the text is malformed. -/
def parseLegacy (value : Str) : Except JobObservationTokenError JobObservationToken :=
  match value.splitOn ':' with
  | [start, version, jobId, epoch, revision] => do
    ensure (start == legacyTokenPrefix) .malformed
    ensure (version == ['a']) .malformed
    let revision ← parseDecimal revision
    let token ← build jobId epoch revision none none
    ensure (token.encode == value) .malformed
    pure token
  | _ => .error .malformed

def parseV2 (value : Str) : Except JobObservationTokenError JobObservationToken :=
  match value.splitOn ':' with
  | [start, jobId, epoch, revision, stdoutCursor, stderrCursor] => do
    ensure (start == tokenV2Prefix) .malformed
    let revision ← parseBase36 revision
    let stdoutCursor ← parseBase36 stdoutCursor
    let stderrCursor ← parseBase36 stderrCursor
    let token ← build jobId epoch revision (some stdoutCursor) (some stderrCursor)
    ensure (token.encode == value) .malformed
    pure token
  | _ => .error .malformed

def parse (value : Str) : Except JobObservationTokenError JobObservationToken := do
  ensure (!(value.isEmpty || !value.all fun c ↦ decide (c.toNat < 128))) .malformed
  ensure (!decide (maxJobObservationTokenLen < utf8Len value)) .oversized
  if "wjob1:".toList.isPrefixOf value then parseLegacy value else parseV2 value

def isLegacy (token : JobObservationToken) : Bool := token.stdoutCursor.isNone

end JobObservationToken

/-! ### Numbers are read back -/

/-- A letter of a range is the one that stands as far behind its start. -/
theorem ofNat_of_range {first last c : Char} (h : first ≤ c ∧ c ≤ last) :
    Char.ofNat (first.toNat + (c.toNat - first.toNat)) = c ∧
      c.toNat - first.toNat ≤ last.toNat - first.toNat := by
  have hfirst : first.toNat ≤ c.toNat := h.1
  have hlast : c.toNat ≤ last.toNat := h.2
  refine ⟨?_, Nat.sub_le_sub_right hlast _⟩
  rw [Nat.add_sub_cancel' hfirst, Char.ofNat_toNat]

/-- Letters and digits of base 36 are inverse to each other, and no other character is a letter of
it. -/
theorem base36_lawful : base36.Lawful where
  base := by decide
  digit_letter := by decide
  letter_digit := by
    intro c _ h
    simp only [base36] at h ⊢
    split_ifs at h with hdigit hletter
    · obtain rfl := Option.some.inj h
      obtain ⟨hchar, hle⟩ := ofNat_of_range hdigit
      have hten : c.toNat - '0'.toNat < 10 := Nat.lt_succ_of_le hle
      exact ⟨hten.trans (by decide), by rw [if_pos hten, hchar]⟩
    · obtain rfl := Option.some.inj h
      obtain ⟨hchar, hle⟩ := ofNat_of_range hletter
      have hbound : c.toNat - 'a'.toNat ≤ 25 := hle
      refine ⟨by omega, ?_⟩
      rw [if_neg (by omega), ← Nat.add_assoc, Nat.add_sub_cancel, hchar]

/-- The same of the decimal digits. -/
theorem decimal_lawful : decimal.Lawful where
  base := by decide
  digit_letter := by decide
  letter_digit := by
    intro _ _ h
    simp only [decimal] at h ⊢
    split_ifs at h with hdigit
    obtain rfl := Option.some.inj h
    obtain ⟨hchar, hle⟩ := ofNat_of_range hdigit
    exact ⟨Nat.lt_succ_of_le hle, hchar⟩

/-- The loop puts the digits of its value, the most significant one first, in front of what it
has. -/
theorem encodeBase36Loop_eq (value : ℕ) (encoded : Str) : encodeBase36Loop value encoded =
      ((Nat.digits 36 value).reverse).map base36.letter ++ encoded := by
  fun_induction encodeBase36Loop value encoded with
  | case1 => simp
  | case2 _ _ hzero ih =>
    rw [ih, Nat.digits_def' (by decide) (Nat.pos_of_ne_zero hzero)]
    simp

/-- The encoder writes the canonical numeral, zero included. -/
theorem encodeBase36_eq_render (value : UInt64) :
    encodeBase36 value = base36.render value.toNat := by
  have hzero : value = 0 ↔ value.toNat = 0 := by
    rw [← UInt64.toNat_inj]
    rfl
  unfold encodeBase36 Numerals.render
  rw [encodeBase36Loop_eq, List.append_nil]
  simp only [hzero]
  rfl

/-- The check for leading zeros lets exactly the canonical spellings pass. -/
theorem badStart_eq_false (system : Numerals Char) (hzero : system.letter 0 = '0') {value : Str} :
    (!badStart value) = true ↔ system.Canonical value := by
  unfold badStart Numerals.Canonical
  rw [hzero]
  cases value with
  | nil => simp
  | cons c rest =>
    by_cases hc : c = '0'
    · subst hc
      have hsize : '0'.utf8Size = 1 := rfl
      cases rest with
      | nil => simp [hsize]
      | cons d =>
        have hpos := Char.utf8Size_pos d
        simp [hsize, hpos]
    · simp [hc]

/-- A word is read from a canonical spelling exactly when this is the one that is written for it. -/
theorem canonical_word_iff {system : Numerals Char} (hsystem : system.Lawful) {value : Str}
    {n : UInt64} :
    (system.Canonical value ∧ ∃ parsed, system.read (2 ^ 64) value = some parsed ∧
      UInt64.ofNat parsed = n) ↔ value = system.render n.toNat := by
  have hread {parsed : ℕ} : (system.Canonical value ∧ system.read (2 ^ 64) value = some parsed) ↔
      parsed < 2 ^ 64 ∧ value = system.render parsed :=
    Numerals.read_eq_some_iff hsystem (by decide)
  constructor
  · rintro ⟨hcanonical, parsed, hparsed, rfl⟩
    obtain ⟨hlt, rfl⟩ := hread.mp ⟨hcanonical, hparsed⟩
    rw [UInt64.toNat_ofNat', Nat.mod_eq_of_lt hlt]
  · intro hvalue
    obtain ⟨hcanonical, hparsed⟩ := hread.mpr ⟨n.toNat_lt, hvalue⟩
    exact ⟨hcanonical, n.toNat, hparsed, UInt64.ofNat_toNat⟩

/-- The base-36 decoder reads a numeral only from the spelling that the encoder writes. -/
theorem parseBase36_eq_ok {value : Str} {n : UInt64} :
    parseBase36 value = .ok n ↔ value = encodeBase36 n := by
  rw [encodeBase36_eq_render, ← canonical_word_iff base36_lawful]
  simp only [parseBase36, bind_eq_ok, ensure_eq_ok, required_eq_ok, badStart_eq_false base36 rfl,
    pure_eq_ok]
  constructor
  · rintro ⟨-, h⟩
    exact h
  · intro h
    exact ⟨(), h⟩

theorem all_isDigit_render (n : ℕ) : (decimal.render n).all Char.isDigit = true := by
  have hletter : ∀ d < 10, (decimal.letter d).isDigit = true := by decide
  rw [List.all_eq_true]
  intro _ hc
  unfold Numerals.render at hc
  split_ifs at hc
  · rw [List.mem_singleton.mp hc]
    rfl
  · obtain ⟨d, hd, rfl⟩ := List.mem_map.mp hc
    exact hletter d (Nat.digits_lt_base (by decide) (List.mem_reverse.mp hd))

/-- The decimal decoder of the older version also reads canonical spellings only. -/
theorem parseDecimal_eq_ok {value : Str} {n : UInt64} :
    parseDecimal value = .ok n ↔ value = decimal.render n.toNat := by
  have hdigits : value = decimal.render n.toNat → value.all Char.isDigit = true :=
    fun hvalue ↦ hvalue ▸ all_isDigit_render n.toNat
  rw [← canonical_word_iff decimal_lawful] at hdigits ⊢
  simp only [parseDecimal, bind_eq_ok, ensure_eq_ok, required_eq_ok, Bool.not_or, Bool.and_eq_true,
    badStart_eq_false decimal rfl, Bool.not_not, pure_eq_ok]
  constructor
  · rintro ⟨-, ⟨hcanonical, -⟩, h⟩
    exact ⟨hcanonical, h⟩
  · intro h
    exact ⟨(), ⟨h.1, hdigits h⟩, h.2⟩

/-! ### Fields and colons -/

theorem joined_cons (first second : Str) (rest : List Str) :
    joined (first :: second :: rest) = first ++ ':' :: joined (second :: rest) := by
  simp [joined, List.intercalate]

theorem joined_singleton (field : Str) : joined [field] = field := by
  simp [joined, List.intercalate]

/-- What is written is made of the letters of the fields, and colons. -/
theorem all_joined {p : Char → Bool} (hcolon : p ':' = true) {fields : List Str}
    (h : ∀ field ∈ fields, field.all p = true) : (joined fields).all p = true := by
  induction fields with
  | nil => rfl
  | cons _ rest ih =>
    obtain ⟨hfirst, hrest⟩ := List.forall_mem_cons.mp h
    cases rest with
    | nil => rwa [joined_singleton]
    | cons =>
      rw [joined_cons, List.all_append, List.all_cons, hfirst, hcolon, ih hrest]
      rfl

/-- A text in which a component could be written. -/
def IsField (field : Str) : Prop := field.all isComponentChar = true

/-- Fields of component characters are found again between the colons. -/
theorem splitOn_joined {fields : List Str} (hne : fields ≠ [])
    (h : ∀ field ∈ fields, IsField field) :
    (joined fields).splitOn ':' = fields := by
  refine List.splitOn_intercalate ':' (fun field hfield hcolon ↦ ?_) hne
  have hall := List.all_eq_true.mp (h field hfield) ':' hcolon
  exact absurd hall (by decide)

theorem ascii_of_isComponentChar {c : Char} (h : isComponentChar c = true) : c.toNat < 128 := by
  simp only [isComponentChar, Char.isAlphanum, Char.isAlpha, Char.isUpper, Char.isLower,
    Char.isDigit, Bool.or_eq_true, Bool.and_eq_true, decide_eq_true_eq, beq_iff_eq, ge_iff_le,
    UInt32.le_iff_toNat_le] at h
  rcases h with (((((⟨-, h⟩ | ⟨-, h⟩) | ⟨-, h⟩) | rfl) | rfl) | rfl)
  · exact h.trans_lt (by decide)
  · exact h.trans_lt (by decide)
  · exact h.trans_lt (by decide)
  all_goals decide

/-- Numerals are fields: none of their letters is a colon. -/
theorem isField_render {system : Numerals Char} (hsystem : system.Lawful)
    (hletters : ∀ d < system.base, isComponentChar (system.letter d) = true) (n : ℕ) :
    IsField (system.render n) := by
  rw [IsField, List.all_eq_true]
  intro _ hc
  unfold Numerals.render at hc
  split_ifs at hc
  · rw [List.mem_singleton.mp hc]
    exact hletters 0 (Nat.zero_lt_of_lt hsystem.base)
  · obtain ⟨d, hd, rfl⟩ := List.mem_map.mp hc
    exact hletters d (Nat.digits_lt_base hsystem.base (List.mem_reverse.mp hd))

theorem isField_encodeBase36 (n : UInt64) : IsField (encodeBase36 n) := by
  rw [encodeBase36_eq_render]
  exact isField_render base36_lawful (by decide) n.toNat

theorem isField_decimal (n : UInt64) : IsField (decimal.render n.toNat) :=
  isField_render decimal_lawful (by decide) n.toNat

theorem validateComponent_eq_ok {value : Str} {maxLen : ℕ} {result : Unit} :
    validateComponent value maxLen = .ok result ↔
      value ≠ [] ∧ utf8Len value ≤ maxLen ∧ IsField value := by
  simp [validateComponent, bind_eq_ok, IsField, and_assoc]

/-! ### Tokens and their texts -/

namespace JobObservationToken

structure Valid (token : JobObservationToken) : Prop where
  stdoutCursor : token.stdoutCursor ≠ some 0
  stderrCursor : token.stderrCursor ≠ some 0
  jobId : token.jobId ≠ [] ∧ utf8Len token.jobId ≤ maxJobIdLen ∧ IsField token.jobId
  epoch : token.epoch ≠ [] ∧ utf8Len token.epoch ≤ maxEpochLen ∧ IsField token.epoch
  length : utf8Len token.encode ≤ maxJobObservationTokenLen

/-- The fields between the colons of a token. -/
def fields : JobObservationToken → List Str
  | ⟨jobId, epoch, revision, some stdoutCursor, some stderrCursor, _⟩ =>
    [tokenV2Prefix, jobId, epoch, encodeBase36 revision, encodeBase36 stdoutCursor,
      encodeBase36 stderrCursor]
  | ⟨jobId, epoch, revision, none, none, _⟩ =>
    [legacyTokenPrefix, ['a'], jobId, epoch, decimal.render revision.toNat]

variable {token : JobObservationToken} {value : Str}

theorem encode_eq_joined (token : JobObservationToken) : token.encode = joined token.fields := by
  match token with
  | ⟨_, _, _, some _, some _, _⟩ => rfl
  | ⟨_, _, _, none, none, _⟩ => rfl

/-- A token is built exactly when its fields are valid, and it has the fields that were given. -/
theorem build_eq_ok {jobId epoch : Str} {revision : UInt64}
    {stdoutCursor stderrCursor : Option UInt64} :
    build jobId epoch revision stdoutCursor stderrCursor = .ok token ↔
      token.jobId = jobId ∧ token.epoch = epoch ∧ token.revision = revision ∧
        token.stdoutCursor = stdoutCursor ∧ token.stderrCursor = stderrCursor ∧ token.Valid := by
  unfold build
  split_ifs with hpaired
  · simp only [bind_eq_ok, ensure_eq_ok, validateComponent_eq_ok, Bool.not_eq_true',
      Bool.or_eq_false_iff, beq_eq_false_iff_ne, decide_eq_false_iff_not, not_lt]
    constructor
    · rintro ⟨_, ⟨hout, herr⟩, _, hjob, _, hepoch, _, hlength, htoken⟩
      obtain rfl := Except.ok.inj htoken
      exact ⟨rfl, rfl, rfl, rfl, rfl, hout, herr, hjob, hepoch, hlength⟩
    · rintro ⟨rfl, rfl, rfl, rfl, rfl, hvalid⟩
      exact ⟨(), ⟨hvalid.stdoutCursor, hvalid.stderrCursor⟩, (), hvalid.jobId, (), hvalid.epoch, (),
        hvalid.length, rfl⟩
  · refine iff_of_false (by rintro ⟨⟩) ?_
    rintro ⟨-, -, -, rfl, rfl, -⟩
    exact hpaired token.paired

/-- The fields of a valid token hold no colon, whatever its version is. -/
theorem isField_fields (hvalid : token.Valid) : ∀ field ∈ token.fields, IsField field := by
  have hjob := hvalid.jobId.2.2
  have hepoch := hvalid.epoch.2.2
  match token with
  | ⟨jobId, epoch, revision, some stdoutCursor, some stderrCursor, _⟩ =>
    simp only [fields, List.forall_mem_cons, List.not_mem_nil, false_imp_iff, implies_true,
      and_true]
    exact ⟨rfl, hjob, hepoch, isField_encodeBase36 _, isField_encodeBase36 _,
      isField_encodeBase36 _⟩
  | ⟨jobId, epoch, revision, none, none, _⟩ =>
    simp only [fields, List.forall_mem_cons, List.not_mem_nil, false_imp_iff, implies_true,
      and_true]
    exact ⟨rfl, rfl, hjob, hepoch, isField_decimal _⟩

/-- A written token is taken apart into its fields. -/
theorem splitOn_encode (hvalid : token.Valid) : token.encode.splitOn ':' = token.fields := by
  rw [encode_eq_joined]
  refine splitOn_joined ?_ (isField_fields hvalid)
  match token with
  | ⟨_, _, _, some _, some _, _⟩ => exact List.cons_ne_nil _ _
  | ⟨_, _, _, none, none, _⟩ => exact List.cons_ne_nil _ _

/-- A written token is ASCII, so that its bytes are its characters. -/
theorem ascii_encode (hvalid : token.Valid) :
    (token.encode.all fun c ↦ decide (c.toNat < 128)) = true := by
  rw [encode_eq_joined]
  refine all_joined (by decide) fun field hfield ↦ ?_
  rw [List.all_eq_true]
  intro c hc
  have hchar := List.all_eq_true.mp (isField_fields hvalid field hfield) c hc
  exact decide_eq_true (ascii_of_isComponentChar hchar)

/-- The six fields of a token with cursors; what was parsed is compared with what it would be
written as. -/
theorem parseV2_eq_ok : parseV2 value = .ok token ↔
      ∃ jobId epoch revision stdoutCursor stderrCursor, value.splitOn ':' =
        [tokenV2Prefix, jobId, epoch, encodeBase36 revision, encodeBase36 stdoutCursor,
          encodeBase36 stderrCursor] ∧
      build jobId epoch revision (some stdoutCursor) (some stderrCursor) = .ok token ∧
      token.encode = value := by
  unfold parseV2
  split
  · next start jobId epoch revision stdoutCursor stderrCursor hsplit =>
    simp only [hsplit, bind_eq_ok, ensure_eq_ok, beq_iff_eq, parseBase36_eq_ok, List.cons.injEq,
      and_true]
    constructor
    · rintro ⟨_, rfl, n, rfl, out, rfl, err, rfl, _, hbuild, _, hencode, htoken⟩
      obtain rfl := Except.ok.inj htoken
      exact ⟨jobId, epoch, n, out, err, ⟨rfl, rfl, rfl, rfl, rfl, rfl⟩, hbuild, hencode⟩
    · rintro ⟨_, _, n, out, err, ⟨rfl, rfl, rfl, rfl, rfl, rfl⟩, hbuild, hencode⟩
      exact ⟨(), rfl, n, rfl, out, rfl, err, rfl, token, hbuild, (), hencode, rfl⟩
  · next hother =>
    refine iff_of_false (by rintro ⟨⟩) ?_
    rintro ⟨jobId, epoch, n, out, err, hsplit, -⟩
    exact hother _ _ _ _ _ _ hsplit

/-- The five fields of a token without cursors. -/
theorem parseLegacy_eq_ok : parseLegacy value = .ok token ↔ ∃ jobId epoch revision,
      value.splitOn ':' = [legacyTokenPrefix, ['a'], jobId, epoch, decimal.render revision.toNat] ∧
      build jobId epoch revision none none = .ok token ∧ token.encode = value := by
  unfold parseLegacy
  split
  · next start version jobId epoch revision hsplit =>
    simp only [hsplit, bind_eq_ok, ensure_eq_ok, beq_iff_eq, parseDecimal_eq_ok, List.cons.injEq,
      and_true]
    constructor
    · rintro ⟨_, rfl, _, rfl, n, rfl, _, hbuild, _, hencode, htoken⟩
      obtain rfl := Except.ok.inj htoken
      exact ⟨jobId, epoch, n, ⟨rfl, rfl, rfl, rfl, rfl⟩, hbuild, hencode⟩
    · rintro ⟨_, _, n, ⟨rfl, rfl, rfl, rfl, rfl⟩, hbuild, hencode⟩
      exact ⟨(), rfl, (), rfl, n, rfl, token, hbuild, (), hencode, rfl⟩
  · next hother =>
    refine iff_of_false (by rintro ⟨⟩) ?_
    rintro ⟨jobId, epoch, n, hsplit, -⟩
    exact hother _ _ _ _ _ hsplit

/-- The start of a text tells its version. -/
theorem legacyStart_encode (token : JobObservationToken) :
    "wjob1:".toList.isPrefixOf token.encode = token.isLegacy ∧ token.encode ≠ [] := by
  match token with
  | ⟨_, _, _, some _, some _, _⟩ =>
    rw [encode, joined_cons]
    exact ⟨rfl, by simp⟩
  | ⟨_, _, _, none, none, _⟩ =>
    rw [encode, joined_cons]
    exact ⟨rfl, by simp⟩

/-- The parser of its version reads a token. -/
theorem parse_encode (hvalid : token.Valid) : parse token.encode = .ok token := by
  have hsplit := splitOn_encode hvalid
  have hbuild := build_eq_ok.mpr ⟨rfl, rfl, rfl, rfl, rfl, hvalid⟩
  obtain ⟨hstart, hne⟩ := legacyStart_encode token
  have hchecks : (!(token.encode.isEmpty || !token.encode.all fun c ↦ decide (c.toNat < 128))) =
    true ∧
      (!decide (maxJobObservationTokenLen < utf8Len token.encode)) = true := by
    rw [ascii_encode hvalid]
    simpa [hne] using hvalid.length
  unfold parse
  rw [hchecks.1, hchecks.2, ensure_true, ensure_true, ok_bind, ok_bind, hstart]
  match token with
  | ⟨jobId, epoch, revision, some stdoutCursor, some stderrCursor, _⟩ =>
    exact parseV2_eq_ok.mpr ⟨_, _, _, _, _, hsplit, hbuild, rfl⟩
  | ⟨jobId, epoch, revision, none, none, _⟩ =>
    exact parseLegacy_eq_ok.mpr ⟨_, _, _, hsplit, hbuild, rfl⟩

/-- What is read is written as it was, in the version of the text. -/
theorem encode_of_parse (h : parse value = .ok token) :
    token.encode = value ∧ token.Valid ∧ token.isLegacy = "wjob1:".toList.isPrefixOf value := by
  simp only [parse, bind_eq_ok] at h
  obtain ⟨_, -, _, -, h⟩ := h
  have hread : token.encode = value ∧ token.Valid := by
    split at h
    · obtain ⟨_, _, _, -, hbuild, hencode⟩ := parseLegacy_eq_ok.mp h
      exact ⟨hencode, (build_eq_ok.mp hbuild).2.2.2.2.2⟩
    · obtain ⟨_, _, _, _, _, -, hbuild, hencode⟩ := parseV2_eq_ok.mp h
      exact ⟨hencode, (build_eq_ok.mp hbuild).2.2.2.2.2⟩
  exact ⟨hread.1, hread.2, by rw [← hread.1, (legacyStart_encode token).1]⟩

/-- A token that one of the builders produced. -/
def Built (token : JobObservationToken) : Prop := (∃ jobId epoch revision stdoutCursor stderrCursor,
      new jobId epoch revision stdoutCursor stderrCursor = .ok token) ∨
    ∃ jobId epoch revision, newLegacy jobId epoch revision = .ok token

theorem built_iff_valid : token.Built ↔ token.Valid := by
  constructor
  · rintro (⟨_, _, _, _, _, h⟩ | ⟨_, _, _, h⟩)
    · exact (build_eq_ok.mp h).2.2.2.2.2
    · exact (build_eq_ok.mp h).2.2.2.2.2
  · intro hvalid
    have hbuild := build_eq_ok.mpr ⟨rfl, rfl, rfl, rfl, rfl, hvalid⟩
    match token with
    | ⟨_, _, _, some _, some _, _⟩ => exact Or.inl ⟨_, _, _, _, _, hbuild⟩
    | ⟨_, _, _, none, none, _⟩ => exact Or.inr ⟨_, _, _, hbuild⟩

end JobObservationToken

open JobObservationToken

/-- Tokens are a canonical codec: what the builders produce is read back from its text, which is not
too long; what is read is written as it was, in its version; and a base-36 number is read from one
spelling, which spells it without a carry beyond 64 bits. -/
theorem token_codec :
    (∀ token : JobObservationToken, token.Built →
        parse token.encode = .ok token ∧ utf8Len token.encode ≤ maxJobObservationTokenLen) ∧
      (∀ value token, parse value = .ok token →
        token.encode = value ∧ token.Built ∧
          token.isLegacy = "wjob1:".toList.isPrefixOf value) ∧
      ∀ value n, (parseBase36 value = .ok n ↔ value = encodeBase36 n) ∧
        (parseBase36 value = .ok n → ∃ digits : List ℕ, value.map base36.digit = digits.map some ∧
          n.toNat = Nat.ofDigits 36 digits.reverse) := by
  refine ⟨fun token hbuilt ↦ ?_, fun value token hparse ↦ ?_, fun value n ↦
    ⟨parseBase36_eq_ok, fun hparse ↦ ?_⟩⟩
  · have hvalid := built_iff_valid.mp hbuilt
    exact ⟨parse_encode hvalid, hvalid.length⟩
  · obtain ⟨hencode, hvalid, hversion⟩ := encode_of_parse hparse
    exact ⟨hencode, built_iff_valid.mpr hvalid, hversion⟩
  · obtain rfl := parseBase36_eq_ok.mp hparse
    have hread := Numerals.read_render base36_lawful n.toNat_lt
    rw [← encodeBase36_eq_render] at hread
    obtain ⟨digits, hdigits, hvalue, -⟩ :=
      (Numerals.foldlM_extend base36_lawful (by decide)).mp hread
    exact ⟨digits, hdigits, by rw [hvalue, Numerals.value_eq_ofDigits]; rfl⟩

end WebCodex.JobObservation
