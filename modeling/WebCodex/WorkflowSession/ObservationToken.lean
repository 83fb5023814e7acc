import WebCodex.Foundation.Fallible
import WebCodex.Foundation.Text

/-!
A token names a session and a revision of its message board. The eight bytes of the revision are
masked with a digest of the session id and stand between another digest of it and a tag that depends
on them. SHA-256 and the URL-safe base64 code are parameters (`TokenFunctions`). A token that was
encoded is parsed to its revision (`parseObservationToken_tokenText`).
-/

namespace WebCodex.WorkflowSession

open Foundation Foundation.Text

inductive SessionMessageObservationError where
  | malformedToken
  | oversizedToken
  | wrongSession
  | futureRevision
  | invalidObservationState
deriving DecidableEq

/-- The purposes for which `observation_digest` is used. -/
inductive DigestDomain where
  | binding
  | mask
  | tag
deriving DecidableEq

/-- `observation_digest`, and the base64 code of tokens. -/
structure TokenFunctions where
  observationDigest : DigestDomain → Str → List UInt8 → List UInt8
  encode : List UInt8 → Str
  decode : Str → Option (List UInt8)

/-- A digest has 32 bytes, and the code is that of base64 without padding: six bits to a letter,
every letter of one byte, and what is encoded can be decoded. -/
structure TokenFunctions.Lawful (functions : TokenFunctions) : Prop where
  digest : ∀ domain sessionId extra, (functions.observationDigest domain sessionId extra).length =
    32
  length : ∀ bytes, (functions.encode bytes).length = (bytes.length * 8 + 5) / 6
  ascii : ∀ bytes, ∀ c ∈ functions.encode bytes, c.toNat < 128
  decode : ∀ bytes, functions.decode (functions.encode bytes) = some bytes

def messageObservationTokenPrefix : Str := "wsm1_".toList
def messageObservationBindingBytes : ℕ := 16
def messageObservationRevisionBytes : ℕ := 8
def messageObservationTagBytes : ℕ := 16
def messageObservationPayloadBytes : ℕ :=
  messageObservationBindingBytes + messageObservationRevisionBytes + messageObservationTagBytes
def maxSessionMessageObservationTokenLen : ℕ := 192

/-- `to_be_bytes` of a 64-bit number. -/
def toBeBytes (value : ℕ) : List UInt8 :=
  [7, 6, 5, 4, 3, 2, 1, 0].map fun place ↦ UInt8.ofNat (value / 256 ^ place)

def fromBeBytes (bytes : List UInt8) : ℕ := bytes.foldl
    (fun value byte ↦ value * 256 + byte.toNat) 0

/-- Every byte is combined with the byte of the mask at its place. -/
def maskBytes (mask bytes : List UInt8) : List UInt8 := List.zipWith (· ^^^ ·) bytes mask

section Tokens

variable (functions : TokenFunctions) (sessionId : Str)

def tokenPayload (maskedRevision : List UInt8) : List UInt8 :=
  (functions.observationDigest .binding sessionId []).take messageObservationBindingBytes ++
    (maskedRevision ++
      (functions.observationDigest .tag sessionId maskedRevision).take messageObservationTagBytes)

def encodeObservationToken (revision : ℕ) : Except SessionMessageObservationError Str := do
  let mask := functions.observationDigest .mask sessionId []
  let token := messageObservationTokenPrefix ++
    functions.encode (tokenPayload functions sessionId (maskBytes mask (toBeBytes revision)))
  ensure (decide (String.utf8Len token ≤ maxSessionMessageObservationTokenLen))
    .invalidObservationState
  pure token

def parseObservationToken (value : Str) : Except SessionMessageObservationError ℕ := do
  ensure (decide (String.utf8Len value ≤ maxSessionMessageObservationTokenLen)) .oversizedToken
  ensure (messageObservationTokenPrefix.isPrefixOf value) .malformedToken
  let encoded := value.drop messageObservationTokenPrefix.length
  ensure (!encoded.isEmpty && encoded.all fun c ↦ decide (c.toNat < 128)) .malformedToken
  let payload ← required (functions.decode encoded) .malformedToken
  ensure (decide (payload.length = messageObservationPayloadBytes)) .malformedToken
  ensure (decide (payload.take messageObservationBindingBytes =
    (functions.observationDigest .binding sessionId []).take messageObservationBindingBytes))
    .wrongSession
  let maskedRevision := (payload.drop messageObservationBindingBytes).take
    messageObservationRevisionBytes
  ensure (decide (payload.drop (messageObservationBindingBytes + messageObservationRevisionBytes) =
    (functions.observationDigest .tag sessionId maskedRevision).take messageObservationTagBytes))
    .malformedToken
  pure (fromBeBytes (maskBytes (functions.observationDigest .mask sessionId []) maskedRevision))

end Tokens

theorem utf8Len_of_ascii {text : Str} (h : ∀ c ∈ text, c.toNat < 128) :
    String.utf8Len text = text.length := by
  induction text with
  | nil => rfl
  | cons c _ ih =>
    have hsize : c.utf8Size = 1 := by
      have hle : c.val ≤ 0x7f := by
        have hlt := h c (by simp)
        exact Nat.le_of_lt_succ hlt
      simp [Char.utf8Size, hle]
    rw [String.utf8Len_cons, ih fun other hother ↦ h other (by simp [hother]), hsize,
      List.length_cons]

@[simp] theorem length_toBeBytes (value : ℕ) : (toBeBytes value).length = 8 := rfl

theorem fromBeBytes_toBeBytes {value : ℕ} (h : value < 2 ^ 64) :
    fromBeBytes (toBeBytes value) = value := by
  have hjoin : ∀ place, value / 256 ^ (place + 1) * 256 + value / 256 ^ place % 2 ^ 8 =
      value / 256 ^ place := fun place ↦ by
    rw [pow_succ, ← Nat.div_div_eq_div_mul]
    exact Nat.div_add_mod' _ 256
  have htop : value / 256 ^ 7 < 2 ^ 8 := by omega
  simp only [fromBeBytes, toBeBytes, List.map_cons, List.map_nil, List.foldl_cons, List.foldl_nil,
    UInt8.toNat_ofNat']
  rw [Nat.mod_eq_of_lt htop, Nat.zero_mul, Nat.zero_add, hjoin 6, hjoin 5, hjoin 4, hjoin 3,
    hjoin 2, hjoin 1, hjoin 0, pow_zero, Nat.div_one]

/-- Masking twice gives the bytes back. -/
theorem maskBytes_maskBytes {mask bytes : List UInt8} (h : bytes.length ≤ mask.length) :
    maskBytes mask (maskBytes mask bytes) = bytes := by
  induction bytes generalizing mask with
  | nil => rfl
  | cons _ _ ih =>
    cases mask with
    | nil => exact absurd h (by simp)
    | cons _ others =>
      have hrest := @ih others (by simpa using h)
      simp only [maskBytes, List.zipWith_cons_cons] at hrest ⊢
      rw [hrest, UInt8.xor_assoc, UInt8.xor_self, UInt8.xor_zero]

theorem length_maskBytes {mask bytes : List UInt8} (h : bytes.length ≤ mask.length) :
    (maskBytes mask bytes).length = bytes.length := by
  simp [maskBytes, h]

section RoundTrip

variable {functions : TokenFunctions} (sessionId : Str)

def maskedRevision (functions : TokenFunctions) (sessionId : Str) (revision : ℕ) : List UInt8 :=
  maskBytes (functions.observationDigest .mask sessionId []) (toBeBytes revision)

theorem length_maskedRevision (h : functions.Lawful) (revision : ℕ) :
    (maskedRevision functions sessionId revision).length = 8 := by
  rw [maskedRevision, length_maskBytes (by simp [h.digest]), length_toBeBytes]

theorem length_tokenPayload (h : functions.Lawful) {masked : List UInt8}
    (hmasked : masked.length = 8) :
    (tokenPayload functions sessionId masked).length = messageObservationPayloadBytes := by
  simp [tokenPayload, h.digest, hmasked, messageObservationPayloadBytes,
    messageObservationBindingBytes, messageObservationTagBytes, messageObservationRevisionBytes]

def tokenText (functions : TokenFunctions) (sessionId : Str) (revision : ℕ) : Str :=
  messageObservationTokenPrefix ++
    functions.encode
      (tokenPayload functions sessionId (maskedRevision functions sessionId revision))

theorem utf8Len_tokenText (h : functions.Lawful) (revision : ℕ) :
    String.utf8Len (tokenText functions sessionId revision) = 59 := by
  have hpayload := length_tokenPayload sessionId h (length_maskedRevision sessionId h revision)
  rw [tokenText, String.utf8Len_append, utf8Len_of_ascii (h.ascii _), h.length, hpayload]
  rfl

/-- Every token can be encoded. -/
theorem encodeObservationToken_eq (h : functions.Lawful) (revision : ℕ) :
    encodeObservationToken functions sessionId revision =
      .ok (tokenText functions sessionId revision) := by
  have hlength := utf8Len_tokenText sessionId h revision
  unfold tokenText maskedRevision at hlength ⊢
  unfold encodeObservationToken
  simp only [hlength]
  rfl

/-- The parts of the bytes of a token. -/
theorem tokenPayload_parts (h : functions.Lawful) {masked : List UInt8}
    (hmasked : masked.length = 8) :
    (tokenPayload functions sessionId masked).take messageObservationBindingBytes =
        (functions.observationDigest .binding sessionId []).take messageObservationBindingBytes ∧
      ((tokenPayload functions sessionId masked).drop messageObservationBindingBytes).take
        messageObservationRevisionBytes = masked ∧
      (tokenPayload functions sessionId masked).drop
          (messageObservationBindingBytes + messageObservationRevisionBytes) =
        (functions.observationDigest .tag sessionId masked).take messageObservationTagBytes := by
  have hbinding : ((functions.observationDigest .binding sessionId []).take
      messageObservationBindingBytes).length = messageObservationBindingBytes := by
    simp [h.digest, messageObservationBindingBytes]
  have hrevision : masked.length = messageObservationRevisionBytes := hmasked
  have hrest : (tokenPayload functions sessionId masked).drop messageObservationBindingBytes =
      masked ++ (functions.observationDigest .tag sessionId masked).take
        messageObservationTagBytes := by
    unfold tokenPayload
    rw [List.drop_append_of_le_length (by rw [hbinding]), List.drop_of_length_le (by rw [hbinding]),
      List.nil_append]
  refine ⟨?_, ?_, ?_⟩
  · unfold tokenPayload
    rw [List.take_append_of_le_length (by rw [hbinding]), List.take_of_length_le (by rw [hbinding])]
  · rw [hrest, List.take_append_of_le_length (by rw [hrevision]),
      List.take_of_length_le (by rw [hrevision])]
  · rw [← List.drop_drop, hrest, List.drop_append_of_le_length (by rw [hrevision]),
      List.drop_of_length_le (by rw [hrevision]), List.nil_append]

/-- A token is parsed to its revision. -/
theorem parseObservationToken_tokenText (h : functions.Lawful) {revision : ℕ}
    (hrevision : revision < 2 ^ 64) :
    parseObservationToken functions sessionId (tokenText functions sessionId revision) =
      .ok revision := by
  have hmasked := length_maskedRevision sessionId h revision
  have hpayload := length_tokenPayload sessionId h hmasked
  obtain ⟨hbinding, hbytes, htag⟩ := tokenPayload_parts sessionId h hmasked
  have hencoded : (tokenText functions sessionId revision).drop
    messageObservationTokenPrefix.length =
      functions.encode
          (tokenPayload functions sessionId (maskedRevision functions sessionId revision)) :=
    List.drop_left
  have hstart : messageObservationTokenPrefix.isPrefixOf (tokenText functions sessionId revision) =
      true :=
    List.isPrefixOf_iff_prefix.mpr (List.prefix_append _ _)
  have hascii : ((functions.encode (tokenPayload functions sessionId
      (maskedRevision functions sessionId revision))).all fun c ↦ decide (c.toNat < 128)) = true :=
    List.all_eq_true.mpr fun c hc ↦ decide_eq_true (h.ascii _ c hc)
  have hsome : (functions.encode (tokenPayload functions sessionId
      (maskedRevision functions sessionId revision))).isEmpty = false := by
    have hlength := h.length (tokenPayload functions sessionId
      (maskedRevision functions sessionId revision))
    rw [hpayload] at hlength
    rw [List.isEmpty_eq_false_iff_exists_mem]
    exact List.length_pos_iff_exists_mem.mp (by rw [hlength]; decide)
  have hbytesBack : fromBeBytes (maskBytes (functions.observationDigest .mask sessionId [])
      (maskedRevision functions sessionId revision)) = revision := by
    rw [maskedRevision, maskBytes_maskBytes (by simp [h.digest]), fromBeBytes_toBeBytes hrevision]
  have hlength : decide (String.utf8Len (tokenText functions sessionId revision) ≤
      maxSessionMessageObservationTokenLen) = true := by
    rw [utf8Len_tokenText sessionId h]
    rfl
  simp only [parseObservationToken, bind_eq_ok, ensure_eq_ok, required_eq_ok, hencoded, pure_eq_ok]
  refine ⟨(), hlength, (), hstart, (), by rw [hsome, hascii]; rfl, _, h.decode _, (),
    decide_eq_true hpayload, (), decide_eq_true hbinding, (), ?_, ?_⟩
  · rw [hbytes]
    exact decide_eq_true htag
  · rw [hbytes]
    exact hbytesBack

end RoundTrip

def urlSafeAlphabet : List Char :=
  "ABCDEFGHIJKLMNOPQRSTUVWXYZabcdefghijklmnopqrstuvwxyz0123456789-_".toList

def urlSafeLetter (digit : ℕ) : Char := urlSafeAlphabet.getD digit 'A'

def urlSafeDigit (letter : Char) : Option ℕ := urlSafeAlphabet.findIdx? fun other ↦ other == letter

/-- URL-safe base64 without padding: three bytes are four letters. -/
def urlSafeEncode : List UInt8 → Str
  | first :: second :: third :: rest =>
    let value := first.toNat * 65536 + second.toNat * 256 + third.toNat
    urlSafeLetter (value / 262144) :: urlSafeLetter (value / 4096 % 64) ::
      urlSafeLetter (value / 64 % 64) :: urlSafeLetter (value % 64) :: urlSafeEncode rest
  | [first, second] =>
    let value := first.toNat * 1024 + second.toNat * 4
    [urlSafeLetter (value / 4096), urlSafeLetter (value / 64 % 64), urlSafeLetter (value % 64)]
  | [first] =>
    let value := first.toNat * 16
    [urlSafeLetter (value / 64), urlSafeLetter (value % 64)]
  | [] => []

/-- The bytes of a code. Bits that no byte uses have to be zero. -/
def urlSafeDecode : Str → Option (List UInt8)
  | first :: second :: third :: fourth :: rest => do
    let value := (((← urlSafeDigit first) * 64 + (← urlSafeDigit second)) * 64 +
      (← urlSafeDigit third)) * 64 + (← urlSafeDigit fourth)
    let bytes ← urlSafeDecode rest
    pure (UInt8.ofNat (value / 65536) :: UInt8.ofNat (value / 256) :: UInt8.ofNat value :: bytes)
  | [first, second, third] => do
    let value := ((← urlSafeDigit first) * 64 + (← urlSafeDigit second)) * 64 +
      (← urlSafeDigit third)
    if value % 4 = 0 then pure [UInt8.ofNat (value / 1024), UInt8.ofNat (value / 4)] else none
  | [first, second] => do
    let value := (← urlSafeDigit first) * 64 + (← urlSafeDigit second)
    if value % 16 = 0 then pure [UInt8.ofNat (value / 16)] else none
  | [_] => none
  | [] => some []

/-- The letters are different, so each is found at its place. -/
theorem urlSafeDigit_letter {digit : ℕ} (h : digit < 64) :
    urlSafeDigit (urlSafeLetter digit) = some digit := by
  have hlength : urlSafeAlphabet.length = 64 := by decide +kernel
  have hnodup : urlSafeAlphabet.Nodup := by decide +kernel
  have hplace : digit < urlSafeAlphabet.length := hlength ▸ h
  unfold urlSafeDigit urlSafeLetter
  rw [List.getD_eq_getElem?_getD, List.getElem?_eq_getElem hplace, Option.getD_some,
    List.findIdx?_eq_some_iff_getElem]
  refine ⟨hplace, by simp, fun other hother ↦ ?_⟩
  rw [beq_iff_eq]
  exact List.pairwise_iff_getElem.mp hnodup other digit _ hplace hother

theorem urlSafeLetter_ascii (digit : ℕ) : (urlSafeLetter digit).toNat < 128 := by
  have hascii : (('A' :: urlSafeAlphabet).all fun letter ↦ letter.toNat < 128) = true := by
    decide +kernel
  have hall : ∀ letter ∈ 'A' :: urlSafeAlphabet, letter.toNat < 128 := fun letter hletter ↦
    of_decide_eq_true (List.all_eq_true.mp hascii letter hletter)
  refine hall _ ?_
  unfold urlSafeLetter
  rw [List.getD_eq_getElem?_getD]
  cases hget : urlSafeAlphabet[digit]? with
  | none => simp
  | some => simp [List.mem_of_getElem? hget]

/-- A byte is known by its number modulo 256. -/
theorem ofNat_eq_byte {value : ℕ} {byte : UInt8} (h : value % 256 = byte.toNat) :
    UInt8.ofNat value = byte := by
  apply UInt8.toNat.inj
  exact h

theorem urlSafeDecode_encode (bytes : List UInt8) :
    urlSafeDecode (urlSafeEncode bytes) = some bytes := by
  fun_induction urlSafeEncode bytes with
  | case1 first second third _ value ih =>
    have hfirst := first.toNat_lt
    have hsecond := second.toNat_lt
    have hthird := third.toNat_lt
    have hlow := Nat.div_add_mod' value 64
    have hmiddle : value / 4096 * 64 + value / 64 % 64 = value / 64 := by omega
    have hhigh : value / 262144 * 64 + value / 4096 % 64 = value / 4096 := by omega
    have hone : UInt8.ofNat (value / 65536) = first := ofNat_eq_byte (by omega)
    have htwo : UInt8.ofNat (value / 256) = second := ofNat_eq_byte (by omega)
    have hthree : UInt8.ofNat value = third := ofNat_eq_byte (by omega)
    simp only [urlSafeDecode, urlSafeDigit_letter (show value / 262144 < 64 by omega),
      urlSafeDigit_letter (show value / 4096 % 64 < 64 by omega),
      urlSafeDigit_letter (show value / 64 % 64 < 64 by omega),
      urlSafeDigit_letter (show value % 64 < 64 by omega), ih, Option.bind_eq_bind,
      Option.bind_some,
      Option.pure_def, hhigh, hmiddle, hlow, hone, htwo, hthree]
  | case2 first second value =>
    have hfirst := first.toNat_lt
    have hsecond := second.toNat_lt
    have hjoined : (value / 4096 * 64 + value / 64 % 64) * 64 + value % 64 = value := by
      omega
    have hone : UInt8.ofNat (value / 1024) = first := ofNat_eq_byte (by omega)
    have htwo : UInt8.ofNat (value / 4) = second := ofNat_eq_byte (by omega)
    have hunused : value % 4 = 0 := by omega
    simp only [urlSafeDecode, urlSafeDigit_letter (show value / 4096 < 64 by omega),
      urlSafeDigit_letter (show value / 64 % 64 < 64 by omega),
      urlSafeDigit_letter (show value % 64 < 64 by omega), Option.bind_eq_bind, Option.bind_some,
      Option.pure_def, hjoined, hone, htwo, hunused, if_true]
  | case3 first value =>
    have hfirst := first.toNat_lt
    have hjoined : value / 64 * 64 + value % 64 = value := by
      omega
    have hone : UInt8.ofNat (value / 16) = first := ofNat_eq_byte (by omega)
    have hunused : value % 16 = 0 := by omega
    simp only [urlSafeDecode, urlSafeDigit_letter (show value / 64 < 64 by omega),
      urlSafeDigit_letter (show value % 64 < 64 by omega), Option.bind_eq_bind, Option.bind_some,
      Option.pure_def, hjoined, hone, hunused, if_true]
  | case4 => rfl

theorem length_urlSafeEncode (bytes : List UInt8) :
    (urlSafeEncode bytes).length = (bytes.length * 8 + 5) / 6 := by
  fun_induction urlSafeEncode bytes with
  | case1 _ _ _ _ _ ih =>
    simp only [List.length_cons, ih]
    omega
  | case2 | case3 => simp
  | case4 => rfl

theorem urlSafeEncode_ascii (bytes : List UInt8) : ∀ c ∈ urlSafeEncode bytes, c.toNat < 128 := by
  fun_induction urlSafeEncode bytes with
  | case1 _ _ _ _ _ ih =>
    simp only [List.mem_cons, forall_eq_or_imp]
    exact ⟨urlSafeLetter_ascii _, urlSafeLetter_ascii _, urlSafeLetter_ascii _,
      urlSafeLetter_ascii _, ih⟩
  | case2 | case3 => simp [urlSafeLetter_ascii]
  | case4 => simp

end WebCodex.WorkflowSession
