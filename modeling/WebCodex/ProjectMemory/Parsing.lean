import WebCodex.ProjectMemory.Mutations

/-!
A row is read when it passes every check of the parser. Two of its checks look at one value twice,
once through SQLite's `length`; on the texts that pass the other checks the two agree.
-/

namespace WebCodex.ProjectMemory

open Foundation Foundation.Text

variable {functions : MemoryFunctions}

theorem sqlLength_le (s : Str) : sqlLength s ≤ s.length := (List.takeWhile_sublist _).length_le

variable {s value start : Str}

/-- A text without a NUL is as long for SQLite as it is. -/
theorem sqlLength_of_notMem (h : '\x00' ∉ s) : sqlLength s = s.length := by
  have htake : s.takeWhile (· ≠ '\x00') = s := by
    refine List.takeWhile_eq_self_iff.mpr fun c hc ↦ ?_
    have hne : c ≠ '\x00' := fun heq ↦ h (heq ▸ hc)
    exact decide_eq_true hne
  rw [sqlLength, htake]

theorem utf8Len_le (s : Str) : String.utf8Len s ≤ 4 * s.length := by
  induction s with
  | nil => simp
  | cons c =>
    have hc : c.utf8Size ≤ 4 := c.utf8Size_le_four
    rw [String.utf8Len_cons, List.length_cons]
    omega

/-- ASCII texts have a byte for each character. -/
theorem utf8Len_of_lt (h : ∀ c ∈ s, c.toNat < 128) : String.utf8Len s = s.length := by
  induction s with
  | nil => rfl
  | cons c _ ih =>
    have hc : c.utf8Size = 1 := by
      have hlow := h c List.mem_cons_self
      rw [Char.utf8Size_eq_one_iff]
      exact Nat.le_of_lt_succ hlow
    rw [String.utf8Len_cons, ih fun d hd ↦ h d (List.mem_cons_of_mem _ hd), hc, List.length_cons]

theorem lt_of_isLowerHex {c : Char} (h : isLowerHex c = true) : 0 < c.toNat ∧ c.toNat < 128 := by
  simp only [isLowerHex, Bool.or_eq_true, Bool.and_eq_true, decide_eq_true_eq, Char.le_def,
    UInt32.le_iff_toNat_le] at h
  have h0 : '0'.val.toNat = 48 := rfl
  have h9 : '9'.val.toNat = 57 := rfl
  have ha : 'a'.val.toNat = 97 := rfl
  have hf : 'f'.val.toNat = 102 := rfl
  unfold Char.toNat
  omega

theorem zero_notMem (h : ∀ c ∈ s, 0 < c.toNat) : '\x00' ∉ s := by
  intro hmem
  exact absurd (h _ hmem) (by decide)

/-- What a prefixed digest looks like. -/
theorem validLowerHexPrefixed_iff {hexLen : ℕ} : validLowerHexPrefixed value start hexLen = true ↔
      ∃ digits, value = start ++ digits ∧ digits.length = hexLen ∧
        digits.all isLowerHex = true := by
  have hdigits : ∀ {digits : Str}, digits.all isLowerHex = true →
      String.utf8Len digits = digits.length := by
    intro digits h
    exact utf8Len_of_lt fun c hc ↦ (lt_of_isLowerHex (List.all_eq_true.mp h c hc)).2
  simp only [validLowerHexPrefixed, Bool.and_eq_true, decide_eq_true_eq, List.isPrefixOf_iff_prefix]
  constructor
  · rintro ⟨⟨hlength, digits, rfl⟩, hhex⟩
    rw [List.drop_left] at hhex
    rw [String.utf8Len_append, hdigits hhex] at hlength
    exact ⟨digits, rfl, by omega, hhex⟩
  · rintro ⟨digits, rfl, rfl, hhex⟩
    rw [List.drop_left, String.utf8Len_append, hdigits hhex]
    exact ⟨⟨rfl, List.prefix_append _ _⟩, hhex⟩

theorem sqlLength_of_validLowerHexPrefixed {hexLen : ℕ} (hstart : ∀ c ∈ start, 0 < c.toNat)
    (h : validLowerHexPrefixed value start hexLen = true) :
    sqlLength value = start.length + hexLen ∧ value.length = start.length + hexLen := by
  obtain ⟨digits, rfl, rfl, hhex⟩ := validLowerHexPrefixed_iff.mp h
  have hnul : '\x00' ∉ start ++ digits := by
    refine zero_notMem fun c hc ↦ ?_
    obtain hc | hc := List.mem_append.mp hc
    · exact hstart c hc
    · exact (lt_of_isLowerHex (List.all_eq_true.mp hhex c hc)).1
  rw [sqlLength_of_notMem hnul, List.length_append]
  exact ⟨rfl, rfl⟩

theorem pos_of_all (h : (start.all fun c ↦ decide (0 < c.toNat)) = true) :
    ∀ c ∈ start, 0 < c.toNat :=
  fun c hc ↦ of_decide_eq_true (List.all_eq_true.mp h c hc)

theorem memoryIdPrefix_pos : ∀ c ∈ memoryIdPrefix, 0 < c.toNat := pos_of_all (by decide)
theorem memoryScopePrefix_pos : ∀ c ∈ memoryScopePrefix, 0 < c.toNat := pos_of_all (by decide)
theorem memoryDefinitionHashPrefix_pos : ∀ c ∈ memoryDefinitionHashPrefix, 0 < c.toNat :=
  pos_of_all (by decide)
theorem memoryRevisionPrefix_pos : ∀ c ∈ memoryRevisionPrefix, 0 < c.toNat := pos_of_all (by decide)
theorem memoryRootFingerprintPrefix_pos : ∀ c ∈ memoryRootFingerprintPrefix, 0 < c.toNat :=
  pos_of_all (by decide)
theorem memoryPrincipalDigestPrefix_pos : ∀ c ∈ memoryPrincipalDigestPrefix, 0 < c.toNat :=
  pos_of_all (by decide)

@[simp] theorem MemoryPriority.parse_asStr (priority : MemoryPriority) :
    MemoryPriority.parse priority.asStr = some priority := by
  cases priority <;> decide

theorem MemoryPriority.eq_asStr {priority : MemoryPriority}
    (h : MemoryPriority.parse value = some priority) :
    value = priority.asStr := by
  unfold MemoryPriority.parse at h
  split_ifs at h with hhigh hnormal hlow
  · exact Option.some.inj h ▸ hhigh
  · exact Option.some.inj h ▸ hnormal
  · exact Option.some.inj h ▸ hlow

theorem isOk_ensure {condition : Bool} {error : MemoryStoreError} :
    (ensure condition error : Fallible Unit).isOk = condition := by
  cases condition <;> rfl

/-- The record that a row is read as, and the checks that it passes. -/
structure ReadsAs (functions : MemoryFunctions) (scope : Str) (row : MemoryRow)
    (record : ProjectMemoryRecord) : Prop where
  lengths : row.lengthsOk = true
  memoryId : validLowerHexPrefixed row.memoryId memoryIdPrefix 32 = true
  scopeId : validLowerHexPrefixed row.memoryScopeId memoryScopePrefix 64 = true
  scope_eq : row.memoryScopeId = scope
  key : validMemoryKey row.memoryKey = true
  summary : validMemorySummary row.summary = true
  body : validMemoryBody row.body = true
  priority : row.priority = record.priority.asStr
  bootstrap : row.bootstrap = if record.bootstrap then 1 else 0
  tags : parseCanonicalTagsJson functions row.tagsJson = .ok record.tags
  hashValid : validLowerHexPrefixed row.definitionHash memoryDefinitionHashPrefix 64 = true
  generation_pos : 1 ≤ row.generation
  revisionValid : validLowerHexPrefixed row.revision memoryRevisionPrefix 64 = true
  created_nonneg : 0 ≤ row.createdAtUnixMs
  created_le : row.createdAtUnixMs ≤ row.updatedAtUnixMs
  createdBy : validProvenancePair row.createdByKind row.createdByPrincipalDigest = true
  updatedBy : validProvenancePair row.updatedByKind row.updatedByPrincipalDigest = true
  hash : row.definitionHash = memoryDefinitionHash functions row.memoryKey row.summary row.body
    record.priority record.bootstrap record.tags
  revision : row.revision = memoryStateRevision functions row.memoryScopeId row.memoryId
    row.generation.toNat row.definitionHash
  eq : record =
    { memoryId := row.memoryId
      memoryKey := row.memoryKey
      summary := row.summary
      body := row.body
      priority := record.priority
      bootstrap := record.bootstrap
      tags := record.tags
      definitionHash := row.definitionHash
      createdByKind := row.createdByKind
      createdByPrincipalDigest := row.createdByPrincipalDigest
      updatedByKind := row.updatedByKind
      updatedByPrincipalDigest := row.updatedByPrincipalDigest
      generation := row.generation.toNat
      revision := row.revision
      createdAtUnixMs := row.createdAtUnixMs
      updatedAtUnixMs := row.updatedAtUnixMs }

theorem parseRow_eq_ok {scope : Str} {row : MemoryRow} {record : ProjectMemoryRecord} :
    parseRow functions scope row = .ok record ↔ ReadsAs functions scope row record := by
  simp only [parseRow, bind_eq_ok, ensure_eq_ok, required_eq_ok, pure_eq_ok, exists_const,
    decide_eq_true_eq, validateScope, validateMemoryId, validateMemoryDefinitionHash,
    validateMemoryRevision, validateTimestampPair,
    validateProvenancePair, isOk_ensure, Bool.or_eq_true, Bool.and_eq_true]
  constructor
  · rintro ⟨hlengths, hid, hscope, hsame, hkey, hsummary, hbody, priority, hpriority, hbootstrap,
      tags, htags, hhashValid, hgeneration, hrevisionValid, ⟨hnonneg, htimes⟩, hcreated, hupdated,
      hhash, hrevision, rfl⟩
    refine ⟨hlengths, hid, hscope, hsame, hkey, hsummary, hbody, MemoryPriority.eq_asStr hpriority,
      ?_, htags, hhashValid, hgeneration, hrevisionValid, hnonneg, htimes, hcreated,
      hupdated, hhash,
      hrevision, rfl⟩
    rcases hbootstrap with hzero | hone
    · simp [hzero]
    · simp [hone]
  · intro h
    have hpriority : MemoryPriority.parse row.priority = some record.priority := by
      rw [h.priority, MemoryPriority.parse_asStr]
    have hflag : row.bootstrap = 0 ∨ row.bootstrap = 1 := by
      rw [h.bootstrap]
      split_ifs
      · exact .inr rfl
      · exact .inl rfl
    have hdecide : decide (row.bootstrap = 1) = record.bootstrap := by
      rw [h.bootstrap]
      cases record.bootstrap <;> rfl
    refine ⟨h.lengths, h.memoryId, h.scopeId, h.scope_eq, h.key, h.summary, h.body, record.priority,
      hpriority, hflag, record.tags, h.tags, h.hashValid, h.generation_pos, h.revisionValid,
      ⟨h.created_nonneg, h.created_le⟩, h.createdBy, h.updatedBy, ?_, h.revision, ?_⟩
    · rw [hdecide]
      exact h.hash
    · rw [hdecide]
      exact h.eq.symm

end WebCodex.ProjectMemory
