import Mathlib.Data.List.Dedup
import WebCodex.ProjectMemory.Changes

/-!
The rows that a set writes pass the checks of the parser when its arguments pass theirs, and a
memory that is replaced keeps the time of its creation: its new row is read when the clock is not
behind that time. A row of a scope is read when it was not touched before it was made.
-/

namespace WebCodex.ProjectMemory

open Foundation Foundation.Text Foundation.Framing

variable {A : Type} {principal : MemoryPrincipalAttribution} {input : MemorySetInput}

variable {functions : MemoryFunctions} {scope : Str}

/-- The only way to fail is that the database is unavailable. -/
def OnlyUnavailable {A : Type} (x : Fallible A) : Prop :=
  ∀ error, x = .error error → error = .databaseUnavailable

theorem OnlyUnavailable.bind {B : Type} {x : Fallible A} {f : A → Fallible B}
    (hx : OnlyUnavailable x) (hf : ∀ value, OnlyUnavailable (f value)) :
    OnlyUnavailable (x >>= f) := by
  intro error h
  cases x with
  | error => exact hx error (by simpa [Bind.bind, Except.bind] using h)
  | ok value => exact hf value error h

theorem onlyUnavailable_pure (value : A) : OnlyUnavailable (pure value : Fallible A) :=
  fun _ h ↦ nomatch h

theorem onlyUnavailable_ensure (condition : Bool) :
    OnlyUnavailable (ensure condition .databaseUnavailable : Fallible Unit) := by
  intro error h
  cases condition with
  | false => exact (Except.error.inj h).symm
  | true => cases h

theorem onlyUnavailable_required (value : Option A) :
    OnlyUnavailable (required value .databaseUnavailable : Fallible A) := by
  intro error h
  cases value with
  | none => exact (Except.error.inj h).symm
  | some => cases h

theorem onlyUnavailable_parseTags (text : Str) :
    OnlyUnavailable (parseCanonicalTagsJson functions text) :=
  (onlyUnavailable_ensure _).bind fun _ ↦ (onlyUnavailable_required _).bind fun _ ↦
    (onlyUnavailable_required _).bind fun _ ↦ (onlyUnavailable_ensure _).bind fun _ ↦
      onlyUnavailable_pure _

theorem onlyUnavailable_parseRow (row : MemoryRow) :
    OnlyUnavailable (parseRow functions scope row) := by
  repeat first
    | exact onlyUnavailable_pure _
    | refine (onlyUnavailable_ensure _).bind fun _ ↦ ?_
    | refine (onlyUnavailable_required _).bind fun _ ↦ ?_
    | refine (onlyUnavailable_parseTags _).bind fun _ ↦ ?_

theorem parseRow_of_not {row : MemoryRow} (h : ¬ ∃ record, ReadsAs functions scope row record) :
    parseRow functions scope row = .error .databaseUnavailable := by
  cases hparse : parseRow functions scope row with
  | error error => rw [onlyUnavailable_parseRow row error hparse]
  | ok record => exact absurd ⟨record, parseRow_eq_ok.mp hparse⟩ h

theorem utf8Len_escapeJson_le {c : Char} (hc : isControl c = false) :
    String.utf8Len (escapeJson c) ≤ 4 := by
  have hlow : ¬ c.toNat < 0x20 := by
    simp only [isControl, Bool.or_eq_false_iff, decide_eq_false_iff_not] at hc
    omega
  have hsize : c.utf8Size ≤ 4 := c.utf8Size_le_four
  unfold escapeJson
  split_ifs <;> first
    | omega
    | decide
    | simpa using hsize

theorem utf8Len_quoteJson_le {tag : Str} (htag : tag.any isControl = false) :
    String.utf8Len (quoteJson tag) ≤ 4 * tag.length + 2 := by
  have hbody : String.utf8Len (tag.flatMap escapeJson) ≤ 4 * tag.length := by
    induction tag with
    | nil => simp
    | cons _ _ ih =>
      rw [List.any_cons, Bool.or_eq_false_iff] at htag
      have hfirst := utf8Len_escapeJson_le htag.1
      have hrest := ih htag.2
      rw [List.flatMap_cons, String.utf8Len_append, List.length_cons]
      omega
  have hquote : String.utf8Len ['"'] = 1 := by decide
  simp only [quoteJson, String.utf8Len_append, hquote]
  omega

theorem utf8Len_intercalate_le {texts : List Str} {n : ℕ}
    (h : ∀ text ∈ texts, String.utf8Len text ≤ n) :
    String.utf8Len ([','].intercalate texts) ≤ texts.length * (n + 1) := by
  have hcomma : String.utf8Len [','] = 1 := by decide
  induction texts with
  | nil => simp
  | cons text texts ih =>
    have hfirst := h text List.mem_cons_self
    have hrest := ih fun other hother ↦ h other (List.mem_cons_of_mem _ hother)
    cases texts with
    | nil =>
      simp only [List.intercalate_singleton, List.length_singleton]
      omega
    | cons =>
      rw [List.intercalate_cons_cons, String.utf8Len_append, String.utf8Len_append, hcomma,
        List.length_cons, Nat.succ_mul]
      omega

/-- The tags of a request are read back from their JSON text. -/
theorem parseCanonicalTagsJson_tagsToJson {asked tags : List Str}
    (htags : canonicalizeMemoryTags asked = .ok tags)
    (hread : functions.tagsFromJson (tagsToJson tags) = some tags) :
    parseCanonicalTagsJson functions (tagsToJson tags) = .ok tags := by
  simp only [canonicalizeMemoryTags, bind_eq_ok, ensure_eq_ok, exists_const, pure_eq_ok,
    decide_eq_true_eq] at htags
  obtain ⟨-, hvalid, hcount, hcanonical⟩ := htags
  have hmem : ∀ tag ∈ tags, validTag tag = true := by
    intro tag htag
    rw [← hcanonical, List.mem_insertionSort, List.mem_dedup] at htag
    exact List.all_eq_true.mp hvalid tag htag
  have hself : tags.dedup.insertionSort (· ≤ ·) = tags := by
    have hnodup : tags.Nodup := by
      rw [← hcanonical, (List.perm_insertionSort _ _).nodup_iff]
      exact List.nodup_dedup asked
    have hsorted : tags.Pairwise (· ≤ ·) := by
      rw [← hcanonical]
      exact List.sortedLE_insertionSort.pairwise
    rw [List.dedup_eq_self.mpr hnodup, hsorted.insertionSort_eq]
  rw [hcanonical] at hcount
  have hlength : String.utf8Len (tagsToJson tags) ≤ maxMemoryTagsJsonBytes := by
    have hquoted : ∀ text ∈ tags.map quoteJson, String.utf8Len text ≤ 258 := by
      intro text htext
      obtain ⟨tag, htag, rfl⟩ := List.mem_map.mp htext
      have htagValid := hmem tag htag
      simp only [validTag, Bool.and_eq_true, decide_eq_true_eq, Bool.not_eq_true'] at htagValid
      have hshort : tag.length ≤ 64 := htagValid.1.2
      have hquote := utf8Len_quoteJson_le htagValid.2
      omega
    have hall := utf8Len_intercalate_le hquoted
    have hopen : String.utf8Len ['['] = 1 := by decide
    have hclose : String.utf8Len [']'] = 1 := by decide
    have height : tags.length ≤ 8 := hcount
    rw [List.length_map] at hall
    simp only [tagsToJson, String.utf8Len_append, hopen, hclose, maxMemoryTagsJsonBytes]
    omega
  simp only [parseCanonicalTagsJson, bind_eq_ok, ensure_eq_ok, required_eq_ok, exists_const,
    pure_eq_ok, decide_eq_true_eq, toOption_eq_some, canonicalizeMemoryTags]
  refine ⟨hlength, tags, hread, tags, ⟨?_, ?_, ?_, hself⟩, rfl, rfl⟩
  · exact hcount
  · exact List.all_eq_true.mpr hmem
  · rwa [hself]

/-- The hash function gives 64 lower-case digits. -/
def GivesDigits (functions : MemoryFunctions) : Prop :=
  ∀ bytes, (functions.sha256 bytes).length = 64 ∧ (functions.sha256 bytes).all isLowerHex = true

theorem GivesDigits.prefixed (h : GivesDigits functions) (start : Str) (bytes : Bytes) :
    validLowerHexPrefixed (start ++ functions.sha256 bytes) start 64 = true :=
  validLowerHexPrefixed_iff.mpr ⟨_, rfl, h bytes⟩

/-- A request that passes its checks, with its tags in order. -/
structure ValidRequest (functions : MemoryFunctions) (principal : MemoryPrincipalAttribution)
    (input : MemorySetInput) : Prop where
  key : validMemoryKey input.memoryKey = true
  summary : validMemorySummary input.summary = true
  body : validMemoryBody input.body = true
  tags : ∃ asked, canonicalizeMemoryTags asked = .ok input.tags
  read : functions.tagsFromJson (tagsToJson input.tags) = some input.tags
  principal : principal.isValid = true

theorem lengths_of_provenance {kind : Str} {digest : Option Str}
    (h : validProvenancePair kind digest = true) :
    sqlLength kind ≤ maxMemoryPrincipalKindChars ∧
      sqlLength? digest ≤ memoryPrincipalDigestPrefix.length + 64 := by
  simp only [validProvenancePair, Bool.and_eq_true] at h
  obtain ⟨⟨hkind, -⟩, hdigest⟩ := h
  constructor
  · simp only [validBoundedIdentityText, Bool.and_eq_true, decide_eq_true_eq] at hkind
    exact (sqlLength_le kind).trans hkind.1.2
  · cases digest with
    | none => exact Nat.zero_le _
    | some =>
      exact (sqlLength_of_validLowerHexPrefixed memoryPrincipalDigestPrefix_pos hdigest).1.le

/-- A row with the content of a valid request is read. -/
theorem exists_readsAs (hdigits : GivesDigits functions)
    (hvalid : ValidRequest functions principal input) {row : MemoryRow}
    (hid : validLowerHexPrefixed row.memoryId memoryIdPrefix 32 = true)
    (hscopeId : validLowerHexPrefixed row.memoryScopeId memoryScopePrefix 64 = true)
    (hscope : row.memoryScopeId = scope) (hkey : row.memoryKey = input.memoryKey)
    (hsummary : row.summary = input.summary) (hbody : row.body = input.body)
    (hpriority : row.priority = input.priority.asStr)
    (hbootstrap : row.bootstrap = if input.bootstrap then 1 else 0)
    (htags : row.tagsJson = tagsToJson input.tags)
    (hhash : row.definitionHash = input.definitionHash functions) (hgeneration : 1 ≤ row.generation)
    (hrevision : row.revision = memoryStateRevision functions row.memoryScopeId row.memoryId
      row.generation.toNat row.definitionHash)
    (hnonneg : 0 ≤ row.createdAtUnixMs) (htimes : row.createdAtUnixMs ≤ row.updatedAtUnixMs)
    (hcreatedBy : validProvenancePair row.createdByKind row.createdByPrincipalDigest = true)
    (hupdatedBy : validProvenancePair row.updatedByKind row.updatedByPrincipalDigest = true) :
    ∃ record, ReadsAs functions scope row record := by
  obtain ⟨_, hasked⟩ := hvalid.tags
  have htagsRead := parseCanonicalTagsJson_tagsToJson hasked hvalid.read
  have hhashValid : validLowerHexPrefixed row.definitionHash memoryDefinitionHashPrefix 64 =
      true := by
    rw [hhash]
    exact hdigits.prefixed _ _
  have hrevisionValid : validLowerHexPrefixed row.revision memoryRevisionPrefix 64 = true := by
    rw [hrevision]
    exact hdigits.prefixed _ _
  have hlengths : row.lengthsOk = true := by
    have hkeyValid := hvalid.key
    have hsummaryValid := hvalid.summary
    have hbodyValid := hvalid.body
    simp only [validMemoryKey, validMemorySummary, validMemoryBody, Bool.and_eq_true,
      decide_eq_true_eq] at hkeyValid hsummaryValid hbodyValid
    have hjson : String.utf8Len row.tagsJson ≤ maxMemoryTagsJsonBytes := by
      simp only [parseCanonicalTagsJson, bind_eq_ok, ensure_eq_ok, exists_const,
        decide_eq_true_eq] at htagsRead
      rw [htags]
      exact htagsRead.1
    simp only [MemoryRow.lengthsOk, Bool.and_eq_true, decide_eq_true_eq, hsummary, hkey, hbody]
    refine ⟨⟨⟨⟨⟨⟨⟨⟨⟨⟨⟨⟨?_, ?_⟩, ?_⟩, ?_⟩, ?_⟩, ?_⟩, hbodyValid.1⟩, ?_⟩, hjson⟩, ?_⟩, ?_⟩, ?_⟩, ?_⟩
    · exact (sqlLength_of_validLowerHexPrefixed memoryIdPrefix_pos hid).1
    · exact (sqlLength_of_validLowerHexPrefixed memoryScopePrefix_pos hscopeId).1
    · exact (sqlLength_of_validLowerHexPrefixed memoryDefinitionHashPrefix_pos hhashValid).1
    · exact (sqlLength_of_validLowerHexPrefixed memoryRevisionPrefix_pos hrevisionValid).1
    · exact (sqlLength_le _).trans hkeyValid.1.2
    · exact (sqlLength_le _).trans hsummaryValid.1.2
    · rw [hpriority]
      cases input.priority <;> decide
    · exact (lengths_of_provenance hcreatedBy).1
    · exact (lengths_of_provenance hcreatedBy).2
    · exact (lengths_of_provenance hupdatedBy).1
    · exact (lengths_of_provenance hupdatedBy).2
  refine ⟨⟨row.memoryId, row.memoryKey, row.summary, row.body, input.priority, input.bootstrap,
    input.tags, row.definitionHash, row.createdByKind, row.createdByPrincipalDigest,
    row.updatedByKind, row.updatedByPrincipalDigest, row.generation.toNat, row.revision,
    row.createdAtUnixMs, row.updatedAtUnixMs⟩, ?_⟩
  refine ⟨hlengths, hid, hscopeId, hscope, hkey ▸ hvalid.key, hsummary ▸ hvalid.summary,
    hbody ▸ hvalid.body, hpriority, hbootstrap, htags ▸ htagsRead, hhashValid, hgeneration,
    hrevisionValid, hnonneg, htimes, hcreatedBy, hupdatedBy, ?_, hrevision, rfl⟩
  rw [hkey, hsummary, hbody]
  exact hhash

theorem validProvenancePair_of_principal
    (h : principal.isValid = true) :
    validProvenancePair principal.kind (some principal.principalDigest) = true := by
  simpa [MemoryPrincipalAttribution.isValid, validProvenancePair] using h

/-- A new memory is read. -/
theorem ofInput_reads (hdigits : GivesDigits functions)
    (hvalid : ValidRequest functions principal input)
    (hscope : validLowerHexPrefixed scope memoryScopePrefix 64 = true) {uuid : Str}
    (huuid : uuid.length = 32 ∧ uuid.all isLowerHex = true) {now : ℤ} (hnow : 0 ≤ now) :
    ∃ record, ReadsAs functions scope (.ofInput functions scope principal input
      (input.definitionHash functions) now uuid) record := by
  have hprovenance := validProvenancePair_of_principal hvalid.principal
  exact exists_readsAs hdigits hvalid (validLowerHexPrefixed_iff.mpr ⟨uuid, rfl, huuid⟩)
    hscope rfl rfl rfl rfl rfl rfl rfl rfl le_rfl rfl hnow le_rfl hprovenance hprovenance

/-- A memory that is replaced is read when the clock is not behind its creation. -/
theorem successor_reads_iff (hdigits : GivesDigits functions)
    (hvalid : ValidRequest functions principal input) {old : MemoryRow}
    {existing : ProjectMemoryRecord} (hreads : ReadsAs functions scope old existing)
    (hkey : old.memoryKey = input.memoryKey) {now : ℤ} :
    (∃ record, ReadsAs functions scope (old.successor functions scope principal input
      (input.definitionHash functions) now existing) record) ↔ old.createdAtUnixMs ≤ now := by
  constructor
  · rintro ⟨record, hsuccessor⟩
    exact hsuccessor.created_le
  · intro hnow
    have hexisting : existing.memoryId = old.memoryId := by
      rw [hreads.eq]
    have hpos : (1 : ℤ) ≤ ((existing.generation + 1 : ℕ) : ℤ) := by omega
    refine exists_readsAs hdigits hvalid hreads.memoryId hreads.scopeId hreads.scope_eq hkey rfl rfl
      rfl rfl rfl rfl hpos ?_ hreads.created_nonneg hnow hreads.createdBy
      (validProvenancePair_of_principal hvalid.principal)
    change memoryStateRevision functions scope existing.memoryId _ _ =
      memoryStateRevision functions old.memoryScopeId old.memoryId _ _
    rw [hexisting, hreads.scope_eq]
    rfl

/-- A row of a scope that belongs to whom it is said to belong. -/
structure ScopeRow.Belongs (attributionOf : Str → MemoryScopeAttribution) (row : ScopeRow) :
    Prop where
  scopeId : validLowerHexPrefixed row.memoryScopeId memoryScopePrefix 64 = true
  identity : row.identityState = memoryScopeIdentityAttributed
  project : row.projectRuntimeId = some (attributionOf row.memoryScopeId).projectRuntimeId
  runner : row.runnerClientId = some (attributionOf row.memoryScopeId).runnerClientId
  root : row.rootFingerprint = some (attributionOf row.memoryScopeId).rootFingerprint
  valid : (attributionOf row.memoryScopeId).isValid = true
  created_nonneg : 0 ≤ row.createdAtUnixMs

/-- Such a row is read when it was not touched before it was made. -/
theorem ScopeRow.Belongs.parse_eq {attributionOf : Str → MemoryScopeAttribution} {row : ScopeRow}
    (h : row.Belongs attributionOf) :
    parseScopeRow row = if row.createdAtUnixMs ≤ row.lastMutatedAtUnixMs then
      .ok ⟨row.memoryScopeId, row.identityState, row.projectRuntimeId, row.runnerClientId,
        row.rootFingerprint, row.createdAtUnixMs, row.lastMutatedAtUnixMs⟩
      else .error .databaseUnavailable := by
  have hvalid := h.valid
  simp only [MemoryScopeAttribution.isValid, Bool.and_eq_true, validBoundedIdentityText,
    decide_eq_true_eq] at hvalid
  obtain ⟨⟨⟨⟨-, hproject⟩, -⟩, ⟨-, hrunner⟩, -⟩, hroot⟩ := hvalid
  have hlengths : row.lengthsOk = true := by
    simp only [ScopeRow.lengthsOk, Bool.and_eq_true, decide_eq_true_eq, Bool.or_eq_true, h.identity,
      h.project, h.runner, h.root, sqlLength?, Option.map_some, Option.getD_some]
    refine ⟨⟨⟨⟨?_, sqlLength_le _⟩, (sqlLength_le _).trans hproject⟩,
      (sqlLength_le _).trans hrunner⟩, .inr ?_⟩
    · exact (sqlLength_of_validLowerHexPrefixed memoryScopePrefix_pos h.scopeId).1
    · exact (sqlLength_of_validLowerHexPrefixed memoryRootFingerprintPrefix_pos hroot).1
  have hscope : (validateScope row.memoryScopeId).isOk = true := by
    rw [validateScope, isOk_ensure]
    exact h.scopeId
  by_cases htimes : row.createdAtUnixMs ≤ row.lastMutatedAtUnixMs
  · rw [if_pos htimes]
    simp only [parseScopeRow, bind_eq_ok, ensure_eq_ok, required_eq_ok, exists_const, pure,
      Except.pure, validateTimestampPair, validateScopeAttribution, Bool.and_eq_true,
      decide_eq_true_eq]
    exact ⟨hlengths, hscope, ⟨h.created_nonneg, htimes⟩, h.identity, _, h.project, _, h.runner, _,
      h.root, h.valid, trivial⟩
  · rw [if_neg htimes]
    simp [parseScopeRow, hlengths, hscope, validateTimestampPair, htimes, ensure, bind, Except.bind]

end WebCodex.ProjectMemory
