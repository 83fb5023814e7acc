import Mathlib.Data.List.Sort
import WebCodex.Foundation.Fallible
import WebCodex.Foundation.Framing
import WebCodex.Foundation.Layout

/-!
A project memory is a text under a key of a scope. Three digests name it: the definition hash is
over the content, the revision over the scope, the id, the generation and the definition hash, and
the catalog revision over the keys and revisions of a scope. SHA-256 and the reader of the JSON
text of the tags are parameters.
-/

namespace WebCodex.ProjectMemory

open Foundation Foundation.Text Foundation.Framing

def maxMemoriesPerProject : ℕ := 256
def maxMemoriesGlobal : ℕ := 8192
def maxMemoryKeyChars : ℕ := 96
def maxMemorySummaryChars : ℕ := 512
def maxMemoryBodyBytes : ℕ := 8 * 1024
def maxMemoryTags : ℕ := 8
def maxMemoryTagChars : ℕ := 64
def maxMemoryScopeListLimit : ℕ := 100
def maxMemoryTagsJsonBytes : ℕ := 4 * 1024
def maxMemoryPrincipalKindChars : ℕ := 64
def maxMemoryProjectRuntimeIdChars : ℕ := 512
def maxMemoryRunnerClientIdChars : ℕ := 128

def memoryScopePrefix : Str := "wc_memscope_".toList
def memoryIdPrefix : Str := "wc_mem_".toList
def memoryDefinitionHashPrefix : Str := "wc_memdef_".toList
def memoryRevisionPrefix : Str := "wc_memrev_".toList
def memoryCatalogRevisionPrefix : Str := "wc_memcat_".toList
def memoryRootFingerprintPrefix : Str := "wc_memroot_".toList
def memoryPrincipalDigestPrefix : Str := "wc_memprincipal_".toList

def memoryProvenanceKinds : List Str :=
  ["dev", "bootstrap", "api_token", "user", "agent_token", "account_credential", "oauth2",
    "shared-key", "project-credential", "open"].map String.toList

def memoryScopeIdentityAttributed : Str := "attributed".toList

inductive MemoryPriority
  | high
  | normal
  | low
deriving DecidableEq

def MemoryPriority.asStr : MemoryPriority → Str
  | high => "high".toList
  | normal => "normal".toList
  | low => "low".toList

def MemoryPriority.parse (value : Str) : Option MemoryPriority :=
  if value = "high".toList then some high
  else if value = "normal".toList then some normal
  else if value = "low".toList then some low
  else none

structure ProjectMemoryRecord where
  (memoryId memoryKey summary body : Str)
  priority : MemoryPriority
  bootstrap : Bool
  tags : List Str
  (definitionHash createdByKind : Str)
  createdByPrincipalDigest : Option Str
  updatedByKind : Str
  updatedByPrincipalDigest : Option Str
  generation : ℕ
  revision : Str
  (createdAtUnixMs updatedAtUnixMs : ℤ)
deriving DecidableEq

structure MemoryPrincipalAttribution where
  (kind principalDigest : Str)
deriving DecidableEq

structure MemoryScopeAttribution where
  (projectRuntimeId runnerClientId rootFingerprint : Str)
deriving DecidableEq

structure ProjectMemoryScopeRecord where
  (memoryScopeId identityState : Str)
  (projectRuntimeId runnerClientId rootFingerprint : Option Str)
  (createdAtUnixMs lastMutatedAtUnixMs : ℤ)
deriving DecidableEq

structure ProjectMemoryScopeSnapshot where
  scope : ProjectMemoryScopeRecord
  memories : List ProjectMemoryRecord
deriving DecidableEq

structure MemorySetInput where
  (memoryKey summary body : Str)
  priority : MemoryPriority
  bootstrap : Bool
  tags : List Str
  expectedRevision : Option Str
deriving DecidableEq

inductive MemoryStoreError
  | invalidScope
  | invalidKey
  | invalidSummary
  | invalidBody
  | invalidTags
  | invalidRevision
  | invalidLimit
  | notFound
  | changed (currentRevision : Str)
  | expectedRevisionRequired (currentRevision : Str)
  | scopeChanged (currentCatalogRevision : Str)
  | projectCapacityExceeded
  | globalCapacityExceeded
  | databaseUnavailable
deriving DecidableEq

abbrev Fallible := Except MemoryStoreError

def validLowerHexPrefixed (value start : Str) (hexLen : ℕ) : Bool :=
  decide (String.utf8Len value = String.utf8Len start + hexLen) && start.isPrefixOf value &&
    (value.drop start.length).all isLowerHex

def validateScope (scopeId : Str) : Fallible Unit :=
  ensure (validLowerHexPrefixed scopeId memoryScopePrefix 64) .invalidScope

def isMemoryKeyChar (c : Char) : Bool := c.isAlphanum || c == '.' || c == '_' || c == '-'

def validMemoryKey (value : Str) : Bool := !value.isEmpty && value != ['.'] &&
    value != ['.', '.'] && decide (value.length ≤ maxMemoryKeyChars) && value.all isMemoryKeyChar

def validateMemoryKey (value : Str) : Fallible Unit := ensure (validMemoryKey value) .invalidKey

def validGuidanceChar (c : Char) : Bool := !isControl c || c == '\n' || c == '\t'

def validMemorySummary (value : Str) : Bool :=
  !isBlank value && decide (value.length ≤ maxMemorySummaryChars) && value.all validGuidanceChar

def validateMemorySummary (value : Str) : Fallible Unit :=
  ensure (validMemorySummary value) .invalidSummary

def validMemoryBody (value : Str) : Bool :=
  decide (String.utf8Len value ≤ maxMemoryBodyBytes) && value.all validGuidanceChar

def validateMemoryBody (value : Str) : Fallible Unit := ensure (validMemoryBody value) .invalidBody

def validTag (tag : Str) : Bool :=
  !tag.isEmpty && decide (tag.length ≤ maxMemoryTagChars) && !tag.any isControl

/-- `canonicalize_memory_tags`: the tags as an ordered set. -/
def canonicalizeMemoryTags (tags : List Str) : Fallible (List Str) := do
  ensure (tags.length ≤ maxMemoryTags) .invalidTags
  ensure (tags.all validTag) .invalidTags
  let canonical := tags.dedup.insertionSort (· ≤ ·)
  ensure (canonical.length ≤ maxMemoryTags) .invalidTags
  pure canonical

def validMemoryRootFingerprint (value : Str) : Bool :=
  validLowerHexPrefixed value memoryRootFingerprintPrefix 64

def validMemoryPrincipalDigest (value : Str) : Bool :=
  validLowerHexPrefixed value memoryPrincipalDigestPrefix 64

def validBoundedIdentityText (value : Str) (maximum : ℕ) : Bool :=
  !value.isEmpty && decide (value.length ≤ maximum) && !value.any isControl

def validMemoryPrincipalKind (value : Str) : Bool := memoryProvenanceKinds.contains value

def MemoryPrincipalAttribution.isValid (attribution : MemoryPrincipalAttribution) : Bool :=
  validBoundedIdentityText attribution.kind maxMemoryPrincipalKindChars &&
    validMemoryPrincipalKind attribution.kind &&
    validMemoryPrincipalDigest attribution.principalDigest

def validatePrincipalAttribution (attribution : MemoryPrincipalAttribution) : Fallible Unit :=
  ensure attribution.isValid .databaseUnavailable

def MemoryScopeAttribution.isValid (attribution : MemoryScopeAttribution) : Bool :=
  validBoundedIdentityText attribution.projectRuntimeId maxMemoryProjectRuntimeIdChars &&
    validBoundedIdentityText attribution.runnerClientId maxMemoryRunnerClientIdChars &&
    validMemoryRootFingerprint attribution.rootFingerprint

def validateScopeAttribution (attribution : MemoryScopeAttribution) : Fallible Unit :=
  ensure attribution.isValid .databaseUnavailable

def validateMemoryId (value : Str) : Fallible Unit :=
  ensure (validLowerHexPrefixed value memoryIdPrefix 32) .databaseUnavailable

def validateMemoryDefinitionHash (value : Str) : Fallible Unit :=
  ensure (validLowerHexPrefixed value memoryDefinitionHashPrefix 64) .databaseUnavailable

def validateMemoryRevision (value : Str) : Fallible Unit :=
  ensure (validLowerHexPrefixed value memoryRevisionPrefix 64) .invalidRevision

def validMemoryCatalogRevision (value : Str) : Bool :=
  validLowerHexPrefixed value memoryCatalogRevisionPrefix 64

def validateTimestampPair (createdAtUnixMs updatedAtUnixMs : ℤ) : Fallible Unit :=
  ensure (0 ≤ createdAtUnixMs && createdAtUnixMs ≤ updatedAtUnixMs) .databaseUnavailable

def validProvenancePair (kind : Str) (digest : Option Str) : Bool :=
  validBoundedIdentityText kind maxMemoryPrincipalKindChars &&
    validMemoryPrincipalKind kind && digest.any validMemoryPrincipalDigest

def validateProvenancePair (kind : Str) (digest : Option Str) : Fallible Unit :=
  ensure (validProvenancePair kind digest) .databaseUnavailable

/-- What the store uses of other packages: the digits of SHA-256, and the reader of a JSON array of
texts. -/
structure MemoryFunctions where
  sha256 : Bytes → Str
  tagsFromJson : Str → Option (List Str)

variable (functions : MemoryFunctions)

/-- The bytes that `memory_definition_digest` hashes. -/
def definitionInput (memoryKey summary body : Str) (priority : MemoryPriority) (bootstrap : Bool)
    (tags : List Str) : Bytes :=
  utf8Bytes "webcodex-project-memory-definition-v1\x00".toList ++
    frame (utf8Bytes memoryKey) ++ frame (utf8Bytes summary) ++ frame (utf8Bytes body) ++
    frame (utf8Bytes priority.asStr) ++ [if bootstrap then 1 else 0] ++ be64 tags.length ++
    tags.flatMap fun tag ↦ frame (utf8Bytes tag)

def memoryDefinitionHash (memoryKey summary body : Str) (priority : MemoryPriority)
    (bootstrap : Bool) (tags : List Str) : Str :=
  memoryDefinitionHashPrefix ++
    functions.sha256 (definitionInput memoryKey summary body priority bootstrap tags)

/-- The bytes that `memory_state_revision` hashes. -/
def stateInput (memoryScopeId memoryId : Str) (generation : ℕ) (definitionHash : Str) : Bytes :=
  utf8Bytes "webcodex-project-memory-state-v2\x00".toList ++
    frame (utf8Bytes memoryScopeId) ++ frame (utf8Bytes memoryId) ++ frame (be64 generation) ++
    frame (utf8Bytes definitionHash)

def memoryStateRevision (memoryScopeId memoryId : Str) (generation : ℕ) (definitionHash : Str) :
    Str :=
  memoryRevisionPrefix ++ functions.sha256
    (stateInput memoryScopeId memoryId generation definitionHash)

def pairLe (a b : Str × Str) : Prop := a.1 < b.1 ∨ a.1 = b.1 ∧ a.2 ≤ b.2

instance : DecidableRel pairLe := fun a b ↦
  inferInstanceAs (Decidable (a.1 < b.1 ∨ a.1 = b.1 ∧ a.2 ≤ b.2))

/-- The bytes that `memory_catalog_revision` hashes. -/
def catalogInput (records : List ProjectMemoryRecord) : Bytes :=
  let pairs := records.map fun record ↦ (record.memoryKey, record.revision)
  utf8Bytes "webcodex-project-memory-catalog-v1\x00".toList ++
    (pairs.insertionSort pairLe).flatMap fun pair ↦
      frame (utf8Bytes pair.1) ++ frame (utf8Bytes pair.2)

def memoryCatalogRevision (records : List ProjectMemoryRecord) : Str :=
  memoryCatalogRevisionPrefix ++ functions.sha256 (catalogInput records)

/-- A character of a JSON text, as `serde_json` writes it. -/
def escapeJson (c : Char) : Str :=
  if c = '"' then ['\\', '"']
  else if c = '\\' then ['\\', '\\']
  else if c.toNat = 0x08 then ['\\', 'b']
  else if c.toNat = 0x09 then ['\\', 't']
  else if c.toNat = 0x0A then ['\\', 'n']
  else if c.toNat = 0x0C then ['\\', 'f']
  else if c.toNat = 0x0D then ['\\', 'r']
  else if c.toNat < 0x20 then
    "\\u00".toList ++ [Nat.digitChar (c.toNat / 16), Nat.digitChar (c.toNat % 16)]
  else [c]

def quoteJson (s : Str) : Str := ['"'] ++ s.flatMap escapeJson ++ ['"']

/-- `serde_json::to_string` of the tags. -/
def tagsToJson (tags : List Str) : Str := ['['] ++ [','].intercalate (tags.map quoteJson) ++ [']']

def parseCanonicalTagsJson (tagsJson : Str) : Fallible (List Str) := do
  ensure (String.utf8Len tagsJson ≤ maxMemoryTagsJsonBytes) .databaseUnavailable
  let tags ← required (functions.tagsFromJson tagsJson) .databaseUnavailable
  let canonical ← required (canonicalizeMemoryTags tags).toOption .databaseUnavailable
  ensure (canonical = tags) .databaseUnavailable
  pure tags

end WebCodex.ProjectMemory
