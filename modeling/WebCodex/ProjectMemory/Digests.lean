import Mathlib.Data.List.Dedup
import WebCodex.ProjectMemory.Changes

/-!
The bytes that are hashed determine the fields they are made of, as long as every field is shorter
than `2 ^ 64` bytes, and a field that passes its check is (`definitionInput_inj`, `stateInput_inj`,
`catalogInput_inj`). Equal digests then name equal contents, states and catalogs wherever the hash
function has no collision.
-/

namespace WebCodex.ProjectMemory

open Foundation Foundation.Text Foundation.Framing

variable {functions : MemoryFunctions}

def Fits (s : Str) : Prop := (utf8Bytes s).length < 2 ^ 64

theorem fits_of_length {s : Str} {n : ℕ} (h : s.length ≤ n) (hn : n < 2 ^ 32) : Fits s := by
  unfold Fits
  rw [length_utf8Bytes]
  have hbytes := utf8Len_le s
  omega

theorem fits_of_validLowerHexPrefixed {value start : Str} {hexLen : ℕ}
    (h : validLowerHexPrefixed value start hexLen = true)
    (hshort : start.length + hexLen < 2 ^ 32) : Fits value := by
  obtain ⟨_, rfl, rfl, -⟩ := validLowerHexPrefixed_iff.mp h
  exact fits_of_length (List.length_append).le hshort

structure ContentFits (memoryKey summary body : Str) (tags : List Str) : Prop where
  key : Fits memoryKey
  summary : Fits summary
  body : Fits body
  count : tags.length < 2 ^ 64
  tags : ∀ tag ∈ tags, Fits tag

theorem contentFits {memoryKey summary body : Str} {tags asked : List Str}
    (hkey : validMemoryKey memoryKey = true) (hsummary : validMemorySummary summary = true)
    (hbody : validMemoryBody body = true) (htags : canonicalizeMemoryTags asked = .ok tags) :
    ContentFits memoryKey summary body tags := by
  simp only [validMemoryKey, validMemorySummary, validMemoryBody, canonicalizeMemoryTags,
    Bool.and_eq_true, decide_eq_true_eq, bind_eq_ok, ensure_eq_ok, exists_const,
    pure_eq_ok] at hkey hsummary hbody htags
  obtain ⟨-, hvalid, hcount, rfl⟩ := htags
  refine ⟨fits_of_length hkey.1.2 (by decide), fits_of_length hsummary.1.2 (by decide), ?_, ?_, ?_⟩
  · unfold Fits
    rw [length_utf8Bytes]
    exact lt_of_le_of_lt hbody.1 (by decide)
  · exact lt_of_le_of_lt hcount (by decide)
  · intro tag htag
    have hasked : tag ∈ asked := by
      rw [List.mem_insertionSort, List.mem_dedup] at htag
      exact htag
    have htagValid := List.all_eq_true.mp hvalid tag hasked
    simp only [validTag, Bool.and_eq_true, decide_eq_true_eq] at htagValid
    exact fits_of_length htagValid.1.2 (by decide)

theorem MemoryPriority.asStr_injective : Function.Injective MemoryPriority.asStr := by
  intro _ _ h
  have hparse := congrArg MemoryPriority.parse h
  simpa using hparse

theorem MemoryPriority.fits (priority : MemoryPriority) : Fits priority.asStr :=
  fits_of_length (n := 6) (by cases priority <;> decide) (by decide)

/-- The hashed bytes determine the content. -/
theorem definitionInput_inj {key summary body key' summary' body' : Str}
    {priority priority' : MemoryPriority} {bootstrap bootstrap' : Bool} {tags tags' : List Str}
    (hfits : ContentFits key summary body tags) (hfits' : ContentFits key' summary' body' tags')
    (h : definitionInput key summary body priority bootstrap tags =
      definitionInput key' summary' body' priority' bootstrap' tags') :
    key = key' ∧ summary = summary' ∧ body = body' ∧ priority = priority' ∧
      bootstrap = bootstrap' ∧ tags = tags' := by
  simp only [definitionInput, List.append_assoc] at h
  obtain ⟨hkey, h⟩ := frame_append_inj hfits.key hfits'.key (List.append_cancel_left h)
  obtain ⟨hsummary, h⟩ := frame_append_inj hfits.summary hfits'.summary h
  obtain ⟨hbody, h⟩ := frame_append_inj hfits.body hfits'.body h
  obtain ⟨hpriority, h⟩ := frame_append_inj priority.fits priority'.fits h
  obtain ⟨hbootstrap, h⟩ := List.append_inj h rfl
  obtain ⟨-, h⟩ := List.append_inj h rfl
  have htags : tags.map utf8Bytes = tags'.map utf8Bytes := by
    refine flatMap_frame_inj ?_ ?_ (by simpa only [List.flatMap_map] using h)
    · exact List.forall_mem_map.mpr hfits.tags
    · exact List.forall_mem_map.mpr hfits'.tags
  refine ⟨utf8Bytes_injective hkey, utf8Bytes_injective hsummary, utf8Bytes_injective hbody,
    MemoryPriority.asStr_injective (utf8Bytes_injective hpriority), ?_,
    List.map_injective_iff.mpr utf8Bytes_injective htags⟩
  cases bootstrap <;> cases bootstrap' <;> simp at hbootstrap ⊢

theorem stateInput_inj {scope id hash scope' id' hash' : Str} {generation generation' : ℕ}
    (hscope : Fits scope) (hscope' : Fits scope') (hid : Fits id) (hid' : Fits id')
    (hhash : Fits hash) (hhash' : Fits hash') (hbound : generation < 2 ^ 64)
    (hbound' : generation' < 2 ^ 64)
    (h : stateInput scope id generation hash = stateInput scope' id' generation' hash') :
    scope = scope' ∧ id = id' ∧ generation = generation' ∧ hash = hash' := by
  simp only [stateInput, List.append_assoc] at h
  obtain ⟨hscopes, h⟩ := frame_append_inj hscope hscope' (List.append_cancel_left h)
  obtain ⟨hids, h⟩ := frame_append_inj hid hid' h
  obtain ⟨hgenerations, h⟩ := frame_append_inj (length_be64 _ ▸ by decide)
    (length_be64 _ ▸ by decide) h
  obtain ⟨hhashes, -⟩ := frame_append_inj hhash hhash' (congrArg (· ++ []) h)
  exact ⟨utf8Bytes_injective hscopes, utf8Bytes_injective hids,
    be64_inj hbound hbound' hgenerations, utf8Bytes_injective hhashes⟩

/-- Records in the order of their keys, as a list of a scope has them. -/
def Catalogued (records : List ProjectMemoryRecord) : Prop :=
  records.Pairwise fun a b ↦ a.memoryKey < b.memoryKey

theorem Catalogued.insertionSort_pairs {records : List ProjectMemoryRecord}
    (h : Catalogued records) :
    (records.map fun record ↦ (record.memoryKey, record.revision)).insertionSort pairLe =
      records.map fun record ↦ (record.memoryKey, record.revision) := by
  refine List.Pairwise.insertionSort_eq ?_
  rw [List.pairwise_map]
  exact h.imp fun hlt ↦ .inl hlt

theorem catalogInput_inj {records others : List ProjectMemoryRecord} (hrecords : Catalogued records)
    (hothers : Catalogued others)
    (hfits : ∀ record ∈ records, Fits record.memoryKey ∧ Fits record.revision)
    (hfits' : ∀ record ∈ others, Fits record.memoryKey ∧ Fits record.revision)
    (h : catalogInput records = catalogInput others) :
    records.map ProjectMemoryRecord.revision = others.map ProjectMemoryRecord.revision := by
  simp only [catalogInput, hrecords.insertionSort_pairs, hothers.insertionSort_pairs] at h
  have hframes := List.append_cancel_left h
  simp only [List.flatMap_map] at hframes
  have hfields : ∀ list : List ProjectMemoryRecord, (list.flatMap fun record ↦
        frame (utf8Bytes record.memoryKey) ++ frame (utf8Bytes record.revision)) =
      (list.flatMap fun record ↦
        [utf8Bytes record.memoryKey, utf8Bytes record.revision]).flatMap frame := by
    intro list
    rw [List.flatMap_assoc]
    refine List.flatMap_congr fun record _ ↦ ?_
    simp
  rw [hfields, hfields] at hframes
  have hshort : ∀ {list : List ProjectMemoryRecord},
      (∀ record ∈ list, Fits record.memoryKey ∧ Fits record.revision) →
      ∀ bytes ∈ list.flatMap fun record ↦ [utf8Bytes record.memoryKey, utf8Bytes record.revision],
        bytes.length < 2 ^ 64 := by
    intro list hlist bytes hbytes
    obtain ⟨record, hrecord, hmem⟩ := List.mem_flatMap.mp hbytes
    obtain ⟨hkey, hrevision⟩ := hlist record hrecord
    obtain rfl | hmem := List.mem_cons.mp hmem
    · exact hkey
    · rw [List.mem_singleton.mp hmem]
      exact hrevision
  have hlists := flatMap_frame_inj (hshort hfits) (hshort hfits') hframes
  clear h hframes hfields hrecords hothers hfits hfits'
  induction records generalizing others with
  | nil =>
    cases others with
    | nil => rfl
    | cons => simp at hlists
  | cons _ _ ih =>
    cases others with
    | nil => simp at hlists
    | cons =>
      simp only [List.flatMap_cons, List.cons_append, List.nil_append, List.cons.injEq] at hlists
      obtain ⟨-, hrevision, hrest⟩ := hlists
      rw [List.map_cons, List.map_cons, utf8Bytes_injective hrevision, ih hrest]

end WebCodex.ProjectMemory
