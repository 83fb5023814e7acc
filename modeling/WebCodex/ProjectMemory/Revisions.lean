import WebCodex.ProjectMemory.Digests

/-!
Along a run a memory id is drawn once and its generation only grows, so a row is determined by its
id and its generation (`run_history`). Where the hash function has no collision among the bytes
that a run hashes, a revision names one row in the whole run, and a call that gives one changes
the state that it was given for (`memory_calls_are_fenced`).
-/

namespace WebCodex.ProjectMemory

open Foundation Foundation.Text Foundation.Framing

variable {functions : MemoryFunctions} {tables : Tables} {scope : Str}

/-- A listing of a scope: its memories in the order of their keys. -/
structure Lists (functions : MemoryFunctions) (scope : Str) (tables : Tables)
    (records : List ProjectMemoryRecord) : Prop where
  sorted : Catalogued records
  stored : ∀ record ∈ records, ∃ row ∈ tables.memories, ReadsAs functions scope row record
  listed : ∀ row ∈ tables.memories, row.memoryScopeId = scope →
    ∃ record ∈ records, ReadsAs functions scope row record

theorem lists_of_ok (hkeyed : Keyed tables) {records : List ProjectMemoryRecord}
    (h : listProjectMemoriesWithConn functions scope tables = .ok records) :
    Lists functions scope tables records ∧
      records.length = (tables.ofScope scope).length ∧ records.length ≤ maxMemoriesPerProject := by
  simp only [listProjectMemoriesWithConn, bind_eq_ok, ensure_eq_ok, exists_const, pure_eq_ok,
    decide_eq_true_eq] at h
  obtain ⟨read, hread, hcount, _, -, rfl⟩ := h
  generalize hrows : (tables.ofScope scope).insertionSort
    (fun a b ↦ a.memoryKey ≤ b.memoryKey) = rows at hread
  have hmem : ∀ row, row ∈ rows ↔ row ∈ tables.memories ∧ row.memoryScopeId = scope := by
    intro row
    rw [← hrows, List.mem_insertionSort, Tables.ofScope, List.mem_filter, decide_eq_true_iff]
  have hall := mapM_eq_ok.mp hread
  have hlength := hall.length_eq
  -- With more rows than a scope may hold the limit would show one too many.
  have htake : rows.take (maxMemoriesPerProject + 1) = rows := by
    refine List.take_of_length_le ?_
    rw [List.length_take] at hlength
    omega
  rw [htake] at hall hlength
  refine ⟨⟨?_, ?_, ?_⟩, ?_, hcount⟩
  · have hkeys : read.map ProjectMemoryRecord.memoryKey = rows.map MemoryRow.memoryKey := by
      have hpairs : List.Forall₂ (· = ·) (rows.map MemoryRow.memoryKey)
          (read.map ProjectMemoryRecord.memoryKey) := by
        rw [List.forall₂_map_left_iff, List.forall₂_map_right_iff]
        refine hall.imp fun row record hparse ↦ ?_
        rw [(parseRow_eq_ok.mp hparse).eq]
      rw [List.forall₂_eq_eq_eq] at hpairs
      exact hpairs.symm
    have hsort : rows.map MemoryRow.memoryKey =
        ((tables.ofScope scope).map MemoryRow.memoryKey).insertionSort (· ≤ ·) := by
      rw [← hrows]
      exact List.map_insertionSort _ _ _ _ fun _ _ _ _ ↦ Iff.rfl
    have hnodup : ((tables.ofScope scope).map MemoryRow.memoryKey).Nodup := by
      refine List.Nodup.map_on ?_ (hkeyed.ids.of_map.filter _)
      intro row hrow _ hother hkey
      simp only [Tables.ofScope, List.mem_filter, decide_eq_true_eq] at hrow hother
      exact hkeyed.eq_of_isAt hrow.1 hother.1 (isAt_iff.mpr ⟨hrow.2, rfl⟩)
        (isAt_iff.mpr ⟨hother.2, hkey.symm⟩)
    have hstrict : (read.map ProjectMemoryRecord.memoryKey).Pairwise (· < ·) := by
      rw [hkeys, hsort]
      refine (List.SortedLE.sortedLT_of_nodup List.sortedLE_insertionSort ?_).pairwise
      exact (List.perm_insertionSort _ _).nodup_iff.mpr hnodup
    exact List.pairwise_map.mp hstrict
  · intro record hrecord
    obtain ⟨row, hrow, hparse⟩ := exists_of_forall₂_right hall hrecord
    exact ⟨row, ((hmem row).mp hrow).1, parseRow_eq_ok.mp hparse⟩
  · intro row hrow hscope
    obtain ⟨record, hrecord, hparse⟩ := exists_of_forall₂_left hall ((hmem row).mpr ⟨hrow, hscope⟩)
    exact ⟨record, hrecord, parseRow_eq_ok.mp hparse⟩
  · rw [← hlength, ← hrows, List.length_insertionSort]

variable {row : MemoryRow}

section History

/-- A memory that is still there later is the same row or a later generation of it. -/
theorem run_history {earlier more : List Call}
    (hfresh : ((earlier ++ more).filterMap Call.drawn).Nodup)
    (hrow : row ∈ (tablesAfter functions .empty earlier).memories) :
    ∀ later ∈ (tablesAfter functions .empty (earlier ++ more)).memories,
      row.memoryId = later.memoryId → row = later ∨ row.generation < later.generation := by
  induction more using List.reverseRecOn with
  | nil =>
    intro later hlater hid
    rw [List.append_nil] at hlater
    exact .inl ((run_keyed earlier).1.eq_of_memoryId hrow hlater hid)
  | append_singleton _ _ ih =>
    intro later hlater hid
    rw [← List.append_assoc] at hfresh hlater
    rw [tablesAfter_concat] at hlater
    rw [List.filterMap_append, List.nodup_append] at hfresh
    have hbefore := ih hfresh.1
    obtain hkept | ⟨hwritten, -⟩ := mem_apply (run_keyed _).1 hlater
    · exact hbefore later hkept hid
    · cases hwritten with
      | replaced old hold hsame =>
        obtain rfl | hlt := hbefore old hold (hid.trans hsame)
        · exact .inr (by omega)
        · exact .inr (by omega)
      | added uuid hdrawn hnew =>
        obtain ⟨used, hused, hold⟩ := drawn_of_mem row hrow
        have hsame : used = uuid := List.append_cancel_left (hold.symm.trans (hid.trans hnew))
        refine absurd hsame (hfresh.2.2 used ?_ uuid ?_)
        · rw [List.filterMap_append]
          exact List.mem_append_left _ hused
        · simp [hdrawn]

/-- In one run, an id and a generation name one row. -/
theorem eq_of_generation {calls earlier later : List Call}
    (hfresh : (calls.filterMap Call.drawn).Nodup) (hearlier : earlier <+: calls)
    (hlater : later <+: calls) {other : MemoryRow}
    (hrow : row ∈ (tablesAfter functions .empty earlier).memories)
    (hother : other ∈ (tablesAfter functions .empty later).memories)
    (hid : row.memoryId = other.memoryId)
    (hgeneration : row.generation = other.generation) :
    row = other := by
  have hinit : ∀ {part : List Call}, part <+: calls → (part.filterMap Call.drawn).Nodup := by
    intro part hpart
    exact hfresh.sublist (hpart.sublist.filterMap _)
  obtain ⟨more, rfl⟩ | ⟨more, rfl⟩ := List.prefix_or_prefix_of_prefix hearlier hlater
  · obtain heq | hlt := run_history (hinit hlater) hrow other hother hid
    · exact heq
    · omega
  · obtain heq | hlt := run_history (hinit hearlier) hother row hrow hid.symm
    · exact heq.symm
    · omega

/-- A stored memory is what an earlier call has written and returned. -/
theorem exists_writer {calls : List Call} : ∀ row ∈ (tablesAfter functions .empty calls).memories,
      ∃ start writer outcome, start ++ [writer] <+: calls ∧
        (writer.apply functions (tablesAfter functions .empty start)).1 = .ok (.set outcome) ∧
        outcome.stateChanged = true ∧
        ReadsAs functions row.memoryScopeId row outcome.record := by
  induction calls using List.reverseRecOn with
  | nil => exact fun row hrow ↦ absurd hrow List.not_mem_nil
  | append_singleton calls call ih =>
    intro row hrow
    rw [tablesAfter_concat] at hrow
    obtain hkept | ⟨-, outcome, hanswer, hchanged, hreads⟩ := mem_apply (run_keyed calls).1 hrow
    · obtain ⟨start, writer, outcome, hstart, hfacts⟩ := ih row hkept
      exact ⟨start, writer, outcome, hstart.trans (List.prefix_append _ _), hfacts⟩
    · exact ⟨calls, call, outcome, List.prefix_rfl, hanswer, hchanged, hreads⟩

end History

/-! ### What is hashed -/

variable {record : ProjectMemoryRecord}

section Hashed

/-- The bytes that are hashed for the states that a run reaches and for the contents that it asks
for. -/
inductive Hashed (functions : MemoryFunctions) (calls : List Call) : Bytes → Prop
  | definition {reached : List Call} {row : MemoryRow} {record : ProjectMemoryRecord}
    (prefixed : reached <+: calls) (mem : row ∈ (tablesAfter functions .empty reached).memories)
    (reads : ReadsAs functions row.memoryScopeId row record) :
    Hashed functions calls (definitionInput row.memoryKey row.summary row.body record.priority
      record.bootstrap record.tags)
  | state {reached : List Call} {row : MemoryRow} (prefixed : reached <+: calls)
    (mem : row ∈ (tablesAfter functions .empty reached).memories) :
    Hashed functions calls
      (stateInput row.memoryScopeId row.memoryId row.generation.toNat row.definitionHash)
  | catalog {reached : List Call} {scope : Str} {records : List ProjectMemoryRecord}
    (prefixed : reached <+: calls)
    (lists : listProjectMemoriesWithConn functions scope (tablesAfter functions .empty reached) =
      .ok records) :
    Hashed functions calls (catalogInput records)
  | request {scope : Str} {attribution : MemoryScopeAttribution}
    {principal : MemoryPrincipalAttribution} {input : MemorySetInput} {now : ℤ} {uuid : Str}
    {tags : List Str} (mem : Call.set scope attribution principal input now uuid ∈ calls)
    (canonical : canonicalizeMemoryTags input.tags = .ok tags) :
    Hashed functions calls (definitionInput input.memoryKey input.summary input.body input.priority
      input.bootstrap tags)

/-- The hash function has no collision among the bytes that a run hashes. -/
def NoCollision (functions : MemoryFunctions) (calls : List Call) : Prop :=
  Set.InjOn functions.sha256 {bytes | Hashed functions calls bytes}

theorem ReadsAs.contentFits (h : ReadsAs functions scope row record) :
    ContentFits row.memoryKey row.summary row.body record.tags := by
  have htags := h.tags
  simp only [parseCanonicalTagsJson, bind_eq_ok, ensure_eq_ok, required_eq_ok, exists_const,
    pure_eq_ok, toOption_eq_some, decide_eq_true_eq] at htags
  obtain ⟨-, tags, -, _, hcanonical, rfl, rfl⟩ := htags
  exact ProjectMemory.contentFits h.key h.summary h.body hcanonical

theorem ReadsAs.unique {other : ProjectMemoryRecord} (h : ReadsAs functions scope row record)
    (hother : ReadsAs functions scope row other) :
    record = other :=
  Except.ok.inj ((parseRow_eq_ok.mpr h).symm.trans (parseRow_eq_ok.mpr hother))

variable {calls earlier later : List Call}

/-- A revision names one row in the whole run. -/
theorem eq_of_revision (hfresh : (calls.filterMap Call.drawn).Nodup)
    (hhash : NoCollision functions calls) (hearlier : earlier <+: calls) (hlater : later <+: calls)
    {other : MemoryRow}
    (hrow : row ∈ (tablesAfter functions .empty earlier).memories)
    (hother : other ∈ (tablesAfter functions .empty later).memories)
    (hrevision : row.revision = other.revision) : row = other := by
  obtain ⟨_, _, hreads⟩ := (run_keyed earlier).2 row hrow
  obtain ⟨_, _, hreads'⟩ := (run_keyed later).2 other hother
  rw [hreads.revision, hreads'.revision] at hrevision
  have hinput := hhash (.state hearlier hrow) (.state hlater hother)
    (List.append_cancel_left hrevision)
  obtain ⟨-, hid, _, -⟩ := stateInput_inj
    (fits_of_validLowerHexPrefixed hreads.scopeId (by decide))
    (fits_of_validLowerHexPrefixed hreads'.scopeId (by decide))
    (fits_of_validLowerHexPrefixed hreads.memoryId (by decide))
    (fits_of_validLowerHexPrefixed hreads'.memoryId (by decide))
    (fits_of_validLowerHexPrefixed hreads.hashValid (by decide))
    (fits_of_validLowerHexPrefixed hreads'.hashValid (by decide)) (by omega) (by omega) hinput
  have hpos := hreads.generation_pos
  exact eq_of_generation hfresh hearlier hlater hrow hother hid (by omega)

/-- A catalog revision of a scope with memories names the scope and its memories. -/
theorem eq_of_catalogRevision (hfresh : (calls.filterMap Call.drawn).Nodup)
    (hhash : NoCollision functions calls) (hearlier : earlier <+: calls) (hlater : later <+: calls)
    {scope' : Str} {records others : List ProjectMemoryRecord} (hne : records ≠ [])
    (hlist : listProjectMemoriesWithConn functions scope (tablesAfter functions .empty earlier) =
      .ok records)
    (hlist' : listProjectMemoriesWithConn functions scope' (tablesAfter functions .empty later) =
      .ok others)
    (hrevision : memoryCatalogRevision functions records = memoryCatalogRevision functions others) :
    scope = scope' ∧ records = others := by
  have hfits : ∀ {scope : Str} {tables : Tables} {records : List ProjectMemoryRecord},
      Lists functions scope tables records →
      ∀ record ∈ records, Fits record.memoryKey ∧ Fits record.revision := by
    intro scope tables records hlists record hrecord
    obtain ⟨row, -, hreads⟩ := hlists.stored record hrecord
    rw [hreads.eq]
    exact ⟨hreads.contentFits.key, fits_of_validLowerHexPrefixed hreads.revisionValid (by decide)⟩
  obtain ⟨hlists, -⟩ := lists_of_ok (run_keyed earlier).1 hlist
  obtain ⟨hlists', -⟩ := lists_of_ok (run_keyed later).1 hlist'
  have hinput := hhash (.catalog hearlier hlist) (.catalog hlater hlist')
    (List.append_cancel_left hrevision)
  have hrevisions := catalogInput_inj hlists.sorted hlists'.sorted (hfits hlists)
    (hfits hlists') hinput
  -- Records with one revision are read from one row.
  have hsame : ∀ record ∈ records, ∀ other ∈ others, record.revision = other.revision →
      scope = scope' ∧ record = other := by
    intro record hrecord other hother heq
    obtain ⟨row, hrow, hreads⟩ := hlists.stored record hrecord
    obtain ⟨row', hrow', hreads'⟩ := hlists'.stored other hother
    have hrows : row = row' := by
      refine eq_of_revision hfresh hhash hearlier hlater hrow hrow' ?_
      rwa [hreads.eq, hreads'.eq] at heq
    subst hrows
    have hscopes : scope = scope' := hreads.scope_eq.symm.trans hreads'.scope_eq
    subst hscopes
    exact ⟨rfl, hreads.unique hreads'⟩
  have hlength : records.length = others.length := by
    simpa using congrArg List.length hrevisions
  have hat : ∀ i (hi : i < records.length) (hi' : i < others.length),
      records[i].revision = others[i].revision := by
    intro i hi hi'
    have hget := congrArg (fun list ↦ list[i]?) hrevisions
    simpa [hi, hi'] using hget
  constructor
  · have hpos : 0 < records.length := List.length_pos_iff.mpr hne
    exact (hsame _ (List.getElem_mem hpos) _ (List.getElem_mem (hlength ▸ hpos))
      (hat 0 hpos (hlength ▸ hpos))).1
  · refine List.ext_getElem hlength fun i hi hi' ↦ ?_
    exact (hsame _ (List.getElem_mem hi) _ (List.getElem_mem hi') (hat i hi hi')).2

end Hashed

/-! ### Calls -/

/-- The revision that a set or a delete gives. -/
def Call.expectedRevision : Call → Option Str
  | .set _ _ _ input _ _ => input.expectedRevision
  | .delete _ _ _ expected _ => some expected
  | .purge _ _ => none

/-- The record has the content that a call asks for. -/
structure ProjectMemoryRecord.HasContent (record : ProjectMemoryRecord) (input : MemorySetInput) :
    Prop where
  key : record.memoryKey = input.memoryKey
  summary : record.summary = input.summary
  body : record.body = input.body
  priority : record.priority = input.priority
  bootstrap : record.bootstrap = input.bootstrap
  tags : canonicalizeMemoryTags input.tags = .ok record.tags

/-- What holds of a call of a run that comes after the calls `before`. -/
structure Fenced (functions : MemoryFunctions) (calls before : List Call) (call : Call)
    (tables : Tables) (answer : Fallible Outcome) (next : Tables) : Prop where
  /-- An error changes nothing. -/
  failed : ∀ error, answer = .error error → next = tables
  /-- What a set or a delete replaces is the state whose revision it gives. That revision has been
  returned by the call that wrote the state, and names no other one in the run. -/
  replaced : (∀ scope catalog, call ≠ .purge scope catalog) →
    ∀ old ∈ tables.memories, old ∉ next.memories → call.expectedRevision = some old.revision ∧
      (∃ start writer outcome, start ++ [writer] <+: before ∧
        (writer.apply functions (tablesAfter functions .empty start)).1 = .ok (.set outcome) ∧
        outcome.stateChanged = true ∧ ReadsAs functions old.memoryScopeId old outcome.record) ∧
      ∀ reached, reached <+: calls → ∀ row ∈ (tablesAfter functions .empty reached).memories,
        row.revision = old.revision → row = old
  /-- A delete that reports so removes the memory of its key in the state that it names and no other
  one, and a delete that reports nothing has found nothing and changes nothing. -/
  deleted : ∀ scope attribution key expected now done,
    call = .delete scope attribution key expected now → answer = .ok (.delete done) →
    if done.deleted then
      ∃ row ∈ tables.memories, row.isAt scope key = true ∧ row.revision = expected ∧
        next.memories = tables.memories.filter (· ≠ row)
    else next = tables ∧ ∀ row ∈ tables.memories, row.isAt scope key = false
  /-- A delete with the revision of a memory is carried out where the scope admits it. -/
  admitted : ∀ scope attribution now prepared, ∀ row ∈ tables.memories, ∀ record,
    call = .delete scope attribution row.memoryKey row.revision now →
    ReadsAs functions scope row record →
    ensureScopeForMutation scope attribution now false tables = .ok prepared →
    ∃ done, answer = .ok (.delete done) ∧ done.deleted = true
  /-- A purge that reports so changes the tables, and one that reports nothing does not. -/
  reported : ∀ scope catalog done, call = .purge scope catalog → answer = .ok (.purge done) →
    (done.purged = true ↔ next ≠ tables)
  /-- A purge with the catalog revision of the memories of its scope is carried out. -/
  matching : ∀ scope catalog records, call = .purge scope catalog →
    listProjectMemoriesWithConn functions scope tables = .ok records → records ≠ [] →
    memoryCatalogRevision functions records = catalog → validMemoryCatalogRevision catalog = true →
    ∃ done, answer = .ok (.purge done) ∧ done.purged = true
  /-- What a purge removes are the memories of its scope and the row of the scope, and wherever a
  listing in the run has the given catalog revision, it is the listing of these memories. -/
  purged : ∀ scope catalog, call = .purge scope catalog → next ≠ tables →
    next.memories = tables.memories.filter (·.memoryScopeId ≠ scope) ∧
    next.scopes = tables.scopes.filter (·.memoryScopeId ≠ scope) ∧
    ∃ records, listProjectMemoriesWithConn functions scope tables = .ok records ∧
      memoryCatalogRevision functions records = catalog ∧
      ∀ reached, reached <+: calls → ∀ other listing,
        listProjectMemoriesWithConn functions other (tablesAfter functions .empty reached) =
          .ok listing →
        memoryCatalogRevision functions listing = catalog → other = scope ∧ listing = records
  /-- A set that is answered without an error leaves the content it asks for. -/
  stored : ∀ scope attribution principal input now uuid outcome,
    call = .set scope attribution principal input now uuid → answer = .ok (.set outcome) →
    outcome.record.HasContent input ∧ ∃ row ∈ next.memories,
      ReadsAs functions scope row outcome.record
  /-- A set of the content that is stored changes nothing. -/
  repeated : ∀ scope attribution principal input now uuid,
    call = .set scope attribution principal input now uuid →
    ∀ row ∈ tables.memories, ∀ record, ReadsAs functions scope row record →
      record.HasContent input → next = tables

variable {attribution : MemoryScopeAttribution} {principal : MemoryPrincipalAttribution} {now : ℤ}
  {uuid : Str}

section Fenced

variable {calls before reached : List Call} {next : Tables}

/-- A set that succeeds leaves a memory with the definition hash of its request. -/
theorem set_stores {request : MemorySetInput} {outcome : MemorySetOutcome} (hkeyed : Keyed tables)
    (h : setProjectMemoryAttributed functions scope attribution principal request now uuid tables =
      .ok (outcome, next)) :
    ∃ tags, canonicalizeMemoryTags request.tags = .ok tags ∧
      ContentFits request.memoryKey request.summary request.body tags ∧
      ∃ row ∈ next.memories, ReadsAs functions scope row outcome.record ∧
        row.definitionHash = memoryDefinitionHash functions request.memoryKey request.summary
          request.body request.priority request.bootstrap tags := by
  obtain ⟨tags, _, htags, rfl, hkey, hsummary, hbody, ⟨old, _, hold, hat, hreads, hdone⟩ |
    ⟨-, -, hinsert⟩⟩ := setProjectMemoryAttributed_cases h
  · refine ⟨tags, htags, contentFits hkey hsummary hbody htags, ?_⟩
    obtain ⟨rfl, rfl, hhash⟩ | ⟨-, -, hupdate⟩ := hdone
    · refine ⟨old, hold, hreads, ?_⟩
      rwa [hreads.eq] at hhash
    · obtain ⟨record, rfl, hrecord, -, prepared, -, rfl⟩ :=
        updateProjectMemory_eq_ok hkeyed hold hat hreads hupdate
      exact ⟨_, mem_map_updateRow hold, hrecord, rfl⟩
  · obtain ⟨record, rfl, hrecord, -, -, -, prepared, -, rfl⟩ := insertProjectMemory_eq_ok hinsert
    refine ⟨tags, htags, contentFits hkey hsummary hbody htags, ?_⟩
    exact ⟨_, List.mem_append_right _ (List.mem_singleton_self _), hrecord, rfl⟩

/-- Where no hashes collide, a stored memory with the definition hash of a request has its
content. -/
theorem hasContent_of_definitionHash (hhash : NoCollision functions calls)
    (hreached : reached <+: calls) (hrow : row ∈ (tablesAfter functions .empty reached).memories)
    (hreads : ReadsAs functions scope row record) {input : MemorySetInput}
    (hcall : Call.set scope attribution principal input now uuid ∈ calls) {tags : List Str}
    (htags : canonicalizeMemoryTags input.tags = .ok tags)
    (hfits : ContentFits input.memoryKey input.summary input.body tags)
    (hdefinition : row.definitionHash = memoryDefinitionHash functions input.memoryKey input.summary
      input.body input.priority input.bootstrap tags) :
    record.HasContent input := by
  have hreads' : ReadsAs functions row.memoryScopeId row record := hreads.scope_eq ▸ hreads
  rw [hreads.hash] at hdefinition
  have hinput := hhash (.definition hreached hrow hreads') (.request hcall htags)
    (List.append_cancel_left hdefinition)
  obtain ⟨hkey, hsummary, hbody, hpriority, hbootstrap, rfl⟩ :=
    definitionInput_inj hreads.contentFits hfits hinput
  refine ⟨?_, ?_, ?_, hpriority, hbootstrap, htags⟩
  · rw [hreads.eq]
    exact hkey
  · rw [hreads.eq]
    exact hsummary
  · rw [hreads.eq]
    exact hbody

/-- A set or a delete replaces only the memory whose revision it gives. -/
theorem expectedRevision_of_replaced (hkeyed : Keyed tables) {call : Call}
    (hcall : ∀ scope catalog, call ≠ .purge scope catalog) {old : MemoryRow}
    (hold : old ∈ tables.memories) (hgone : old ∉ (call.apply functions tables).2.memories) :
    call.expectedRevision = some old.revision := by
  obtain ⟨_, happly⟩ | ⟨_, _, htransact, happly⟩ := apply_eq functions call tables
  · rw [happly] at hgone
    exact absurd hold hgone
  · rw [happly] at hgone
    cases call with
    | set =>
      obtain ⟨done, rfl, hset⟩ := transact_set htransact
      obtain ⟨_, _, -, rfl, -, -, -, ⟨row, existing, hrow, hat, hreads, hdone⟩ |
        ⟨-, -, hinsert⟩⟩ := setProjectMemoryAttributed_cases hset
      · obtain ⟨rfl, -, -⟩ | ⟨hexpected, -, hupdate⟩ := hdone
        · exact absurd hold hgone
        · obtain ⟨record, -, -, -, prepared, -, rfl⟩ :=
            updateProjectMemory_eq_ok hkeyed hrow hat hreads hupdate
          by_cases hid : old.memoryId = row.memoryId
          · obtain rfl := hkeyed.eq_of_memoryId hold hrow hid
            rw [hreads.eq] at hexpected
            exact hexpected
          · refine absurd ?_ hgone
            exact List.mem_map.mpr ⟨old, hold, updateRow_ne hid⟩
      · obtain ⟨record, -, -, -, -, -, prepared, -, rfl⟩ := insertProjectMemory_eq_ok hinsert
        exact absurd (List.mem_append_left _ hold) hgone
    | delete =>
      obtain ⟨done, rfl, hdelete⟩ := transact_delete htransact
      obtain ⟨rfl, -⟩ | ⟨row, existing, hrow, -, -, hrevision, -, hmemories, -⟩ :=
        deleteProjectMemoryAttributed_cases hkeyed hdelete
      · exact absurd hold hgone
      · by_cases hid : old.memoryId = row.memoryId
        · obtain rfl := hkeyed.eq_of_memoryId hold hrow hid
          rw [hrevision]
          rfl
        · refine absurd ?_ hgone
          rw [hmemories]
          exact List.mem_filter.mpr ⟨hold, decide_eq_true hid⟩
    | purge scope catalog => exact absurd rfl (hcall scope catalog)

/-- A set of the content that is stored changes nothing. -/
theorem apply_eq_self_of_hasContent (hkeyed : Keyed tables) {input : MemorySetInput}
    (hrow : row ∈ tables.memories) (hreads : ReadsAs functions scope row record)
    (hcontent : record.HasContent input) :
    ((Call.set scope attribution principal input now uuid).apply functions tables).2 = tables := by
  obtain ⟨_, happly⟩ | ⟨_, _, htransact, happly⟩ := apply_eq functions
    (.set scope attribution principal input now uuid) tables
  · rw [happly]
  · rw [happly]
    have hkey : row.memoryKey = input.memoryKey := by
      have hrecord := hcontent.key
      rwa [hreads.eq] at hrecord
    have hplace : row.isAt scope input.memoryKey = true := isAt_iff.mpr ⟨hreads.scope_eq, hkey⟩
    obtain ⟨_, rfl, hset⟩ := transact_set htransact
    obtain ⟨tags, _, htags, rfl, -, -, -, ⟨_, existing, hold, hat, hexisting, hdone⟩ |
      ⟨hnone, -, -⟩⟩ := setProjectMemoryAttributed_cases hset
    · obtain ⟨rfl, -, -⟩ | ⟨-, hchanged, -⟩ := hdone
      · rfl
      · obtain rfl := hkeyed.eq_of_isAt hold hrow hat hplace
        obtain rfl := hexisting.unique hreads
        refine absurd ?_ hchanged
        obtain rfl := Except.ok.inj (htags.symm.trans hcontent.tags)
        have hhash : existing.definitionHash = memoryDefinitionHash functions existing.memoryKey
            existing.summary existing.body existing.priority existing.bootstrap existing.tags := by
          rw [hreads.eq]
          exact hreads.hash
        rw [hhash, hcontent.key, hcontent.summary, hcontent.body, hcontent.priority,
          hcontent.bootstrap]
        rfl
    · have hmiss := List.find?_eq_none.mp hnone row hrow
      exact absurd hplace hmiss

/-- A listing with memories shows some of them. -/
theorem Lists.exists_mem {records : List ProjectMemoryRecord}
    (h : Lists functions scope tables records) (hne : records ≠ []) :
    ∃ row ∈ tables.memories, ∃ record, ReadsAs functions scope row record := by
  obtain ⟨record, hrecord⟩ := List.exists_mem_of_ne_nil records hne
  obtain ⟨row, hrow, hreads⟩ := h.stored record hrecord
  exact ⟨row, hrow, record, hreads⟩

/-- A delete answers what it has removed. -/
theorem delete_reports (hkeyed : Keyed tables) {key expected : Str} {done : MemoryDeleteOutcome}
    (h : deleteProjectMemoryAttributed functions scope attribution key expected now tables =
      .ok (done, next)) :
    if done.deleted then
      ∃ row ∈ tables.memories, row.isAt scope key = true ∧ row.revision = expected ∧
        next.memories = tables.memories.filter (· ≠ row)
    else next = tables ∧ ∀ row ∈ tables.memories, row.isAt scope key = false := by
  obtain ⟨rfl, rfl, hmissing⟩ | ⟨row, _, hrow, hat, -, hrevision, rfl, hmemories, -⟩ :=
    deleteProjectMemoryAttributed_cases hkeyed h
  · exact ⟨rfl, hmissing⟩
  · refine ⟨row, hrow, hat, hrevision, hmemories.trans (List.filter_congr fun _ hother ↦ ?_)⟩
    refine decide_eq_decide.mpr (not_congr ⟨hkeyed.eq_of_memoryId hother hrow, ?_⟩)
    exact congrArg MemoryRow.memoryId

/-- A purge answers whether it has removed anything. -/
theorem purge_reports {catalog : Str} {done : MemoryScopePurgeOutcome}
    (h : purgeProjectMemoryScope functions scope catalog tables = .ok (done, next))
    (hkeyed : Keyed tables) : done.purged = true ↔ next ≠ tables := by
  obtain ⟨rfl, hquiet⟩ | ⟨_, hlist, hne, -, hmemories, -, hpurged⟩ :=
    purgeProjectMemoryScope_cases h
  · simp [hquiet]
  · refine iff_of_true hpurged ?_
    rintro rfl
    obtain ⟨_, hrow, _, hreads⟩ := (lists_of_ok hkeyed hlist).1.exists_mem hne
    rw [hmemories, List.mem_filter, decide_eq_true_iff] at hrow
    exact hrow.2 hreads.scope_eq

/-- A purge with the revision of what its scope holds goes through. -/
theorem purge_of_revision {catalog : Str} {records : List ProjectMemoryRecord}
    (hkeyed : Keyed tables)
    (hlist : listProjectMemoriesWithConn functions scope tables = .ok records) (hne : records ≠ [])
    (hrevision : memoryCatalogRevision functions records = catalog)
    (hvalid : validMemoryCatalogRevision catalog = true) :
    ∃ done next, purgeProjectMemoryScope functions scope catalog tables = .ok (done, next) ∧
      done.purged = true := by
  obtain ⟨hlists, hlength, -⟩ := lists_of_ok hkeyed hlist
  obtain ⟨row, -, _, hreads⟩ := hlists.exists_mem hne
  have hscope : validLowerHexPrefixed scope memoryScopePrefix 64 = true := hreads.scope_eq ▸
    hreads.scopeId
  have hnonempty : records.isEmpty = false := List.isEmpty_eq_false_iff.mpr hne
  -- The listing has found the row of the scope.
  have hstored := hlist
  simp only [listProjectMemoriesWithConn, validateScopeRecordForMemories, bind_eq_ok, ensure_eq_ok,
    exists_const, pure_eq_ok, decide_eq_true_eq] at hstored
  obtain ⟨_, -, -, found, ⟨_, hfound, hsome, rfl⟩, rfl⟩ := hstored
  rw [hnonempty, Bool.not_false, Option.isSome_iff_exists] at hsome
  obtain ⟨found, rfl⟩ := hsome
  have hcount : tables.scopes.countP (·.memoryScopeId = scope) = 1 := by
    rw [getScopeRecord] at hfound
    cases hfind : tables.scopes.find? (·.memoryScopeId = scope) with
    | none =>
      rw [hfind] at hfound
      cases hfound
    | some kept =>
      have hid : kept.memoryScopeId = scope := by simpa using List.find?_some hfind
      exact hid ▸ countP_key_eq_one hkeyed.scopes (List.mem_of_find?_eq_some hfind)
  refine ⟨⟨scope, some catalog, (tables.ofScope scope).length, true, true⟩,
    ⟨tables.memories.filter (·.memoryScopeId ≠ scope),
      tables.scopes.filter (·.memoryScopeId ≠ scope)⟩, ?_, rfl⟩
  simp only [purgeProjectMemoryScope, snapshotMemories, validateScope, hscope, hvalid,
    hfound, hlist, hnonempty, hrevision, hlength, hcount, ok_bind, ensure_true, decide_true,
    pure_bind, Bool.not_false]
  rfl

/-- In a run whose new ids are distinct and whose hashes do not collide, every call is fenced by the
revision it gives, a revision names one memory in one state, and a catalog revision one scope with
its memories. -/
theorem memory_calls_are_fenced (functions : MemoryFunctions) (calls : List Call)
    (hfresh : (calls.filterMap Call.drawn).Nodup) (hhash : NoCollision functions calls) :
    (∀ before call, before ++ [call] <+: calls →
      Fenced functions calls before call (tablesAfter functions .empty before)
        (call.apply functions (tablesAfter functions .empty before)).1
        (call.apply functions (tablesAfter functions .empty before)).2) ∧
    ∀ earlier later, earlier <+: calls → later <+: calls →
      (∀ row ∈ (tablesAfter functions .empty earlier).memories,
        ∀ other ∈ (tablesAfter functions .empty later).memories,
          row.revision = other.revision → row = other) ∧
      ∀ scope other records others, records ≠ [] →
        listProjectMemoriesWithConn functions scope (tablesAfter functions .empty earlier) =
          .ok records →
        listProjectMemoriesWithConn functions other (tablesAfter functions .empty later) =
          .ok others →
        memoryCatalogRevision functions records = memoryCatalogRevision functions others →
        scope = other ∧ records = others := by
  constructor
  · intro before call hinit
    have hbefore : before <+: calls := (List.prefix_append _ _).trans hinit
    have hmem : call ∈ calls :=
      hinit.subset (List.mem_append_right _ (List.mem_singleton_self call))
    have hkeyed : Keyed (tablesAfter functions .empty before) := (run_keyed before).1
    constructor
    · intro error hanswer
      obtain ⟨_, happly⟩ | ⟨outcome, next, -, happly⟩ :=
        apply_eq functions call (tablesAfter functions .empty before)
      · rw [happly]
      · rw [happly] at hanswer
        cases hanswer
    · intro hcall old hold hgone
      refine ⟨expectedRevision_of_replaced hkeyed hcall hold hgone, exists_writer old hold, ?_⟩
      intro reached hreached row hrow hrevision
      exact eq_of_revision hfresh hhash hreached hbefore hrow hold hrevision
    · rintro scope attribution key expected now done rfl hanswer
      obtain ⟨error, happly⟩ | ⟨outcome, next, htransact, happly⟩ := apply_eq functions
        (.delete scope attribution key expected now) (tablesAfter functions .empty before)
      · rw [happly] at hanswer
        cases hanswer
      · rw [happly] at hanswer ⊢
        obtain ⟨_, rfl, hdelete⟩ := transact_delete htransact
        obtain rfl := Outcome.delete.inj (Except.ok.inj hanswer)
        exact delete_reports hkeyed hdelete
    · rintro scope attribution now prepared row hrow record rfl hreads hprepared
      obtain ⟨done, next, hdelete, hdeleted⟩ := delete_of_revision hkeyed hrow hreads hprepared
      refine ⟨done, ?_, hdeleted⟩
      rw [Call.apply, Call.transact, hdelete]
      rfl
    · rintro scope catalog done rfl hanswer
      obtain ⟨error, happly⟩ | ⟨outcome, next, htransact, happly⟩ :=
        apply_eq functions (.purge scope catalog) (tablesAfter functions .empty before)
      · rw [happly] at hanswer
        cases hanswer
      · rw [happly] at hanswer ⊢
        obtain ⟨_, rfl, hpurge⟩ := transact_purge htransact
        obtain rfl := Outcome.purge.inj (Except.ok.inj hanswer)
        exact purge_reports hpurge hkeyed
    · rintro scope catalog records rfl hlist hne hrevision hvalid
      obtain ⟨done, next, hpurge, hpurged⟩ := purge_of_revision hkeyed hlist hne hrevision hvalid
      refine ⟨done, ?_, hpurged⟩
      rw [Call.apply, Call.transact, hpurge]
      rfl
    · rintro scope catalog rfl hchanged
      obtain ⟨error, happly⟩ | ⟨outcome, next, htransact, happly⟩ :=
        apply_eq functions (.purge scope catalog) (tablesAfter functions .empty before)
      · rw [happly] at hchanged
        exact absurd rfl hchanged
      · rw [happly] at hchanged ⊢
        obtain ⟨done, rfl, hpurge⟩ := transact_purge htransact
        obtain ⟨rfl, -⟩ | ⟨records, hlist, hne, hcatalog, hmemories, hscopes, -⟩ :=
          purgeProjectMemoryScope_cases hpurge
        · exact absurd rfl hchanged
        · refine ⟨hmemories, hscopes, records, hlist, hcatalog, ?_⟩
          intro reached hreached other _ hlisting hsame
          obtain ⟨hscope, hrecords⟩ := eq_of_catalogRevision hfresh hhash hbefore hreached hne hlist
            hlisting (hcatalog.trans hsame.symm)
          exact ⟨hscope.symm, hrecords.symm⟩
    · rintro scope attribution principal input now uuid outcome rfl hanswer
      obtain ⟨error, happly⟩ | ⟨_, next, htransact, happly⟩ := apply_eq functions
        (.set scope attribution principal input now uuid) (tablesAfter functions .empty before)
      · rw [happly] at hanswer
        cases hanswer
      · rw [happly] at hanswer ⊢
        obtain ⟨done, rfl, hset⟩ := transact_set htransact
        obtain rfl := Outcome.set.inj (Except.ok.inj hanswer)
        obtain ⟨_, htags, hfits, row, hrow, hreads, hdefinition⟩ := set_stores hkeyed hset
        refine ⟨?_, row, hrow, hreads⟩
        have hreached : row ∈ (tablesAfter functions .empty
            (before ++ [.set scope attribution principal input now uuid])).memories := by
          rw [tablesAfter_concat, happly]
          exact hrow
        exact hasContent_of_definitionHash hhash hinit hreached hreads hmem htags hfits hdefinition
    · rintro scope attribution principal input now uuid rfl row hrow _ hreads hcontent
      exact apply_eq_self_of_hasContent hkeyed hrow hreads hcontent
  · intro earlier later hearlier hlater
    constructor
    · intro row hrow other hother hrevision
      exact eq_of_revision hfresh hhash hearlier hlater hrow hother hrevision
    · intro scope other records others hne hlist hlist' hrevision
      exact eq_of_catalogRevision hfresh hhash hearlier hlater hne hlist hlist' hrevision

end Fenced

/-! ### A memory that is deleted and made again -/

section Recreation

def sampleScope : Str := memoryScopePrefix ++ List.replicate 64 'a'

def sampleAttribution : MemoryScopeAttribution := ⟨"agent:test:memory".toList, "test-runner".toList,
    memoryRootFingerprintPrefix ++ List.replicate 64 '0'⟩

def samplePrincipal : MemoryPrincipalAttribution :=
  ⟨"dev".toList, memoryPrincipalDigestPrefix ++ List.replicate 64 '1'⟩

def sampleInput (key : Str) : MemorySetInput :=
    ⟨key, "summary".toList, [], .normal, false, [], none⟩

def sampleUuid (digit : Char) : Str := List.replicate 32 digit

def sampleDigits (digit : Char) : Str := List.replicate 64 digit

def sampleState (digit : Char) : Bytes := stateInput sampleScope
    (memoryIdPrefix ++ sampleUuid digit) 1 (memoryDefinitionHashPrefix ++ sampleDigits '0')

/-- What is hashed in the run, with the digits that it gets. -/
def sampleHashed : List (Bytes × Char) :=
  [(definitionInput ['k'] "summary".toList [] .normal false [], '0'), (sampleState '1', '1'),
    (sampleState '2', '2'), (utf8Bytes "webcodex-project-memory-catalog-v1\x00".toList ++
      frame (utf8Bytes ['k']) ++ frame (utf8Bytes (memoryRevisionPrefix ++ sampleDigits '2')), '3')]

/-- A hash function without collisions that gives digits on what the run hashes. -/
def sampleDigest (bytes : Bytes) : Str :=
  match sampleHashed.find? (·.1 = bytes) with
  | some entry => sampleDigits entry.2
  | none => 'x' :: bytes.map fun byte ↦ Char.ofNat byte.toNat

def sampleFunctions : MemoryFunctions :=
  ⟨sampleDigest, fun text ↦ if text = tagsToJson [] then some [] else none⟩

theorem ofNat_byte_injective : Function.Injective fun byte : UInt8 ↦ Char.ofNat byte.toNat := by
  intro _ _ h
  have hvalid : ∀ byte : UInt8, (Char.ofNat byte.toNat).toNat = byte.toNat := by
    intro byte
    have hlt := byte.toNat_lt
    have hscalar : byte.toNat.isValidChar := .inl (by omega)
    rw [Char.ofNat, dif_pos hscalar]
    rfl
  have hnat := congrArg Char.toNat h
  simp only [hvalid] at hnat
  exact UInt8.toNat_inj.mp hnat

theorem sampleDigest_injective : Function.Injective sampleDigest := by
  have hdigits : ∀ first ∈ sampleHashed, ∀ second ∈ sampleHashed,
      sampleDigits first.2 = sampleDigits second.2 → first.1 = second.1 := by decide +kernel
  have hx : ∀ entry ∈ sampleHashed, ∀ rest : Str, sampleDigits entry.2 ≠ 'x' :: rest := by
    intro entry hentry rest heq
    have hne : entry.2 ≠ 'x' := (by decide +kernel : ∀ entry ∈ sampleHashed, entry.2 ≠ 'x')
      entry hentry
    exact hne (List.cons.inj heq).1
  intro a b h
  unfold sampleDigest at h
  cases ha : sampleHashed.find? (·.1 = a) with
  | some first =>
    have hfirst := List.mem_of_find?_eq_some ha
    cases hb : sampleHashed.find? (·.1 = b) with
    | some second =>
      rw [ha, hb] at h
      have hsame := hdigits first hfirst second (List.mem_of_find?_eq_some hb) h
      have hfirstAt : first.1 = a := by simpa using List.find?_some ha
      have hsecondAt : second.1 = b := by simpa using List.find?_some hb
      rw [← hfirstAt, hsame, hsecondAt]
    | none =>
      rw [ha, hb] at h
      exact absurd h (hx first hfirst _)
  | none =>
    cases hb : sampleHashed.find? (·.1 = b) with
    | some second =>
      rw [ha, hb] at h
      exact absurd h.symm (hx second (List.mem_of_find?_eq_some hb) _)
    | none =>
      rw [ha, hb] at h
      exact List.map_injective_iff.mpr ofNat_byte_injective (List.cons.inj h).2

def sampleSet (key : Str) (now : ℤ) (digit : Char) : Call :=
  .set sampleScope sampleAttribution samplePrincipal (sampleInput key) now (sampleUuid digit)

/-- The first memory is deleted and made again with equal content. -/
def recreation : List Call := [sampleSet ['k'] 1 '1',
    .delete sampleScope sampleAttribution ['k'] (memoryRevisionPrefix ++ sampleDigits '1') 2,
    sampleSet ['k'] 3 '2']

def staleDelete : Call :=
  .delete sampleScope sampleAttribution ['k'] (memoryRevisionPrefix ++ sampleDigits '1') 4

/-- A purge with the catalog revision of the second memory. -/
def matchingPurge : Call := .purge sampleScope (memoryCatalogRevisionPrefix ++ sampleDigits '3')

/-- The tables of the run, before and after its calls. -/
theorem recreation_answers :
    ((recreation.getD 1 staleDelete).apply sampleFunctions
        (tablesAfter sampleFunctions .empty (recreation.take 1))).1 =
      .ok (.delete ⟨some (memoryIdPrefix ++ sampleUuid '1'),
        some (memoryRevisionPrefix ++ sampleDigits '1'), true, true⟩) ∧
    (tablesAfter sampleFunctions .empty (recreation.take 2)).memories = [] ∧
    (staleDelete.apply sampleFunctions (tablesAfter sampleFunctions .empty recreation)).1 =
      .error (.changed (memoryRevisionPrefix ++ sampleDigits '2')) ∧
    (tablesAfter sampleFunctions .empty recreation).memories.length = 1 ∧
    (tablesAfter sampleFunctions .empty recreation).scopes.length = 1 ∧
    matchingPurge.apply sampleFunctions (tablesAfter sampleFunctions .empty recreation) =
      (.ok (.purge ⟨sampleScope, some (memoryCatalogRevisionPrefix ++ sampleDigits '3'), 1, true,
        true⟩), .empty) := by
  decide +kernel

/-- The first memory is deleted and made again. A delete with its revision does not delete the
second one, and a purge with the catalog revision of the second one removes it with its scope. -/
theorem recreation_is_kept_until_purged :
    (tablesAfter sampleFunctions .empty (recreation.take 2)).memories = [] ∧
    (staleDelete.apply sampleFunctions (tablesAfter sampleFunctions .empty recreation)).2 =
      tablesAfter sampleFunctions .empty recreation ∧
    (tablesAfter sampleFunctions .empty recreation).memories.length = 1 ∧
    (matchingPurge.apply sampleFunctions (tablesAfter sampleFunctions .empty recreation)).2 =
      .empty ∧
    ∀ before call, before ++ [call] <+: recreation ++ [matchingPurge] →
      Fenced sampleFunctions (recreation ++ [matchingPurge]) before call
        (tablesAfter sampleFunctions .empty before)
        (call.apply sampleFunctions (tablesAfter sampleFunctions .empty before)).1
        (call.apply sampleFunctions (tablesAfter sampleFunctions .empty before)).2 := by
  obtain ⟨_, hdeleted, hstale, hcount, _, hpurge⟩ := recreation_answers
  have hrefused := memory_calls_are_fenced sampleFunctions (recreation ++ [staleDelete])
    (by decide +kernel) sampleDigest_injective.injOn
  have hpurged := memory_calls_are_fenced sampleFunctions (recreation ++ [matchingPurge])
    (by decide +kernel) sampleDigest_injective.injOn
  refine ⟨hdeleted, (hrefused.1 recreation staleDelete List.prefix_rfl).failed _ hstale, hcount, ?_,
    hpurged.1⟩
  rw [hpurge]

end Recreation

end WebCodex.ProjectMemory
