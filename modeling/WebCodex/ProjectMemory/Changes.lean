import WebCodex.Foundation.Keyed
import WebCodex.ProjectMemory.Parsing

/-!
A call that succeeds leaves the memories alone, adds one, replaces one by its next generation,
removes one, or removes those of a scope (`setProjectMemoryAttributed_cases`,
`deleteProjectMemoryAttributed_cases`, `purgeProjectMemoryScope_cases`). The primary keys hold
throughout (`Keyed`), and every memory that is written has been read back before its transaction is
committed.
-/

namespace WebCodex.ProjectMemory

open Foundation Foundation.Text

variable {functions : MemoryFunctions} {tables next prepared : Tables} {scope key : Str}

structure Keyed (tables : Tables) : Prop where
  ids : (tables.memories.map MemoryRow.memoryId).Nodup
  places : (tables.memories.map fun row ↦ (row.memoryScopeId, row.memoryKey)).Nodup
  scopes : (tables.scopes.map ScopeRow.memoryScopeId).Nodup

variable {row old : MemoryRow}

theorem isAt_iff : row.isAt scope key = true ↔ row.memoryScopeId = scope ∧ row.memoryKey = key := by
  simp [MemoryRow.isAt]

variable {revision expected : Str}

theorem isState_iff : row.isState scope key revision = true ↔
      row.isAt scope key = true ∧ row.revision = revision := by
  simp [MemoryRow.isState]

theorem Keyed.eq_of_memoryId (h : Keyed tables) {other : MemoryRow} (hrow : row ∈ tables.memories)
    (hother : other ∈ tables.memories) (hid : row.memoryId = other.memoryId) : row = other :=
  List.inj_on_of_nodup_map h.ids hrow hother hid

theorem Keyed.eq_of_isAt (h : Keyed tables) {other : MemoryRow} (hrow : row ∈ tables.memories)
    (hother : other ∈ tables.memories) (hat : row.isAt scope key = true)
    (hotherAt : other.isAt scope key = true) : row = other := by
  obtain ⟨hscope, hkey⟩ := isAt_iff.mp hat
  obtain ⟨hscope', hkey'⟩ := isAt_iff.mp hotherAt
  exact List.inj_on_of_nodup_map h.places hrow hother
    (Prod.ext (hscope.trans hscope'.symm) (hkey.trans hkey'.symm))

/-- A place and a revision name a row as its id does. -/
theorem Keyed.isState_iff_memoryId (h : Keyed tables) (hold : old ∈ tables.memories)
    (hat : old.isAt scope key = true) (hrevision : old.revision = revision)
    (hrow : row ∈ tables.memories) :
    row.isState scope key revision = true ↔ row.memoryId = old.memoryId := by
  rw [isState_iff]
  constructor
  · rintro ⟨hrowAt, -⟩
    exact congrArg _ (h.eq_of_isAt hrow hold hrowAt hat)
  · intro hid
    obtain rfl := h.eq_of_memoryId hrow hold hid
    exact ⟨hat, hrevision⟩

theorem Keyed.find?_isAt (h : Keyed tables) (hold : old ∈ tables.memories)
    (hat : old.isAt scope key = true) :
    tables.memories.find? (MemoryRow.isAt scope key) = some old := by
  obtain ⟨found, hfind⟩ : ∃ found, tables.memories.find? (MemoryRow.isAt scope key) =
      some found := by
    rw [← Option.isSome_iff_exists, List.find?_isSome]
    exact ⟨old, hold, hat⟩
  rw [hfind, h.eq_of_isAt (List.mem_of_find?_eq_some hfind) hold (List.find?_some hfind) hat]

theorem Keyed.countP_isState (h : Keyed tables) (hold : old ∈ tables.memories)
    (hat : old.isAt scope key = true) (hrevision : old.revision = revision) :
    tables.memories.countP (MemoryRow.isState scope key revision) = 1 := by
  rw [← countP_key_eq_one h.ids hold]
  refine List.countP_congr fun _ hrow ↦ ?_
  rw [h.isState_iff_memoryId hold hat hrevision hrow, decide_eq_true_iff]

theorem Keyed.map_isState (h : Keyed tables) (hold : old ∈ tables.memories)
    (hat : old.isAt scope key = true) (hrevision : old.revision = revision)
    (f : MemoryRow → MemoryRow) :
    (tables.memories.map fun row ↦ if row.isState scope key revision then f row else row) =
      tables.memories.map (updateRow MemoryRow.memoryId old.memoryId f) := by
  refine List.map_congr_left fun row hrow ↦ ?_
  by_cases hid : row.memoryId = old.memoryId
  · rw [if_pos ((h.isState_iff_memoryId hold hat hrevision hrow).mpr hid), ← hid, updateRow_self]
  · rw [if_neg (mt (h.isState_iff_memoryId hold hat hrevision hrow).mp hid), updateRow_ne hid]

theorem keyed_empty : Keyed Tables.empty := ⟨List.nodup_nil, List.nodup_nil, List.nodup_nil⟩

theorem memoryAt_eq_some {record : ProjectMemoryRecord} :
    tables.memoryAt functions scope key = .ok (some record) ↔
      ∃ row, tables.memories.find? (MemoryRow.isAt scope key) = some row ∧
        parseRow functions scope row = .ok record := by
  unfold Tables.memoryAt
  cases tables.memories.find? (MemoryRow.isAt scope key) with
  | none => simp [pure, Except.pure]
  | some => simp [map_eq_ok]

theorem memoryAt_eq_none : tables.memoryAt functions scope key = .ok none ↔
    tables.memories.find? (MemoryRow.isAt scope key) = none := by
  unfold Tables.memoryAt
  cases tables.memories.find? (MemoryRow.isAt scope key) with
  | none => simp [pure, Except.pure]
  | some => simp [map_eq_ok]

section Scopes

variable {attribution : MemoryScopeAttribution} {now : ℤ} {allowCreate : Bool}

theorem map_id_setLastMutated (scopes : List ScopeRow) :
    (scopes.map (setLastMutated scope now)).map ScopeRow.memoryScopeId =
      scopes.map ScopeRow.memoryScopeId := by
  rw [List.map_map]
  refine List.map_congr_left fun _ _ ↦ ?_
  simp only [Function.comp_apply, setLastMutated]
  split_ifs <;> rfl

/-- The row of a scope is touched or added, and nothing else changes. -/
theorem ensureScopeForMutation_keeps
    (h : ensureScopeForMutation scope attribution now allowCreate tables = .ok prepared) :
    prepared.memories = tables.memories ∧ ((tables.scopes.map ScopeRow.memoryScopeId).Nodup →
        (prepared.scopes.map ScopeRow.memoryScopeId).Nodup) := by
  simp only [ensureScopeForMutation, bind_eq_ok] at h
  obtain ⟨_, -, found, -, h⟩ := h
  cases found with
  | some =>
    simp only [bind_eq_ok, ensure_eq_ok, pure_eq_ok, exists_const] at h
    obtain ⟨-, -, -, rfl⟩ := h
    refine ⟨rfl, fun hnodup ↦ ?_⟩
    rwa [map_id_setLastMutated]
  | none =>
    simp only [bind_eq_ok, ensure_eq_ok, pure_eq_ok, exists_const,
      Bool.not_eq_true', List.any_eq_false, decide_eq_true_eq] at h
    obtain ⟨-, hfree, rfl⟩ := h
    refine ⟨rfl, fun hnodup ↦ nodup_map_concat hnodup ?_⟩
    rw [List.mem_map]
    rintro ⟨row, hrow, hsame⟩
    exact hfree row hrow hsame

end Scopes

/-! ### Set -/

section Set

variable {attribution : MemoryScopeAttribution} {principal : MemoryPrincipalAttribution}
  {input : MemorySetInput} {hash : Str} {now : ℤ} {uuid : Str} {outcome : MemorySetOutcome}

def MemoryRow.successor (functions : MemoryFunctions) (scope : Str)
    (principal : MemoryPrincipalAttribution) (input : MemorySetInput) (hash : Str) (now : ℤ)
    (existing : ProjectMemoryRecord) (row : MemoryRow) : MemoryRow :=
  row.withInput input principal hash
    (memoryStateRevision functions scope existing.memoryId (existing.generation + 1) hash)
    (existing.generation + 1) now

/-- An update replaces the one memory that has the state it was read in. -/
theorem updateProjectMemory_eq_ok (hkeyed : Keyed tables) {existing : ProjectMemoryRecord}
    (hold : old ∈ tables.memories) (hat : old.isAt scope input.memoryKey = true)
    (hreads : ReadsAs functions scope old existing)
    (h : updateProjectMemory functions scope attribution principal input hash now existing tables =
      .ok (outcome, next)) :
    ∃ record, outcome = ⟨record, some existing.revision, false, true⟩ ∧ ReadsAs functions scope
        (old.successor functions scope principal input hash now existing) record ∧
      existing.generation + 1 ≤ 2 ^ 63 - 1 ∧
      ∃ prepared, ensureScopeForMutation scope attribution now false tables = .ok prepared ∧
        next = { prepared with memories := tables.memories.map (updateRow MemoryRow.memoryId
          old.memoryId
              (MemoryRow.successor functions scope principal input hash now existing)) } := by
  simp only [updateProjectMemory, bind_eq_ok, ensure_eq_ok, required_eq_ok, pure_eq_ok,
    exists_const, decide_eq_true_eq, Prod.mk.injEq] at h
  obtain ⟨prepared, hprepared, hgeneration, -, _, hread, record, rfl, rfl, rfl⟩ := h
  obtain ⟨hmemories, -⟩ := ensureScopeForMutation_keeps hprepared
  have hrevision : existing.revision = old.revision := by
    rw [hreads.eq]
  rw [hmemories, hkeyed.map_isState hold hat hrevision.symm] at hread ⊢
  refine ⟨record, rfl, ?_, hgeneration, prepared, hprepared, rfl⟩
  obtain ⟨_, hfind, hrow⟩ := memoryAt_eq_some.mp hread
  obtain ⟨before, hbefore, rfl⟩ := List.mem_map.mp (List.mem_of_find?_eq_some hfind)
  have hrowAt : before.isAt scope input.memoryKey = true := by
    have hafter := List.find?_some hfind
    unfold updateRow at hafter
    split_ifs at hafter
    · exact hafter
    · exact hafter
  obtain rfl := hkeyed.eq_of_isAt hbefore hold hrowAt hat
  rw [updateRow_self] at hrow
  exact parseRow_eq_ok.mp hrow

/-- An insertion adds one memory, with a new id and at a free place. -/
theorem insertProjectMemory_eq_ok
    (h : insertProjectMemory functions scope attribution principal input hash now uuid tables =
      .ok (outcome, next)) :
    ∃ record, outcome = ⟨record, none, true, true⟩ ∧
      ReadsAs functions scope (.ofInput functions scope principal input hash now uuid) record ∧
      (tables.ofScope scope).length < maxMemoriesPerProject ∧
      tables.memories.length < maxMemoriesGlobal ∧
      (∀ row ∈ tables.memories, row.memoryId ≠ memoryIdPrefix ++ uuid ∧
        row.isAt scope input.memoryKey = false) ∧
      ∃ prepared, ensureScopeForMutation scope attribution now
          ((tables.ofScope scope).length = 0) tables = .ok prepared ∧
        next = { prepared with memories := tables.memories ++
          [.ofInput functions scope principal input hash now uuid] } := by
  simp only [insertProjectMemory, bind_eq_ok, ensure_eq_ok, required_eq_ok, pure_eq_ok,
    exists_const, decide_eq_true_eq, Prod.mk.injEq, Bool.not_eq_true', List.any_eq_false,
    Bool.or_eq_true, not_or, Bool.not_eq_true] at h
  obtain ⟨hproject, hglobal, prepared, hprepared, hfree, inserted, hfind, record, hparse, rfl,
    rfl⟩ := h
  obtain ⟨hmemories, -⟩ := ensureScopeForMutation_keeps hprepared
  rw [hmemories] at hfree hfind ⊢
  refine ⟨record, rfl, ?_, hproject, hglobal, hfree, prepared, hprepared, rfl⟩
  have hmem := List.mem_of_find?_eq_some hfind
  have hid := List.find?_some hfind
  obtain hold | hnew := List.mem_append.mp hmem
  · exact absurd (of_decide_eq_true hid) (hfree inserted hold).1
  · rw [← List.mem_singleton.mp hnew]
    exact parseRow_eq_ok.mp hparse

variable {request : MemorySetInput}

/-- A successful set finds the content it asks for, or replaces the state that it names, or adds the
first memory at its place. -/
theorem setProjectMemoryAttributed_cases
    (h : setProjectMemoryAttributed functions scope attribution principal request now uuid tables =
      .ok (outcome, next)) :
    ∃ tags input, canonicalizeMemoryTags request.tags = .ok tags ∧
      input = { request with tags := tags } ∧ validMemoryKey input.memoryKey = true ∧
      validMemorySummary input.summary = true ∧ validMemoryBody input.body = true ∧
      ((∃ row existing, row ∈ tables.memories ∧ row.isAt scope input.memoryKey = true ∧
        ReadsAs functions scope row existing ∧
        ((next = tables ∧ outcome = ⟨existing, none, false, false⟩ ∧
            existing.definitionHash = input.definitionHash functions) ∨
          (input.expectedRevision = some existing.revision ∧
            existing.definitionHash ≠ input.definitionHash functions ∧
            updateProjectMemory functions scope attribution principal input
              (input.definitionHash functions) now existing tables = .ok (outcome, next)))) ∨
      (tables.memories.find? (MemoryRow.isAt scope input.memoryKey) = none ∧
        input.expectedRevision = none ∧
        insertProjectMemory functions scope attribution principal input
          (input.definitionHash functions) now uuid tables = .ok (outcome, next))) := by
  simp only [setProjectMemoryAttributed, bind_eq_ok] at h
  obtain ⟨_, -, _, -, _, -, _, hkey, _, hsummary, _, hbody, tags, htags, _, -, found, hfound, _, -,
    h⟩ := h
  refine ⟨tags, _, htags, rfl, ensure_eq_ok.mp hkey, ensure_eq_ok.mp hsummary,
    ensure_eq_ok.mp hbody, ?_⟩
  cases found with
  | some existing =>
    left
    obtain ⟨row, hfind, hparse⟩ := memoryAt_eq_some.mp hfound
    refine ⟨row, existing, List.mem_of_find?_eq_some hfind, List.find?_some hfind,
      parseRow_eq_ok.mp hparse, ?_⟩
    cases hexpected : request.expectedRevision with
    | none =>
      simp only [hexpected] at h
      split_ifs at h with hhash
      · simp only [pure_eq_ok, Prod.mk.injEq] at h
        exact .inl ⟨h.2.symm, h.1.symm, hhash⟩
    | some =>
      simp only [hexpected] at h
      split_ifs at h with hchanged hhash
      · simp only [pure_eq_ok, Prod.mk.injEq] at h
        exact .inl ⟨h.2.symm, h.1.symm, hhash⟩
      · exact .inr ⟨by rw [not_ne_iff.mp hchanged], hhash, h⟩
  | none =>
    right
    simp only [bind_eq_ok, ensure_eq_ok, exists_const, Option.isNone_iff_eq_none] at h
    exact ⟨memoryAt_eq_none.mp hfound, h.1, h.2⟩

end Set

variable {attribution : MemoryScopeAttribution} {now : ℤ}

/-- A successful delete finds nothing, or removes the memory in the state that it names. -/
theorem deleteProjectMemoryAttributed_cases {outcome : MemoryDeleteOutcome} (hkeyed : Keyed tables)
    (h : deleteProjectMemoryAttributed functions scope attribution key expected now tables =
      .ok (outcome, next)) :
    (next = tables ∧ outcome = ⟨none, none, false, false⟩ ∧
        ∀ row ∈ tables.memories, row.isAt scope key = false) ∨
      ∃ row existing, row ∈ tables.memories ∧ row.isAt scope key = true ∧
        ReadsAs functions scope row existing ∧ row.revision = expected ∧
        outcome = ⟨some existing.memoryId, some existing.revision, true, true⟩ ∧
        next.memories = tables.memories.filter (·.memoryId ≠ row.memoryId) ∧
        ∃ prepared, ensureScopeForMutation scope attribution now false tables = .ok prepared ∧
          next.scopes = if (next.ofScope scope).length = 0 then
            prepared.scopes.filter (·.memoryScopeId ≠ scope) else prepared.scopes := by
  simp only [deleteProjectMemoryAttributed, bind_eq_ok] at h
  obtain ⟨_, -, _, -, _, -, _, -, found, hfound, _, -, h⟩ := h
  cases found with
  | none =>
    simp only [pure_eq_ok, Prod.mk.injEq] at h
    refine .inl ⟨h.2.symm, h.1.symm, fun row hrow ↦ ?_⟩
    simpa using List.find?_eq_none.mp (memoryAt_eq_none.mp hfound) row hrow
  | some existing =>
    right
    obtain ⟨row, hfind, hparse⟩ := memoryAt_eq_some.mp hfound
    have hrow := List.mem_of_find?_eq_some hfind
    have hat := List.find?_some hfind
    have hreads := parseRow_eq_ok.mp hparse
    have hrevision : existing.revision = row.revision := by
      rw [hreads.eq]
    simp only [bind_eq_ok, ensure_eq_ok, exists_const, decide_eq_true_eq] at h
    obtain ⟨hexpected, prepared, hprepared, -, h⟩ := h
    obtain ⟨hmemories, -⟩ := ensureScopeForMutation_keeps hprepared
    have hsame : ∀ other ∈ tables.memories,
        (!other.isState scope key expected) = decide (other.memoryId ≠ row.memoryId) := by
      intro other hother
      rw [Bool.eq_iff_iff, Bool.not_eq_true', ← Bool.not_eq_true, decide_eq_true_iff,
        hkeyed.isState_iff_memoryId hrow hat (hrevision ▸ hexpected) hother]
    rw [hmemories, List.filter_congr hsame] at h
    refine ⟨row, existing, hrow, hat, hreads, hrevision ▸ hexpected, ?_⟩
    split_ifs at h with hempty
    · simp only [bind_eq_ok, ensure_eq_ok, exists_const, pure_eq_ok, Prod.mk.injEq] at h
      obtain ⟨-, rfl, rfl⟩ := h
      exact ⟨rfl, rfl, prepared, hprepared, (if_pos hempty).symm⟩
    · simp only [pure_eq_ok, Prod.mk.injEq] at h
      obtain ⟨rfl, rfl⟩ := h
      exact ⟨rfl, rfl, prepared, hprepared, (if_neg hempty).symm⟩

/-- A delete with the revision of a memory goes through, unless its scope is stored otherwise. -/
theorem delete_of_revision {row : MemoryRow} {record : ProjectMemoryRecord} (hkeyed : Keyed tables)
    (hrow : row ∈ tables.memories) (hreads : ReadsAs functions scope row record)
    (hprepared : ensureScopeForMutation scope attribution now false tables = .ok prepared) :
    ∃ outcome next, deleteProjectMemoryAttributed functions scope attribution row.memoryKey
      row.revision now tables = .ok (outcome, next) ∧ outcome.deleted = true := by
  have hat : row.isAt scope row.memoryKey = true := isAt_iff.mpr ⟨hreads.scope_eq, rfl⟩
  have hmemory : tables.memoryAt functions scope row.memoryKey = .ok (some record) :=
    memoryAt_eq_some.mpr ⟨row, hkeyed.find?_isAt hrow hat, parseRow_eq_ok.mpr hreads⟩
  have hrevision : record.revision = row.revision := by
    rw [hreads.eq]
  have hscope : validLowerHexPrefixed scope memoryScopePrefix 64 = true := hreads.scope_eq ▸
    hreads.scopeId
  have hlength : 0 < (tables.ofScope scope).length :=
    List.length_pos_of_mem (List.mem_filter.mpr ⟨hrow, decide_eq_true hreads.scope_eq⟩)
  obtain ⟨found, hfound, hattribution, hmemories, hcount⟩ : ∃ found,
      getScopeRecord scope tables = .ok (some found) ∧ validateScopeAttribution attribution =
        .ok () ∧ prepared.memories = tables.memories ∧
        prepared.scopes.countP (·.memoryScopeId = scope) = 1 := by
    simp only [ensureScopeForMutation, bind_eq_ok] at hprepared
    obtain ⟨_, hattribution, found, hfound, h⟩ := hprepared
    cases found with
    | none => cases h
    | some found =>
      simp only [bind_eq_ok, ensure_eq_ok, pure_eq_ok, exists_const, decide_eq_true_eq] at h
      obtain ⟨-, -, hcount, rfl⟩ := h
      refine ⟨found, hfound, hattribution, rfl, ?_⟩
      rw [← hcount, List.countP_map]
      refine List.countP_congr fun _ _ ↦ ?_
      simp only [Function.comp_apply, setLastMutated]
      split_ifs <;> rfl
  simp only [deleteProjectMemoryAttributed, validateScope, hscope, hattribution, validateMemoryKey,
    hreads.key, validateMemoryRevision, hreads.revisionValid, hmemory,
    validateScopeRecordForMemories, hfound, hlength, hrevision, hprepared, hmemories,
    hkeyed.countP_isState hrow hat rfl, hcount, ok_bind, pure_bind, ensure_true, decide_true,
    Option.isSome_some]
  split_ifs
  · exact ⟨_, _, rfl, rfl⟩
  · exact ⟨_, _, rfl, rfl⟩

/-- A successful purge finds no scope, or removes the memories of the scope and the scope. -/
theorem purgeProjectMemoryScope_cases {outcome : MemoryScopePurgeOutcome}
    (h : purgeProjectMemoryScope functions scope expected tables = .ok (outcome, next)) :
    (next = tables ∧ outcome.purged = false) ∨
      ∃ records, listProjectMemoriesWithConn functions scope tables = .ok records ∧ records ≠ [] ∧
        memoryCatalogRevision functions records = expected ∧
        next.memories = tables.memories.filter (·.memoryScopeId ≠ scope) ∧
        next.scopes = tables.scopes.filter (·.memoryScopeId ≠ scope) ∧ outcome.purged = true := by
  simp only [purgeProjectMemoryScope, bind_eq_ok] at h
  obtain ⟨_, -, _, -, found, -, h⟩ := h
  cases found with
  | none =>
    simp only [bind_eq_ok, pure_eq_ok, Prod.mk.injEq] at h
    obtain ⟨_, -, rfl, rfl⟩ := h
    exact .inl ⟨rfl, rfl⟩
  | some =>
    simp only [bind_eq_ok, ensure_eq_ok, exists_const, pure_eq_ok,
      Prod.mk.injEq, decide_eq_true_eq, snapshotMemories, Bool.not_eq_true',
      List.isEmpty_eq_false_iff] at h
    obtain ⟨records, ⟨records', hlist, hne, rfl⟩, hcatalog, -, -, rfl, rfl⟩ := h
    exact .inr ⟨records', hlist, hne, hcatalog, rfl, rfl, rfl⟩

/-! ### Steps -/

variable {outcome : Outcome}

section Steps

variable {call : Call}

def Call.drawn : Call → Option Str
  | .set _ _ _ _ _ uuid => some uuid
  | _ => none

/-- A memory that a call writes: the next generation of one that is there, or a new one. -/
inductive Written (call : Call) (tables : Tables) (row : MemoryRow) : Prop
  | replaced (old : MemoryRow) (mem : old ∈ tables.memories) (same : row.memoryId = old.memoryId)
    (next : row.generation = old.generation + 1) (bounded : row.generation ≤ 2 ^ 63 - 1)
  | added (uuid : Str) (drawn : call.drawn = some uuid) (id : row.memoryId = memoryIdPrefix ++ uuid)
    (first : row.generation = 1)

theorem Written.generation_le (h : Written call tables row) : row.generation ≤ 2 ^ 63 - 1 := by
  cases h with
  | replaced _ _ _ _ bounded => exact bounded
  | added => omega

/-- A call that fails changes nothing, and one that succeeds leaves what its transaction wrote. -/
theorem apply_eq (functions : MemoryFunctions) (call : Call) (tables : Tables) :
    (∃ error, call.apply functions tables = (.error error, tables)) ∨
      ∃ outcome next, call.transact functions tables = .ok (outcome, next) ∧
        call.apply functions tables = (.ok outcome, next) := by
  unfold Call.apply
  cases call.transact functions tables with
  | error error => exact .inl ⟨error, rfl⟩
  | ok done => exact .inr ⟨done.1, done.2, rfl, rfl⟩

theorem transact_set {principal : MemoryPrincipalAttribution} {request : MemorySetInput}
    {uuid : Str}
    (h : (Call.set scope attribution principal request now uuid).transact functions tables =
      .ok (outcome, next)) :
    ∃ done, outcome = .set done ∧
      setProjectMemoryAttributed functions scope attribution principal request now uuid tables =
        .ok (done, next) := by
  obtain ⟨⟨done, _⟩, hset, heq⟩ := map_eq_ok.mp h
  obtain ⟨rfl, rfl⟩ := Prod.mk.inj heq
  exact ⟨done, rfl, hset⟩

theorem transact_delete
    (h : (Call.delete scope attribution key expected now).transact functions tables =
      .ok (outcome, next)) :
    ∃ done, outcome = .delete done ∧
      deleteProjectMemoryAttributed functions scope attribution key expected now tables =
        .ok (done, next) := by
  obtain ⟨⟨done, _⟩, hdelete, heq⟩ := map_eq_ok.mp h
  obtain ⟨rfl, rfl⟩ := Prod.mk.inj heq
  exact ⟨done, rfl, hdelete⟩

theorem transact_purge
    (h : (Call.purge scope expected).transact functions tables = .ok (outcome, next)) :
    ∃ done, outcome = .purge done ∧
      purgeProjectMemoryScope functions scope expected tables = .ok (done, next) := by
  obtain ⟨⟨done, _⟩, hpurge, heq⟩ := map_eq_ok.mp h
  obtain ⟨rfl, rfl⟩ := Prod.mk.inj heq
  exact ⟨done, rfl, hpurge⟩

/-- A memory that is there after a call was there before, or the call has written it and answers
with the record that it is read as. -/
theorem mem_apply (hkeyed : Keyed tables) (hrow : row ∈ (call.apply functions tables).2.memories) :
    row ∈ tables.memories ∨ (Written call tables row ∧
      ∃ outcome, (call.apply functions tables).1 = .ok (.set outcome) ∧
        outcome.stateChanged = true ∧
        ReadsAs functions row.memoryScopeId row outcome.record) := by
  obtain ⟨_, happly⟩ | ⟨outcome, _, htransact, happly⟩ := apply_eq functions call tables
  · rw [happly] at hrow
    exact .inl hrow
  · rw [happly] at hrow ⊢
    cases call with
    | set scope _ principal _ now uuid =>
      obtain ⟨done, rfl, hset⟩ := transact_set htransact
      obtain ⟨_, input, -, -, -, -, -, ⟨old, existing, hold, hat, hreads, hdone⟩ |
        ⟨-, -, hinsert⟩⟩ := setProjectMemoryAttributed_cases hset
      · obtain ⟨rfl, -, -⟩ | ⟨-, -, hupdate⟩ := hdone
        · exact .inl hrow
        · obtain ⟨record, rfl, hrecord, _, prepared, -, rfl⟩ :=
            updateProjectMemory_eq_ok hkeyed hold hat hreads hupdate
          obtain rfl | ⟨hkept, -⟩ := mem_updateRow hkeyed.ids hold hrow
          · have hgeneration : existing.generation = old.generation.toNat := by
              rw [hreads.eq]
            have hpos := hreads.generation_pos
            have hnext : (old.successor functions scope principal input
                (input.definitionHash functions) now existing).generation =
                  ((existing.generation + 1 : ℕ) : ℤ) := rfl
            refine .inr ⟨.replaced old hold rfl (by omega) (by omega), _, rfl, rfl, ?_⟩
            exact hrecord.scope_eq ▸ hrecord
          · exact .inl hkept
      · obtain ⟨record, rfl, hrecord, -, -, -, prepared, -, rfl⟩ :=
          insertProjectMemory_eq_ok hinsert
        obtain hkept | hnew := List.mem_append.mp hrow
        · exact .inl hkept
        · obtain rfl := List.mem_singleton.mp hnew
          exact .inr ⟨.added uuid rfl rfl rfl, _, rfl, rfl, hrecord⟩
    | delete =>
      obtain ⟨done, rfl, hdelete⟩ := transact_delete htransact
      obtain ⟨rfl, -⟩ | ⟨old, existing, -, -, -, -, -, hmemories, -⟩ :=
        deleteProjectMemoryAttributed_cases hkeyed hdelete
      · exact .inl hrow
      · rw [hmemories] at hrow
        exact .inl (List.mem_of_mem_filter hrow)
    | purge =>
      obtain ⟨done, rfl, hpurge⟩ := transact_purge htransact
      obtain ⟨rfl, -⟩ | ⟨_, -, -, -, hmemories, -⟩ := purgeProjectMemoryScope_cases hpurge
      · exact .inl hrow
      · rw [hmemories] at hrow
        exact .inl (List.mem_of_mem_filter hrow)

/-- Every call keeps the keys. -/
theorem Keyed.apply (hkeyed : Keyed tables) (call : Call) :
    Keyed (call.apply functions tables).2 := by
  have hfilter : ∀ (p : MemoryRow → Bool) {after : Tables},
    after.memories = tables.memories.filter p →
      (after.scopes.map ScopeRow.memoryScopeId).Nodup → Keyed after := by
    intro p after hmemories hscopes
    have hsublist : after.memories.Sublist tables.memories := hmemories ▸ List.filter_sublist
    exact ⟨(hkeyed.ids).sublist (hsublist.map _), (hkeyed.places).sublist (hsublist.map _), hscopes⟩
  obtain ⟨_, happly⟩ | ⟨_, _, htransact, happly⟩ := apply_eq functions call tables
  · rw [happly]
    exact hkeyed
  · rw [happly]
    cases call with
    | set scope _ principal _ now =>
      obtain ⟨done, rfl, hset⟩ := transact_set htransact
      obtain ⟨_, input, -, -, -, -, -, ⟨old, existing, hold, hat, hreads, hdone⟩ |
        ⟨-, -, hinsert⟩⟩ := setProjectMemoryAttributed_cases hset
      · obtain ⟨rfl, -, -⟩ | ⟨-, -, hupdate⟩ := hdone
        · exact hkeyed
        · obtain ⟨record, -, -, -, prepared, hprepared, rfl⟩ :=
            updateProjectMemory_eq_ok hkeyed hold hat hreads hupdate
          have hview : ∀ {B : Type} {view : MemoryRow → B}, (∀ row : MemoryRow, view (row.successor
              functions scope principal input (input.definitionHash functions) now existing) =
                view row) → (tables.memories.map view).Nodup →
              ((tables.memories.map (updateRow MemoryRow.memoryId old.memoryId (.successor functions
                scope principal input (input.definitionHash functions) now existing))).map
                  view).Nodup := by
            intro B view hsame hnodup
            rwa [map_view_updateRow hsame]
          exact ⟨hview (fun _ ↦ rfl) hkeyed.ids, hview (fun _ ↦ rfl) hkeyed.places,
            (ensureScopeForMutation_keeps hprepared).2 hkeyed.scopes⟩
      · obtain ⟨record, -, -, -, -, hfree, prepared, hprepared, rfl⟩ :=
          insertProjectMemory_eq_ok hinsert
        refine ⟨nodup_map_concat hkeyed.ids ?_, nodup_map_concat hkeyed.places ?_,
          (ensureScopeForMutation_keeps hprepared).2 hkeyed.scopes⟩
        · rw [List.mem_map]
          rintro ⟨row, hrow, hid⟩
          exact (hfree row hrow).1 hid
        · rw [List.mem_map]
          rintro ⟨row, hrow, hplace⟩
          obtain ⟨hscope, hkey⟩ := Prod.mk.inj hplace
          exact absurd (isAt_iff.mpr ⟨hscope, hkey⟩) (Bool.eq_false_iff.mp (hfree row hrow).2)
    | delete =>
      obtain ⟨done, rfl, hdelete⟩ := transact_delete htransact
      obtain ⟨rfl, -⟩ | ⟨old, existing, -, -, -, -, -, hmemories, prepared, hprepared, hscopes⟩ :=
        deleteProjectMemoryAttributed_cases hkeyed hdelete
      · exact hkeyed
      · have hnodup := (ensureScopeForMutation_keeps hprepared).2 hkeyed.scopes
        refine hfilter _ hmemories ?_
        rw [hscopes]
        split_ifs
        · exact hnodup.sublist (List.filter_sublist.map _)
        · exact hnodup
    | purge =>
      obtain ⟨done, rfl, hpurge⟩ := transact_purge htransact
      obtain ⟨rfl, -⟩ | ⟨_, -, -, -, hmemories, hscopes, -⟩ :=
        purgeProjectMemoryScope_cases hpurge
      · exact hkeyed
      · refine hfilter _ hmemories ?_
        rw [hscopes]
        exact hkeyed.scopes.sublist (List.filter_sublist.map _)

/-- Every memory that is stored is read, and its generation fits its column. -/
def AllRead (functions : MemoryFunctions) (tables : Tables) : Prop :=
  ∀ row ∈ tables.memories, row.generation ≤ 2 ^ 63 - 1 ∧
    ∃ record, ReadsAs functions row.memoryScopeId row record

theorem AllRead.apply (hkeyed : Keyed tables) (h : AllRead functions tables) (call : Call) :
    AllRead functions (call.apply functions tables).2 := by
  intro row hrow
  obtain hkept | ⟨hwritten, outcome, -, -, hreads⟩ := mem_apply hkeyed hrow
  · exact h row hkept
  · exact ⟨hwritten.generation_le, _, hreads⟩

theorem tablesAfter_concat (tables : Tables) (calls : List Call) (call : Call) :
    tablesAfter functions tables (calls ++ [call]) =
      (call.apply functions (tablesAfter functions tables calls)).2 := by
  simp [tablesAfter]

/-- The keys and the memories of every state of a run. -/
theorem run_keyed (calls : List Call) : Keyed (tablesAfter functions .empty calls) ∧
      AllRead functions (tablesAfter functions .empty calls) := by
  induction calls using List.reverseRecOn with
  | nil => exact ⟨keyed_empty, fun _ hrow ↦ absurd hrow List.not_mem_nil⟩
  | append_singleton _ call ih =>
    rw [tablesAfter_concat]
    exact ⟨ih.1.apply call, ih.2.apply ih.1 call⟩

/-- The id of a stored memory has been drawn by a call. -/
theorem drawn_of_mem {calls : List Call} : ∀ row ∈ (tablesAfter functions .empty calls).memories,
      ∃ uuid ∈ calls.filterMap Call.drawn, row.memoryId = memoryIdPrefix ++ uuid := by
  induction calls using List.reverseRecOn with
  | nil => exact fun row hrow ↦ absurd hrow List.not_mem_nil
  | append_singleton calls _ ih =>
    intro row hrow
    rw [tablesAfter_concat] at hrow
    rw [List.filterMap_append]
    obtain hkept | ⟨hwritten, -⟩ := mem_apply (run_keyed calls).1 hrow
    · obtain ⟨uuid, huuid, hid⟩ := ih row hkept
      exact ⟨uuid, List.mem_append_left _ huuid, hid⟩
    · cases hwritten with
      | replaced old hold hsame =>
        obtain ⟨uuid, huuid, hid⟩ := ih old hold
        exact ⟨uuid, List.mem_append_left _ huuid, hsame.trans hid⟩
      | added uuid hdrawn hid =>
        refine ⟨uuid, List.mem_append_right _ ?_, hid⟩
        simp [hdrawn]

end Steps

end WebCodex.ProjectMemory
