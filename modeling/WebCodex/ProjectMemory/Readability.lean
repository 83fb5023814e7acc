import WebCodex.ProjectMemory.WrittenRows

/-!
In consistent tables every row passes the checks of its parser, a scope has a row exactly when it
has memories, and no scope is younger than one of its memories. All reads of such tables succeed
(`Consistent.sound`). Writes keep them consistent unless the clock is behind the creation of the
scope, which then is not read any more (`Consistent.not_sound_of_touch`).
-/

namespace WebCodex.ProjectMemory

open Foundation Foundation.Text

variable {functions : MemoryFunctions} {attributionOf : Str → MemoryScopeAttribution}
  {tables next : Tables} {scope key : Str}

/-! ### Consistent tables -/

/-- Tables that every read accepts, with the order of the times that keeps them so. -/
structure Consistent (functions : MemoryFunctions) (attributionOf : Str → MemoryScopeAttribution)
    (tables : Tables) : Prop where
  keyed : Keyed tables
  read : AllRead functions tables
  belongs : ∀ row ∈ tables.scopes, row.Belongs attributionOf
  touched : ∀ row ∈ tables.scopes, row.createdAtUnixMs ≤ row.lastMutatedAtUnixMs
  paired : ∀ id, (∃ row ∈ tables.scopes, row.memoryScopeId = id) ↔
    ∃ row ∈ tables.memories, row.memoryScopeId = id
  project : ∀ id, (tables.ofScope id).length ≤ maxMemoriesPerProject
  global : tables.memories.length ≤ maxMemoriesGlobal
  ordered : ∀ memory ∈ tables.memories, ∀ row ∈ tables.scopes,
    row.memoryScopeId = memory.memoryScopeId → row.createdAtUnixMs ≤ memory.createdAtUnixMs

theorem consistent_empty : Consistent functions attributionOf .empty := by
  refine ⟨keyed_empty, ?_, ?_, ?_, ?_, ?_, ?_, ?_⟩ <;>
    simp [Tables.empty, AllRead, Tables.ofScope]

theorem mem_ofScope {row : MemoryRow} :
    row ∈ tables.ofScope scope ↔ row ∈ tables.memories ∧ row.memoryScopeId = scope := by
  simp [Tables.ofScope]

theorem ofScope_pos_iff : 0 < (tables.ofScope scope).length ↔
    ∃ row ∈ tables.memories, row.memoryScopeId = scope := by
  rw [List.length_pos_iff_exists_mem]
  simp only [mem_ofScope]

/-- The record that a row of a scope is read as. -/
def ScopeRow.toRecord (row : ScopeRow) : ProjectMemoryScopeRecord :=
  ⟨row.memoryScopeId, row.identityState, row.projectRuntimeId, row.runnerClientId,
    row.rootFingerprint, row.createdAtUnixMs, row.lastMutatedAtUnixMs⟩

variable {row : ScopeRow}

namespace Consistent

variable (h : Consistent functions attributionOf tables)

include h

theorem parseScopeRow_eq (hrow : row ∈ tables.scopes) : parseScopeRow row = .ok row.toRecord := by
  rw [(h.belongs row hrow).parse_eq, if_pos (h.touched row hrow)]
  rfl

theorem getScopeRecord_eq (scope : Str) : getScopeRecord scope tables =
      .ok ((tables.scopes.find? (·.memoryScopeId = scope)).map ScopeRow.toRecord) := by
  unfold getScopeRecord
  cases hfind : tables.scopes.find? (·.memoryScopeId = scope) with
  | none => rfl
  | some =>
    simp only [h.parseScopeRow_eq (List.mem_of_find?_eq_some hfind)]
    rfl

theorem isSome_scope_iff (scope : Str) :
    (tables.scopes.find? (·.memoryScopeId = scope)).isSome = true ↔
      0 < (tables.ofScope scope).length := by
  rw [ofScope_pos_iff, ← h.paired scope, List.find?_isSome]
  simp

theorem validateScopeRecord_ok {hasMemories : Bool}
    (hmemories : hasMemories = true ↔ 0 < (tables.ofScope scope).length) :
    ∃ record, validateScopeRecordForMemories scope hasMemories tables = .ok record := by
  simp only [validateScopeRecordForMemories, h.getScopeRecord_eq, ok_bind, bind_eq_ok, ensure_eq_ok,
    exists_const, decide_eq_true_eq]
  refine ⟨_, ?_, rfl⟩
  rw [Option.isSome_map, Bool.eq_iff_iff, h.isSome_scope_iff, hmemories]

theorem exists_reads {row : MemoryRow} (hrow : row ∈ tables.memories)
    (hscope : row.memoryScopeId = scope) : ∃ record, ReadsAs functions scope row record :=
  hscope ▸ (h.read row hrow).2

theorem memoryAt_ok (scope key : Str) :
    ∃ found, tables.memoryAt functions scope key = .ok found := by
  cases hfind : tables.memories.find? (MemoryRow.isAt scope key) with
  | none => exact ⟨none, memoryAt_eq_none.mpr hfind⟩
  | some row =>
    obtain ⟨record, hreads⟩ := h.exists_reads (List.mem_of_find?_eq_some hfind)
      (isAt_iff.mp (List.find?_some hfind)).1
    exact ⟨some record, memoryAt_eq_some.mpr ⟨row, hfind, parseRow_eq_ok.mpr hreads⟩⟩

theorem list_ok (scope : Str) :
    ∃ records, listProjectMemoriesWithConn functions scope tables = .ok records ∧
      records.length = (tables.ofScope scope).length := by
  have hall : ∀ row ∈ ((tables.ofScope scope).insertionSort fun a b ↦
      a.memoryKey ≤ b.memoryKey).take (maxMemoriesPerProject + 1),
      ∃ record, parseRow functions scope row = .ok record := by
    intro row hrow
    have hmem := List.mem_of_mem_take hrow
    rw [List.mem_insertionSort, mem_ofScope] at hmem
    obtain ⟨record, hreads⟩ := h.exists_reads hmem.1 hmem.2
    exact ⟨record, parseRow_eq_ok.mpr hreads⟩
  obtain ⟨records, hrecords⟩ := exists_mapM_ok hall
  have hlength : records.length = (tables.ofScope scope).length := by
    have hpairs := (mapM_eq_ok.mp hrecords).length_eq
    have hcapacity := h.project scope
    rw [List.length_take, List.length_insertionSort] at hpairs
    omega
  have hnonempty : (!records.isEmpty) = true ↔ 0 < (tables.ofScope scope).length := by
    rw [← hlength, List.length_pos_iff]
    simp
  obtain ⟨record, hscope⟩ := h.validateScopeRecord_ok hnonempty
  refine ⟨records, ?_, hlength⟩
  simp only [listProjectMemoriesWithConn, hrecords, ok_bind, hscope, bind_eq_ok, ensure_eq_ok,
    exists_const, decide_eq_true_eq]
  exact ⟨hlength ▸ h.project scope, rfl⟩

theorem snapshot_ok (hscope : 0 < (tables.ofScope scope).length) :
    ∃ records, snapshotMemories functions scope tables = .ok records := by
  obtain ⟨records, hlist, _⟩ := h.list_ok scope
  refine ⟨records, ?_⟩
  have hne : records ≠ [] := by
    rw [← List.length_pos_iff]
    omega
  simp only [snapshotMemories, hlist, ok_bind, bind_eq_ok, ensure_eq_ok, exists_const,
    Bool.not_eq_true', List.isEmpty_eq_false_iff]
  exact ⟨hne, rfl⟩

end Consistent

/-! ### Reads -/

/-- The tables pass every check of a read, and no read finds the database unavailable. -/
structure Sound (functions : MemoryFunctions) (tables : Tables) : Prop where
  memories : ∀ row ∈ tables.memories, ∃ record, parseRow functions row.memoryScopeId row =
    .ok record
  scopes : ∀ row ∈ tables.scopes, ∃ record, parseScopeRow row = .ok record
  paired : ∀ id, (∃ row ∈ tables.scopes, row.memoryScopeId = id) ↔
    ∃ row ∈ tables.memories, row.memoryScopeId = id
  project : ∀ id, (tables.ofScope id).length ≤ maxMemoriesPerProject
  global : tables.memories.length ≤ maxMemoriesGlobal
  lists : ∀ scope, listProjectMemories functions scope tables ≠ .error .databaseUnavailable
  gets : ∀ scope key, getProjectMemory functions scope key tables ≠ .error .databaseUnavailable
  snapshots : ∀ scope, getProjectMemoryScope functions scope tables ≠ .error .databaseUnavailable
  inventories : ∀ offset limit,
    listProjectMemoryScopes functions offset limit tables ≠ .error .databaseUnavailable

/-- A check with another error in front of a chain. -/
theorem ensure_bind_ne {A : Type} {condition : Bool} {error : MemoryStoreError}
    (hother : error ≠ .databaseUnavailable) {f : Unit → Fallible A}
    (hrest : condition = true → f () ≠ .error .databaseUnavailable) :
    (ensure condition error >>= f) ≠ .error .databaseUnavailable := by
  cases condition with
  | false => exact fun h ↦ hother (Except.error.inj h)
  | true => exact hrest rfl

theorem ne_unavailable_of_ok {A : Type} {x : Fallible A} (h : ∃ value, x = .ok value) :
    x ≠ .error .databaseUnavailable := by
  obtain ⟨value, rfl⟩ := h
  exact nofun

theorem Consistent.inventory_ok (h : Consistent functions attributionOf tables) (offset : ℕ)
    {limit : ℕ} (hlimit : (0 < limit && limit ≤ maxMemoryScopeListLimit) = true) :
    ∃ page, listProjectMemoryScopes functions offset limit tables = .ok page := by
  have hdistinct : (tables.memories.map MemoryRow.memoryScopeId).dedup.length =
      tables.scopes.length := by
    have hperm : (tables.memories.map MemoryRow.memoryScopeId).dedup.Perm
        (tables.scopes.map ScopeRow.memoryScopeId) := by
      refine (List.perm_ext_iff_of_nodup (List.nodup_dedup _) h.keyed.scopes).mpr fun id ↦ ?_
      rw [List.mem_dedup, List.mem_map, List.mem_map]
      exact (h.paired id).symm
    rw [hperm.length_eq, List.length_map]
  have htotal : tables.scopes.length ≤ maxMemoriesGlobal := by
    have hdedup := (List.dedup_sublist (tables.memories.map MemoryRow.memoryScopeId)).length_le
    rw [hdistinct, List.length_map] at hdedup
    exact hdedup.trans h.global
  have hpage : ∀ row ∈ ((tables.scopes.insertionSort fun a b ↦
      a.memoryScopeId ≤ b.memoryScopeId).drop (min offset maxMemoriesGlobal)).take limit,
      row ∈ tables.scopes := by
    intro row hrow
    have hmem := List.mem_of_mem_drop (List.mem_of_mem_take hrow)
    rwa [List.mem_insertionSort] at hmem
  obtain ⟨scopes, hscopes⟩ := exists_mapM_ok fun row hrow ↦
    ⟨row.toRecord, h.parseScopeRow_eq (hpage row hrow)⟩
  obtain ⟨snapshots, hsnapshots⟩ : ∃ snapshots, (scopes.mapM fun scope ↦ do
      let memories ← snapshotMemories functions scope.memoryScopeId tables
      pure (ProjectMemoryScopeSnapshot.mk scope memories)) =
        (.ok snapshots : Fallible (List ProjectMemoryScopeSnapshot)) := by
    refine exists_mapM_ok fun scope hscope ↦ ?_
    obtain ⟨row, hrow, hparse⟩ := exists_of_forall₂_right (mapM_eq_ok.mp hscopes) hscope
    rw [h.parseScopeRow_eq (hpage row hrow)] at hparse
    have hpos : 0 < (tables.ofScope scope.memoryScopeId).length := by
      rw [ofScope_pos_iff, ← h.paired]
      exact ⟨row, hpage row hrow,
        congrArg ProjectMemoryScopeRecord.memoryScopeId (Except.ok.inj hparse)⟩
    obtain ⟨memories, hmemories⟩ := h.snapshot_ok hpos
    exact ⟨⟨scope, memories⟩, by rw [hmemories, ok_bind]; rfl⟩
  refine ⟨(tables.scopes.length, snapshots), ?_⟩
  simp only [listProjectMemoryScopes, bind_eq_ok, ensure_eq_ok, exists_const, decide_eq_true_eq,
    Bool.and_eq_true]
  rw [Bool.and_eq_true, decide_eq_true_iff, decide_eq_true_iff] at hlimit
  exact ⟨hlimit, htotal, ⟨h.global, hdistinct⟩, scopes, hscopes, snapshots, hsnapshots, rfl⟩

/-- Consistent tables are sound. -/
theorem Consistent.sound (h : Consistent functions attributionOf tables) :
    Sound functions tables where
  memories row hrow := by
    obtain ⟨-, record, hreads⟩ := h.read row hrow
    exact ⟨record, parseRow_eq_ok.mpr hreads⟩
  scopes row hrow := ⟨_, h.parseScopeRow_eq hrow⟩
  paired := h.paired
  project := h.project
  global := h.global
  lists scope := by
    refine ensure_bind_ne (by decide) fun _ ↦ ne_unavailable_of_ok ?_
    obtain ⟨records, hlist, -⟩ := h.list_ok scope
    exact ⟨records, hlist⟩
  gets scope key := by
    refine ensure_bind_ne (by decide) fun _ ↦ ensure_bind_ne (by decide) fun _ ↦ ?_
    obtain ⟨_, hfound⟩ := h.memoryAt_ok scope key
    obtain ⟨record, hscope⟩ := h.validateScopeRecord_ok (decide_eq_true_iff (p := 0 < _))
    rw [hfound, ok_bind, hscope]
    rintro ⟨⟩
  snapshots scope := by
    refine ensure_bind_ne (by decide) fun _ ↦ ?_
    rw [h.getScopeRecord_eq scope, ok_bind]
    cases hfind : tables.scopes.find? (·.memoryScopeId = scope) with
    | none =>
      have hempty : ¬ 0 < (tables.ofScope scope).length := by
        rw [← h.isSome_scope_iff, hfind]
        decide
      have hzero : (tables.ofScope scope).length = 0 := by omega
      refine ne_unavailable_of_ok ⟨none, ?_⟩
      simp only [Option.map_none, bind_eq_ok, ensure_eq_ok, exists_const, decide_eq_true_eq]
      exact ⟨hzero, rfl⟩
    | some =>
      have hpos := (h.isSome_scope_iff scope).mp (by rw [hfind]; rfl)
      obtain ⟨memories, hmemories⟩ := h.snapshot_ok hpos
      simp only [Option.map_some, hmemories, ok_bind]
      rintro ⟨⟩
  inventories offset limit := by
    by_cases hlimit : (0 < limit && limit ≤ maxMemoryScopeListLimit) = true
    · exact ne_unavailable_of_ok (h.inventory_ok offset hlimit)
    · refine ensure_bind_ne (by decide) fun hvalid ↦ absurd ?_ hlimit
      exact hvalid

/-! ### Touching a scope -/

section Touching

variable {now : ℤ} {allowCreate : Bool}

theorem setLastMutated_keeps (row : ScopeRow) :
    (setLastMutated scope now row).memoryScopeId = row.memoryScopeId ∧
      (setLastMutated scope now row).createdAtUnixMs = row.createdAtUnixMs := by
  unfold setLastMutated
  split_ifs
  · exact ⟨rfl, rfl⟩
  · exact ⟨rfl, rfl⟩

theorem ScopeRow.Belongs.setLastMutated (h : row.Belongs attributionOf) :
    (setLastMutated scope now row).Belongs attributionOf := by
  unfold ProjectMemory.setLastMutated
  split_ifs
  · exact ⟨h.scopeId, h.identity, h.project, h.runner, h.root, h.valid, h.created_nonneg⟩
  · exact h

namespace Consistent

variable (h : Consistent functions attributionOf tables)

include h

/-- A scope that is there is touched. -/
theorem ensureScope_touch (hrow : row ∈ tables.scopes) (hid : row.memoryScopeId = scope) :
    ensureScopeForMutation scope (attributionOf scope) now allowCreate tables =
      .ok { tables with scopes := tables.scopes.map (setLastMutated scope now) } := by
  obtain ⟨found, hfind⟩ : ∃ found, tables.scopes.find? (·.memoryScopeId = scope) = some found := by
    rw [← Option.isSome_iff_exists, List.find?_isSome]
    exact ⟨row, hrow, decide_eq_true hid⟩
  have hfound := h.belongs found (List.mem_of_find?_eq_some hfind)
  have hfoundId : found.memoryScopeId = scope := by
    simpa using List.find?_some hfind
  have hcount : tables.scopes.countP (·.memoryScopeId = scope) = 1 :=
    hid ▸ countP_key_eq_one h.keyed.scopes hrow
  have hvalid := hfound.valid
  have hproject := hfound.project
  have hrunner := hfound.runner
  have hroot := hfound.root
  rw [hfoundId] at hvalid hproject hrunner hroot
  simp only [ensureScopeForMutation, validateScopeAttribution, h.getScopeRecord_eq, hfind, ok_bind,
    Option.map_some, bind_eq_ok, ensure_eq_ok, exists_const, decide_eq_true_eq, Bool.and_eq_true,
    ScopeRow.toRecord]
  exact ⟨hvalid, hfound.identity, ⟨⟨hproject, hrunner⟩, hroot⟩, hcount, rfl⟩

/-- A scope that is not there is made. -/
theorem ensureScope_create (hnone : ∀ row ∈ tables.scopes, row.memoryScopeId ≠ scope)
    (hvalid : (attributionOf scope).isValid = true) :
    ensureScopeForMutation scope (attributionOf scope) now true tables = .ok { tables with
        scopes := tables.scopes ++ [.ofAttribution scope (attributionOf scope) now] } := by
  have hfind : tables.scopes.find? (·.memoryScopeId = scope) = none := by
    simpa using hnone
  simp only [ensureScopeForMutation, validateScopeAttribution, h.getScopeRecord_eq, hfind, ok_bind,
    Option.map_none, bind_eq_ok, ensure_eq_ok, exists_const, Bool.not_eq_true', List.any_eq_false,
    decide_eq_true_eq]
  exact ⟨hvalid, trivial, hnone, rfl⟩

/-- A scope that was touched by a clock behind its creation is not read any more. -/
theorem not_sound_of_touch (hrow : row ∈ tables.scopes) (hid : row.memoryScopeId = scope)
    (hbehind : now < row.createdAtUnixMs) (hnext : setLastMutated scope now row ∈ next.scopes) :
    ¬ Sound functions next := by
  intro hsound
  obtain ⟨_, hparse⟩ := hsound.scopes _ hnext
  have htouched : (setLastMutated scope now row).lastMutatedAtUnixMs = now := by
    rw [ProjectMemory.setLastMutated, if_pos hid]
  rw [(h.belongs row hrow).setLastMutated.parse_eq, (setLastMutated_keeps row).2, htouched,
    if_neg (not_le.mpr hbehind)] at hparse
  cases hparse

/-- Tables that stay consistent when a scope is touched: the clock is not behind its creation. -/
theorem of_touch (hkeyed : Keyed next) (hread : AllRead functions next)
    (hscopes : next.scopes = tables.scopes.map (setLastMutated scope now))
    (hnow : ∀ row ∈ tables.scopes, row.memoryScopeId = scope → row.createdAtUnixMs ≤ now)
    (hids : ∀ id, (∃ row ∈ next.memories, row.memoryScopeId = id) ↔
      ∃ row ∈ tables.memories, row.memoryScopeId = id)
    (hproject : ∀ id, (next.ofScope id).length ≤ maxMemoriesPerProject)
    (hglobal : next.memories.length ≤ maxMemoriesGlobal)
    (hcreated : ∀ memory ∈ next.memories,
      (∃ old ∈ tables.memories, memory.memoryScopeId = old.memoryScopeId ∧
        memory.createdAtUnixMs = old.createdAtUnixMs) ∨
      memory.memoryScopeId = scope ∧ memory.createdAtUnixMs = now) :
    Consistent functions attributionOf next := by
  refine ⟨hkeyed, hread, ?_, ?_, ?_, hproject, hglobal, ?_⟩
  · rw [hscopes, List.forall_mem_map]
    exact fun row hrow ↦ (h.belongs row hrow).setLastMutated
  · rw [hscopes, List.forall_mem_map]
    intro row hrow
    by_cases hid : row.memoryScopeId = scope
    · rw [ProjectMemory.setLastMutated, if_pos hid]
      exact hnow row hrow hid
    · rw [ProjectMemory.setLastMutated, if_neg hid]
      exact h.touched row hrow
  · intro id
    rw [hids, ← h.paired, hscopes]
    constructor
    · rintro ⟨_, hmem, hid⟩
      obtain ⟨row, hrow, rfl⟩ := List.mem_map.mp hmem
      exact ⟨row, hrow, (setLastMutated_keeps row).1 ▸ hid⟩
    · rintro ⟨row, hrow, hid⟩
      exact ⟨_, List.mem_map_of_mem hrow, (setLastMutated_keeps row).1.trans hid⟩
  · intro memory hmemory
    rw [hscopes, List.forall_mem_map]
    intro row hrow hsame
    rw [(setLastMutated_keeps row).2]
    rw [(setLastMutated_keeps row).1] at hsame
    obtain ⟨old, hold, hscope, hcreatedAt⟩ | ⟨hscope, hcreatedAt⟩ := hcreated memory hmemory
    · rw [hcreatedAt]
      exact h.ordered old hold row hrow (hsame.trans hscope)
    · rw [hcreatedAt]
      exact hnow row hrow (hsame.trans hscope)

end Consistent

end Touching

/-! ### Replacing and adding -/

variable {old : MemoryRow}

section Writing

variable {principal : MemoryPrincipalAttribution} {input : MemorySetInput} {now : ℤ} {uuid : Str}

theorem find?_updateRow_isAt {f : MemoryRow → MemoryRow}
    (hfind : tables.memories.find? (MemoryRow.isAt scope key) = some old)
    (hf : ∀ row, (f row).isAt scope key = row.isAt scope key) :
    (tables.memories.map (updateRow MemoryRow.memoryId old.memoryId f)).find?
      (MemoryRow.isAt scope key) = some (f old) := by
  rw [List.find?_map]
  have hsame : MemoryRow.isAt scope key ∘ updateRow MemoryRow.memoryId old.memoryId f =
      MemoryRow.isAt scope key := by
    funext row
    exact view_updateRow hf row
  rw [hsame, hfind, Option.map_some, updateRow_self]

def replacedTables (functions : MemoryFunctions) (scope : Str)
    (principal : MemoryPrincipalAttribution) (input : MemorySetInput) (now : ℤ) (old : MemoryRow)
    (existing : ProjectMemoryRecord)
    (tables : Tables) : Tables where
  memories := tables.memories.map (updateRow MemoryRow.memoryId old.memoryId (.successor functions
    scope principal input (input.definitionHash functions) now existing))
  scopes := tables.scopes.map (setLastMutated scope now)

namespace Consistent

variable (h : Consistent functions attributionOf tables)

include h

theorem exists_scope {row : MemoryRow} (hrow : row ∈ tables.memories)
    (hscope : row.memoryScopeId = scope) : ∃ found ∈ tables.scopes, found.memoryScopeId = scope :=
  (h.paired scope).mpr ⟨row, hrow, hscope⟩

/-- A replacement is read back before it is committed: it succeeds when the clock is not behind the
creation of the memory and the generation has a successor. -/
theorem updateProjectMemory_eq (now : ℤ) (hdigits : GivesDigits functions)
    (hvalid : ValidRequest functions principal input) {existing : ProjectMemoryRecord}
    (hold : old ∈ tables.memories) (hat : old.isAt scope input.memoryKey = true)
    (hreads : ReadsAs functions scope old existing) :
    (old.createdAtUnixMs ≤ now ∧ old.generation < 2 ^ 63 - 1 ∧
      ∃ outcome, updateProjectMemory functions scope (attributionOf scope) principal input
        (input.definitionHash functions) now existing tables =
          .ok (outcome, replacedTables functions scope principal input now old existing tables)) ∨
    ¬ (old.createdAtUnixMs ≤ now ∧ old.generation < 2 ^ 63 - 1) ∧
      updateProjectMemory functions scope (attributionOf scope) principal input
        (input.definitionHash functions) now existing tables = .error .databaseUnavailable := by
  obtain ⟨hscope, hkey⟩ := isAt_iff.mp hat
  obtain ⟨_, hfound, hfoundId⟩ := h.exists_scope hold hscope
  have hrevision : old.revision = existing.revision := by
    rw [hreads.eq]
  have hgeneration : existing.generation = old.generation.toNat := by
    rw [hreads.eq]
  have hpos := hreads.generation_pos
  have hfind := find?_updateRow_isAt (h.keyed.find?_isAt hold hat) (f := .successor functions scope
    principal input (input.definitionHash functions) now existing) fun _ ↦ rfl
  have hiff : (∃ record, ReadsAs functions scope (old.successor functions scope principal input
      (input.definitionHash functions) now existing) record) ↔ old.createdAtUnixMs ≤ now :=
    successor_reads_iff hdigits hvalid hreads hkey
  simp only [updateProjectMemory, h.ensureScope_touch hfound hfoundId, ok_bind]
  by_cases hlast : existing.generation + 1 ≤ 2 ^ 63 - 1
  · have hgate : (ensure (existing.generation + 1 ≤ 2 ^ 63 - 1) .databaseUnavailable :
        Fallible Unit) = .ok () :=
      ensure_eq_ok.mpr (decide_eq_true hlast)
    have hcount : (ensure (tables.memories.countP
        (MemoryRow.isState scope input.memoryKey existing.revision) = 1)
        (.changed existing.revision) : Fallible Unit) = .ok () :=
      ensure_eq_ok.mpr (decide_eq_true (h.keyed.countP_isState hold hat hrevision))
    rw [hgate, ok_bind, hcount, ok_bind, h.keyed.map_isState hold hat hrevision]
    have hread : (Tables.mk (tables.memories.map (updateRow MemoryRow.memoryId old.memoryId
        (.successor functions scope principal input (input.definitionHash functions) now existing)))
        (tables.scopes.map (setLastMutated scope now))).memoryAt functions scope input.memoryKey =
        some <$> parseRow functions scope (old.successor functions scope principal input
          (input.definitionHash functions) now existing) := by
      rw [Tables.memoryAt, hfind]
    by_cases hnow : old.createdAtUnixMs ≤ now
    · left
      obtain ⟨record, hrecord⟩ := hiff.mpr hnow
      rw [parseRow_eq_ok.mpr hrecord] at hread
      refine ⟨hnow, by omega, ⟨record, some existing.revision, false, true⟩, ?_⟩
      exact (congrArg (· >>= _) hread).trans rfl
    · right
      have hfail := parseRow_of_not (mt hiff.mp hnow)
      rw [hfail] at hread
      exact ⟨fun hboth ↦ hnow hboth.1, (congrArg (· >>= _) hread).trans rfl⟩
  · right
    refine ⟨fun hboth ↦ hlast (by omega), ?_⟩
    have hgate : (ensure (existing.generation + 1 ≤ 2 ^ 63 - 1) .databaseUnavailable :
        Fallible Unit) = .error .databaseUnavailable :=
      ensure_of_false (decide_eq_false hlast)
    rw [hgate]
    rfl

/-- A replacement keeps the tables consistent. -/
theorem replaced {existing : ProjectMemoryRecord} (hold : old ∈ tables.memories)
    (hscope : old.memoryScopeId = scope) (hnow : old.createdAtUnixMs ≤ now)
    (hkeyed : Keyed (replacedTables functions scope principal input now old existing tables))
    (hread : AllRead functions (replacedTables functions scope principal input now old existing
      tables)) :
    Consistent functions attributionOf
      (replacedTables functions scope principal input now old existing tables) := by
  have hview : ∀ {B : Type} (view : MemoryRow → B),
      (∀ row : MemoryRow, view (row.successor functions scope principal input
        (input.definitionHash functions) now existing) = view row) →
      (replacedTables functions scope principal input now old existing tables).memories.map view =
        tables.memories.map view := by
    intro B view hsame
    exact map_view_updateRow hsame _
  have hscopes := hview MemoryRow.memoryScopeId fun _ ↦ rfl
  refine h.of_touch hkeyed hread rfl ?_ ?_ ?_ ?_ ?_
  · intro row hrow hid
    exact (h.ordered old hold row hrow (hid.trans hscope.symm)).trans hnow
  · intro id
    have hmem : ∀ list : List MemoryRow, (∃ row ∈ list, row.memoryScopeId = id) ↔
        id ∈ list.map MemoryRow.memoryScopeId := by
      intro list
      rw [List.mem_map]
    rw [hmem, hmem, hscopes]
  · intro id
    have hcount : ∀ tables : Tables, (tables.ofScope id).length =
        (tables.memories.map MemoryRow.memoryScopeId).countP (· = id) := by
      intro tables
      rw [Tables.ofScope, ← List.countP_eq_length_filter, List.countP_map]
      rfl
    rw [hcount, hscopes, ← hcount]
    exact h.project id
  · rw [replacedTables, List.length_map]
    exact h.global
  · intro _ hmemory
    left
    obtain ⟨row, hrow, rfl⟩ := List.mem_map.mp hmemory
    refine ⟨row, hrow, ?_⟩
    unfold updateRow
    split_ifs
    · exact ⟨rfl, rfl⟩
    · exact ⟨rfl, rfl⟩

theorem exists_row (hrow : row ∈ tables.scopes) (hid : row.memoryScopeId = scope) :
    ∃ memory ∈ tables.memories, memory.memoryScopeId = scope :=
  (h.paired scope).mp ⟨row, hrow, hid⟩

/-- The scope that a new memory needs: touched when it is there, made when it is not. -/
theorem ensureScope_insert (hvalid : (attributionOf scope).isValid = true) :
    ∃ prepared, ensureScopeForMutation scope (attributionOf scope) now
        ((tables.ofScope scope).length = 0) tables = .ok prepared ∧
      prepared.memories = tables.memories ∧
      (((∃ row ∈ tables.scopes, row.memoryScopeId = scope) ∧
          prepared.scopes = tables.scopes.map (setLastMutated scope now)) ∨
        (∀ row ∈ tables.scopes, row.memoryScopeId ≠ scope) ∧
          prepared.scopes = tables.scopes ++ [.ofAttribution scope (attributionOf scope) now]) := by
  by_cases hscope : ∃ row ∈ tables.scopes, row.memoryScopeId = scope
  · obtain ⟨row, hrow, hid⟩ := hscope
    exact ⟨_, h.ensureScope_touch hrow hid, rfl, .inl ⟨⟨row, hrow, hid⟩, rfl⟩⟩
  · have hnone : ∀ row ∈ tables.scopes, row.memoryScopeId ≠ scope := by
      simpa using hscope
    have hempty : (tables.ofScope scope).length = 0 := by
      have hpos : ¬ 0 < (tables.ofScope scope).length := by
        rwa [ofScope_pos_iff, ← h.paired]
      omega
    rw [decide_eq_true hempty]
    exact ⟨_, h.ensureScope_create hnone hvalid, rfl, .inr ⟨hnone, rfl⟩⟩

/-- A new memory is added when there is room, and otherwise the answer says that there is none. -/
theorem insertProjectMemory_eq (hdigits : GivesDigits functions)
    (hvalid : ValidRequest functions principal input)
    (hscope : validLowerHexPrefixed scope memoryScopePrefix 64 = true)
    (hattribution : (attributionOf scope).isValid = true)
    (huuid : uuid.length = 32 ∧ uuid.all isLowerHex = true) (hnow : 0 ≤ now)
    (hfree : tables.memories.find? (MemoryRow.isAt scope input.memoryKey) = none)
    (hfresh : ∀ row ∈ tables.memories, row.memoryId ≠ memoryIdPrefix ++ uuid) :
    (¬ ((tables.ofScope scope).length < maxMemoriesPerProject ∧
        tables.memories.length < maxMemoriesGlobal) ∧
      ∃ error, error ≠ .databaseUnavailable ∧
        insertProjectMemory functions scope (attributionOf scope) principal input
          (input.definitionHash functions) now uuid tables = .error error) ∨
    ((tables.ofScope scope).length < maxMemoriesPerProject ∧
        tables.memories.length < maxMemoriesGlobal) ∧
      ∃ outcome next, insertProjectMemory functions scope (attributionOf scope) principal input
          (input.definitionHash functions) now uuid tables = .ok (outcome, next) ∧
        next.memories = tables.memories ++ [.ofInput functions scope principal input
          (input.definitionHash functions) now uuid] ∧
        (((∃ row ∈ tables.scopes, row.memoryScopeId = scope) ∧
            next.scopes = tables.scopes.map (setLastMutated scope now)) ∨
          (∀ row ∈ tables.scopes, row.memoryScopeId ≠ scope) ∧
            next.scopes = tables.scopes ++ [.ofAttribution scope (attributionOf scope) now]) := by
  by_cases hproject : (tables.ofScope scope).length < maxMemoriesPerProject
  · by_cases hglobal : tables.memories.length < maxMemoriesGlobal
    · right
      obtain ⟨prepared, hprepared, hmemories, hscopes⟩ :
          ∃ prepared, ensureScopeForMutation scope (attributionOf scope) now
              ((tables.ofScope scope).length = 0) tables = .ok prepared ∧
            prepared.memories = tables.memories ∧ _ :=
        h.ensureScope_insert hattribution
      obtain ⟨record, hrecord⟩ := ofInput_reads hdigits hvalid hscope huuid hnow
      refine ⟨⟨hproject, hglobal⟩, ⟨record, none, true, true⟩,
        ⟨prepared.memories ++ [.ofInput functions scope principal input
          (input.definitionHash functions) now uuid], prepared.scopes⟩, ?_, ?_,
        hscopes⟩
      · simp only [insertProjectMemory, bind_eq_ok, ensure_eq_ok, required_eq_ok, exists_const,
          decide_eq_true_eq, Bool.not_eq_true', List.any_eq_false, Bool.or_eq_true, not_or,
          Bool.not_eq_true]
        refine ⟨hproject, hglobal, prepared, hprepared, ?_, _, ?_, record,
          parseRow_eq_ok.mpr hrecord, rfl⟩
        · rw [hmemories]
          intro row hrow
          refine ⟨hfresh row hrow, ?_⟩
          simpa using List.find?_eq_none.mp hfree row hrow
        · rw [hmemories, List.find?_append, List.find?_eq_none.mpr, Option.none_or]
          · simp
          · intro row hrow hid
            exact hfresh row hrow (of_decide_eq_true hid)
      · rw [hmemories]
    · left
      refine ⟨fun hroom ↦ hglobal hroom.2, .globalCapacityExceeded, by decide, ?_⟩
      have hgate : (ensure ((tables.ofScope scope).length < maxMemoriesPerProject)
          .projectCapacityExceeded : Fallible Unit) = .ok () :=
        ensure_eq_ok.mpr (decide_eq_true hproject)
      rw [insertProjectMemory, hgate, ok_bind, ensure_of_false (decide_eq_false hglobal)]
      rfl
  · left
    refine ⟨fun hroom ↦ hproject hroom.1, .projectCapacityExceeded, by decide, ?_⟩
    rw [insertProjectMemory, ensure_of_false (decide_eq_false hproject)]
    rfl

/-- A new memory of a scope that is there. -/
theorem inserted (hscope : ∃ row ∈ tables.scopes, row.memoryScopeId = scope)
    (hnow : ∀ row ∈ tables.scopes, row.memoryScopeId = scope → row.createdAtUnixMs ≤ now)
    (hroom : (tables.ofScope scope).length < maxMemoriesPerProject ∧
      tables.memories.length < maxMemoriesGlobal)
    {new : MemoryRow} (hnew : new.memoryScopeId = scope ∧ new.createdAtUnixMs = now)
    (hmemories : next.memories = tables.memories ++ [new])
    (hscopes : next.scopes = tables.scopes.map (setLastMutated scope now)) (hkeyed : Keyed next)
    (hread : AllRead functions next) : Consistent functions attributionOf next := by
  obtain ⟨row, hrow, hid⟩ := hscope
  refine h.of_touch hkeyed hread hscopes hnow ?_ ?_ ?_ ?_
  · intro id
    rw [hmemories]
    constructor
    · rintro ⟨memory, hmemory, rfl⟩
      obtain hold | hlast := List.mem_append.mp hmemory
      · exact ⟨memory, hold, rfl⟩
      · rw [List.mem_singleton.mp hlast, hnew.1]
        exact h.exists_row hrow hid
    · rintro ⟨memory, hmemory, hsame⟩
      exact ⟨memory, List.mem_append_left _ hmemory, hsame⟩
  · intro id
    rw [Tables.ofScope, hmemories, List.filter_append, List.length_append]
    by_cases hsame : new.memoryScopeId = id
    · have hcount := hroom.1
      rw [← hnew.1, hsame, Tables.ofScope] at hcount
      rw [List.filter_singleton, decide_eq_true hsame]
      exact hcount
    · have hcount := h.project id
      rw [List.filter_singleton, decide_eq_false hsame]
      exact hcount
  · rw [hmemories, List.length_append]
    exact hroom.2
  · intro memory hmemory
    rw [hmemories] at hmemory
    obtain hold | hlast := List.mem_append.mp hmemory
    · exact .inl ⟨memory, hold, rfl, rfl⟩
    · rw [List.mem_singleton.mp hlast]
      exact .inr hnew

/-- The first memory of a scope. -/
theorem insertedFirst (hnone : ∀ row ∈ tables.scopes, row.memoryScopeId ≠ scope)
    (hscope : validLowerHexPrefixed scope memoryScopePrefix 64 = true)
    (hattribution : (attributionOf scope).isValid = true) (hnow : 0 ≤ now)
    (hroom : tables.memories.length < maxMemoriesGlobal)
    {new : MemoryRow} (hnew : new.memoryScopeId = scope ∧ new.createdAtUnixMs = now)
    (hmemories : next.memories = tables.memories ++ [new])
    (hscopes : next.scopes = tables.scopes ++ [.ofAttribution scope (attributionOf scope) now])
    (hkeyed : Keyed next) (hread : AllRead functions next) :
    Consistent functions attributionOf next := by
  have hnoMemory : ∀ memory ∈ tables.memories, memory.memoryScopeId ≠ scope := by
    intro memory hmemory hsame
    obtain ⟨row, hrow, hid⟩ := h.exists_scope hmemory hsame
    exact hnone row hrow hid
  refine ⟨hkeyed, hread, ?_, ?_, ?_, ?_, ?_, ?_⟩
  · intro row hrow
    rw [hscopes] at hrow
    obtain hold | hlast := List.mem_append.mp hrow
    · exact h.belongs row hold
    · rw [List.mem_singleton.mp hlast]
      exact ⟨hscope, rfl, rfl, rfl, rfl, hattribution, hnow⟩
  · intro row hrow
    rw [hscopes] at hrow
    obtain hold | hlast := List.mem_append.mp hrow
    · exact h.touched row hold
    · rw [List.mem_singleton.mp hlast]
      exact le_rfl
  · intro id
    have hpaired := h.paired id
    rw [hscopes, hmemories]
    simp only [List.mem_append, List.mem_singleton, or_and_right, exists_or, exists_eq_left, hnew.1,
      hpaired]
    rfl
  · intro id
    rw [Tables.ofScope, hmemories, List.filter_append, List.length_append]
    by_cases hsame : new.memoryScopeId = id
    · have hempty : tables.memories.filter (·.memoryScopeId = id) = [] := by
        rw [List.filter_eq_nil_iff]
        intro memory hmemory
        rw [decide_eq_true_iff, ← hsame, hnew.1]
        exact hnoMemory memory hmemory
      rw [hempty, List.filter_singleton, decide_eq_true hsame]
      exact (by decide : 0 + 1 ≤ maxMemoriesPerProject)
    · have hcount := h.project id
      rw [List.filter_singleton, decide_eq_false hsame]
      exact hcount
  · rw [hmemories, List.length_append]
    exact hroom
  · intro memory hmemory row hrow hsame
    rw [hmemories] at hmemory
    rw [hscopes] at hrow
    obtain hold | hlast := List.mem_append.mp hmemory
    · obtain holdRow | hlastRow := List.mem_append.mp hrow
      · exact h.ordered memory hold row holdRow hsame
      · rw [List.mem_singleton.mp hlastRow] at hsame
        exact absurd hsame.symm (hnoMemory memory hold)
    · obtain rfl := List.mem_singleton.mp hlast
      obtain holdRow | hlastRow := List.mem_append.mp hrow
      · exact absurd (hsame.trans hnew.1) (hnone row holdRow)
      · rw [List.mem_singleton.mp hlastRow, hnew.2]
        exact le_rfl

/-- A scope that is dropped with its memories. -/
theorem dropped (scope : Str) (hmem : ∀ memory, memory ∈ next.memories ↔
      memory ∈ tables.memories ∧ memory.memoryScopeId ≠ scope)
    (hsublist : next.memories.Sublist tables.memories)
    (hscopes : ∀ row, row ∈ next.scopes ↔ row ∈ tables.scopes ∧ row.memoryScopeId ≠ scope)
    (hkeyed : Keyed next) (hread : AllRead functions next) :
    Consistent functions attributionOf next := by
  refine ⟨hkeyed, hread, ?_, ?_, ?_, ?_, hsublist.length_le.trans h.global, ?_⟩
  · exact fun row hrow ↦ h.belongs row ((hscopes row).mp hrow).1
  · exact fun row hrow ↦ h.touched row ((hscopes row).mp hrow).1
  · intro id
    have hpaired := h.paired id
    constructor
    · rintro ⟨row, hrow, rfl⟩
      obtain ⟨hold, hne⟩ := (hscopes row).mp hrow
      obtain ⟨memory, hmemory, hsame⟩ := hpaired.mp ⟨row, hold, rfl⟩
      exact ⟨memory, (hmem memory).mpr ⟨hmemory, hsame ▸ hne⟩, hsame⟩
    · rintro ⟨memory, hmemory, rfl⟩
      obtain ⟨hold, hne⟩ := (hmem memory).mp hmemory
      obtain ⟨row, hrow, hsame⟩ := hpaired.mpr ⟨memory, hold, rfl⟩
      exact ⟨row, (hscopes row).mpr ⟨hrow, hsame ▸ hne⟩, hsame⟩
  · intro id
    exact ((hsublist.filter _).length_le).trans (h.project id)
  · intro memory hmemory row hrow hsame
    exact h.ordered memory ((hmem memory).mp hmemory).1 row ((hscopes row).mp hrow).1 hsame

end Consistent

end Writing

end WebCodex.ProjectMemory
