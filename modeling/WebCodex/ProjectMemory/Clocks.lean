import WebCodex.ProjectMemory.Readability
import WebCodex.ProjectMemory.Revisions

/-!
A call that touches a scope writes the clock reading that it took before its transaction, and a
row is read only when it was not touched before it was made. So the store stays readable exactly
as long as no call comes with a clock behind what it changes and leaves there
(`memory_stays_readable_iff`).
-/

namespace WebCodex.ProjectMemory

open Foundation Foundation.Text Foundation.Framing

variable {functions : MemoryFunctions} {attributionOf : Str → MemoryScopeAttribution}
  {tables next : Tables} {scope key : Str}

/-! ### Calls -/

/-- A call with valid arguments, on a scope with its one attribution. The id that it draws is a
UUID. -/
def Call.Valid (attributionOf : Str → MemoryScopeAttribution) : Call → Prop
  | .set scope attribution principal input now uuid =>
    validateScope scope = .ok () ∧ attribution = attributionOf scope ∧ attribution.isValid = true ∧
      principal.isValid = true ∧ validMemoryKey input.memoryKey = true ∧
      validMemorySummary input.summary = true ∧ validMemoryBody input.body = true ∧
      (∃ tags, canonicalizeMemoryTags input.tags = .ok tags) ∧
      (∀ expected, input.expectedRevision = some expected →
        validateMemoryRevision expected = .ok ()) ∧
      0 ≤ now ∧ uuid.length = 32 ∧ uuid.all isLowerHex = true
  | .delete scope attribution key expected now =>
    validateScope scope = .ok () ∧ attribution = attributionOf scope ∧ attribution.isValid = true ∧
      validMemoryKey key = true ∧ validateMemoryRevision expected = .ok () ∧ 0 ≤ now
  | .purge scope catalog =>
    validateScope scope = .ok () ∧ validMemoryCatalogRevision catalog = true

/-- The JSON text of the tags of a call is read back. -/
def Call.TagsReadBack (functions : MemoryFunctions) : Call → Prop
  | .set _ _ _ input _ _ => ∀ tags, canonicalizeMemoryTags input.tags = .ok tags →
      functions.tagsFromJson (tagsToJson tags) = some tags
  | _ => True

/-- The clock is not behind the creation of a scope. -/
def NotBehind (scope : Str) (now : ℤ) (tables : Tables) : Prop :=
  ∀ row ∈ tables.scopes, row.memoryScopeId = scope → row.createdAtUnixMs ≤ now

/-- The clock of a call is not behind what the call changes and leaves there: the memory that it
replaces, and the scope in which it adds a memory or removes one of several. A generation that is
replaced has a successor. -/
def Call.Timely (functions : MemoryFunctions) (tables : Tables) : Call → Prop
  | .set scope _ _ input now _ =>
    ∀ tags, canonicalizeMemoryTags input.tags = .ok tags →
      match tables.memories.find? (MemoryRow.isAt scope input.memoryKey) with
      | some row => input.expectedRevision = some row.revision →
          row.definitionHash ≠ { input with tags := tags }.definitionHash functions →
          row.createdAtUnixMs ≤ now ∧ row.generation < 2 ^ 63 - 1
      | none => input.expectedRevision = none →
          (tables.ofScope scope).length < maxMemoriesPerProject →
          tables.memories.length < maxMemoriesGlobal → NotBehind scope now tables
  | .delete scope _ key expected now =>
    ∀ row ∈ tables.memories, row.isAt scope key = true → row.revision = expected →
      (∃ other ∈ tables.memories, other.memoryScopeId = scope ∧ other ≠ row) →
      NotBehind scope now tables
  | .purge _ _ => True

/-- One call: a timely one is answered and keeps the tables consistent, and any other one is refused
or leaves a scope that is not read. -/
def Decided (functions : MemoryFunctions) (attributionOf : Str → MemoryScopeAttribution)
    (call : Call) (tables : Tables) : Prop :=
  (call.Timely functions tables ∧ (call.apply functions tables).1 ≠ .error .databaseUnavailable ∧
      Consistent functions attributionOf (call.apply functions tables).2) ∨
    ¬ call.Timely functions tables ∧
      ((call.apply functions tables).1 = .error .databaseUnavailable ∨
        ¬ Sound functions (call.apply functions tables).2)

variable {call : Call}

theorem apply_of_error {error : MemoryStoreError}
    (h : call.transact functions tables = .error error) :
    call.apply functions tables = (.error error, tables) := by
  rw [Call.apply, h]

variable {outcome : Outcome}

theorem apply_of_ok (h : call.transact functions tables = .ok (outcome, next)) :
    call.apply functions tables = (.ok outcome, next) := by
  rw [Call.apply, h]

variable {now : ℤ}

namespace Consistent

variable (h : Consistent functions attributionOf tables)

include h

/-- A timely call that is refused for another reason. -/
theorem decided_of_error {error : MemoryStoreError} (htimely : call.Timely functions tables)
    (herror : error ≠ .databaseUnavailable)
    (htransact : call.transact functions tables = .error error) :
    Decided functions attributionOf call tables := by
  refine .inl ⟨htimely, ?_, ?_⟩
  · rw [apply_of_error htransact]
    exact fun heq ↦ herror (Except.error.inj heq)
  · rw [apply_of_error htransact]
    exact h

/-- A timely call that succeeds and keeps the tables consistent. -/
theorem decided_of_ok (htimely : call.Timely functions tables)
    (htransact : call.transact functions tables = .ok (outcome, next))
    (hnext : Keyed next → AllRead functions next → Consistent functions attributionOf next) :
    Decided functions attributionOf call tables := by
  have hkeyed : Keyed (call.apply functions tables).2 := h.keyed.apply call
  have hread := h.read.apply h.keyed call
  rw [apply_of_ok htransact] at hkeyed hread
  refine .inl ⟨htimely, ?_, ?_⟩
  · rw [apply_of_ok htransact]
    exact nofun
  · rw [apply_of_ok htransact]
    exact hnext hkeyed hread

/-- A call that comes too late for the scope that it touches. -/
theorem decided_of_behind (htimely : ¬ call.Timely functions tables)
    (htransact : call.transact functions tables = .ok (outcome, next))
    (hscopes : next.scopes = tables.scopes.map (setLastMutated scope now))
    (hbehind : ¬ NotBehind scope now tables) : Decided functions attributionOf call tables := by
  refine .inr ⟨htimely, .inr ?_⟩
  rw [apply_of_ok htransact]
  simp only [NotBehind, not_forall, not_le] at hbehind
  obtain ⟨row, hrow, hid, hlt⟩ := hbehind
  exact h.not_sound_of_touch hrow hid hlt (hscopes ▸ List.mem_map_of_mem hrow)

section Set

variable {attribution : MemoryScopeAttribution} {principal : MemoryPrincipalAttribution}
  {request : MemorySetInput} {now : ℤ} {uuid : Str}

/-- A set with valid arguments comes down to the memory at its place. -/
theorem set_eq
    (hvalid : (Call.set scope attribution principal request now uuid).Valid attributionOf)
    {tags : List Str} (htags : canonicalizeMemoryTags request.tags = .ok tags)
    {input : MemorySetInput} (hinput : input = { request with tags := tags })
    {found : Option ProjectMemoryRecord}
    (hfound : tables.memoryAt functions scope input.memoryKey = .ok found) :
    setProjectMemoryAttributed functions scope attribution principal request now uuid tables =
      match found with
      | some existing =>
        match input.expectedRevision with
        | none =>
          if existing.definitionHash = input.definitionHash functions then
            .ok (⟨existing, none, false, false⟩, tables)
          else .error (.expectedRevisionRequired existing.revision)
        | some expected =>
          if expected ≠ existing.revision then .error (.changed existing.revision)
          else if existing.definitionHash = input.definitionHash functions then
            .ok (⟨existing, none, false, false⟩, tables)
          else
            updateProjectMemory functions scope attribution principal input
              (input.definitionHash functions) now existing tables
      | none =>
        if input.expectedRevision.isNone then
          insertProjectMemory functions scope attribution principal input
            (input.definitionHash functions) now uuid tables
        else .error .notFound := by
  obtain ⟨hscope, -, hattribution, hprincipal, hkey, hsummary, hbody, -, hexpected, -⟩ := hvalid
  have hrevision : (ensure (input.expectedRevision.all fun expected ↦
      (validateMemoryRevision expected).isOk) .invalidRevision : Fallible Unit) = .ok () := by
    rw [ensure_eq_ok, hinput]
    cases hcase : request.expectedRevision with
    | none => rfl
    | some expected => simp [hexpected expected hcase, Except.isOk, Except.toBool]
  obtain ⟨record, hrecord⟩ := h.validateScopeRecord_ok
    (decide_eq_true_iff (p := 0 < (tables.ofScope scope).length))
  subst hinput
  simp only [setProjectMemoryAttributed, hscope, validateScopeAttribution, hattribution,
    validatePrincipalAttribution, hprincipal, validateMemoryKey, hkey, validateMemorySummary,
    hsummary,
    validateMemoryBody, hbody, htags, hrevision, hfound, hrecord, ok_bind, ensure_true]
  cases found with
  | some | none =>
    cases request.expectedRevision with
    | none | some => rfl

theorem decided_set (hdigits : GivesDigits functions)
    (hvalid : (Call.set scope attribution principal request now uuid).Valid attributionOf)
    (hread : (Call.set scope attribution principal request now uuid).TagsReadBack functions)
    (hfresh : ∀ row ∈ tables.memories, row.memoryId ≠ memoryIdPrefix ++ uuid) :
    Decided functions attributionOf (.set scope attribution principal request now uuid) tables := by
  obtain ⟨hscope, rfl, hattribution, hprincipal, hkey, hsummary, hbody, ⟨tags, htags⟩, -, hnow,
    huuid⟩ := id hvalid
  have hscopeId : validLowerHexPrefixed scope memoryScopePrefix 64 = true := ensure_eq_ok.mp hscope
  obtain ⟨input, hinput⟩ : ∃ input : MemorySetInput, input = { request with tags := tags } :=
    ⟨_, rfl⟩
  have hrequest : ValidRequest functions principal input := by
    subst hinput
    exact ⟨hkey, hsummary, hbody, ⟨request.tags, htags⟩, hread tags htags, hprincipal⟩
  have hkeys : request.memoryKey = input.memoryKey ∧
      request.expectedRevision = input.expectedRevision := by
    subst hinput
    exact ⟨rfl, rfl⟩
  -- What it takes for the call to be timely, with its tags in order.
  have htimely_iff : (Call.set scope (attributionOf scope) principal request now uuid).Timely
      functions tables ↔ match tables.memories.find? (MemoryRow.isAt scope input.memoryKey) with
        | some row => input.expectedRevision = some row.revision →
            row.definitionHash ≠ input.definitionHash functions →
            row.createdAtUnixMs ≤ now ∧ row.generation < 2 ^ 63 - 1
        | none => input.expectedRevision = none →
            (tables.ofScope scope).length < maxMemoriesPerProject →
            tables.memories.length < maxMemoriesGlobal → NotBehind scope now tables := by
    subst hinput
    constructor
    · intro htimely
      exact htimely tags htags
    · intro hcase other hother
      obtain rfl := Except.ok.inj (htags.symm.trans hother)
      exact hcase
  obtain ⟨found, hfound⟩ := h.memoryAt_ok scope input.memoryKey
  have hset := h.set_eq hvalid htags hinput hfound
  have htransact_error : ∀ {error : MemoryStoreError}, setProjectMemoryAttributed functions scope
      (attributionOf scope) principal request now uuid tables = .error error →
      (Call.set scope (attributionOf scope) principal request now uuid).transact functions tables =
        .error error := by
    intro error heq
    rw [Call.transact, heq]
    rfl
  have htransact_ok : ∀ {outcome : MemorySetOutcome} {next : Tables}, setProjectMemoryAttributed
      functions scope (attributionOf scope) principal request now uuid tables = .ok
        (outcome, next) →
      (Call.set scope (attributionOf scope) principal request now uuid).transact functions tables =
        .ok (.set outcome, next) := by
    intro outcome next heq
    rw [Call.transact, heq]
    rfl
  cases found with
  | some existing =>
    obtain ⟨row, hfind, hparse⟩ := memoryAt_eq_some.mp hfound
    have hrow := List.mem_of_find?_eq_some hfind
    have hat := List.find?_some hfind
    have hreads := parseRow_eq_ok.mp hparse
    have hrevision : existing.revision = row.revision := by
      rw [hreads.eq]
    have hhash : existing.definitionHash = row.definitionHash := by
      rw [hreads.eq]
    rw [hfind] at htimely_iff
    simp only [hrevision, hhash] at hset
    cases hexpected : input.expectedRevision with
    | none =>
      simp only [hexpected] at hset htimely_iff
      have htimely := htimely_iff.mpr fun heq ↦ absurd heq (by simp)
      split_ifs at hset
      · exact h.decided_of_ok htimely (htransact_ok hset) fun _ _ ↦ h
      · exact h.decided_of_error htimely (by simp) (htransact_error hset)
    | some expected =>
      simp only [hexpected, Option.some.injEq] at hset htimely_iff
      split_ifs at hset with hchanged hsame
      · exact h.decided_of_error (htimely_iff.mpr fun heq ↦ absurd heq hchanged) (by simp)
          (htransact_error hset)
      · exact h.decided_of_ok (htimely_iff.mpr fun _ hne ↦ absurd hsame hne) (htransact_ok hset)
          fun _ _ ↦ h
      · obtain ⟨hclock, hgeneration, outcome, hupdate⟩ | ⟨hlate, hupdate⟩ :=
          h.updateProjectMemory_eq now hdigits hrequest hrow hat hreads
        · refine h.decided_of_ok (htimely_iff.mpr fun _ _ ↦ ⟨hclock, hgeneration⟩)
            (htransact_ok (hset.trans hupdate)) fun hkeyed hallRead ↦ ?_
          exact h.replaced hrow (isAt_iff.mp hat).1 hclock hkeyed hallRead
        · refine .inr ⟨fun htimely ↦ hlate (htimely_iff.mp htimely (not_ne_iff.mp hchanged) hsame),
            .inl ?_⟩
          rw [apply_of_error (htransact_error (hset.trans hupdate))]
  | none =>
    have hfree := memoryAt_eq_none.mp hfound
    rw [hfree] at htimely_iff
    cases hexpected : input.expectedRevision with
    | some expected =>
      simp only [hexpected, Option.isNone_some, Bool.false_eq_true, if_false] at hset htimely_iff
      exact h.decided_of_error (htimely_iff.mpr fun heq ↦ absurd heq (by simp)) (by simp)
        (htransact_error hset)
    | none =>
      simp only [hexpected, Option.isNone_none, if_true] at hset htimely_iff
      obtain ⟨hfull, error, herror, hinsert⟩ | ⟨hroom, outcome, next, hinsert, hmemories,
          hscopes⟩ :=
        h.insertProjectMemory_eq hdigits hrequest hscopeId hattribution huuid hnow hfree hfresh
      · exact h.decided_of_error (htimely_iff.mpr fun _ hproject hglobal ↦
          absurd ⟨hproject, hglobal⟩ hfull) herror (htransact_error (hset.trans hinsert))
      · have htransact := htransact_ok (hset.trans hinsert)
        obtain ⟨hexists, htouched⟩ | ⟨hnone, hmade⟩ := hscopes
        · by_cases hbehind : NotBehind scope now tables
          · exact h.decided_of_ok (htimely_iff.mpr fun _ _ _ ↦ hbehind) htransact
              (h.inserted hexists hbehind hroom ⟨rfl, rfl⟩ hmemories htouched)
          · exact h.decided_of_behind (fun htimely ↦ hbehind (htimely_iff.mp htimely trivial hroom.1
              hroom.2)) htransact htouched hbehind
        · have hvacuous : NotBehind scope now tables := fun row hrow hid ↦
            absurd hid (hnone row hrow)
          exact h.decided_of_ok (htimely_iff.mpr fun _ _ _ ↦ hvacuous) htransact
            (h.insertedFirst hnone hscopeId hattribution hnow hroom.2 ⟨rfl, rfl⟩ hmemories hmade)

end Set

/-! ### Delete and purge -/

/-- A delete of the state that it names removes the memory, and the scope with the last one. -/
theorem delete_eq {expected : Str} {row : MemoryRow} (hrow : row ∈ tables.memories)
    (hat : row.isAt scope key = true) (hexpected : row.revision = expected) :
    ∃ outcome next, deleteProjectMemoryAttributed functions scope (attributionOf scope) key expected
        now tables = .ok (outcome, next) ∧
      next.memories = tables.memories.filter (·.memoryId ≠ row.memoryId) ∧
      next.scopes = if (next.ofScope scope).length = 0 then
        (tables.scopes.map (setLastMutated scope now)).filter (·.memoryScopeId ≠ scope)
        else tables.scopes.map (setLastMutated scope now) := by
  subst hexpected
  obtain ⟨hplace, rfl⟩ := isAt_iff.mp hat
  obtain ⟨existing, hreads⟩ := h.exists_reads hrow hplace
  obtain ⟨found, hfound, hid⟩ := h.exists_scope hrow hplace
  have htouch : ensureScopeForMutation scope (attributionOf scope) now false tables =
      .ok { tables with scopes := tables.scopes.map (setLastMutated scope now) } :=
    h.ensureScope_touch hfound hid
  obtain ⟨outcome, next, hdelete, hdeleted⟩ := delete_of_revision h.keyed hrow hreads htouch
  refine ⟨outcome, next, hdelete, ?_⟩
  obtain ⟨-, rfl, -⟩ | ⟨removed, _, hremoved, hplaced, -, -, -, hmemories, _, hprepared, hscopes⟩ :=
    deleteProjectMemoryAttributed_cases h.keyed hdelete
  · cases hdeleted
  · obtain rfl := h.keyed.eq_of_isAt hremoved hrow hplaced hat
    obtain rfl := Except.ok.inj (hprepared.symm.trans htouch)
    exact ⟨hmemories, hscopes⟩

theorem decided_delete {attribution : MemoryScopeAttribution} {expected : Str}
    (hvalid : (Call.delete scope attribution key expected now).Valid attributionOf) :
    Decided functions attributionOf (.delete scope attribution key expected now) tables := by
  obtain ⟨hscope, rfl, hattribution, hkey, hrevisionValid, -⟩ := id hvalid
  obtain ⟨found, hfound⟩ := h.memoryAt_ok scope key
  obtain ⟨record, hrecord⟩ := h.validateScopeRecord_ok
    (decide_eq_true_iff (p := 0 < (tables.ofScope scope).length))
  have htransact_ok : ∀ {outcome : MemoryDeleteOutcome} {next : Tables},
      deleteProjectMemoryAttributed functions scope (attributionOf scope) key expected now tables =
        .ok (outcome, next) →
      (Call.delete scope (attributionOf scope) key expected now).transact functions tables =
        .ok (.delete outcome, next) := by
    intro outcome next heq
    rw [Call.transact, heq]
    rfl
  cases found with
  | none =>
    have hfree := List.find?_eq_none.mp (memoryAt_eq_none.mp hfound)
    have hmissing : deleteProjectMemoryAttributed functions scope (attributionOf scope) key expected
        now tables = .ok (⟨none, none, false, false⟩, tables) := by
      simp only [deleteProjectMemoryAttributed, hscope, validateScopeAttribution, hattribution,
        validateMemoryKey, hkey, hrevisionValid, hfound, hrecord, ok_bind, ensure_true]
      rfl
    exact h.decided_of_ok (fun row hrow hat ↦ absurd hat (hfree row hrow)) (htransact_ok hmissing)
      fun _ _ ↦ h
  | some existing =>
    obtain ⟨row, hfind, hparse⟩ := memoryAt_eq_some.mp hfound
    have hrow := List.mem_of_find?_eq_some hfind
    have hat := List.find?_some hfind
    have hplace := (isAt_iff.mp hat).1
    have hrevision : existing.revision = row.revision := by
      rw [(parseRow_eq_ok.mp hparse).eq]
    by_cases hsame : row.revision = expected
    · obtain ⟨outcome, next, hdelete, hmemories, hscopes⟩ := h.delete_eq hrow hat hsame
      have hleft : ∀ memory, memory ∈ next.memories ↔ memory ∈ tables.memories ∧ memory ≠ row := by
        intro memory
        rw [hmemories, List.mem_filter, decide_eq_true_iff]
        refine and_congr_right fun hmemory ↦ not_congr ⟨fun hid ↦ ?_, fun heq ↦ congrArg _ heq⟩
        exact h.keyed.eq_of_memoryId hmemory hrow hid
      have hsublist : next.memories.Sublist tables.memories := hmemories ▸ List.filter_sublist
      by_cases hlast : (next.ofScope scope).length = 0
      · have halone : ∀ memory ∈ tables.memories, memory.memoryScopeId = scope → memory = row := by
          intro memory hmemory hsameScope
          by_contra hne
          have hpos := ofScope_pos_iff.mpr ⟨memory, (hleft memory).mpr ⟨hmemory, hne⟩, hsameScope⟩
          omega
        rw [if_pos hlast] at hscopes
        refine h.decided_of_ok ?_ (htransact_ok hdelete) fun hkeyed hallRead ↦
          h.dropped scope ?_ hsublist ?_ hkeyed hallRead
        · rintro other hother hotherAt - ⟨third, hthird, hthirdScope, hne⟩
          refine absurd ?_ hne
          rw [halone third hthird hthirdScope, halone other hother (isAt_iff.mp hotherAt).1]
        · intro memory
          rw [hleft]
          refine and_congr_right fun hmemory ↦ not_congr
            ⟨fun heq ↦ heq ▸ hplace, fun hsameScope ↦ ?_⟩
          exact halone memory hmemory hsameScope
        · intro found
          rw [hscopes, List.mem_filter, decide_eq_true_iff]
          constructor
          · rintro ⟨hmem, hne⟩
            obtain ⟨source, hsource, rfl⟩ := List.mem_map.mp hmem
            rw [(setLastMutated_keeps source).1] at hne
            rw [setLastMutated, if_neg hne]
            exact ⟨hsource, hne⟩
          · rintro ⟨hsource, hne⟩
            refine ⟨List.mem_map.mpr ⟨found, hsource, ?_⟩, hne⟩
            rw [setLastMutated, if_neg hne]
      · rw [if_neg hlast] at hscopes
        obtain ⟨other, hother, hotherScope⟩ := ofScope_pos_iff.mp (Nat.pos_of_ne_zero hlast)
        obtain ⟨hotherMem, hotherNe⟩ := (hleft other).mp hother
        by_cases hbehind : NotBehind scope now tables
        · refine h.decided_of_ok (fun _ _ _ _ _ ↦ hbehind) (htransact_ok hdelete)
            fun hkeyed hallRead ↦ h.of_touch hkeyed hallRead hscopes hbehind ?_ ?_ ?_ ?_
          · intro id
            constructor
            · rintro ⟨memory, hmemory, hid⟩
              exact ⟨memory, ((hleft memory).mp hmemory).1, hid⟩
            · rintro ⟨memory, hmemory, hid⟩
              by_cases heq : memory = row
              · exact ⟨other, hother, hotherScope.trans (hplace.symm.trans (heq ▸ hid))⟩
              · exact ⟨memory, (hleft memory).mpr ⟨hmemory, heq⟩, hid⟩
          · exact fun id ↦ ((hsublist.filter _).length_le).trans (h.project id)
          · exact hsublist.length_le.trans h.global
          · exact fun memory hmemory ↦ .inl ⟨memory, ((hleft memory).mp hmemory).1, rfl, rfl⟩
        · exact h.decided_of_behind (fun htimely ↦ hbehind (htimely row hrow hat hsame
            ⟨other, hotherMem, hotherScope, hotherNe⟩)) (htransact_ok hdelete) hscopes hbehind
    · have herror : deleteProjectMemoryAttributed functions scope (attributionOf scope) key expected
          now tables = .error (.changed existing.revision) := by
        simp [deleteProjectMemoryAttributed, hscope, validateScopeAttribution, hattribution,
          validateMemoryKey, hkey, hrevisionValid, hfound, hrecord, ok_bind, ensure_true,
          ensure_of_false (decide_eq_false (hrevision ▸ hsame)), error_bind]
      have htransact : (Call.delete scope (attributionOf scope) key expected now).transact functions
          tables = .error (.changed existing.revision) := by
        rw [Call.transact, herror]
        rfl
      refine h.decided_of_error ?_ (by simp) htransact
      intro other hother hotherAt hotherRevision
      obtain rfl := h.keyed.eq_of_isAt hother hrow hotherAt hat
      exact absurd hotherRevision hsame

theorem decided_purge {catalog : Str} (hvalid : (Call.purge scope catalog).Valid attributionOf) :
    Decided functions attributionOf (.purge scope catalog) tables := by
  obtain ⟨hscope, hcatalog⟩ := hvalid
  cases hfind : tables.scopes.find? (·.memoryScopeId = scope) with
  | none =>
    have hempty : (tables.ofScope scope).length = 0 := by
      have hpos : ¬ 0 < (tables.ofScope scope).length := by
        rw [← h.isSome_scope_iff, hfind]
        decide
      omega
    have htransact : (Call.purge scope catalog).transact functions tables =
        .ok (.purge ⟨scope, none, 0, false, false⟩, tables) := by
      simp only [Call.transact, purgeProjectMemoryScope, hscope, hcatalog,
        h.getScopeRecord_eq, hfind, hempty, Option.map_none, ok_bind, ensure_true, decide_true]
      rfl
    exact h.decided_of_ok trivial htransact fun _ _ ↦ h
  | some found =>
    have hfound := List.mem_of_find?_eq_some hfind
    have hid : found.memoryScopeId = scope := by
      simpa using List.find?_some hfind
    have hpos : 0 < (tables.ofScope scope).length := (h.isSome_scope_iff scope).mp
      (by rw [hfind]; rfl)
    obtain ⟨records, hlist, hlength⟩ := h.list_ok scope
    have hnonempty : (!records.isEmpty) = true := by
      rw [Bool.not_eq_true', List.isEmpty_eq_false_iff, ← List.length_pos_iff]
      omega
    by_cases hsame : memoryCatalogRevision functions records = catalog
    · have htransact : (Call.purge scope catalog).transact functions tables =
          .ok (.purge ⟨scope, some (memoryCatalogRevision functions records),
            (tables.ofScope scope).length, true, true⟩,
            ⟨tables.memories.filter (·.memoryScopeId ≠ scope),
              tables.scopes.filter (·.memoryScopeId ≠ scope)⟩) := by
        simp only [Call.transact, purgeProjectMemoryScope, snapshotMemories, hscope, hcatalog,
          h.getScopeRecord_eq, hfind, Option.map_some, hlist, hnonempty, hsame, hlength,
          hid ▸ countP_key_eq_one h.keyed.scopes hfound, ok_bind, ensure_true, decide_true, pure_bind]
        rfl
      refine h.decided_of_ok trivial htransact fun hkeyed hallRead ↦
        h.dropped scope ?_ List.filter_sublist ?_ hkeyed hallRead
      · intro memory
        rw [List.mem_filter, decide_eq_true_iff]
      · intro row
        rw [List.mem_filter, decide_eq_true_iff]
    · have htransact : (Call.purge scope catalog).transact functions tables =
          .error (.scopeChanged (memoryCatalogRevision functions records)) := by
        simp only [Call.transact, purgeProjectMemoryScope, snapshotMemories, hscope, hcatalog,
          h.getScopeRecord_eq, hfind, Option.map_some, hlist, hnonempty, ok_bind, ensure_true,
          pure_bind, ensure_of_false (decide_eq_false hsame), error_bind]
        rfl
      exact h.decided_of_error trivial (by simp) htransact

end Consistent

/-! ### Runs -/

section Runs

variable {calls : List Call}

/-- Every state of a run is sound, and no call of the run finds the database unavailable. -/
def StaysReadable (functions : MemoryFunctions) (calls : List Call) : Prop :=
  (∀ reached, reached <+: calls → Sound functions (tablesAfter functions .empty reached)) ∧
    ∀ before call, before ++ [call] <+: calls →
      (call.apply functions (tablesAfter functions .empty before)).1 ≠ .error .databaseUnavailable

/-- What a run relies on: the functions of the other packages do what they are documented to do, the
arguments are valid, and the new ids are distinct. -/
structure WellCalled (functions : MemoryFunctions) (attributionOf : Str → MemoryScopeAttribution)
    (calls : List Call) : Prop where
  digits : GivesDigits functions
  readBack : ∀ call ∈ calls, call.TagsReadBack functions
  valid : ∀ call ∈ calls, call.Valid attributionOf
  fresh : (calls.filterMap Call.drawn).Nodup

/-- A call of a run that comes after calls that kept the tables consistent. -/
theorem decided (hcalled : WellCalled functions attributionOf calls) {before : List Call}
    (hinit : before ++ [call] <+: calls)
    (hbefore : Consistent functions attributionOf (tablesAfter functions .empty before)) :
    Decided functions attributionOf call (tablesAfter functions .empty before) := by
  have hmem : call ∈ calls := hinit.subset (List.mem_append_right _ (List.mem_singleton_self call))
  have hvalid := hcalled.valid call hmem
  cases call with
  | set scope attribution principal request now uuid =>
    refine hbefore.decided_set hcalled.digits hvalid (hcalled.readBack _ hmem) fun row hrow hid ↦ ?_
    obtain ⟨used, hused, hold⟩ := drawn_of_mem row hrow
    have hsame : used = uuid := List.append_cancel_left (hold.symm.trans hid)
    have hnodup := hcalled.fresh.sublist (hinit.sublist.filterMap Call.drawn)
    rw [List.filterMap_append, List.nodup_append] at hnodup
    exact hnodup.2.2 used hused uuid (by simp [Call.drawn]) hsame
  | delete scope attribution key expected now => exact hbefore.decided_delete hvalid
  | purge scope catalog => exact hbefore.decided_purge hvalid

/-- The tables of a run are consistent while each call is timely or does no visible harm. -/
theorem run_consistent (hcalled : WellCalled functions attributionOf calls)
    (hsteps : ∀ before call, before ++ [call] <+: calls →
      call.Timely functions (tablesAfter functions .empty before) ∨
        (call.apply functions (tablesAfter functions .empty before)).1 ≠
          .error .databaseUnavailable ∧
          Sound functions (tablesAfter functions .empty (before ++ [call])))
    (reached : List Call) (hreached : reached <+: calls) :
    Consistent functions attributionOf (tablesAfter functions .empty reached) := by
  induction reached using List.reverseRecOn with
  | nil => exact consistent_empty
  | append_singleton before call ih =>
    have hstep := hsteps before call hreached
    have hdecided := decided hcalled hreached (ih ((List.prefix_append _ _).trans hreached))
    rw [tablesAfter_concat] at hstep ⊢
    obtain ⟨-, -, hnext⟩ | ⟨hlate, hharm⟩ := hdecided
    · exact hnext
    · obtain htimely | ⟨hanswer, hsound⟩ := hstep
      · exact absurd htimely hlate
      · obtain hfailed | hunsound := hharm
        · exact absurd hfailed hanswer
        · exact absurd hsound hunsound

/-- The store stays readable exactly when no call is behind what it changes and leaves there. A call
takes its clock before its transaction, so two calls can come with crossed clocks. -/
theorem memory_stays_readable_iff (functions : MemoryFunctions)
    (attributionOf : Str → MemoryScopeAttribution) (calls : List Call)
    (hcalled : WellCalled functions attributionOf calls) :
    StaysReadable functions calls ↔ ∀ before call, before ++ [call] <+: calls →
      call.Timely functions (tablesAfter functions .empty before) := by
  have hshorter : ∀ {part : List Call} {call : Call}, part ++ [call] <+: calls → part <+: calls :=
    fun hinit ↦ (List.prefix_append _ _).trans hinit
  constructor
  · rintro ⟨hsound, hanswers⟩ before call hinit
    have hconsistent := run_consistent hcalled
      (fun before call hinit ↦ .inr ⟨hanswers before call hinit, hsound _ hinit⟩) before
      (hshorter hinit)
    obtain ⟨htimely, -⟩ | ⟨-, hfailed | hunsound⟩ := decided hcalled hinit hconsistent
    · exact htimely
    · exact absurd hfailed (hanswers before call hinit)
    · have hnext := hsound _ hinit
      rw [tablesAfter_concat] at hnext
      exact absurd hnext hunsound
  · intro htimely
    have hconsistent := run_consistent hcalled fun before call hinit ↦
      .inl (htimely before call hinit)
    refine ⟨fun reached hreached ↦ (hconsistent reached hreached).sound, fun before call hinit ↦ ?_⟩
    obtain ⟨-, hanswer, -⟩ | ⟨hlate, -⟩ :=
      decided hcalled hinit (hconsistent before (hshorter hinit))
    · exact hanswer
    · exact absurd (htimely before call hinit) hlate

end Runs

/-! ### Two first writes -/

section TwoWrites

/-- The last 64 digits of the bytes read as a number, in place of SHA-256. -/
def numeralDigest (bytes : Bytes) : Str :=
  let value := bytes.foldl (fun value byte ↦ value * 257 + byte.toNat) 1
  (List.range 64).map fun place ↦ Nat.digitChar (value / 16 ^ place % 16)

def numeralFunctions : MemoryFunctions :=
  ⟨numeralDigest, fun text ↦ if text = tagsToJson [] then some [] else none⟩

theorem numeralFunctions_givesDigits : GivesDigits numeralFunctions := by
  have hdigit : ∀ digit < 16, isLowerHex (Nat.digitChar digit) = true := by decide
  intro bytes
  refine ⟨by simp [numeralFunctions, numeralDigest], ?_⟩
  simp only [numeralFunctions, numeralDigest, List.all_map, List.all_eq_true, Function.comp_apply]
  exact fun place _ ↦ hdigit _ (Nat.mod_lt _ (by decide))

theorem sampleSet_wellCalled {key : Str} {digit : Char} (hkey : validMemoryKey key = true)
    (hnow : 0 ≤ now) (hdigit : isLowerHex digit = true) :
    (sampleSet key now digit).Valid (fun _ ↦ sampleAttribution) ∧
      (sampleSet key now digit).TagsReadBack numeralFunctions := by
  constructor
  · have hsummary : validMemorySummary "summary".toList = true := by decide +kernel
    have hbody : validMemoryBody [] = true := by decide
    have htags : canonicalizeMemoryTags [] = .ok [] := by decide
    refine ⟨by decide +kernel, rfl, by decide +kernel, by decide +kernel, hkey, hsummary, hbody,
      ⟨[], htags⟩, nofun, hnow, List.length_replicate, ?_⟩
    simp [sampleUuid, hdigit]
  · intro tags htags
    obtain rfl : [] = tags := Except.ok.inj htags
    rfl

/-- Two first writes of a scope, by their clocks in the order of their transactions. -/
def twoWrites (first second : ℤ) : List Call :=
    [sampleSet ['k'] first '1', sampleSet ['l'] second '2']

theorem twoWrites_wellCalled {first second : ℤ} (hfirst : 0 ≤ first) (hsecond : 0 ≤ second) :
    WellCalled numeralFunctions (fun _ ↦ sampleAttribution) (twoWrites first second) := by
  have hone : (sampleSet ['k'] first '1').Valid (fun _ ↦ sampleAttribution) ∧
      (sampleSet ['k'] first '1').TagsReadBack numeralFunctions :=
    sampleSet_wellCalled (by decide) hfirst (by decide)
  have htwo : (sampleSet ['l'] second '2').Valid (fun _ ↦ sampleAttribution) ∧
      (sampleSet ['l'] second '2').TagsReadBack numeralFunctions :=
    sampleSet_wellCalled (by decide) hsecond (by decide)
  refine ⟨numeralFunctions_givesDigits, ?_, ?_, by simp [twoWrites, sampleSet, Call.drawn]; decide⟩
  · simp only [twoWrites, List.forall_mem_cons]
    exact ⟨hone.2, htwo.2, by simp⟩
  · simp only [twoWrites, List.forall_mem_cons]
    exact ⟨hone.1, htwo.1, by simp⟩

/-- The later transaction comes with the earlier clock. -/
theorem crossed_clocks_make_memory_unreadable :
    WellCalled numeralFunctions (fun _ ↦ sampleAttribution) (twoWrites 2 1) ∧
      ¬ StaysReadable numeralFunctions (twoWrites 2 1) := by
  refine ⟨twoWrites_wellCalled (by decide) (by decide), fun hstays ↦ ?_⟩
  refine (hstays.1 _ List.prefix_rfl).lists sampleScope ?_
  decide +kernel

theorem timely_of_free {attribution : MemoryScopeAttribution}
    {principal : MemoryPrincipalAttribution}
    {input : MemorySetInput} {uuid : Str}
    (hfree : tables.memories.find? (MemoryRow.isAt scope input.memoryKey) = none)
    (hclock : NotBehind scope now tables) :
    (Call.set scope attribution principal input now uuid).Timely functions tables := by
  intro tags _
  rw [hfree]
  exact fun _ _ _ ↦ hclock

/-- With clocks in the order of the transactions the scope stays readable. -/
theorem ordered_clocks_keep_memory_readable :
    StaysReadable numeralFunctions (twoWrites 1 2) := by
  refine (memory_stays_readable_iff numeralFunctions (fun _ ↦ sampleAttribution) (twoWrites 1 2)
    (twoWrites_wellCalled (by decide) (by decide))).mpr ?_
  intro before call hinit
  rcases before with _ | ⟨first, _ | ⟨second, rest⟩⟩
  · obtain ⟨more, heq⟩ := hinit
    obtain rfl := (List.cons.inj heq).1
    exact timely_of_free rfl fun row hrow ↦ absurd hrow List.not_mem_nil
  · obtain ⟨more, heq⟩ := hinit
    obtain ⟨rfl, hrest⟩ := List.cons.inj heq
    obtain rfl := (List.cons.inj hrest).1
    have hfree : (tablesAfter numeralFunctions .empty [sampleSet ['k'] 1 '1']).memories.find?
        (MemoryRow.isAt sampleScope (sampleInput ['l']).memoryKey) = none := by
      decide +kernel
    have hclock : NotBehind sampleScope 2
        (tablesAfter numeralFunctions .empty [sampleSet ['k'] 1 '1']) := by
      unfold NotBehind
      decide +kernel
    generalize tablesAfter numeralFunctions .empty [sampleSet ['k'] 1 '1'] =
      tables at hfree hclock ⊢
    exact timely_of_free hfree hclock
  · obtain ⟨more, heq⟩ := hinit
    have hlength := congrArg List.length heq
    simp [twoWrites] at hlength

end TwoWrites

end WebCodex.ProjectMemory
