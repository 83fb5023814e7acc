import Mathlib.Algebra.Group.Nat.Defs
import Mathlib.Logic.Function.Basic
import Mathlib.Logic.Relation
import WebCodex.Foundation.Table

/-!
A store of workflow sessions is kept in memory, and its persisted form, the ledger, in one file.
Callers change the store under its lock and mark the change with a generation; a writer thread
takes the latest generation with a snapshot, replaces the file, and notes the outcome. A caller
that promises durability waits for its generation and then reads the last error. Without the
thread a caller writes by itself, under the same write mutex. Every step below is one critical
section of the source; `past`, `lastMutation` and `marks` are there for the statements only.
-/

namespace WebCodex.WorkflowSession

open Foundation

variable {R Q : Type}

/-- `SessionStoreInner`, apart from its persistence. Every session is listed for eviction. -/
structure SessionStoreInner (R : Type) where
  sessions : Table String R
  lru : List String
  maxSessions : ℕ
  listed : ∀ id, sessions.has id = true → id ∈ lru

namespace SessionStoreInner

/-- `touch`: a session that is stored becomes the youngest. -/
def touch (id : String) (inner : SessionStoreInner R) : SessionStoreInner R where
  sessions := inner.sessions
  lru :=
    let others := inner.lru.filter (· != id)
    if inner.sessions.has id then others ++ [id] else others
  maxSessions := inner.maxSessions
  listed := by
    intro other hother
    by_cases hsame : other = id
    · subst hsame
      simp [hother]
    · have hmem := inner.listed other hother
      by_cases hhas : inner.sessions.has id = true <;> simp [hhas, hmem, hsame]

/-- The oldest sessions go while there are too many. -/
def evict (maxSessions : ℕ) : List String → Table String R → List String × Table String R
  | [], sessions => ([], sessions)
  | oldest :: rest, sessions =>
    if maxSessions < sessions.entries.length then evict maxSessions rest (sessions.erase oldest)
    else (oldest :: rest, sessions)

theorem listed_evict (maxSessions : ℕ) (lru : List String) (sessions : Table String R)
    (hlisted : ∀ id, sessions.has id = true → id ∈ lru) (id : String)
    (hid : (evict maxSessions lru sessions).2.has id = true) :
    id ∈ (evict maxSessions lru sessions).1 := by
  induction lru generalizing sessions with
  | nil => exact hlisted id hid
  | cons oldest _ ih =>
    unfold evict at hid ⊢
    split_ifs at hid ⊢ with hmany
    · refine ih (sessions.erase oldest) ?_ hid
      intro other hother
      unfold Table.has at hother
      rw [Table.lookup_erase_eq] at hother
      by_cases hsame : other = oldest
      · simp [hsame] at hother
      · rw [if_neg hsame] at hother
        exact (List.mem_cons.mp (hlisted other hother)).resolve_left hsame
    · exact hlisted id hid

def enforceSessionBound (inner : SessionStoreInner R) : SessionStoreInner R where
  sessions := (evict inner.maxSessions inner.lru inner.sessions).2
  lru := (evict inner.maxSessions inner.lru inner.sessions).1
  maxSessions := inner.maxSessions
  listed := listed_evict inner.maxSessions inner.lru inner.sessions inner.listed

/-- `insert_session`, the only place where a session enters the store. -/
def insertSession (id : String) (record : R) (inner : SessionStoreInner R) :
    SessionStoreInner R :=
  let others := inner.lru.filter (· != id)
  enforceSessionBound
    { sessions := inner.sessions.insert id record
      lru := others ++ [id]
      maxSessions := inner.maxSessions
      listed := by
        intro other hother
        unfold Table.has at hother
        rw [Table.lookup_insert_eq] at hother
        by_cases hsame : other = id
        · simp [hsame]
        · rw [if_neg hsame] at hother
          simp [others, inner.listed other hother, hsame] }

/-- A stored record is replaced in place, as all changes of a record are. -/
def setRecord (id : String) (record : R) (inner : SessionStoreInner R) : SessionStoreInner R where
  sessions := inner.sessions.modify id fun _ ↦ record
  lru := inner.lru
  maxSessions := inner.maxSessions
  listed := by
    intro other hother
    unfold Table.has at hother
    refine inner.listed other ?_
    unfold Table.has
    by_cases hsame : other = id
    · subst hsame
      rw [Table.lookup_modify_self] at hother
      simpa using hother
    · rwa [Table.lookup_modify_ne hsame] at hother

/-- The sessions that a ledger file restores, in the order of their last update. -/
def restore (maxSessions : ℕ) (records : List (String × R)) : SessionStoreInner R where
  sessions := records.foldl (fun sessions record ↦ sessions.insert record.1 record.2) ∅
  lru := records.map Prod.fst
  maxSessions := maxSessions
  listed := by
    intro id
    suffices h : ∀ (start : Table String R),
        (records.foldl (fun sessions record ↦ sessions.insert record.1 record.2) start).has id =
          true → start.has id = true ∨ id ∈ records.map Prod.fst by
      intro hid
      rcases h ∅ hid with hempty | hmem
      · cases hempty
      · exact hmem
    induction records with
    | nil => exact fun start hid ↦ Or.inl hid
    | cons record rest ih =>
      intro start hid
      rcases ih (start.insert record.1 record.2) hid with hstart | hmem
      · unfold Table.has at hstart ⊢
        rw [Table.lookup_insert_eq] at hstart
        by_cases hsame : id = record.1
        · exact Or.inr (by simp [hsame])
        · rw [if_neg hsame] at hstart
          exact Or.inl hstart
      · exact Or.inr (List.mem_cons_of_mem _ hmem)

/-- `to_persisted_ledger`: the sessions in the order of eviction. -/
def toPersistedLedger (persisted : R → Q) (inner : SessionStoreInner R) : List Q :=
  (inner.lru.filterMap fun id ↦ inner.sessions.lookup id).map persisted

/-- The ledger holds every stored session, since every session is listed. -/
theorem mem_toPersistedLedger (persisted : R → Q) {inner : SessionStoreInner R} {id : String}
    {record : R} (hstored : inner.sessions.lookup id = some record) :
    persisted record ∈ inner.toPersistedLedger persisted := by
  have hmem : id ∈ inner.lru := inner.listed id (by simp [Table.has, hstored])
  exact List.mem_map_of_mem (List.mem_filterMap.mpr ⟨id, hmem, hstored⟩)

end SessionStoreInner

/-- What a critical section of the store does to the sessions. -/
inductive StoreChange (R : Type)
  | insert (id : String) (record : R)
  | set (id : String) (record : R)
  | touch (id : String)

def StoreChange.apply : StoreChange R → SessionStoreInner R → SessionStoreInner R
  | insert id record => SessionStoreInner.insertSession id record
  | set id record => SessionStoreInner.setRecord id record
  | touch id => SessionStoreInner.touch id

def applyChanges (changes : List (StoreChange R)) (inner : SessionStoreInner R) :
    SessionStoreInner R :=
  changes.foldl (fun inner change ↦ change.apply inner) inner

/-- `last_persist_error`. -/
inductive PersistError
  | restoreFailed (reason : String)
  | persistFailed (reason : String)

/-- A ledger and the change of the store after which it was taken. -/
structure Snapshot (Q : Type) where
  stamp : ℕ
  ledger : List Q

/-- Where a caller stands in its call. `stamp` is the change of the store that it made. -/
inductive CallerPhase
  | resting
  | mutated (stamp : ℕ) (durable : Bool)
  | flushing (generation stamp : ℕ)
  | writing (stamp : ℕ) (durable : Bool)
  | written (stamp : ℕ)
  | acknowledged (stamp : ℕ)
  | refused

def CallerPhase.atRest : CallerPhase → Bool
  | resting | acknowledged _ | refused => true
  | _ => false

/-- Where the writer thread stands; it holds the write mutex when `cycle` says so. -/
inductive WriterPhase
  | absent
  | waiting
  | picked (generation : ℕ)
  | exited

inductive Owner
  | writer (generation : ℕ)
  | caller (id : ℕ)

/-- What the holder of the write mutex has done. -/
inductive CyclePhase (Q : Type)
  | locked
  | snapped (snapshot : Snapshot Q)
  | written (snapshot : Snapshot Q) (failure : Option String)
  | recorded

/-- A store with its writer and its file. `disk` is `none` until the file is first replaced. -/
structure LedgerStore (R Q : Type) where
  inner : SessionStoreInner R
  lastPersistError : Option PersistError
  dirty : Bool
  (dirtyGeneration writesCompleted : ℕ)
  shutdown : Bool
  writer : WriterPhase
  cycle : Option (Owner × CyclePhase Q)
  callers : ℕ → CallerPhase
  disk : Option (Snapshot Q)
  past : List (SessionStoreInner R)
  (lastMutation marks : ℕ)

/-- The largest value of the generation counters. -/
def generationMax : ℕ := 2 ^ 64 - 1

namespace LedgerStore

variable (store : LedgerStore R Q)

/-- The number of changes that the store has seen. -/
def stamp : ℕ := store.past.length

def contentAt (stamp : ℕ) : Option (SessionStoreInner R) :=
  (store.past.reverse ++ [store.inner])[stamp]?

/-- `with_persistence`: the store after a restore, with or without its thread. -/
def withPersistence (inner : SessionStoreInner R) (restoreError : Option String)
    (spawned : Bool) : LedgerStore R Q where
  inner := inner
  lastPersistError := restoreError.map .restoreFailed
  dirty := false
  dirtyGeneration := 0
  writesCompleted := 0
  shutdown := false
  writer := if spawned then .waiting else .absent
  cycle := none
  callers := fun _ ↦ .resting
  disk := none
  past := []
  lastMutation := 0
  marks := 0

def change (changes : List (StoreChange R)) : LedgerStore R Q :=
  { store with inner := applyChanges changes store.inner, past := store.inner :: store.past }

def setCaller (id : ℕ) (phase : CallerPhase) : LedgerStore R Q :=
  { store with callers := Function.update store.callers id phase }

def markDirty : LedgerStore R Q :=
  { store with
    dirty := true, dirtyGeneration := min (store.dirtyGeneration + 1) generationMax,
    marks := store.marks + 1 }

/-- One critical section of a caller, of the writer thread or of the holder of the write mutex. -/
inductive Step (persisted : R → Q) : LedgerStore R Q → LedgerStore R Q → Prop
  /-- A change that nobody has to persist: a query touches a session, a closed one is packed. -/
  | quiet (store : LedgerStore R Q) (changes : List (StoreChange R)) :
      Step persisted store (store.change changes)
  /-- A call changes the sessions; `persist_after_mutation` or its durable form follows. -/
  | mutate (store : LedgerStore R Q) (id : ℕ) (durable : Bool) (changes : List (StoreChange R))
      (hrest : (store.callers id).atRest = true) (hopen : store.shutdown = false) :
      Step persisted store
        { (store.change changes).setCaller id (.mutated (store.stamp + 1) durable) with
          lastMutation := store.stamp + 1 }
  /-- `mark_dirty`, and for a durable call the start of `flush_through`. -/
  | mark (store : LedgerStore R Q) (id stamp : ℕ) (durable : Bool)
      (hphase : store.callers id = .mutated stamp durable) (hwriter : store.writer ≠ .absent) :
      Step persisted store (store.markDirty.setCaller id
          (if durable then .flushing store.markDirty.dirtyGeneration stamp else .resting))
  /-- `flush_through` returns. -/
  | flushed (store : LedgerStore R Q) (id generation stamp : ℕ)
      (hphase : store.callers id = .flushing generation stamp)
      (hdone : generation ≤ store.writesCompleted) :
      Step persisted store (store.setCaller id (.written stamp))
  /-- Without a writer thread the caller takes the write mutex. -/
  | lockCaller (store : LedgerStore R Q) (id stamp : ℕ) (durable : Bool)
      (hphase : store.callers id = .mutated stamp durable) (hwriter : store.writer = .absent)
      (hfree : store.cycle = none) :
      Step persisted store
        { store.setCaller id (.writing stamp durable) with cycle := some (.caller id, .locked) }
  /-- The writer thread takes the generation to write. -/
  | pick (store : LedgerStore R Q) (hwriter : store.writer = .waiting)
      (hdirty : store.dirty = true) :
      Step persisted store
        { store with writer := .picked store.dirtyGeneration, dirty := false }
  | lockWriter (store : LedgerStore R Q) (generation : ℕ)
      (hwriter : store.writer = .picked generation) (hfree : store.cycle = none) :
      Step persisted store { store with cycle := some (.writer generation, .locked) }
  | snap (store : LedgerStore R Q) (owner : Owner)
      (hcycle : store.cycle = some (owner, .locked)) :
      Step persisted store
        { store with
          cycle := some (owner, .snapped ⟨store.stamp, store.inner.toPersistedLedger persisted⟩) }
  /-- `write_ledger_atomic` replaces the file. -/
  | write (store : LedgerStore R Q) (owner : Owner) (snapshot : Snapshot Q)
      (hcycle : store.cycle = some (owner, .snapped snapshot)) :
      Step persisted store
        { store with cycle := some (owner, .written snapshot none), disk := some snapshot }
  /-- `write_ledger_atomic` fails and leaves the file alone. -/
  | fail (store : LedgerStore R Q) (owner : Owner) (snapshot : Snapshot Q) (reason : String)
      (hcycle : store.cycle = some (owner, .snapped snapshot)) :
      Step persisted store { store with cycle := some (owner, .written snapshot (some reason)) }
  /-- The outcome goes into the error slot. -/
  | record (store : LedgerStore R Q) (owner : Owner) (snapshot : Snapshot Q)
      (failure : Option String) (hcycle : store.cycle = some (owner, .written snapshot failure)) :
      Step persisted store
        { store with
          cycle := some (owner, .recorded), lastPersistError := failure.map .persistFailed }
  /-- The writer thread completes its generation and starts over, or ends. -/
  | complete (store : LedgerStore R Q) (generation : ℕ)
      (hcycle : store.cycle = some (.writer generation, .recorded)) :
      Step persisted store
        { store with
          cycle := none, writesCompleted := generation,
          writer := if store.shutdown && !store.dirty then .exited else .waiting }
  | release (store : LedgerStore R Q) (id stamp : ℕ) (durable : Bool)
      (hcycle : store.cycle = some (.caller id, .recorded))
      (hphase : store.callers id = .writing stamp durable) :
      Step persisted store
        { store.setCaller id (if durable then .written stamp else .resting) with cycle := none }
  /-- The durable call reads the error slot and returns. -/
  | check (store : LedgerStore R Q) (id stamp : ℕ)
      (hphase : store.callers id = .written stamp) :
      Step persisted store (store.setCaller id
          (if store.lastPersistError = none then .acknowledged stamp else .refused))
  /-- The last handle on the store is dropped. No call is going on then. -/
  | drop (store : LedgerStore R Q) (hrest : ∀ id, (store.callers id).atRest = true) :
      Step persisted store { store with shutdown := true }
  /-- The writer thread finds nothing to write and ends. -/
  | exit (store : LedgerStore R Q) (hwriter : store.writer = .waiting)
      (hshutdown : store.shutdown = true) (hclean : store.dirty = false) :
      Step persisted store { store with writer := .exited }

/-- A state that a store with these records and this persisted form can be in. -/
inductive Reachable (persisted : R → Q) : LedgerStore R Q → Prop
  | start (inner : SessionStoreInner R) (restoreError : Option String) (spawned : Bool) :
      Reachable persisted (withPersistence inner restoreError spawned)
  | step {store next : LedgerStore R Q} (hreach : Reachable persisted store)
      (hstep : Step persisted store next) : Reachable persisted next

/-- The store is shut down and its thread, when there was one, has ended. -/
def Stopped : Prop := store.shutdown = true ∧ (store.writer = .exited ∨ store.writer = .absent)

end LedgerStore

end WebCodex.WorkflowSession
