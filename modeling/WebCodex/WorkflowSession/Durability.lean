import Mathlib.Order.Basic
import WebCodex.WorkflowSession.LedgerWriter

/-!
Four facts about every reachable state carry the guarantees of the ledger writer: the file and the
snapshot in hand are ledgers of the store and never go back (`FileSound`), generations are marked,
picked and completed in order (`Orderly`), the last mutation is on its way, written, or its write
has failed (`Accounted`), and a caller that waits finds its mutation in every snapshot of its
generation or a later one (`Fenced`). The fence ends with the counter of generations
(`saturated_generation_is_acknowledged`).
-/

namespace WebCodex.WorkflowSession

/-- The snapshot that the holder of the write mutex has in hand. -/
def CyclePhase.snapshot {Q : Type} : CyclePhase Q → Option (Snapshot Q)
  | .snapped snapshot | .written snapshot _ => some snapshot
  | .locked | .recorded => none

namespace LedgerStore

variable {R Q : Type} {persisted : R → Q} {store next : LedgerStore R Q}

/-! ### Snapshots and the file -/

/-- The ledger of all sessions as they were after some change. -/
def Genuine (persisted : R → Q) (store : LedgerStore R Q) (snapshot : Snapshot Q) : Prop :=
  ∃ inner, store.contentAt snapshot.stamp = some inner ∧
    snapshot.ledger = inner.toPersistedLedger persisted

/-- The file holds a snapshot that was taken after a change. -/
def Holds (store : LedgerStore R Q) (stamp : ℕ) : Prop :=
  ∃ snapshot, store.disk = some snapshot ∧ stamp ≤ snapshot.stamp

theorem contentAt_stamp (store : LedgerStore R Q) :
    store.contentAt store.stamp = some store.inner := by
  simp [contentAt, stamp]

theorem contentAt_change {stamp : ℕ} {inner : SessionStoreInner R}
    (changes : List (StoreChange R)) (h : store.contentAt stamp = some inner) :
    (store.change changes).contentAt stamp = some inner := by
  unfold contentAt change at *
  rw [List.getElem?_append_left]
  · simpa using h
  · have := (List.getElem?_eq_some_iff.mp h).1
    simpa using this

/-- The past of a store only grows. -/
theorem contentAt_of_step (hstep : Step persisted store next) {stamp : ℕ}
    {inner : SessionStoreInner R} (h : store.contentAt stamp = some inner) :
    next.contentAt stamp = some inner := by
  cases hstep with
  | quiet changes => exact contentAt_change changes h
  | mutate _ _ changes => exact contentAt_change changes h
  | _ => exact h

theorem Genuine.stamp_le {snapshot : Snapshot Q} (h : Genuine persisted store snapshot) :
    snapshot.stamp ≤ store.stamp := by
  obtain ⟨_, hcontent, _⟩ := h
  have hlt := (List.getElem?_eq_some_iff.mp hcontent).1
  simp only [List.length_append, List.length_reverse, List.length_singleton] at hlt
  exact Nat.lt_succ_iff.mp hlt

theorem Genuine.of_step (hstep : Step persisted store next) {snapshot : Snapshot Q}
    (h : Genuine persisted store snapshot) : Genuine persisted next snapshot := by
  obtain ⟨inner, hcontent, hledger⟩ := h
  exact ⟨inner, contentAt_of_step hstep hcontent, hledger⟩

/-- The file and the snapshot in hand are ledgers of the store, and the snapshot in hand is not
older than the file. -/
structure FileSound (persisted : R → Q) (store : LedgerStore R Q) : Prop where
  disk : ∀ snapshot, store.disk = some snapshot → Genuine persisted store snapshot
  inHand : ∀ owner phase snapshot, store.cycle = some (owner, phase) →
    phase.snapshot = some snapshot → Genuine persisted store snapshot
  newer : ∀ owner phase snapshot held, store.cycle = some (owner, phase) →
    phase.snapshot = some snapshot → store.disk = some held → held.stamp ≤ snapshot.stamp
  replaced : ∀ owner snapshot, store.cycle = some (owner, .written snapshot none) →
    store.disk = some snapshot

/-- A step that leaves the file and the snapshot in hand alone. -/
theorem FileSound.of_eq (h : FileSound persisted store) (hstep : Step persisted store next)
    (hdisk : next.disk = store.disk)
    (hcycle : ∀ owner phase snapshot, next.cycle = some (owner, phase) →
      phase.snapshot = some snapshot → store.cycle = some (owner, phase)) :
    FileSound persisted next where
  disk snapshot hsnapshot := (h.disk snapshot (hdisk ▸ hsnapshot)).of_step hstep
  inHand owner phase snapshot hnext hsnapshot :=
    (h.inHand owner phase snapshot (hcycle _ _ _ hnext hsnapshot) hsnapshot).of_step hstep
  newer owner phase snapshot held hnext hsnapshot hheld :=
    h.newer owner phase snapshot held (hcycle _ _ _ hnext hsnapshot) hsnapshot (hdisk ▸ hheld)
  replaced owner snapshot hnext := hdisk ▸ h.replaced owner snapshot (hcycle _ _ _ hnext rfl)

theorem FileSound.step (h : FileSound persisted store) (hstep : Step persisted store next) :
    FileSound persisted next := by
  have hkept := hstep
  cases hstep with
  | quiet | mutate | mark | flushed | pick | check | drop | exit =>
    exact h.of_eq hkept rfl fun _ _ _ hcycle _ ↦ hcycle
  | lockCaller | lockWriter | record | complete | release =>
    refine h.of_eq hkept rfl fun _ _ _ hcycle hsnapshot ↦ ?_
    cases hcycle
    all_goals cases hsnapshot
  | snap =>
    refine ⟨fun snapshot hsnapshot ↦ (h.disk snapshot hsnapshot).of_step hkept, ?_, ?_, nofun⟩
    · intro _ _ _ heq hsnapshot
      cases heq
      cases hsnapshot
      exact ⟨store.inner, contentAt_stamp store, rfl⟩
    · intro _ _ _ held heq hsnapshot hheld
      cases heq
      cases hsnapshot
      exact (h.disk held hheld).stamp_le
  | write _ _ hcycle =>
    have hgenuine := (h.inHand _ _ _ hcycle rfl).of_step hkept
    refine ⟨?_, ?_, ?_, ?_⟩
    · intro _ hsnapshot
      cases hsnapshot
      exact hgenuine
    · intro _ _ _ heq hsnapshot
      cases heq
      cases hsnapshot
      exact hgenuine
    · intro _ _ _ held heq hsnapshot hheld
      cases heq
      cases hsnapshot
      cases hheld
      exact le_rfl
    · intro _ _ heq
      cases heq
      rfl
  | fail _ snapshot _ hcycle =>
    refine ⟨fun snapshot hsnapshot ↦ (h.disk snapshot hsnapshot).of_step hkept, ?_, ?_, nofun⟩
    · intro _ _ _ heq hsnapshot
      cases heq
      cases hsnapshot
      exact (h.inHand _ _ _ hcycle rfl).of_step hkept
    · intro _ _ _ held heq hsnapshot hheld
      cases heq
      cases hsnapshot
      exact h.newer _ _ _ held hcycle rfl hheld

theorem fileSound_of_reachable (hreach : Reachable persisted store) :
    FileSound persisted store := by
  induction hreach with
  | start => exact ⟨nofun, nofun, nofun, nofun⟩
  | step _ hstep ih => exact ih.step hstep

/-- What the file holds it keeps, or replaces by something newer. -/
theorem FileSound.holds_of_step (h : FileSound persisted store) (hstep : Step persisted store next)
    {stamp : ℕ} (hholds : store.Holds stamp) : next.Holds stamp := by
  obtain ⟨held, hheld, hle⟩ := hholds
  cases hstep with
  | write _ snapshot hcycle =>
    exact ⟨snapshot, rfl, le_trans hle (h.newer _ _ _ held hcycle rfl hheld)⟩
  | _ => exact ⟨held, hheld, hle⟩

/-! ### Who is where -/

/-- The counters and the phases fit together. -/
structure Orderly (store : LedgerStore R Q) : Prop where
  marks : store.dirtyGeneration = min store.marks generationMax
  completed : store.writesCompleted ≤ store.dirtyGeneration
  picked : ∀ generation, store.writer = .picked generation →
    store.writesCompleted ≤ generation ∧ generation ≤ store.dirtyGeneration
  writerOwns : ∀ generation phase, store.cycle = some (.writer generation, phase) →
    store.writer = .picked generation
  callerOwns : ∀ id phase, store.cycle = some (.caller id, phase) →
    store.writer = .absent ∧ ∃ stamp durable, store.callers id = .writing stamp durable
  writing : ∀ id stamp durable, store.callers id = .writing stamp durable →
    ∃ phase, store.cycle = some (.caller id, phase)
  flushing : ∀ id generation stamp, store.callers id = .flushing generation stamp →
    store.writer ≠ .absent ∧ generation ≤ store.dirtyGeneration
  resting : store.shutdown = true → ∀ id, (store.callers id).atRest = true
  lastMutation : store.lastMutation ≤ store.stamp

/-- A caller that takes the write mutex itself owns it until it returns. -/
theorem Orderly.lockCaller (h : Orderly store) {id stamp : ℕ} {durable : Bool}
    (hphase : store.callers id = .mutated stamp durable) (hwriter : store.writer = .absent)
    (hfree : store.cycle = none) :
    Orderly { store.setCaller id (.writing stamp durable) with
      cycle := some (.caller id, .locked) } where
  marks := h.marks
  completed := h.completed
  picked := h.picked
  writerOwns _ _ hcycle := by cases hcycle
  callerOwns other phase hcycle := by
    cases hcycle
    exact ⟨hwriter, stamp, durable, Function.update_self ..⟩
  writing other otherStamp otherDurable hother := by
    by_cases hsame : other = id
    · exact ⟨.locked, by rw [hsame]⟩
    · simp only [setCaller, Function.update_of_ne hsame] at hother
      obtain ⟨phase, hcycle⟩ := h.writing other otherStamp otherDurable hother
      rw [hfree] at hcycle
      cases hcycle
  flushing other generation otherStamp hother := by
    by_cases hsame : other = id
    · simp [setCaller, hsame] at hother
    · simp only [setCaller, Function.update_of_ne hsame] at hother
      exact h.flushing other generation otherStamp hother
  resting hshutdown other := by
    have hrest := h.resting hshutdown id
    rw [hphase] at hrest
    cases hrest
  lastMutation := h.lastMutation

theorem Orderly.change (h : Orderly store) (changes : List (StoreChange R)) :
    Orderly (store.change changes) :=
  { h with lastMutation := h.lastMutation.trans (Nat.le_succ _) }

/-- A caller moves between phases in which it does not hold the write mutex. -/
theorem Orderly.setCaller (h : Orderly store) {id : ℕ} {phase : CallerPhase}
    (hbefore : ∀ stamp durable, store.callers id ≠ .writing stamp durable)
    (hafter : ∀ stamp durable, phase ≠ .writing stamp durable)
    (hflushing : ∀ generation stamp, phase = .flushing generation stamp →
      store.writer ≠ .absent ∧ generation ≤ store.dirtyGeneration)
    (hresting : store.shutdown = true → phase.atRest = true) :
    Orderly (store.setCaller id phase) where
  marks := h.marks
  completed := h.completed
  picked := h.picked
  writerOwns := h.writerOwns
  callerOwns other held hcycle := by
    obtain ⟨hwriter, stamp, durable, hother⟩ := h.callerOwns other held hcycle
    have hne : other ≠ id := by
      rintro rfl
      exact hbefore _ _ hother
    exact ⟨hwriter, stamp, durable, (Function.update_of_ne hne ..).trans hother⟩
  writing other stamp durable hother := by
    by_cases hsame : other = id
    · simp only [LedgerStore.setCaller, hsame, Function.update_self] at hother
      exact absurd hother (hafter _ _)
    · simp only [LedgerStore.setCaller, Function.update_of_ne hsame] at hother
      exact h.writing other stamp durable hother
  flushing other generation stamp hother := by
    by_cases hsame : other = id
    · simp only [LedgerStore.setCaller, hsame, Function.update_self] at hother
      exact hflushing _ _ hother
    · simp only [LedgerStore.setCaller, Function.update_of_ne hsame] at hother
      exact h.flushing other generation stamp hother
  resting hshutdown other := by
    by_cases hsame : other = id
    · simp only [LedgerStore.setCaller, hsame, Function.update_self]
      exact hresting hshutdown
    · simp only [LedgerStore.setCaller, Function.update_of_ne hsame]
      exact h.resting hshutdown other
  lastMutation := h.lastMutation

theorem Orderly.markDirty (h : Orderly store) : Orderly store.markDirty := by
  have hle : store.dirtyGeneration ≤ min (store.dirtyGeneration + 1) generationMax := by
    have hmarks := h.marks
    omega
  refine { h with marks := ?_, completed := h.completed.trans hle, picked := ?_, flushing := ?_ }
  · have hmarks := h.marks
    simp only [LedgerStore.markDirty]
    omega
  · intro generation hwriter
    obtain ⟨hlow, hhigh⟩ := h.picked generation hwriter
    exact ⟨hlow, hhigh.trans hle⟩
  · intro id generation stamp hphase
    obtain ⟨hwriter, hgeneration⟩ := h.flushing id generation stamp hphase
    exact ⟨hwriter, hgeneration.trans hle⟩

/-- The holder of the write mutex goes on with its work. -/
theorem Orderly.hold (h : Orderly store) {owner : Owner} {before after : CyclePhase Q}
    (hcycle : store.cycle = some (owner, before)) :
    Orderly { store with cycle := some (owner, after) } := by
  refine { h with writerOwns := ?_, callerOwns := ?_, writing := ?_ }
  · intro _ phase hnext
    cases hnext
    exact h.writerOwns _ _ hcycle
  · intro id phase hnext
    cases hnext
    exact h.callerOwns _ _ hcycle
  · intro id stamp durable hphase
    obtain ⟨phase, hheld⟩ := h.writing id stamp durable hphase
    rw [hcycle] at hheld
    cases hheld
    exact ⟨after, rfl⟩

/-- The writer thread moves, or gives the write mutex back, while no caller holds it. -/
theorem Orderly.moveWriter (h : Orderly store) {writer : WriterPhase}
    (hfree : ∀ id phase, store.cycle ≠ some (.caller id, phase)) (habsent : writer ≠ .absent)
    {cycle : Option (Owner × CyclePhase Q)} {completed : ℕ} {dirty : Bool}
    (hcycle : ∀ owner phase, cycle = some (owner, phase) →
      ∃ generation, owner = .writer generation ∧ writer = .picked generation)
    (hcompleted : completed ≤ store.dirtyGeneration)
    (hpicked : ∀ generation, writer = .picked generation →
      completed ≤ generation ∧ generation ≤ store.dirtyGeneration) :
    Orderly { store with
      writer := writer, cycle := cycle, writesCompleted := completed, dirty := dirty } := by
  refine { h with completed := hcompleted, picked := hpicked, writerOwns := ?_, callerOwns := ?_,
                  writing := ?_, flushing := ?_ }
  · intro generation phase hnext
    obtain ⟨found, howner, hwriter⟩ := hcycle _ _ hnext
    cases howner
    exact hwriter
  · intro id phase hnext
    obtain ⟨found, howner, -⟩ := hcycle _ _ hnext
    cases howner
  · intro id stamp durable hphase
    obtain ⟨phase, hheld⟩ := h.writing id stamp durable hphase
    exact absurd hheld (hfree id phase)
  · intro id generation stamp hphase
    exact ⟨habsent, (h.flushing id generation stamp hphase).2⟩

/-- A caller that held the write mutex gives it back. -/
theorem Orderly.release (h : Orderly store) {id stamp : ℕ} {durable : Bool} {phase : CallerPhase}
    (hcycle : store.cycle = some (.caller id, .recorded))
    (hphase : store.callers id = .writing stamp durable)
    (hafter : (∃ stamp, phase = .written stamp) ∨ phase = .resting) :
    Orderly { store.setCaller id phase with cycle := none } where
  marks := h.marks
  completed := h.completed
  picked := h.picked
  writerOwns := nofun
  callerOwns := nofun
  writing other otherStamp otherDurable hother := by
    by_cases hsame : other = id
    · simp only [LedgerStore.setCaller, hsame, Function.update_self] at hother
      rcases hafter with ⟨_, rfl⟩ | rfl <;> cases hother
    · simp only [LedgerStore.setCaller, Function.update_of_ne hsame] at hother
      obtain ⟨_, hheld⟩ := h.writing other otherStamp otherDurable hother
      rw [hcycle] at hheld
      cases hheld
      exact absurd rfl hsame
  flushing other generation otherStamp hother := by
    by_cases hsame : other = id
    · simp only [LedgerStore.setCaller, hsame, Function.update_self] at hother
      rcases hafter with ⟨_, rfl⟩ | rfl <;> cases hother
    · simp only [LedgerStore.setCaller, Function.update_of_ne hsame] at hother
      exact h.flushing other generation otherStamp hother
  resting hshutdown other := by
    have hrest := h.resting hshutdown id
    rw [hphase] at hrest
    cases hrest
  lastMutation := h.lastMutation

theorem Orderly.step (h : Orderly store) (hstep : Step persisted store next) : Orderly next := by
  cases hstep with
  | lockCaller _ _ _ hphase hwriter hfree => exact h.lockCaller hphase hwriter hfree
  | quiet changes => exact h.change changes
  | mutate id durable changes hrest hopen =>
    have hmoved :
        Orderly ((store.change changes).setCaller id (.mutated (store.stamp + 1) durable)) := by
      refine (h.change changes).setCaller ?_ nofun nofun fun hshutdown ↦ ?_
      · intro stamp kept hphase
        exact absurd hrest (by simp [show store.callers id = .writing stamp kept from hphase,
          CallerPhase.atRest])
      · exact absurd (hopen.symm.trans hshutdown) (by simp)
    exact { hmoved with lastMutation := le_rfl }
  | mark id _ durable hphase hwriter =>
    refine h.markDirty.setCaller ?_ ?_ ?_ fun hshutdown ↦ ?_
    · intro otherStamp kept hother
      exact absurd (hphase.symm.trans hother) (by simp)
    · cases durable <;> exact nofun
    · intro generation otherStamp hnext
      cases durable with
      | false => cases hnext
      | true =>
        cases hnext
        exact ⟨hwriter, le_rfl⟩
    · have hrest := h.resting hshutdown id
      rw [hphase] at hrest
      cases hrest
  | flushed id _ _ hphase =>
    refine h.setCaller ?_ nofun nofun fun hshutdown ↦ ?_
    · intro otherStamp kept hother
      exact absurd (hphase.symm.trans hother) (by simp)
    · have hrest := h.resting hshutdown id
      rw [hphase] at hrest
      cases hrest
  | check _ _ hphase =>
    refine h.setCaller ?_ ?_ ?_ fun _ ↦ ?_
    · intro otherStamp kept hother
      exact absurd (hphase.symm.trans hother) (by simp)
    · split <;> exact nofun
    · split <;> exact nofun
    · split <;> rfl
  | pick hwriter =>
    refine h.moveWriter ?_ (by simp) ?_ h.completed ?_
    · intro id phase hcycle
      exact absurd (hwriter.symm.trans (h.callerOwns _ _ hcycle).1) (by simp)
    · intro owner phase hcycle
      cases owner with
      | writer =>
        exact absurd (hwriter.symm.trans (h.writerOwns _ _ hcycle)) (by simp)
      | caller => exact absurd (hwriter.symm.trans (h.callerOwns _ _ hcycle).1) (by simp)
    · intro generation hnext
      cases hnext
      exact ⟨h.completed, le_rfl⟩
  | lockWriter generation hwriter hfree =>
    refine h.moveWriter ?_ ?_ ?_ h.completed h.picked
    · simp [hfree]
    · simp [hwriter]
    · intro owner phase hnext
      cases hnext
      exact ⟨generation, rfl, hwriter⟩
  | snap _ hcycle => exact h.hold hcycle
  | write _ _ hcycle => exact { h.hold hcycle with }
  | fail _ _ _ hcycle => exact h.hold hcycle
  | record _ _ _ hcycle => exact { h.hold hcycle with }
  | complete _ hcycle =>
    have hwriter := h.writerOwns _ _ hcycle
    refine h.moveWriter ?_ ?_ nofun (h.picked _ hwriter).2 ?_
    · simp [hcycle]
    · split <;> exact nofun
    · split <;> exact nofun
  | release _ stamp durable hcycle hphase =>
    refine h.release hcycle hphase ?_
    cases durable with
    | true => exact Or.inl ⟨stamp, rfl⟩
    | false => exact Or.inr rfl
  | drop hrest => exact { h with resting := fun _ ↦ hrest }
  | exit hwriter =>
    refine h.moveWriter ?_ (by simp) ?_ h.completed (by simp)
    · intro id phase hcycle
      exact absurd (hwriter.symm.trans (h.callerOwns _ _ hcycle).1) (by simp)
    · intro owner phase hcycle
      cases owner with
      | writer =>
        exact absurd (hwriter.symm.trans (h.writerOwns _ _ hcycle)) (by simp)
      | caller => exact absurd (hwriter.symm.trans (h.callerOwns _ _ hcycle).1) (by simp)

theorem orderly_of_reachable (hreach : Reachable persisted store) : Orderly store := by
  induction hreach with
  | start _ _ spawned =>
    constructor <;> simp [withPersistence, CallerPhase.atRest]
    cases spawned <;> simp
  | step _ hstep ih => exact ih.step hstep

/-! ### The last mutation -/

def Failed (store : LedgerStore R Q) : Prop :=
  ∃ reason, store.lastPersistError = some (.persistFailed reason)

/-- The last mutation is on its way to the file, in the file, or was refused by it. -/
def Accounted (store : LedgerStore R Q) : Prop := store.lastMutation = 0 ∨
  (∃ id durable, store.callers id = .mutated store.lastMutation durable) ∨
  store.dirty = true ∨
  match store.cycle with
  | none => (∃ generation, store.writer = .picked generation) ∨ store.Failed ∨
      store.Holds store.lastMutation
  | some (_, .locked) => True
  | some (_, .snapped snapshot) | some (_, .written snapshot _) =>
    store.lastMutation ≤ snapshot.stamp
  | some (_, .recorded) => store.Failed ∨ store.Holds store.lastMutation

/-- A caller moves on that has marked its mutation already. -/
theorem Accounted.setCaller (h : Accounted store) {id : ℕ} (phase : CallerPhase)
    (hphase : ∀ stamp durable, store.callers id ≠ .mutated stamp durable) :
    Accounted (store.setCaller id phase) := by
  rcases h with hnone | ⟨other, durable, hother⟩ | hrest
  · exact Or.inl hnone
  · refine Or.inr (Or.inl ⟨other, durable, ?_⟩)
    have hne : other ≠ id := by
      rintro rfl
      exact hphase _ _ hother
    exact (Function.update_of_ne hne ..).trans hother
  · exact Or.inr (Or.inr hrest)

/-- Between two writes of the thread nobody holds the write mutex. -/
theorem Orderly.cycle_eq_none (h : Orderly store) (hwriter : store.writer = .waiting) :
    store.cycle = none := by
  rcases hcycle : store.cycle with _ | ⟨owner, phase⟩
  · rfl
  · cases owner with
    | writer =>
      rw [h.writerOwns _ _ hcycle] at hwriter
      cases hwriter
    | caller =>
      rw [(h.callerOwns _ _ hcycle).1] at hwriter
      cases hwriter

theorem Accounted.step (h : Accounted store) (hfile : FileSound persisted store)
    (horderly : Orderly store) (hstep : Step persisted store next) : Accounted next := by
  cases hstep with
  | quiet | drop => exact h
  | mutate id durable =>
    exact Or.inr (Or.inl ⟨id, durable, Function.update_self ..⟩)
  | mark => exact Or.inr (Or.inr (Or.inl rfl))
  | flushed _ _ _ hphase => exact h.setCaller _ (by simp [hphase])
  | check _ _ hphase => exact h.setCaller _ (by simp [hphase])
  | lockCaller | lockWriter => exact Or.inr (Or.inr (Or.inr trivial))
  | pick hwriter =>
    refine Or.inr (Or.inr (Or.inr ?_))
    simp only [horderly.cycle_eq_none hwriter]
    exact Or.inl ⟨_, rfl⟩
  | snap => exact Or.inr (Or.inr (Or.inr horderly.lastMutation))
  | write _ _ hcycle =>
    unfold Accounted at h ⊢
    simpa only [hcycle] using h
  | fail _ _ _ hcycle =>
    unfold Accounted at h ⊢
    simpa only [hcycle] using h
  | record owner snapshot failure hcycle =>
    unfold Accounted at h ⊢
    simp only [hcycle] at h
    refine h.imp_right (Or.imp_right (Or.imp_right fun hle ↦ ?_))
    cases failure with
    | none => exact Or.inr ⟨snapshot, hfile.replaced owner snapshot hcycle, hle⟩
    | some reason => exact Or.inl ⟨reason, rfl⟩
  | complete _ hcycle =>
    unfold Accounted at h ⊢
    simp only [hcycle] at h
    exact h.imp_right (Or.imp_right (Or.imp_right Or.inr))
  | release _ stamp durable hcycle hphase =>
    have hmoved := h.setCaller (if durable then .written stamp else .resting)
      (fun _ _ hmutated ↦ by rw [hphase] at hmutated; cases hmutated)
    simp only [LedgerStore.setCaller, hcycle] at hmoved
    exact hmoved.imp_right (Or.imp_right (Or.imp_right Or.inr))
  | exit hwriter =>
    unfold Accounted at h ⊢
    simp only [horderly.cycle_eq_none hwriter] at h ⊢
    refine h.imp_right (Or.imp_right (Or.imp_right fun hidle ↦ Or.inr (hidle.resolve_left ?_)))
    rintro ⟨_, hpicked⟩
    rw [hwriter] at hpicked
    cases hpicked

theorem accounted_of_reachable (hreach : Reachable persisted store) : Accounted store := by
  induction hreach with
  | start => exact Or.inl rfl
  | step hreach hstep ih =>
    exact ih.step (fileSound_of_reachable hreach) (orderly_of_reachable hreach) hstep

/-- A thread that has ended leaves nothing to write, and without a thread nothing is marked. -/
def Clean (store : LedgerStore R Q) : Prop := (store.writer = .exited → store.shutdown = true) ∧
    (store.writer = .exited ∨ store.writer = .absent → store.dirty = false)

theorem Clean.step (h : Clean store) (horderly : Orderly store)
    (hstep : Step persisted store next) : Clean next := by
  unfold Clean at h ⊢
  cases hstep with
  | mark id _ _ hphase hwriter =>
    refine ⟨h.1, ?_⟩
    rintro (hexited | habsent)
    · have hrest := horderly.resting (h.1 hexited) id
      rw [hphase] at hrest
      cases hrest
    · exact absurd habsent hwriter
  | complete =>
    by_cases hover : store.shutdown && !store.dirty
    · simp only [Bool.and_eq_true, Bool.not_eq_true'] at hover
      exact ⟨fun _ ↦ hover.1, fun _ ↦ hover.2⟩
    · simp [hover]
  | drop => exact ⟨fun _ ↦ rfl, h.2⟩
  | exit _ hshutdown hclean => exact ⟨fun _ ↦ hshutdown, fun _ ↦ hclean⟩
  | pick => exact ⟨nofun, fun _ ↦ rfl⟩
  | _ => exact h

theorem clean_of_reachable (hreach : Reachable persisted store) : Clean store := by
  induction hreach with
  | start _ _ spawned => cases spawned <;> simp [Clean, withPersistence]
  | step hreach hstep ih => exact ih.step (orderly_of_reachable hreach) hstep

/-- After a shutdown the file holds the last mutation, unless its write has failed. -/
theorem lastMutation_of_stopped (hreach : Reachable persisted store) (hstopped : store.Stopped)
    (hgood : ¬ store.Failed) : store.lastMutation = 0 ∨ store.Holds store.lastMutation := by
  have horderly := orderly_of_reachable hreach
  obtain ⟨hshutdown, hgone⟩ := hstopped
  have hrest := horderly.resting hshutdown
  have hclean := (clean_of_reachable hreach).2 hgone
  have hfree : store.cycle = none := by
    rcases hcycle : store.cycle with _ | ⟨owner, phase⟩
    · rfl
    · cases owner with
      | writer =>
        rw [horderly.writerOwns _ _ hcycle] at hgone
        rcases hgone with hgone | hgone <;> cases hgone
      | caller id =>
        obtain ⟨_, _, durable, hwriting⟩ := horderly.callerOwns _ _ hcycle
        have hid := hrest id
        rw [hwriting] at hid
        cases hid
  have haccounted := accounted_of_reachable hreach
  unfold Accounted at haccounted
  rw [hfree] at haccounted
  rcases haccounted with hnone | ⟨id, durable, hmutated⟩ | hdirty | ⟨generation,
    hpicked⟩ | hfailed | hholds
  · exact Or.inl hnone
  · have hid := hrest id
    rw [hmutated] at hid
    cases hid
  · rw [hclean] at hdirty
    cases hdirty
  · rw [hpicked] at hgone
    rcases hgone with hgone | hgone <;> cases hgone
  · exact absurd hfailed hgood
  · exact Or.inr hholds

/-! ### Acknowledgements -/

def confirmed (store : LedgerStore R Q) : ℕ :=
  match store.cycle with
  | some (.writer generation, .recorded) => generation
  | _ => store.writesCompleted

/-- The snapshot in hand, when there is one, was taken after a change. -/
def Covered (store : LedgerStore R Q) (stamp : ℕ) : Prop :=
  ∀ owner phase snapshot, store.cycle = some (owner, phase) → phase.snapshot = some snapshot →
    stamp ≤ snapshot.stamp

/-- The file holds a change unless an error is noted. -/
def Settled (store : LedgerStore R Q) (stamp : ℕ) : Prop :=
  store.lastPersistError = none → store.Holds stamp

/-- What the phase of a caller says about its mutation. A caller that waits for a generation finds
it in the file, or in the snapshot in hand, as soon as that generation is written. -/
def CallerFenced (store : LedgerStore R Q) : CallerPhase → Prop
  | .resting | .refused => True
  | .mutated stamp _ => stamp ≤ store.stamp
  | .flushing generation stamp => stamp ≤ store.stamp ∧
      (generation ≤ store.confirmed → store.Settled stamp) ∧
      ∀ picked, store.writer = .picked picked → generation ≤ picked → store.Covered stamp
  | .writing stamp _ => stamp ≤ store.stamp ∧ store.Covered stamp ∧
      ∀ owner, store.cycle = some (owner, .recorded) → store.Settled stamp
  | .written stamp => stamp ≤ store.stamp ∧ store.Settled stamp ∧ store.Covered stamp
  | .acknowledged stamp => store.Holds stamp

/-- A step that leaves the error, the write mutex, the file and the thread alone. -/
theorem CallerFenced.frame {phase : CallerPhase} (h : CallerFenced store phase)
    (hstamp : store.stamp ≤ next.stamp)
    (herror : next.lastPersistError = store.lastPersistError) (hcycle : next.cycle = store.cycle)
    (hdisk : next.disk = store.disk) (hcompleted : next.writesCompleted = store.writesCompleted)
    (hwriter : next.writer = store.writer) : CallerFenced next phase := by
  have hholds : next.Holds = store.Holds := by
    unfold Holds
    rw [hdisk]
  have hsettled : next.Settled = store.Settled := by
    unfold Settled
    rw [herror, hholds]
  have hcovered : next.Covered = store.Covered := by
    unfold Covered
    rw [hcycle]
  have hconfirmed : next.confirmed = store.confirmed := by
    unfold confirmed
    rw [hcycle, hcompleted]
  cases phase with
  | resting | refused => trivial
  | mutated => exact le_trans h hstamp
  | acknowledged => simpa only [CallerFenced, hholds] using h
  | flushing =>
    simp only [CallerFenced, hsettled, hcovered, hconfirmed, hwriter] at h ⊢
    exact ⟨le_trans h.1 hstamp, h.2⟩
  | writing =>
    simp only [CallerFenced, hsettled, hcovered, hcycle] at h ⊢
    exact ⟨le_trans h.1 hstamp, h.2⟩
  | written =>
    simp only [CallerFenced, hsettled, hcovered] at h ⊢
    exact ⟨le_trans h.1 hstamp, h.2⟩

/-- The write mutex is taken or released, or the thread moves on without it. No snapshot is in hand
afterwards. -/
theorem CallerFenced.unheld {phase : CallerPhase} (h : CallerFenced store phase)
    (hunheld : ∀ owner phase, next.cycle = some (owner, phase) →
      phase.snapshot = none ∧ phase ≠ .recorded)
    (hconfirmed : next.confirmed = store.confirmed) (hstamp : next.stamp = store.stamp)
    (herror : next.lastPersistError = store.lastPersistError)
    (hdisk : next.disk = store.disk) : CallerFenced next phase := by
  have hholds : next.Holds = store.Holds := by
    unfold Holds
    rw [hdisk]
  have hsettled : next.Settled = store.Settled := by
    unfold Settled
    rw [herror, hholds]
  have hcovered : ∀ stamp, next.Covered stamp := by
    intro stamp owner phase snapshot hcycle hsnapshot
    rw [(hunheld owner phase hcycle).1] at hsnapshot
    cases hsnapshot
  cases phase with
  | resting | refused => trivial
  | mutated => exact le_trans h hstamp.ge
  | acknowledged => simpa only [CallerFenced, hholds] using h
  | flushing _ stamp =>
    simp only [CallerFenced, hsettled, hconfirmed] at h ⊢
    exact ⟨le_trans h.1 hstamp.ge, h.2.1, fun _ _ _ ↦ hcovered stamp⟩
  | writing stamp =>
    exact ⟨le_trans h.1 hstamp.ge, hcovered stamp,
      fun owner hcycle ↦ absurd rfl (hunheld _ _ hcycle).2⟩
  | written stamp =>
    simp only [CallerFenced, hsettled] at h ⊢
    exact ⟨le_trans h.1 hstamp.ge, h.2.1, hcovered stamp⟩

theorem Settled.of_holds {stamp : ℕ} (h : store.Settled stamp)
    (herror : next.lastPersistError = store.lastPersistError)
    (hholds : store.Holds stamp → next.Holds stamp) : next.Settled stamp :=
  fun hnone ↦ hholds (h (herror ▸ hnone))

/-- The holder of the write mutex takes a snapshot. It is not older than any mutation. -/
theorem CallerFenced.snap {phase : CallerPhase} (h : CallerFenced store phase) {owner : Owner}
    (hcycle : store.cycle = some (owner, .locked)) (ledger : List Q) :
    CallerFenced { store with cycle := some (owner, .snapped ⟨store.stamp, ledger⟩) } phase := by
  have hcovered : ∀ stamp, stamp ≤ store.stamp →
      Covered { store with cycle := some (owner, .snapped ⟨store.stamp, ledger⟩) } stamp := by
    intro stamp hle _ _ _ heq hsnapshot
    cases heq
    cases hsnapshot
    exact hle
  have hconfirmed : confirmed { store with cycle := some (owner, .snapped ⟨store.stamp, ledger⟩) } =
        store.confirmed := by
    unfold confirmed
    rw [hcycle]
    cases owner <;> rfl
  cases phase with
  | resting | refused => trivial
  | mutated | acknowledged => exact h
  | flushing _ stamp =>
    refine ⟨h.1, ?_, fun _ _ _ ↦ hcovered stamp h.1⟩
    rw [hconfirmed]
    exact h.2.1
  | writing stamp =>
    refine ⟨h.1, hcovered stamp h.1, fun _ heq ↦ ?_⟩
    cases heq
  | written stamp => exact ⟨h.1, h.2.1, hcovered stamp h.1⟩

/-- The file is replaced, or the write fails. -/
theorem CallerFenced.wrote {phase : CallerPhase} (h : CallerFenced store phase) {owner : Owner}
    {snapshot : Snapshot Q} (hcycle : store.cycle = some (owner, .snapped snapshot))
    {failure : Option String} {disk : Option (Snapshot Q)}
    (hholds : ∀ stamp, store.Holds stamp →
      Holds { store with cycle := some (owner, .written snapshot failure), disk := disk } stamp) :
    CallerFenced { store with cycle := some (owner, .written snapshot failure), disk := disk }
      phase := by
  have hcovered : ∀ stamp, store.Covered stamp →
      Covered { store with cycle := some (owner, .written snapshot failure), disk := disk }
        stamp := by
    intro stamp hold _ _ _ heq hsnapshot
    cases heq
    cases hsnapshot
    exact hold owner _ snapshot hcycle rfl
  have hconfirmed :
      confirmed { store with cycle := some (owner, .written snapshot failure), disk := disk } =
        store.confirmed := by
    unfold confirmed
    rw [hcycle]
    cases owner <;> rfl
  cases phase with
  | resting | refused => trivial
  | mutated => exact h
  | acknowledged stamp => exact hholds stamp h
  | flushing _ stamp =>
    refine ⟨h.1, fun hle ↦ ?_, fun picked hpicked hle ↦ hcovered stamp (h.2.2 picked hpicked hle)⟩
    rw [hconfirmed] at hle
    exact (h.2.1 hle).of_holds rfl (hholds stamp)
  | writing stamp =>
    refine ⟨h.1, hcovered stamp h.2.1, fun _ heq ↦ ?_⟩
    cases heq
  | written stamp => exact ⟨h.1, h.2.1.of_holds rfl (hholds stamp), hcovered stamp h.2.2⟩

/-- The outcome is noted. When there is no error, the file holds the snapshot that was in hand. -/
theorem CallerFenced.record {phase : CallerPhase} (h : CallerFenced store phase)
    (hfile : FileSound persisted store) (horderly : Orderly store) {owner : Owner}
    {snapshot : Snapshot Q} {failure : Option String}
    (hcycle : store.cycle = some (owner, .written snapshot failure))
    (hflushing : ∀ generation stamp, phase = .flushing generation stamp → store.writer ≠ .absent) :
    CallerFenced { store with
      cycle := some (owner, .recorded), lastPersistError := failure.map .persistFailed } phase := by
  have hsettled : ∀ stamp, store.Covered stamp → Settled { store with
      cycle := some (owner, .recorded),
      lastPersistError := failure.map PersistError.persistFailed } stamp := by
    intro stamp hcovered herror
    have hfailure : failure = none := Option.map_eq_none_iff.mp herror
    subst hfailure
    exact ⟨snapshot, hfile.replaced owner snapshot hcycle, hcovered owner _ snapshot hcycle rfl⟩
  have hcovered : ∀ stamp, Covered { store with
      cycle := some (owner, .recorded),
      lastPersistError := failure.map PersistError.persistFailed } stamp := by
    intro stamp _ _ _ heq hsnapshot
    cases heq
    cases hsnapshot
  cases phase with
  | resting | refused => trivial
  | mutated | acknowledged => exact h
  | flushing _ stamp =>
    refine ⟨h.1, fun hle ↦ ?_, fun _ _ _ ↦ hcovered stamp⟩
    cases owner with
    | writer picked => exact hsettled stamp (h.2.2 picked (horderly.writerOwns _ _ hcycle) hle)
    | caller => exact absurd (horderly.callerOwns _ _ hcycle).1 (hflushing _ _ rfl)
  | writing stamp => exact ⟨h.1, hcovered stamp, fun _ _ ↦ hsettled stamp h.2.1⟩
  | written stamp => exact ⟨h.1, hsettled stamp h.2.2, hcovered stamp⟩

def Fenced (store : LedgerStore R Q) : Prop := ∀ id, CallerFenced store (store.callers id)

theorem Orderly.confirmed_le (h : Orderly store) :
    store.writesCompleted ≤ store.confirmed ∧ store.confirmed ≤ store.dirtyGeneration := by
  unfold confirmed
  split
  · rename_i generation hcycle
    exact h.picked generation (h.writerOwns _ _ hcycle)
  · exact ⟨le_rfl, h.completed⟩

/-- One caller moves on, the others are framed. -/
theorem Fenced.update (h : Fenced store) {id : ℕ} {phase : CallerPhase}
    (hcallers : next.callers = Function.update store.callers id phase)
    (hothers : ∀ other, CallerFenced store (store.callers other) →
      CallerFenced next (store.callers other))
    (hphase : CallerFenced next phase) : Fenced next := by
  intro other
  rw [hcallers]
  by_cases hsame : other = id
  · rw [hsame, Function.update_self]
    exact hphase
  · rw [Function.update_of_ne hsame]
    exact hothers other (h other)

/-- A new mark is ahead of everything that is written or being written. Assumes: the generation
counter has not reached its end. -/
theorem Fenced.mark (h : Fenced store) (horderly : Orderly store) {id stamp : ℕ} {durable : Bool}
    (hphase : store.callers id = .mutated stamp durable)
    (hmarks : store.marks + 1 ≤ generationMax) :
    Fenced (store.markDirty.setCaller id
      (if durable then .flushing store.markDirty.dirtyGeneration stamp else .resting)) := by
  have hstamp : stamp ≤ store.stamp := by
    have hid := h id
    rwa [hphase] at hid
  have hgeneration : store.markDirty.dirtyGeneration = store.dirtyGeneration + 1 := by
    have hcount := horderly.marks
    simp only [markDirty]
    omega
  refine h.update rfl (fun _ hother ↦ hother.frame le_rfl rfl rfl rfl rfl rfl) ?_
  cases durable with
  | false => trivial
  | true =>
    refine ⟨hstamp, fun hle ↦ ?_, fun picked hpicked hle ↦ ?_⟩
    · have hbound : store.markDirty.dirtyGeneration ≤ store.confirmed := hle
      have := horderly.confirmed_le.2
      omega
    · have := (horderly.picked picked hpicked).2
      omega

theorem Fenced.step (h : Fenced store) (hfile : FileSound persisted store)
    (horderly : Orderly store) (hmarks : next.marks ≤ generationMax)
    (hstep : Step persisted store next) : Fenced next := by
  have hkept := hstep
  cases hstep with
  | quiet => exact fun id ↦ (h id).frame (Nat.le_succ _) rfl rfl rfl rfl rfl
  | mutate =>
    exact h.update rfl (fun other hother ↦ hother.frame (Nat.le_succ _) rfl rfl rfl rfl rfl)
      (le_refl (store.past.length + 1))
  | mark _ _ _ hphase => exact h.mark horderly hphase hmarks
  | flushed id _ _ hphase hdone =>
    have hid := h id
    rw [hphase] at hid
    refine h.update rfl (fun other hother ↦ hother.frame le_rfl rfl rfl rfl rfl rfl)
      ⟨hid.1, hid.2.1 (hdone.trans horderly.confirmed_le.1), ?_⟩
    intro owner _ _ hcycle hsnapshot
    cases owner with
    | writer picked =>
      have hpicked := horderly.writerOwns _ _ hcycle
      exact hid.2.2 picked hpicked (hdone.trans (horderly.picked picked hpicked).1) _ _ _ hcycle
        hsnapshot
    | caller =>
      exact absurd (horderly.callerOwns _ _ hcycle).1 (horderly.flushing _ _ _ hphase).1
  | check id _ hphase =>
    have hid := h id
    rw [hphase] at hid
    refine h.update rfl (fun other hother ↦ hother.frame le_rfl rfl rfl rfl rfl rfl) ?_
    split_ifs with herror
    · exact hid.2.1 herror
    · trivial
  | lockCaller id _ _ hphase _ hfree =>
    have hid := h id
    rw [hphase] at hid
    refine h.update rfl (fun other hother ↦ hother.unheld ?_ ?_ rfl rfl rfl) ⟨hid, ?_, nofun⟩
    · rintro _ _ ⟨⟩
      exact ⟨rfl, nofun⟩
    · simp [confirmed, hfree, setCaller]
    · rintro _ _ _ ⟨⟩ ⟨⟩
  | pick hwriter =>
    have hfree := horderly.cycle_eq_none hwriter
    exact fun id ↦ (h id).unheld (by simp [hfree]) (by simp [confirmed, hfree]) rfl rfl rfl
  | lockWriter _ _ hfree =>
    refine fun id ↦ (h id).unheld ?_ (by simp [confirmed, hfree]) rfl rfl rfl
    rintro _ _ ⟨⟩
    exact ⟨rfl, nofun⟩
  | snap _ hcycle => exact fun id ↦ (h id).snap hcycle _
  | write _ _ hcycle =>
    exact fun id ↦ (h id).wrote hcycle fun stamp hholds ↦ hfile.holds_of_step hkept hholds
  | fail _ _ _ hcycle =>
    exact fun id ↦ (h id).wrote hcycle fun stamp hholds ↦ hholds
  | record _ _ _ hcycle =>
    exact fun id ↦ (h id).record hfile horderly hcycle fun generation stamp hphase ↦
      (horderly.flushing id generation stamp hphase).1
  | complete _ hcycle =>
    exact fun id ↦ (h id).unheld nofun (by simp [confirmed, hcycle]) rfl rfl rfl
  | release id _ durable hcycle hphase =>
    have hid := h id
    rw [hphase] at hid
    refine h.update rfl (fun other hother ↦ hother.unheld nofun ?_ rfl rfl rfl) ?_
    · simp [confirmed, hcycle, setCaller]
    · cases durable with
      | false => trivial
      | true => exact ⟨hid.1, hid.2.2 _ hcycle, nofun⟩
  | drop => exact fun id ↦ (h id).frame le_rfl rfl rfl rfl rfl rfl
  | exit hwriter =>
    have hfree := horderly.cycle_eq_none hwriter
    exact fun id ↦ (h id).unheld (by simp [hfree]) (by simp [confirmed, hfree]) rfl rfl rfl

theorem marks_le_of_step (hstep : Step persisted store next) : store.marks ≤ next.marks := by
  cases hstep with
  | mark => exact Nat.le_succ _
  | _ => exact le_rfl

theorem fenced_of_reachable (hreach : Reachable persisted store)
    (hmarks : store.marks ≤ generationMax) : Fenced store := by
  induction hreach with
  | start => exact fun _ ↦ trivial
  | step hreach hstep ih =>
    exact (ih ((marks_le_of_step hstep).trans hmarks)).step (fileSound_of_reachable hreach)
      (orderly_of_reachable hreach) hmarks hstep

/-! ### Durability -/

/-- The file holds a ledger that was taken after a change: the sessions as they were then, all of
them. -/
def LedgerHolds (persisted : R → Q) (store : LedgerStore R Q) (stamp : ℕ) : Prop :=
  ∃ snapshot inner, store.disk = some snapshot ∧ stamp ≤ snapshot.stamp ∧
    store.contentAt snapshot.stamp = some inner ∧
    snapshot.ledger = inner.toPersistedLedger persisted ∧
    ∀ id record, inner.sessions.lookup id = some record → persisted record ∈ snapshot.ledger

theorem FileSound.ledgerHolds (h : FileSound persisted store) {stamp : ℕ}
    (hholds : store.Holds stamp) : LedgerHolds persisted store stamp := by
  obtain ⟨snapshot, hdisk, hle⟩ := hholds
  obtain ⟨inner, hcontent, hledger⟩ := h.disk snapshot hdisk
  refine ⟨snapshot, inner, hdisk, hle, hcontent, hledger, fun _ _ hstored ↦ ?_⟩
  rw [hledger]
  exact SessionStoreInner.mem_toPersistedLedger persisted hstored

/-- In every reachable state, a mutation that was acknowledged as durable is in the file, with all
sessions of a moment after it, as long as the generation counter has not overflowed; no step
replaces the file by an older ledger; and after a shutdown the file holds the last mutation unless
the last write has failed. -/
theorem acknowledgements_are_durable (hreach : Reachable persisted store) :
    (store.marks ≤ generationMax → ∀ id stamp, store.callers id = .acknowledged stamp →
      LedgerHolds persisted store stamp) ∧
    (∀ next held, Step persisted store next → store.disk = some held →
      ∃ snapshot, next.disk = some snapshot ∧ held.stamp ≤ snapshot.stamp) ∧
    (store.Stopped → ¬ store.Failed →
      store.lastMutation = 0 ∨ LedgerHolds persisted store store.lastMutation) := by
  have hfile := fileSound_of_reachable hreach
  refine ⟨?_, ?_, ?_⟩
  · intro hmarks id stamp hacknowledged
    have hfenced := fenced_of_reachable hreach hmarks id
    rw [hacknowledged] at hfenced
    exact hfile.ledgerHolds hfenced
  · intro next held hstep hheld
    exact hfile.holds_of_step hstep ⟨held, hheld, le_rfl⟩
  · intro hstopped hgood
    exact (lastMutation_of_stopped hreach hstopped hgood).imp_right hfile.ledgerHolds

def emptySessions : SessionStoreInner String := SessionStoreInner.restore 8 []

/-- One durable call: its session is in the file when the call returns. -/
theorem acknowledgements_are_durable_call :
    ∃ store : LedgerStore String String, Reachable id store ∧
      store.callers 0 = .acknowledged 1 ∧ LedgerHolds id store 1 := by
  have h0 : Reachable id _ := Reachable.start emptySessions none true
  have h1 := h0.step (.mutate _ 0 true [.insert "session" "record"] rfl rfl)
  have h2 := h1.step (.mark _ 0 1 true rfl nofun)
  have h3 := h2.step (.pick _ rfl rfl)
  have h4 := h3.step (.lockWriter _ 1 rfl rfl)
  have h5 := h4.step (.snap _ _ rfl)
  have h6 := h5.step (.write _ _ _ rfl)
  have h7 := h6.step (.record _ _ _ _ rfl)
  have h8 := h7.step (.complete _ 1 rfl)
  have h9 := h8.step (.flushed _ 0 1 1 rfl le_rfl)
  have h10 := h9.step (.check _ 0 1 rfl)
  exact ⟨_, h10, rfl, (acknowledgements_are_durable h10).1 (by decide) 0 1 rfl⟩

/-- A store with a number of marks of which its thread has written none. -/
structure Behind (store : LedgerStore String String) (count : ℕ) : Prop where
  reachable : Reachable id store
  writer : store.writer = .waiting
  callers : store.callers = fun _ ↦ .resting
  shutdown : store.shutdown = false
  dirty : 0 < count → store.dirty = true
  marks : store.marks = count
  stamp : store.stamp = count

theorem exists_behind (count : ℕ) : ∃ store, Behind store count := by
  induction count with
  | zero => exact ⟨_, .start emptySessions none true, rfl, rfl, rfl, nofun, rfl, rfl⟩
  | succ _ ih =>
    obtain ⟨store, h⟩ := ih
    have hmutated := h.reachable.step
      (.mutate store 0 false [] (by simp [h.callers, CallerPhase.atRest]) h.shutdown)
    have hmarked := hmutated.step (.mark _ 0 (store.stamp + 1) false rfl
      (by simp [change, setCaller, h.writer]))
    refine ⟨_, hmarked, h.writer, ?_, h.shutdown, fun _ ↦ rfl, ?_, ?_⟩
    · funext other
      simp [change, setCaller, markDirty, h.callers]
    · simp [change, setCaller, markDirty, h.marks]
    · simpa [change, setCaller, markDirty, LedgerStore.stamp] using h.stamp

/-- At the end of the generation counter a durable call is acknowledged without a write. -/
theorem saturated_generation_is_acknowledged :
    ¬ ∀ store : LedgerStore String String, Reachable id store →
      ∀ id stamp, store.callers id = .acknowledged stamp → store.Holds stamp := by
  intro hdurable
  obtain ⟨store, h⟩ := exists_behind generationMax
  have horderly := orderly_of_reachable h.reachable
  have hfree := horderly.cycle_eq_none h.writer
  have hgeneration : store.dirtyGeneration = generationMax := by
    rw [horderly.marks, h.marks, Nat.min_self]
  -- the thread writes the last generation that the counter can hold
  have h1 := h.reachable.step (.pick store h.writer (h.dirty (by decide)))
  have h2 := h1.step (.lockWriter _ store.dirtyGeneration rfl hfree)
  have h3 := h2.step (.snap _ _ rfl)
  have h4 := h3.step (.write _ _ _ rfl)
  have h5 := h4.step (.record _ _ _ _ rfl)
  have h6 := h5.step (.complete _ _ rfl)
  -- a durable call gets the same generation and finds it written
  have h7 := h6.step (.mutate _ 1 true [] (by simp [h.callers, CallerPhase.atRest]) h.shutdown)
  have h8 := h7.step (.mark _ 1 (store.stamp + 1) true rfl
    (by simp [change, setCaller, h.shutdown]))
  have h9 := h8.step (.flushed _ 1 _ (store.stamp + 1) rfl
    (by simp [change, setCaller, markDirty, hgeneration]))
  have h10 := h9.step (.check _ 1 (store.stamp + 1) rfl)
  obtain ⟨_, hdisk, hle⟩ := hdurable _ h10 1 (store.stamp + 1) rfl
  cases hdisk
  exact absurd hle (Nat.not_succ_le_self store.stamp)

end LedgerStore

end WebCodex.WorkflowSession
