import WebCodex.Foundation.Replay
import WebCodex.Registry.LeaseSafety

/-!
A runner numbers its updates and may send them again. One whose number is not greater than the
last accepted one of its job is passed over, and an update that is refused or passed over changes
nothing but the time at which its runner was last heard of. An append to a log can panic, and then
the number is not recorded.
-/

namespace WebCodex.Registry

open Foundation Foundation.Text JobLog

/-- An update that arrives over a connection at a time. -/
structure UpdateDelivery where
  update : RunnerJobUpdateRequest
  connectionId : Option String
  now : ℤ

/-- The registry without the times at which its runners were last heard of. -/
def RunnerRegistryInner.withoutLastSeen (inner : RunnerRegistryInner) : RunnerRegistryInner :=
  { inner with
    runners := Table.mapValues (fun _ runner ↦ { runner with lastSeen := 0 }) inner.runners }

section Delivery

variable (env : Environment)

variable (inner : RunnerRegistryInner)

def deliverUpdate (delivery : UpdateDelivery) : RunnerRegistryInner :=
  (updateJobChecked env inner delivery.update delivery.connectionId delivery.now).state

/-- Whether an update is neither refused nor passed over. -/
def acceptsUpdate (delivery : UpdateDelivery) : Bool :=
  (inner.jobsById.lookup delivery.update.jobId).any fun job ↦
    (acceptedLifecycle inner delivery.update job).isSome

/-- The updates that are accepted when updates are delivered one after another. -/
def acceptedUpdates : RunnerRegistryInner → List UpdateDelivery → List UpdateDelivery :=
  Replay.admitted (deliverUpdate env) acceptsUpdate

def UpdateDelivery.number (delivery : UpdateDelivery) : ℕ := delivery.update.updateSeq.getD 0

/-- Whether the chunks of an update make an append cut a character. -/
def ShellJobRecord.cutsCharacter (job : ShellJobRecord) (update : RunnerJobUpdateRequest) : Bool :=
  update.logSnapshot.isNone &&
    (JobLog.cutsCharacter (replaceLogLimited job.stdout update.stdoutTail) update.stdoutChunk ||
      JobLog.cutsCharacter (replaceLogLimited job.stderr update.stderrTail) update.stderrChunk)

/-- Whether an update is accepted, keeps the protocol and makes an append cut a character. -/
def interruptsUpdate (delivery : UpdateDelivery) : Bool :=
  (inner.jobsById.lookup delivery.update.jobId).any fun job ↦
    (acceptedLifecycle inner delivery.update job).any fun lifecycle ↦
      (protocolFault env.checks job delivery.update lifecycle).isNone &&
        job.cutsCharacter delivery.update

/-- What repeated delivery comes to: the updates accepted for a job come in the order of their
numbers, each once, and they alone lead to the same jobs, requests and queues. -/
structure ReplaysUpdates (inner : RunnerRegistryInner) (deliveries : List UpdateDelivery) :
    Prop where
  increasing : ∀ jobId, (((acceptedUpdates env inner deliveries).filter fun delivery ↦
    delivery.update.jobId = jobId).map UpdateDelivery.number).Pairwise (· < ·)
  jobs : (deliveries.foldl (deliverUpdate env) inner).jobsById =
    ((acceptedUpdates env inner deliveries).foldl (deliverUpdate env) inner).jobsById
  pending : (deliveries.foldl (deliverUpdate env) inner).pendingById =
    ((acceptedUpdates env inner deliveries).foldl (deliverUpdate env) inner).pendingById
  queues : (deliveries.foldl (deliverUpdate env) inner).queuesByRunner =
    ((acceptedUpdates env inner deliveries).foldl (deliverUpdate env) inner).queuesByRunner

/-- An update that is answered with an error leaves jobs, requests and queues as they were. -/
def RefusesAtomically : Prop := ∀ update connectionId now message,
    (updateJobChecked env inner update connectionId now).result = .error message →
    (updateJobChecked env inner update connectionId now).state.jobsById = inner.jobsById ∧
    (updateJobChecked env inner update connectionId now).state.pendingById = inner.pendingById ∧
    (updateJobChecked env inner update connectionId now).state.queuesByRunner = inner.queuesByRunner

end Delivery

/-! ### What is left when the times are left out -/

section View

variable (inner : RunnerRegistryInner) (clientId : String)

theorem withoutLastSeen_touchRunner (now : ℤ) :
    (touchRunner clientId now inner).withoutLastSeen = inner.withoutLastSeen := by
  have hrunners : Table.mapValues (fun _ runner ↦ { runner with lastSeen := 0 })
      (touchRunner clientId now inner).runners =
        Table.mapValues (fun _ (runner : RunnerRecord) ↦ { runner with lastSeen := 0 })
          inner.runners := by
    apply AList.ext
    simp only [touchRunner, Table.modify, Table.mapValues, List.map_map]
    refine List.map_congr_left fun _ _ ↦ ?_
    dsimp only [Function.comp_apply]
    split_ifs <;> rfl
  rw [RunnerRegistryInner.withoutLastSeen, hrunners]
  rfl

theorem withoutLastSeen_touchIfCurrent (connectionId : Option String) (now : ℤ) :
    (touchIfCurrent clientId connectionId now inner).withoutLastSeen = inner.withoutLastSeen := by
  rw [touchIfCurrent]
  split_ifs
  · exact withoutLastSeen_touchRunner inner clientId now
  · rfl

theorem work_of_withoutLastSeen_eq {inner other : RunnerRegistryInner}
    (h : inner.withoutLastSeen = other.withoutLastSeen) :
    inner.jobsById = other.jobsById ∧ inner.pendingById = other.pendingById ∧
      inner.queuesByRunner = other.queuesByRunner := by
  have hjobs := congrArg RunnerRegistryInner.jobsById h
  have hpending := congrArg RunnerRegistryInner.pendingById h
  have hqueues := congrArg RunnerRegistryInner.queuesByRunner h
  exact ⟨hjobs, hpending, hqueues⟩

theorem isSequenced_withoutLastSeen :
    isSequenced inner.withoutLastSeen clientId = isSequenced inner clientId := by
  simp only [isSequenced, RunnerRegistryInner.withoutLastSeen, Table.lookup_mapValues,
    Option.any_map]
  rfl

theorem instanceFault_withoutLastSeen (instanceId : String) :
    instanceFault inner.withoutLastSeen clientId instanceId =
      instanceFault inner clientId instanceId := by
  simp only [instanceFault, RunnerRegistryInner.withoutLastSeen, Table.lookup_mapValues]
  cases inner.runners.lookup clientId <;> rfl

theorem acceptedLifecycle_withoutLastSeen (update : RunnerJobUpdateRequest) (job : ShellJobRecord) :
    acceptedLifecycle inner.withoutLastSeen update job = acceptedLifecycle inner update job := by
  simp [acceptedLifecycle, isSequenced_withoutLastSeen, instanceFault_withoutLastSeen]

theorem settleUpdatedJob_withoutLastSeen (before after : ShellJobRecord) (jobId : String) :
    settleUpdatedJob before after jobId inner.withoutLastSeen =
      (settleUpdatedJob before after jobId inner).withoutLastSeen := by
  simp only [settleUpdatedJob]
  cases before.requestId <;> split_ifs <;> rfl

/-- Applying an update does not look at when runners were last heard of. -/
theorem applyUpdate_withoutLastSeen (checks : Checks) (job : ShellJobRecord)
    (update : RunnerJobUpdateRequest) (lifecycle : RunnerJobLifecycle) (now : ℤ) :
    (applyUpdate checks inner.withoutLastSeen job update lifecycle now).state =
      (applyUpdate checks inner job update lifecycle now).state.withoutLastSeen := by
  simp only [applyUpdate]
  cases protocolFault checks job update lifecycle with
  | some => exact settleUpdatedJob_withoutLastSeen (inner.setJob update.jobId _) _ _ _
  | none =>
    cases updatedStreams job update with
    | panicked => rfl
    | returned =>
      exact settleUpdatedJob_withoutLastSeen (inner.setJob update.jobId _) _ _ _

end View

/-! ### One delivery -/

variable {delivery : UpdateDelivery}

section OneDelivery

variable (env : Environment) (inner : RunnerRegistryInner)

/-- An update is applied to its job, or leaves nothing but a time. -/
theorem updateJobChecked_cases (delivery : UpdateDelivery) : (acceptsUpdate inner delivery = false ∧
      (deliverUpdate env inner delivery).withoutLastSeen = inner.withoutLastSeen) ∨
    ∃ job lifecycle, inner.jobsById.lookup delivery.update.jobId = some job ∧
      acceptedLifecycle inner delivery.update job = some lifecycle ∧
      updateJobChecked env inner delivery.update delivery.connectionId delivery.now =
        applyUpdate env.checks
          (touchIfCurrent delivery.update.clientId delivery.connectionId delivery.now inner) job
          delivery.update lifecycle delivery.now := by
  have htouched := withoutLastSeen_touchIfCurrent inner delivery.update.clientId
    delivery.connectionId delivery.now
  simp only [deliverUpdate, updateJobChecked]
  cases hvalid : validateUpdate delivery.update with
  | error =>
    exact .inl ⟨by cases h : inner.jobsById.lookup delivery.update.jobId <;>
      simp [acceptsUpdate, acceptedLifecycle, hvalid, h], rfl⟩
  | ok =>
    cases hinstance : instanceFault inner delivery.update.clientId
        delivery.update.runnerInstanceId with
    | some =>
      exact .inl ⟨by cases h : inner.jobsById.lookup delivery.update.jobId <;>
        simp [acceptsUpdate, acceptedLifecycle, hvalid, hinstance, h], rfl⟩
    | none =>
      cases hlifecycle : incomingLifecycle (isSequenced inner delivery.update.clientId)
          delivery.update with
      | error message =>
        exact .inl ⟨by cases h : inner.jobsById.lookup delivery.update.jobId <;>
          simp [acceptsUpdate, acceptedLifecycle, hvalid, hinstance, hlifecycle, h], rfl⟩
      | ok lifecycle =>
        simp only [jobsById_touchIfCurrent]
        cases hfound : inner.jobsById.lookup delivery.update.jobId with
        | none => exact .inl ⟨by simp [acceptsUpdate, hfound], htouched⟩
        | some job =>
          dsimp only
          cases hfault : jobUpdateFault job (isSequenced inner delivery.update.clientId)
              delivery.update with
          | some message =>
            exact .inl ⟨by simp [acceptsUpdate, acceptedLifecycle, hvalid, hinstance, hlifecycle,
              hfound, hfault], htouched⟩
          | none =>
            by_cases hignored : isIgnored job (isSequenced inner delivery.update.clientId)
                delivery.update = true
            · rw [if_pos hignored]
              exact .inl ⟨by simp [acceptsUpdate, acceptedLifecycle, hvalid, hinstance, hlifecycle,
                hfound, hfault, hignored], htouched⟩
            · by_cases hregresses : regressesCursor job delivery.update = true
              · rw [if_neg hignored, if_pos hregresses]
                exact .inl ⟨by simp [acceptsUpdate, acceptedLifecycle, hvalid, hinstance,
                  hlifecycle, hfound, hfault, hignored, hregresses], htouched⟩
              · rw [if_neg hignored, if_neg hregresses]
                refine .inr ⟨job, lifecycle, rfl, ?_, rfl⟩
                simp [acceptedLifecycle, hvalid, hinstance, hlifecycle, hfault, hignored,
                  hregresses]

/-- What an accepted update does to a registry in which nothing else happens. -/
def takeUpdate (delivery : UpdateDelivery) : RunnerRegistryInner :=
  match inner.jobsById.lookup delivery.update.jobId with
  | none => inner
  | some job =>
    match acceptedLifecycle inner delivery.update job with
    | none => inner
    | some lifecycle =>
      (applyUpdate env.checks inner job delivery.update lifecycle delivery.now).state

/-- A delivery is the effect of its update, times left out. -/
theorem withoutLastSeen_deliverUpdate (delivery : UpdateDelivery) :
    (deliverUpdate env inner delivery).withoutLastSeen =
      takeUpdate env inner.withoutLastSeen delivery := by
  simp only [takeUpdate, acceptedLifecycle_withoutLastSeen]
  rcases updateJobChecked_cases env inner delivery with
    ⟨hpassed, hstate⟩ | ⟨job, lifecycle, hfound, haccepted, happlied⟩
  · rw [hstate]
    simp only [acceptsUpdate] at hpassed
    show inner.withoutLastSeen = match inner.jobsById.lookup delivery.update.jobId with
      | none => inner.withoutLastSeen
      | some job => _
    cases hfound : inner.jobsById.lookup delivery.update.jobId with
    | none => rfl
    | some =>
      rw [hfound, Option.any_some, Option.isSome_eq_false_iff, Option.isNone_iff_eq_none] at hpassed
      simp [hpassed]
  · have hlookup : inner.withoutLastSeen.jobsById.lookup delivery.update.jobId = some job := hfound
    simp only [hlookup, haccepted, deliverUpdate, happlied]
    rw [← applyUpdate_withoutLastSeen, withoutLastSeen_touchIfCurrent]

/-- An update that is not accepted leaves nothing but a time. -/
theorem withoutLastSeen_of_passed (h : acceptsUpdate inner delivery = false) :
    (deliverUpdate env inner delivery).withoutLastSeen = inner.withoutLastSeen := by
  rcases updateJobChecked_cases env inner delivery with
    ⟨-, hstate⟩ | ⟨job, lifecycle, hfound, haccepted, -⟩
  · exact hstate
  · simp [acceptsUpdate, hfound, haccepted] at h

/-- An update that is applied is not answered with an error. -/
theorem applyUpdate_ne_error (checks : Checks) (job : ShellJobRecord)
    (update : RunnerJobUpdateRequest) (lifecycle : RunnerJobLifecycle) (now : ℤ)
    (message : String) :
    (applyUpdate checks inner job update lifecycle now).result ≠ .error message := by
  simp only [applyUpdate]
  cases protocolFault checks job update lifecycle with
  | some => simp
  | none => cases updatedStreams job update <;> simp

theorem refusesAtomically : RefusesAtomically env inner := by
  intro update connectionId now _ herror
  have hcases := updateJobChecked_cases env inner ⟨update, connectionId, now⟩
  rcases hcases with ⟨-, hstate⟩ | ⟨_, _, -, -, happlied⟩
  · exact work_of_withoutLastSeen_eq hstate
  · rw [happlied] at herror
    exact absurd herror (applyUpdate_ne_error _ _ _ _ _ _ _)

end OneDelivery

/-! ### Numbers -/

variable {update : RunnerJobUpdateRequest} {job : ShellJobRecord} {lifecycle : RunnerJobLifecycle}
  {jobId : String}

section Numbers

variable {env : Environment} {inner : RunnerRegistryInner}

/-- A numbered update is accepted only with a number greater than the last one. -/
theorem number_of_accepted (hsequenced : isSequenced inner update.clientId = true)
    (h : acceptedLifecycle inner update job = some lifecycle) :
    ∃ sequence, update.updateSeq = some sequence ∧ job.lastUpdateSeq < sequence := by
  simp only [acceptedLifecycle, hsequenced] at h
  split at h
  · rename_i hincoming
    split_ifs at h with haccepted
    simp only [Bool.and_eq_true, Bool.not_eq_true'] at haccepted
    have hnew := (Bool.or_eq_false_iff.mp haccepted.1.2).1
    cases hnumber : update.updateSeq with
    | none => simp [incomingLifecycle, hnumber] at hincoming
    | some sequence =>
      refine ⟨sequence, rfl, ?_⟩
      simpa [hnumber] using hnew
  · exact absurd h (by simp)

/-- The record that stands after an update was settled is the one that was set. -/
theorem eq_of_settled {before after record : ShellJobRecord}
    (h : (settleUpdatedJob before after jobId (inner.setJob jobId job)).jobsById.lookup jobId =
      some record) :
    record = job := by
  have hset := lookup_settleUpdatedJob _ h
  rw [RunnerRegistryInner.setJob, AList.lookup_insert, Option.some.injEq] at hset
  exact hset.symm

theorem lastUpdateSeq_acceptedJob {sequence : ℕ} (hnumber : update.updateSeq = some sequence)
    (before changed : ShellJobRecord) :
    (acceptedJob update before changed).lastUpdateSeq = sequence := by
  simp only [acceptedJob, hnumber, Option.getD_some]
  split_ifs <;> rfl

/-- The streams of an update whose appends cut no character are there. -/
theorem updatedStreams_of_whole (h : job.cutsCharacter update = false) :
    ∃ stdout stderr, updatedStreams job update = .returned stdout stderr := by
  simp only [updatedStreams]
  cases hsnapshot : update.logSnapshot with
  | some => exact ⟨_, _, rfl⟩
  | none =>
    simp only [ShellJobRecord.cutsCharacter, hsnapshot, Option.isNone_none, Bool.true_and,
      Bool.or_eq_false_iff] at h
    obtain ⟨stdout, hstdout⟩ := appendLogLimited_of_whole h.1
    obtain ⟨stderr, hstderr⟩ := appendLogLimited_of_whole h.2
    simp only [hstdout, hstderr]
    exact ⟨stdout, stderr, rfl⟩

/-- The number of an update that is applied is recorded, unless an append cuts a character; then the
number stays. -/
theorem lastUpdateSeq_of_applyUpdate {checks : Checks} {record : ShellJobRecord} {now : ℤ}
    {sequence : ℕ} (hnumber : update.updateSeq = some sequence)
    (h : (applyUpdate checks inner job update lifecycle now).state.jobsById.lookup update.jobId =
      some record) :
    record.lastUpdateSeq = sequence ∨ (record.lastUpdateSeq = job.lastUpdateSeq ∧
        (protocolFault checks job update lifecycle).isNone = true ∧
        job.cutsCharacter update = true) := by
  simp only [applyUpdate] at h
  cases hfault : protocolFault checks job update lifecycle with
  | some =>
    simp only [hfault] at h
    rw [eq_of_settled h]
    exact .inl (lastUpdateSeq_acceptedJob hnumber _ _)
  | none =>
    simp only [hfault] at h
    by_cases hcuts : job.cutsCharacter update = true
    · cases hstreams : updatedStreams job update with
      | returned =>
        simp only [hstreams] at h
        rw [eq_of_settled h]
        exact .inl (lastUpdateSeq_acceptedJob hnumber _ _)
      | panicked =>
        simp only [hstreams, RunnerRegistryInner.setJob, AList.lookup_insert,
          Option.some.injEq] at h
        exact .inr ⟨by rw [← h], rfl, hcuts⟩
    · obtain ⟨_, _, hstreams⟩ := updatedStreams_of_whole (Bool.eq_false_iff.mpr hcuts)
      simp only [hstreams] at h
      rw [eq_of_settled h]
      exact .inl (lastUpdateSeq_acceptedJob hnumber _ _)

/-- An update leaves other jobs as they are. -/
theorem lookup_applyUpdate_ne {checks : Checks} {now : ℤ} (hne : jobId ≠ update.jobId) :
    (applyUpdate checks inner job update lifecycle now).state.jobsById.lookup jobId =
      inner.jobsById.lookup jobId := by
  have hset : ∀ record, (inner.setJob update.jobId record).jobsById.lookup jobId =
      inner.jobsById.lookup jobId := fun record ↦ AList.lookup_insert_ne hne
  simp only [applyUpdate]
  cases protocolFault checks job update lifecycle with
  | some => exact (lookup_settleUpdatedJob_ne hne _).trans (hset _)
  | none =>
    cases updatedStreams job update with
    | returned => exact (lookup_settleUpdatedJob_ne hne _).trans (hset _)
    | panicked => exact hset _

theorem runners_applyUpdate (checks : Checks) (job : ShellJobRecord)
    (update : RunnerJobUpdateRequest) (lifecycle : RunnerJobLifecycle) (now : ℤ) :
    (applyUpdate checks inner job update lifecycle now).state.runners = inner.runners := by
  simp only [applyUpdate]
  cases protocolFault checks job update lifecycle with
  | some =>
    exact congrArg Prod.fst (leases_settleUpdatedJob (inner.setJob update.jobId _) _ _ _)
  | none =>
    cases updatedStreams job update with
    | returned =>
      exact congrArg Prod.fst (leases_settleUpdatedJob (inner.setJob update.jobId _) _ _ _)
    | panicked => rfl

theorem runners_takeUpdate (delivery : UpdateDelivery) :
    (takeUpdate env inner delivery).runners = inner.runners := by
  simp only [takeUpdate]
  split
  · rfl
  · split
    · rfl
    · exact runners_applyUpdate _ _ _ _ _

/-- A delivery changes nothing about whose updates are numbered. -/
theorem isSequenced_deliverUpdate (delivery : UpdateDelivery) (clientId : String) :
    isSequenced (deliverUpdate env inner delivery) clientId = isSequenced inner clientId := by
  rw [← isSequenced_withoutLastSeen, withoutLastSeen_deliverUpdate, isSequenced,
    runners_takeUpdate, ← isSequenced, isSequenced_withoutLastSeen]

/-- A delivery changes nothing about which instances are active. -/
theorem instanceFault_deliverUpdate (delivery : UpdateDelivery) (clientId instanceId : String) :
    instanceFault (deliverUpdate env inner delivery) clientId instanceId =
      instanceFault inner clientId instanceId := by
  rw [← instanceFault_withoutLastSeen, withoutLastSeen_deliverUpdate, instanceFault,
    runners_takeUpdate, ← instanceFault, instanceFault_withoutLastSeen]

/-- No update of the job with a number up to the given one is accepted any more. -/
def Shut (inner : RunnerRegistryInner) (jobId : String) (number : ℕ) : Prop :=
  ∀ job, inner.jobsById.lookup jobId = some job → number ≤ job.lastUpdateSeq

/-- The updates of a runner that numbers them, whose appends cut no character. -/
def Uninterrupted (env : Environment) (inner : RunnerRegistryInner) (delivery : UpdateDelivery) :
    Prop :=
  isSequenced inner delivery.update.clientId = true ∧ interruptsUpdate env inner delivery = false

/-- What is shut stays shut: no delivery opens an earlier number of a job again. -/
theorem shut_of_shut {number : ℕ} (hdelivery : Uninterrupted env inner delivery)
    (hshut : Shut inner jobId number) :
    Shut (deliverUpdate env inner delivery) jobId number := by
  intro record hrecord
  rcases updateJobChecked_cases env inner delivery with
    ⟨-, hstate⟩ | ⟨job, lifecycle, hfound, haccepted, happlied⟩
  · rw [(work_of_withoutLastSeen_eq hstate).1] at hrecord
    exact hshut record hrecord
  · rw [deliverUpdate, happlied] at hrecord
    by_cases hsame : jobId = delivery.update.jobId
    · subst hsame
      obtain ⟨_, hnumber, _⟩ := number_of_accepted hdelivery.1 haccepted
      have hle := hshut job hfound
      rcases lastUpdateSeq_of_applyUpdate hnumber hrecord with hnew | ⟨hold, -, -⟩
      · omega
      · omega
    · rw [lookup_applyUpdate_ne hsame, jobsById_touchIfCurrent] at hrecord
      exact hshut record hrecord

/-- An accepted update shuts its own number. -/
theorem shut_of_accepted (hdelivery : Uninterrupted env inner delivery)
    (h : acceptsUpdate inner delivery = true) :
    Shut (deliverUpdate env inner delivery) delivery.update.jobId delivery.number := by
  intro _ hrecord
  rcases updateJobChecked_cases env inner delivery with
    ⟨hpassed, -⟩ | ⟨job, lifecycle, hfound, haccepted, happlied⟩
  · rw [h] at hpassed
    exact Bool.noConfusion hpassed
  · obtain ⟨_, hnumber, _⟩ := number_of_accepted hdelivery.1 haccepted
    rw [deliverUpdate, happlied] at hrecord
    rw [UpdateDelivery.number, hnumber, Option.getD_some]
    rcases lastUpdateSeq_of_applyUpdate hnumber hrecord with hnew | ⟨-, hfault, hcuts⟩
    · exact hnew.ge
    · have hwhole := hdelivery.2
      simp [interruptsUpdate, hfound, haccepted, hfault, hcuts] at hwhole

theorem passed_of_shut {number : ℕ} (hdelivery : Uninterrupted env inner delivery)
    (hshut : Shut inner delivery.update.jobId number) (hle : delivery.number ≤ number) :
    acceptsUpdate inner delivery = false := by
  by_contra haccepts
  simp only [acceptsUpdate, Bool.not_eq_false, Option.any_eq_true, Option.isSome_iff_exists]
    at haccepts
  obtain ⟨job, hfound, _, haccepted⟩ := haccepts
  obtain ⟨_, hnumber, _⟩ := number_of_accepted hdelivery.1 haccepted
  rw [UpdateDelivery.number, hnumber, Option.getD_some] at hle
  have hseen := hshut job hfound
  omega

/-- Updates of runners that number them stay updates of such runners. -/
theorem along_uninterrupted {deliveries : List UpdateDelivery}
    (hsequenced : ∀ delivery ∈ deliveries, isSequenced inner delivery.update.clientId = true)
    (hwhole : Replay.Along (deliverUpdate env)
      (fun inner delivery ↦ interruptsUpdate env inner delivery = false) inner deliveries) :
    Replay.Along (deliverUpdate env) (Uninterrupted env) inner deliveries := by
  induction deliveries generalizing inner with
  | nil => trivial
  | cons delivery _ ih =>
    refine ⟨⟨hsequenced delivery List.mem_cons_self, hwhole.1⟩, ih ?_ hwhole.2⟩
    intro later hlater
    rw [isSequenced_deliverUpdate]
    exact hsequenced later (List.mem_cons_of_mem _ hlater)

/-- An append to stdout that cuts a character leaves the chunk in the log of the job. -/
theorem updatedStreams_of_cut {chunk : Str} (hsnapshot : update.logSnapshot = none)
    (htail : update.stdoutTail = none) (hchunk : update.stdoutChunk = some chunk)
    (hcuts : JobLog.cutsCharacter job.stdout (some chunk) = true) :
    updatedStreams job update = .panicked { job.stdout with tail := job.stdout.tail ++ chunk }
        (replaceLogLimited job.stderr update.stderrTail) := by
  have hsame : replaceLogLimited job.stdout none = job.stdout := rfl
  simp [updatedStreams, hsnapshot, htail, hchunk, hsame, appendLogLimited_of_cuts hcuts]

variable (env) in
/-- An update whose append to stdout cuts a character leaves its chunk and is accepted again. -/
theorem accepted_again_of_cut {chunk : Str}
    (hfound : inner.jobsById.lookup delivery.update.jobId = some job)
    (haccepted : acceptedLifecycle inner delivery.update job = some lifecycle)
    (hkept : protocolFault env.checks job delivery.update lifecycle = none)
    (hsnapshot : delivery.update.logSnapshot = none) (htail : delivery.update.stdoutTail = none)
    (hchunk : delivery.update.stdoutChunk = some chunk)
    (hcuts : JobLog.cutsCharacter job.stdout (some chunk) = true) :
    ∃ record, (deliverUpdate env inner delivery).jobsById.lookup delivery.update.jobId =
      some record ∧
      record.stdout.tail = job.stdout.tail ++ chunk ∧
      acceptedLifecycle (deliverUpdate env inner delivery) delivery.update record = some lifecycle ∧
      protocolFault env.checks record delivery.update lifecycle = none := by
  rcases updateJobChecked_cases env inner delivery with
    ⟨hpassed, -⟩ | ⟨found, same, hlookup, hsame, happlied⟩
  · simp [acceptsUpdate, hfound, haccepted] at hpassed
  · obtain rfl : job = found := Option.some.inj (hfound.symm.trans hlookup)
    obtain rfl : lifecycle = same := Option.some.inj (haccepted.symm.trans hsame)
    have hstate : deliverUpdate env inner delivery =
        (touchIfCurrent delivery.update.clientId delivery.connectionId delivery.now inner).setJob
          delivery.update.jobId
          { job with
            stdout := { job.stdout with tail := job.stdout.tail ++ chunk }
            stderr := replaceLogLimited job.stderr delivery.update.stderrTail } := by
      rw [deliverUpdate, happlied, applyUpdate]
      simp [hkept, updatedStreams_of_cut hsnapshot htail hchunk hcuts]
    have hrecord : (deliverUpdate env inner delivery).jobsById.lookup delivery.update.jobId =
        some { job with
          stdout := { job.stdout with tail := job.stdout.tail ++ chunk }
          stderr := replaceLogLimited job.stderr delivery.update.stderrTail } := by
      rw [hstate]
      exact AList.lookup_insert _
    refine ⟨_, hrecord, rfl, ?_, hkept⟩
    rw [← haccepted]
    simp only [acceptedLifecycle, isSequenced_deliverUpdate, instanceFault_deliverUpdate,
      regressesCursor, hsnapshot, Option.any_none]
    rfl

end Numbers

/-! ### Every delivery of numbered updates -/

/-- Numbered updates can be delivered again and again: when no append cuts a character, the updates
accepted for a job come in the order of their numbers, each once, and they alone make the record;
and an update that is answered with an error leaves jobs, requests and queues alone. -/
theorem updates_idempotent_and_atomic (env : Environment) (inner : RunnerRegistryInner)
    (deliveries : List UpdateDelivery)
    (hsequenced : ∀ delivery ∈ deliveries, isSequenced inner delivery.update.clientId = true)
    (hwhole : Replay.Along (deliverUpdate env)
      (fun inner delivery ↦ interruptsUpdate env inner delivery = false) inner deliveries) :
    ReplaysUpdates env inner deliveries ∧ RefusesAtomically env inner := by
  have hdeliver : ∀ {state other : RunnerRegistryInner} (delivery : UpdateDelivery),
      state.withoutLastSeen = other.withoutLastSeen →
      (deliverUpdate env state delivery).withoutLastSeen =
        (deliverUpdate env other delivery).withoutLastSeen := by
    intro state other delivery hsame
    rw [withoutLastSeen_deliverUpdate, withoutLastSeen_deliverUpdate, hsame]
  have hview := Replay.view_foldl_admitted RunnerRegistryInner.withoutLastSeen hdeliver
    (withoutLastSeen_of_passed env _) deliveries inner
  obtain ⟨hjobs, hpending, hqueues⟩ := work_of_withoutLastSeen_eq hview
  refine ⟨⟨?_, hjobs, hpending, hqueues⟩, refusesAtomically env inner⟩
  exact Replay.admitted_increasing (fun delivery : UpdateDelivery ↦ delivery.update.jobId)
    UpdateDelivery.number Shut shut_of_accepted shut_of_shut passed_of_shut deliveries inner
    (along_uninterrupted hsequenced hwhole)

/-- A runner that reconciles its jobs takes one. -/
def reconcilingRunnerTakesJob : List Operation := [.register
      { clientId := "runner"
        runnerInstanceId := "instance"
        features := [.asyncJobs, .jobStateReconciliation]
        jobInventory := some ⟨true, []⟩ } 1,
    .start { requestId := "request", drawnJobId := "job", clientId := "runner", createdAt := 1 } 1,
    .poll "runner" "instance" none 2]

def numberedUpdate (sequence : ℕ) (chunk : Str) : UpdateDelivery where
  update :=
    { clientId := "runner"
      runnerInstanceId := "instance"
      jobId := "job"
      updateSeq := some sequence
      status := "running"
      stdoutChunk := some chunk }
  connectionId := none
  now := 3

/-- Two updates arrive, each twice and the first once more at the end. -/
theorem updates_idempotent_and_atomic_repeated :
    ReplaysUpdates { checks := plainChecks }
        (run { checks := plainChecks } {} reconcilingRunnerTakesJob)
          [numberedUpdate 1 ['a'], numberedUpdate 1 ['a'], numberedUpdate 2 ['b'],
            numberedUpdate 2 ['b'], numberedUpdate 1 ['a']] ∧
      RefusesAtomically { checks := plainChecks }
        (run { checks := plainChecks } {} reconcilingRunnerTakesJob) :=
  updates_idempotent_and_atomic _ _ _ (by decide +kernel)
    ⟨by decide +kernel, by decide +kernel, by decide +kernel, by decide +kernel, by decide +kernel,
      trivial⟩

/-- More output than is retained, in characters of three bytes. -/
def longOutput : Str := List.replicate 87382 '€'

theorem cutsCharacter_longOutput {log : ShellJobLogState} (m : ℕ)
    (htail : log.tail = List.replicate m '€') :
    JobLog.cutsCharacter log (some longOutput) = true := by
  refine cutsCharacter_replicate (by decide) htail ?_
  simp only [liveJobStreamRetentionBytes]
  omega

/-- Not all numbered updates can be delivered again: an update whose output makes the append cut a
character is accepted twice, and its output stands twice in the log. -/
theorem interrupted_update_is_accepted_twice :
    (¬ ∀ (env : Environment) (inner : RunnerRegistryInner) (deliveries : List UpdateDelivery),
      Reachable env inner →
      (∀ delivery ∈ deliveries, isSequenced inner delivery.update.clientId = true) →
      ReplaysUpdates env inner deliveries) ∧
    ((deliverUpdate { checks := plainChecks }
        (deliverUpdate { checks := plainChecks }
          (run { checks := plainChecks } {} reconcilingRunnerTakesJob)
            (numberedUpdate 1 longOutput))
        (numberedUpdate 1 longOutput)).jobsById.lookup "job").map (fun job ↦ job.stdout.tail) =
      some (longOutput ++ longOutput) := by
  generalize hinner : run { checks := plainChecks } {} reconcilingRunnerTakesJob = inner
  obtain ⟨job, hfound⟩ : ∃ job, inner.jobsById.lookup "job" = some job := by
    rw [← Option.isSome_iff_exists, ← hinner]
    decide +kernel
  have hstdout : (inner.jobsById.lookup "job").map (fun job ↦ job.stdout) = some {} := by
    rw [← hinner]
    decide +kernel
  have haccepted : (inner.jobsById.lookup "job").map
      (acceptedLifecycle inner (numberedUpdate 1 longOutput).update) = some (some .running) := by
    rw [← hinner]
    decide +kernel
  have hkept : (inner.jobsById.lookup "job").map (fun job ↦ protocolFault plainChecks job
      (numberedUpdate 1 longOutput).update .running) = some none := by
    rw [← hinner]
    decide +kernel
  rw [hfound, Option.map_some, Option.some.injEq] at hstdout haccepted hkept
  -- the first delivery leaves the output and not the number, so the second finds the same
  have hempty : job.stdout.tail = [] := by rw [hstdout]
  obtain ⟨_, honce, htail, hagain, hstill⟩ := accepted_again_of_cut { checks := plainChecks }
    hfound haccepted hkept rfl rfl rfl (cutsCharacter_longOutput 0 hempty)
  rw [hempty, List.nil_append] at htail
  obtain ⟨_, htwice, hboth, -, -⟩ := accepted_again_of_cut { checks := plainChecks }
    honce hagain hstill rfl rfl rfl (cutsCharacter_longOutput 87382 htail)
  rw [htail] at hboth
  constructor
  · intro hall
    have hreplays := hall { checks := plainChecks } inner
      [numberedUpdate 1 longOutput, numberedUpdate 1 longOutput]
      (hinner ▸ (reachable_empty _).run reconcilingRunnerTakesJob)
      (by rw [← hinner]; decide +kernel)
    have hfirst : acceptsUpdate inner (numberedUpdate 1 longOutput) = true := by
      rw [acceptsUpdate, show (numberedUpdate 1 longOutput).update.jobId = "job" from rfl, hfound,
        Option.any_some, haccepted]
      rfl
    have hsecond : acceptsUpdate (deliverUpdate { checks := plainChecks } inner
        (numberedUpdate 1 longOutput)) (numberedUpdate 1 longOutput) = true := by
      rw [acceptsUpdate, honce, Option.any_some, hagain]
      rfl
    have hnumbers := hreplays.increasing "job"
    simp only [acceptedUpdates, Replay.admitted, hfirst, hsecond, if_true] at hnumbers
    exact absurd (List.rel_of_pairwise_cons hnumbers List.mem_cons_self) (lt_irrefl _)
  · have hname : (numberedUpdate 1 longOutput).update.jobId = "job" := rfl
    rw [hname] at htwice
    rw [htwice, Option.map_some, hboth]

end WebCodex.Registry
