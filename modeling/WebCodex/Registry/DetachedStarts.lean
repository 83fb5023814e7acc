import WebCodex.Registry.LeaseSafety
import WebCodex.Registry.TerminalOutcome

/-!
A detached job is started under a key of its initiator, and the id of the job is a digest of the
two. A start that finds a record under this id makes no other and is answered from the record. A
record that was rebuilt from the inventory of a runner has no intent, and the answer is then a
demand to recover the job.
-/

namespace WebCodex.Registry

open Foundation
open Relation (ReflTransGen)

/-- Why a start is refused before its key is looked up. -/
def admissionFault (env : Environment) (inner : RunnerRegistryInner) (start : ShellJobStart) :
    Option String :=
  match validateStart env.checks start, startJobId env.checks start with
  | .error message, _ | .ok _, .error message => some message
  | .ok _, .ok _ =>
    match inner.runners.lookup start.clientId with
    | none => some s!"unknown shell client: {start.clientId}"
    | some runner =>
      match start.access.bind fun access ↦ runnerAccessFault access runner with
      | some message => some message
      | none => startFault env.checks inner runner start

/-- Two starts of one initiator under one key. -/
structure SameKey (first second : ShellJobStart) : Prop where
  initiator : second.detachedInitiator = first.detachedInitiator
  key : second.detachedIdempotencyKey = first.detachedIdempotencyKey

/-- A start under the key of an earlier one whose job has a record: nothing is made or changed, and
the answer is taken from the record. -/
structure AnsweredFromRecord (env : Environment) (inner : RunnerRegistryInner)
    (first second : ShellJobStart) (handle : ℕ) (existing : ShellJobRecord) (now : ℤ) : Prop where
  unchanged : (startJob env inner second now).state = inner
  /-- The checks that every start has to pass come first. -/
  refused : ∀ message, admissionFault env inner second = some message →
    (startJob env inner second now).result = .error message
  /-- The record of the earlier start is returned to the same intent. -/
  repeated : existing.handle = handle → admissionFault env inner second = none →
    second.detachedIntent = first.detachedIntent →
    (startJob env inner second now).result = .ok existing
  /-- Another intent is a conflict. -/
  conflicting : existing.handle = handle → admissionFault env inner second = none →
    second.detachedIntent ≠ first.detachedIntent →
    (startJob env inner second now).result = .error
      "detached_idempotency_conflict: idempotency key was already used for different detached process intent"
  /-- A record that was rebuilt without an intent has to be recovered. -/
  rebuilt : existing.kind = "run_detached_process" → existing.detachedIdempotencyIntent = none →
    admissionFault env inner second = none → ∃ jobId, startJobId env.checks first = .ok jobId ∧
    (startJob env inner second now).result =
      .error s!"detached_idempotency_recovery_required:{jobId}"

section OneStart

variable {env : Environment} {inner : RunnerRegistryInner} {start : ShellJobStart}

/-- A start that is not admitted is refused with the fault and changes nothing. -/
theorem startJob_of_fault {message : String} (h : admissionFault env inner start = some message)
    (now : ℤ) : startJob env inner start now = .refuse inner message := by
  rw [admissionFault] at h
  rw [startJob]
  cases hvalid : validateStart env.checks start with
  | error =>
    simp only [hvalid, Option.some.injEq] at h
    exact congrArg (Reply.refuse inner) h
  | ok =>
    cases hid : startJobId env.checks start with
    | error =>
      simp only [hvalid, hid, Option.some.injEq] at h
      exact congrArg (Reply.refuse inner) h
    | ok =>
      cases hrunner : inner.runners.lookup start.clientId with
      | none =>
        simp only [hvalid, hid, hrunner, Option.some.injEq] at h
        exact congrArg (Reply.refuse inner) h
      | some runner =>
        cases haccess : start.access.bind fun access ↦ runnerAccessFault access runner with
        | some =>
          simp only [hvalid, hid, hrunner, haccess, Option.some.injEq] at h
          simp [haccess, h]
        | none =>
          simp only [hvalid, hid, hrunner, haccess] at h
          simp [haccess, h]

/-- A start that passes the checks is answered from the record of its key, when there is one. -/
theorem startJob_of_existing {jobId : String} {existing : ShellJobRecord}
    {intent : DetachedIdempotencyIntent} (h : admissionFault env inner start = none)
    (hid : startJobId env.checks start = .ok jobId) (hintent : start.detachedIntent = some intent)
    (hexisting : inner.jobsById.lookup jobId = some existing) (now : ℤ) :
    startJob env inner start now = ⟨inner, [], detachedReplay existing intent jobId⟩ := by
  rw [admissionFault] at h
  rw [startJob]
  cases hvalid : validateStart env.checks start with
  | error => simp [hvalid] at h
  | ok =>
    cases hrunner : inner.runners.lookup start.clientId with
    | none => simp [hvalid, hid, hrunner] at h
    | some runner =>
      cases haccess : start.access.bind fun access ↦ runnerAccessFault access runner with
      | some => simp [hvalid, hid, hrunner, haccess] at h
      | none =>
        simp only [hvalid, hid, hrunner, haccess] at h
        simp [hid, haccess, h, hintent, hexisting]

theorem startJobId_of_admitted (h : admissionFault env inner start = none) :
    ∃ jobId, startJobId env.checks start = .ok jobId := by
  cases hid : startJobId env.checks start with
  | ok jobId => exact ⟨jobId, rfl⟩
  | error =>
    cases hvalid : validateStart env.checks start <;> simp [admissionFault, hvalid, hid] at h

/-- A start with a key is detached, or is refused. -/
theorem startJobId_of_key {jobId key : String} (hid : startJobId env.checks start = .ok jobId)
    (hkey : start.detachedIdempotencyKey = some key) :
    (∃ intent, start.detachedIntent = some intent) ∧
      ∃ initiator, start.detachedInitiator = some initiator ∧
        detachedJobIdForKey env.checks initiator key = .ok jobId := by
  rw [startJobId, hkey] at hid
  by_cases hdetached : start.isDetached = true
  · rw [if_neg (by simp [hdetached])] at hid
    constructor
    · rw [ShellJobStart.isDetached] at hdetached
      cases hexecution : start.structuredExecution with
      | none => simp [hexecution] at hdetached
      | some execution =>
        cases execution with
        | detachedProcess => exact ⟨_, by rw [ShellJobStart.detachedIntent, hexecution]⟩
        | process | script => simp [hexecution] at hdetached
    · cases hinitiator : start.detachedInitiator with
      | none => simp [hinitiator] at hid
      | some initiator =>
        simp only [hinitiator] at hid
        exact ⟨initiator, rfl, hid⟩
  · rw [if_pos (by simp [hdetached])] at hid
    exact absurd hid (by simp)

/-- Starts of one initiator under one key have one id. -/
theorem startJobId_of_sameKey {first second : ShellJobStart} {jobId other key : String}
    (hsame : SameKey first second) (hkey : first.detachedIdempotencyKey = some key)
    (hfirst : startJobId env.checks first = .ok jobId)
    (hsecond : startJobId env.checks second = .ok other) : other = jobId := by
  obtain ⟨-, initiator, hinitiator, hdigest⟩ := startJobId_of_key hfirst hkey
  obtain ⟨-, _, hsameInitiator, hsameDigest⟩ := startJobId_of_key hsecond (hsame.key.trans hkey)
  rw [hsame.initiator, hinitiator, Option.some.injEq] at hsameInitiator
  rw [← hsameInitiator, hdigest, Except.ok.injEq] at hsameDigest
  exact hsameDigest.symm

end OneStart

/-- The kind and the intent of a record do not change. -/
theorem remembers_of_follows {late : Prop} {promoted : String → Prop} {jobId : String}
    {old new : ShellJobRecord} (h : Follows late promoted jobId old new) :
    new.kind = old.kind ∧ new.detachedIdempotencyIntent = old.detachedIdempotencyIntent := by
  induction h with
  | refl => exact ⟨rfl, rfl⟩
  | tail _ hstep ih =>
    have hidentity := hstep.identity_eq
    exact ⟨(congrArg JobIdentity.kind hidentity).trans ih.1,
      (congrArg JobIdentity.detachedIdempotencyIntent hidentity).trans ih.2⟩

/-- Jobs advance along every run. -/
theorem run_advances_late (env : Environment) (inner : RunnerRegistryInner)
    (operations : List Operation) :
    Advances True (fun _ ↦ True) (fun _ _ ↦ True) inner (run env inner operations) := by
  induction operations generalizing inner with
  | nil => exact .refl (anyVersions True).toVersions _
  | cons operation _ ih =>
    refine .trans (anyVersions True).toVersions ?_ (ih _)
    exact step_advances (anyVersions True) env inner operation (Or.inr trivial) (fun _ _ ↦ trivial)
      (makesFresh_true env inner operation)

section Runs

variable {env : Environment} {inner : RunnerRegistryInner} {first : ShellJobStart} {now : ℤ}
  {jobId : String}

/-- The record of a start, whatever happened to it since, is of its kind and has its intent. -/
theorem remembers_start (hstarted : startedJobId env inner first now = some jobId)
    (operations : List Operation) {existing : ShellJobRecord}
    (hexisting : (run env (startJob env inner first now).state operations).jobsById.lookup jobId =
      some existing) (hhandle : existing.handle = inner.nextHandle) :
    existing.kind = first.kind ∧ existing.detachedIdempotencyIntent = first.detachedIntent := by
  rcases startJob_cases env inner first now with hsame | ⟨runner, started, hid, hjobs⟩
  · have hnext : (startJob env inner first now).state.nextHandle = inner.nextHandle :=
      congrArg Store.next hsame
    simp [startedJobId, hnext] at hstarted
  · have hnext : (startJob env inner first now).state.nextHandle = inner.nextHandle + 1 :=
      congrArg Store.next hjobs
    have htable : (startJob env inner first now).state.jobsById =
        inner.jobsById.insert started (startedRecord inner runner first started) :=
      congrArg Store.table hjobs
    obtain rfl : started = jobId := by
      simpa [startedJobId, hnext, hid, Except.toOption] using hstarted
    have hadvances := run_advances_late env (startJob env inner first now).state operations
    rcases hadvances.origin started existing hexisting with ⟨hlow, -, -⟩ | ⟨old, hold, hfollows⟩
    · -- a later record has a later handle
      have hlater : (startJob env inner first now).state.nextHandle ≤ existing.handle := hlow
      omega
    · have holdRecord : (startJob env inner first now).state.jobsById.lookup started = some old :=
        hold
      rw [htable, AList.lookup_insert, Option.some.injEq] at holdRecord
      subst holdRecord
      exact remembers_of_follows hfollows

theorem startJobId_of_started (hstarted : startedJobId env inner first now = some jobId) :
    startJobId env.checks first = .ok jobId := by
  rw [startedJobId] at hstarted
  split_ifs at hstarted
  cases hid : startJobId env.checks first with
  | error => simp [hid, Except.toOption] at hstarted
  | ok => simpa [hid, Except.toOption] using hstarted

end Runs

/-- A repeated start of a detached job never makes a second record while one is there. Whatever
happened since the first start, a start of the same initiator under the same key that finds a record
changes nothing; when it passes the checks of every start, it is answered with the record of the
first start if its intent is the same, and as a conflict if it is another. -/
theorem detached_starts_idempotent (env : Environment) (inner : RunnerRegistryInner)
    (first second : ShellJobStart) (now later : ℤ) (jobId key : String)
    (hkey : first.detachedIdempotencyKey = some key)
    (hstarted : startedJobId env inner first now = some jobId) (operations : List Operation)
    (hsame : SameKey first second) (existing : ShellJobRecord)
    (hexisting : (run env (startJob env inner first now).state operations).jobsById.lookup jobId =
      some existing) :
    AnsweredFromRecord env (run env (startJob env inner first now).state operations) first second
      inner.nextHandle existing later := by
  generalize hafter : run env (startJob env inner first now).state operations = after at hexisting ⊢
  have hfirst := startJobId_of_started hstarted
  -- what a start that passes the checks is answered
  have hanswer : admissionFault env after second = none → ∃ intent,
      second.detachedIntent = some intent ∧
      startJob env after second later = ⟨after, [], detachedReplay existing intent jobId⟩ := by
    intro hadmitted
    obtain ⟨_, hid⟩ := startJobId_of_admitted hadmitted
    obtain rfl := startJobId_of_sameKey hsame hkey hfirst hid
    obtain ⟨⟨intent, hintent⟩, -⟩ := startJobId_of_key hid (hsame.key.trans hkey)
    exact ⟨intent, hintent, startJob_of_existing hadmitted hid hintent hexisting later⟩
  have hremembers : existing.handle = inner.nextHandle →
      existing.kind = "run_detached_process" ∧
        existing.detachedIdempotencyIntent = first.detachedIntent := by
    intro hhandle
    obtain ⟨hkind, hintent⟩ := remembers_start hstarted operations (hafter ▸ hexisting) hhandle
    obtain ⟨⟨intent, hdetached⟩, -⟩ := startJobId_of_key hfirst hkey
    refine ⟨hkind.trans ?_, hintent⟩
    rw [ShellJobStart.detachedIntent] at hdetached
    rw [ShellJobStart.kind]
    split at hdetached
    · rename_i hexecution
      rw [hexecution]
    · exact absurd hdetached (by simp)
  constructor
  · cases hfault : admissionFault env after second with
    | some => rw [startJob_of_fault hfault, Reply.refuse]
    | none =>
      obtain ⟨intent, -, hstart⟩ := hanswer hfault
      rw [hstart]
  · intro _ hfault
    rw [startJob_of_fault hfault, Reply.refuse]
  · intro hhandle hadmitted hintent
    obtain ⟨hkind, hknown⟩ := hremembers hhandle
    obtain ⟨intent, hsecond, hstart⟩ := hanswer hadmitted
    rw [hstart]
    simp [detachedReplay, hkind, hknown, ← hintent, hsecond]
  · intro hhandle hadmitted hintent
    obtain ⟨hkind, hknown⟩ := hremembers hhandle
    obtain ⟨intent, hsecond, hstart⟩ := hanswer hadmitted
    obtain ⟨⟨known, hfirstIntent⟩, -⟩ := startJobId_of_key hfirst hkey
    have hother : known ≠ intent := by
      intro heq
      rw [hsecond, hfirstIntent, heq] at hintent
      exact hintent rfl
    rw [hstart]
    simp [detachedReplay, hkind, hknown, hfirstIntent, hother]
  · intro hkind hknown hadmitted
    obtain ⟨intent, -, hstart⟩ := hanswer hadmitted
    refine ⟨jobId, hfirst, ?_⟩
    rw [hstart]
    simp [detachedReplay, hkind, hknown]

/-- A registration of an instance with the given features. -/
def runnerInstance (instanceId : String) (features : List RunnerFeature) : Operation :=
  .register { clientId := "runner", runnerInstanceId := instanceId, features := features } 1

/-- A start of a detached process under a key. -/
def detachedStart (requestId : String) : ShellJobStart where
  requestId := requestId
  drawnJobId := "drawn"
  clientId := "runner"
  structuredExecution := some (.detachedProcess ⟨"make", []⟩)
  detachedIdempotencyKey := some "key"
  detachedInitiator := some "user"
  createdAt := 1

def detachingRunner : RunnerRegistryInner := run { checks := plainChecks } {}
    [runnerInstance "first" [.asyncJobs, .structuredExecutionJobs, .detachedProcessJobs]]

def detachedJob : String :=
  "detached_" ++ plainChecks.digest "webcodex-detached-initiation-v1\x00user\x00key"

def afterDetachedStart (operations : List Operation) : RunnerRegistryInner :=
  run { checks := plainChecks }
    (startJob { checks := plainChecks } detachingRunner (detachedStart "request") 1).state
      operations

/-- The start is repeated after its request was taken, and gets the record of the first. -/
theorem detached_starts_idempotent_taken :
    ∃ existing, AnsweredFromRecord { checks := plainChecks }
        (afterDetachedStart [.poll "runner" "first" none 2]) (detachedStart "request")
        (detachedStart "again") detachingRunner.nextHandle existing 3 ∧
      existing.handle = detachingRunner.nextHandle ∧
      admissionFault { checks := plainChecks } (afterDetachedStart [.poll "runner" "first" none 2])
        (detachedStart "again") = none := by
  have hhandle : ((afterDetachedStart [.poll "runner" "first" none 2]).jobsById.lookup
      detachedJob).map ShellJobRecord.handle = some detachingRunner.nextHandle := by decide +kernel
  obtain ⟨existing, hexisting, hfirst⟩ := Option.map_eq_some_iff.mp hhandle
  refine ⟨existing, ?_, hfirst, by decide +kernel⟩
  exact detached_starts_idempotent { checks := plainChecks } detachingRunner
    (detachedStart "request") (detachedStart "again") 1 3 detachedJob "key" rfl (by decide +kernel)
    [.poll "runner" "first" none 2] ⟨rfl, rfl⟩ existing hexisting

/-- Not every repeated start is answered with the job of the first: it is refused when another
instance of the runner, which does not take detached processes, has registered in between. -/
theorem repeated_detached_start_can_be_refused :
    ¬ ∀ (env : Environment) (inner : RunnerRegistryInner) (first second : ShellJobStart)
        (now later : ℤ) (jobId : String) (operations : List Operation) (existing : ShellJobRecord),
      Reachable env inner → first.isDetached = true →
      startedJobId env inner first now = some jobId → SameKey first second →
      second.detachedIntent = first.detachedIntent →
      (run env (startJob env inner first now).state operations).jobsById.lookup jobId =
        some existing →
      existing.handle = inner.nextHandle →
      (startJob env (run env (startJob env inner first now).state operations) second later).result =
        .ok existing := by
  intro hall
  have hhandle : ((afterDetachedStart [runnerInstance "second" [.asyncJobs]]).jobsById.lookup
      detachedJob).map ShellJobRecord.handle = some detachingRunner.nextHandle := by decide +kernel
  obtain ⟨existing, hexisting, hfirst⟩ := Option.map_eq_some_iff.mp hhandle
  have hok := hall { checks := plainChecks } detachingRunner (detachedStart "request")
    (detachedStart "again") 1 3 detachedJob [runnerInstance "second" [.asyncJobs]] existing
    ((reachable_empty _).run _) rfl (by decide +kernel) ⟨rfl, rfl⟩ rfl hexisting hfirst
  have herror : (startJob { checks := plainChecks }
      (afterDetachedStart [runnerInstance "second" [.asyncJobs]]) (detachedStart "again")
      3).result.isError = false := congrArg CallResult.isError hok
  exact absurd herror (by decide +kernel)

end WebCodex.Registry
