import WebCodex.Foundation.Comparison
import WebCodex.Validation.Delta

/-!
For two comparable validations every failure of either is in exactly one of the three parts, and
the totals are those of the whole parts (`deltaFailures_exact`), except for a test run without
tests (`deltaFailures_of_saysNothing`). As long as nothing leaves the 64-bit range, the four
differences of the counts are the mathematical ones (`deltaCounts_exact`).
-/

namespace WebCodex.Validation.Delta

open Foundation

theorem mem_treeSet (items : List FailureIdentity) (f : FailureIdentity) :
    f ∈ treeSet items ↔ f ∈ items := by
  rw [treeSet, List.mem_dedup]
  exact (List.perm_insertionSort _ _).mem_iff

theorem nodup_treeSet (items : List FailureIdentity) : (treeSet items).Nodup := List.nodup_dedup _

theorem treeSet_eq_nil_iff (items : List FailureIdentity) : treeSet items = [] ↔ items = [] := by
  simp only [List.eq_nil_iff_forall_not_mem, mem_treeSet]

/-- The three lists of `failureSets` are the parts of the two failure sets. -/
theorem splits_failureSets (current previous : ValidationEvent) :
    Splits (failureIdentities current) (failureIdentities previous)
      (failureSets current previous).newlyFailed (failureSets current previous).resolved
      (failureSets current previous).stillFailing :=
  Splits.of_perm (nodup_treeSet _) (nodup_treeSet _) (mem_treeSet _) (mem_treeSet _)
    (List.perm_insertionSort _ _) (List.perm_insertionSort _ _) (List.perm_insertionSort _ _)

/-- The lists are the cut parts of a split of the two failure sets, with the totals of the parts. -/
def ExactFailures (current previous : ValidationEvent) (failures : DeltaFailures) : Prop :=
  ∃ sets : FailureSets,
    Splits (failureIdentities current) (failureIdentities previous) sets.newlyFailed sets.resolved
      sets.stillFailing ∧ failures = sets.cut

/-- The current test run executed no test, and there were failures before. -/
def SaysNothing (current previous : ValidationEvent) : Prop :=
  isTestLike current previous = true ∧ failureIdentities previous ≠ [] ∧
    currentRunDidNotExecuteTests current = true

variable {current previous : ValidationEvent}

theorem deltaFailures_of_saysNothing (h : SaysNothing current previous) :
    deltaFailures current previous = (noFailures, some .testIdentityUnavailable) := by
  obtain ⟨htest, _, hnone⟩ := h
  have hset : treeSet (failureIdentities previous) ≠ [] := by
    rwa [Ne, treeSet_eq_nil_iff]
  rw [deltaFailures, if_neg (by simp [htest]), if_pos ⟨htest, hset, hnone⟩]

theorem refuse_eq_none {fails : Bool} {reason : ReasonCode} :
    refuse fails reason = none ↔ fails = false := by
  cases fails <;> simp [refuse]

theorem orElse_eq_none_iff {a b : Option ReasonCode} : (a <|> b) = none ↔ a = none ∧ b = none := by
  cases a <;> simp

/-- Comparable events were parsed, both of them. -/
theorem parsed_of_comparable (hcomparable : compareScopes current previous = none) :
    isParsed current = true ∧ isParsed previous = true := by
  simp only [compareScopes, orElse_eq_none_iff, refuse_eq_none, Bool.not_eq_false'] at hcomparable
  obtain ⟨-, -, -, -, -, -, hcurrent, hprevious, -⟩ := hcomparable
  exact ⟨hcurrent, hprevious⟩

theorem deltaFailures_exact (hcomparable : compareScopes current previous = none)
    (h : ¬SaysNothing current previous) :
    ∃ failures, deltaFailures current previous = (failures, none) ∧
      ExactFailures current previous failures := by
  obtain ⟨hcurrent, hprevious⟩ := parsed_of_comparable hcomparable
  refine ⟨(failureSets current previous).cut, ?_, _, splits_failureSets current previous, rfl⟩
  rw [deltaFailures, if_neg (by simp [hcurrent, hprevious]), if_neg]
  rintro ⟨htest, hset, hnone⟩
  rw [Ne, treeSet_eq_nil_iff] at hset
  exact h ⟨htest, hset, hnone⟩

/-- A difference that does not leave the signed range. -/
def DifferenceFits (current previous : ℕ) : Prop := current < previous + 2 ^ 63 ∧
    previous < current + 2 ^ 63

theorem toInt_toInt64 {a : UInt64} (h : a.toNat < 2 ^ 63) : a.toInt64.toInt = a.toNat := by
  refine BitVec.toInt_eq_toNat_of_lt ?_
  change 2 * a.toNat < 2 ^ 64
  omega

theorem toInt_deltaSigned {current previous : UInt64}
    (h : DifferenceFits current.toNat previous.toNat) :
    (deltaSigned current previous).toInt = current.toNat - previous.toNat := by
  obtain ⟨_, _⟩ := h
  unfold deltaSigned
  split_ifs with hle
  · have hdiff := UInt64.toNat_sub_of_le _ _ hle
    have hle' := UInt64.le_iff_toNat_le.mp hle
    rw [toInt_toInt64 (by omega), hdiff]
    omega
  · have hle' : current ≤ previous := UInt64.le_of_lt (UInt64.not_le.mp hle)
    have hdiff := UInt64.toNat_sub_of_le _ _ hle'
    have hle'' := UInt64.le_iff_toNat_le.mp hle'
    rw [Int64.toInt_neg, toInt_toInt64 (by omega), hdiff, Int.bmod_eq_of_le (by omega) (by omega)]
    omega

/-- The sum of the three counts, without a range. -/
def mathematicalTotal (event : ValidationEvent) : ℕ :=
  (testCounts event).passed.toNat + (testCounts event).failed.toNat +
    (testCounts event).ignored.toNat

theorem toNat_total {event : ValidationEvent} (h : mathematicalTotal event < 2 ^ 64) :
    (testCounts event).total.toNat = mathematicalTotal event := by
  have htotal : (testCounts event).total =
      (testCounts event).passed + (testCounts event).failed + (testCounts event).ignored := rfl
  unfold mathematicalTotal at *
  rw [htotal, UInt64.toNat_add, UInt64.toNat_add]
  omega

/-- No sum of counts and no difference of counts leaves its range. -/
structure CountsFit (current previous : ValidationEvent) : Prop where
  current_total : mathematicalTotal current < 2 ^ 64
  previous_total : mathematicalTotal previous < 2 ^ 64
  passed : DifferenceFits (testCounts current).passed.toNat (testCounts previous).passed.toNat
  failed : DifferenceFits (testCounts current).failed.toNat (testCounts previous).failed.toNat
  ignored : DifferenceFits (testCounts current).ignored.toNat (testCounts previous).ignored.toNat
  total : DifferenceFits (mathematicalTotal current) (mathematicalTotal previous)

/-- The deltas are the differences of the parsed counts, and the total one is their sum. -/
structure ExactCounts (current previous : ValidationEvent) (counts : ValidationDeltaCounts) :
    Prop where
  passed : counts.passedDelta.toInt =
    (testCounts current).passed.toNat - (testCounts previous).passed.toNat
  failed : counts.failedDelta.toInt =
    (testCounts current).failed.toNat - (testCounts previous).failed.toNat
  ignored : counts.ignoredDelta.toInt =
    (testCounts current).ignored.toNat - (testCounts previous).ignored.toNat
  total : counts.totalDelta.toInt =
    counts.passedDelta.toInt + counts.failedDelta.toInt + counts.ignoredDelta.toInt

theorem deltaCounts_exact (h : CountsFit current previous) :
    ExactCounts current previous (deltaCounts current previous) := by
  have hpassed := toInt_deltaSigned h.passed
  have hfailed := toInt_deltaSigned h.failed
  have hignored := toInt_deltaSigned h.ignored
  have htotal : (deltaSigned (testCounts current).total (testCounts previous).total).toInt =
      mathematicalTotal current - mathematicalTotal previous := by
    rw [← toNat_total h.current_total, ← toNat_total h.previous_total]
    apply toInt_deltaSigned
    rw [toNat_total h.current_total, toNat_total h.previous_total]
    exact h.total
  refine ⟨hpassed, hfailed, hignored, ?_⟩
  simp only [deltaCounts, hpassed, hfailed, hignored, htotal, mathematicalTotal]
  omega

/-- The delta of the latest event and the one it is compared with. -/
theorem validationDelta_eq {digest : String → String} {events : List ValidationEvent}
    (hcurrent : events.getLast? = some current)
    (hprevious : previousEvent events current = some previous) :
    validationDelta digest events = compareEvents digest current previous := by
  simp [validationDelta, hcurrent, hprevious]

/-- What a delta of comparable events says about the failures. -/
def FailuresReported (current previous : ValidationEvent) (reported : ValidationDeltaFailures) :
    Prop :=
  (SaysNothing current previous → reported =
    { identityStatus := .unavailable
      identityReasonCode := some .testIdentityUnavailable
      failures := noFailures }) ∧
  (¬SaysNothing current previous → reported.identityStatus = .available ∧
    reported.identityReasonCode = none ∧ ExactFailures current previous reported.failures)

/-- Of two comparable validations the differences of the counts are exact and sum up, as long as
nothing leaves its range, and the failures are split without loss, unless a run that executed no
test follows failures. -/
theorem validation_delta_is_exact (digest : String → String) {events : List ValidationEvent}
    {current previous : ValidationEvent} (hcurrent : events.getLast? = some current)
    (hprevious : previousEvent events current = some previous)
    (hcomparable : compareScopes current previous = none) :
    (validationDelta digest events).comparison.status = .available ∧
      (CountsFit current previous →
        ExactCounts current previous (validationDelta digest events).counts) ∧
      FailuresReported current previous (validationDelta digest events).failures := by
  rw [validationDelta_eq hcurrent hprevious]
  simp only [compareEvents, hcomparable]
  refine ⟨trivial, deltaCounts_exact, fun hnothing ↦ ?_, fun hsays ↦ ?_⟩
  · rw [deltaFailures_of_saysNothing hnothing]
    rfl
  · obtain ⟨failures, hfailures, hexact⟩ := deltaFailures_exact hcomparable hsays
    rw [hfailures]
    exact ⟨rfl, rfl, hexact⟩

def sampleDiagnostics (passed failed : UInt64) (details : List FailedTestDetail) :
    ValidationDiagnostics where
  available := some true
  parser := some "structured_validation_parser"
  diagnostics := []
  diagnosticsTruncated := some false
  testSummary := some { passed := some passed, failed := some failed, ignored := some 0 }
  failedTestDetails := details
  failedTestDetailsTruncated := some false
  truncated := some false

def sampleEvent (passed failed : UInt64) (details : List FailedTestDetail) : ValidationEvent where
  identity := none
  validationKind := some "test"
  toolName := some "cargo_test"
  purpose := some "validation"
  cwd := some "."
  commandSummary := some "cargo test store"
  hasSuccess := true
  zeroTestsRun := none
  diagnostics := some (sampleDiagnostics passed failed details)

def failingEvent : ValidationEvent :=
  sampleEvent 2 1 [{ name := some "store::opens", file := none, line := none }]

def passingEvent : ValidationEvent := sampleEvent 3 0 []

/-- The tests no longer match the filter, so that none is run. -/
def zeroTestsEvent : ValidationEvent := sampleEvent 0 0 []

theorem countsFit_passing_failing : CountsFit passingEvent failingEvent where
  current_total := by decide
  previous_total := by decide
  passed := ⟨by decide, by decide⟩
  failed := ⟨by decide, by decide⟩
  ignored := ⟨by decide, by decide⟩
  total := ⟨by decide, by decide⟩

/-- After a run with a failing test all tests pass, and the three lists are exact. -/
theorem sample_validation_delta_is_exact :
    ExactCounts passingEvent failingEvent (validationDelta id [failingEvent, passingEvent]).counts ∧
      FailuresReported passingEvent failingEvent
        (validationDelta id [failingEvent, passingEvent]).failures := by
  have hcurrent : [failingEvent, passingEvent].getLast? = some passingEvent := rfl
  have hprevious : previousEvent [failingEvent, passingEvent] passingEvent = some failingEvent := by
    decide
  have hcomparable : compareScopes passingEvent failingEvent = none := by decide
  obtain ⟨_, hcounts, hfailures⟩ := validation_delta_is_exact id hcurrent hprevious hcomparable
  exact ⟨hcounts countsFit_passing_failing, hfailures⟩

/-- A run that executed no test: the failure before it is in none of the three lists. -/
theorem zero_tests_run_hides_failures :
    zeroTestsEvent.diagnostics.bind ValidationDiagnostics.testSummary =
        aggregateCargoTestSummaries ["test result: ok. 0 passed; 0 failed; 0 ignored".toList] ∧
      previousEvent [failingEvent, zeroTestsEvent] zeroTestsEvent = some failingEvent ∧
      compareScopes zeroTestsEvent failingEvent = none ∧
      ¬ExactFailures zeroTestsEvent failingEvent
        (validationDelta id [failingEvent, zeroTestsEvent]).failures.failures := by
  refine ⟨by decide +kernel, by decide, by decide, ?_⟩
  rintro ⟨sets, hsplits, hcut⟩
  have hnone : (validationDelta id [failingEvent, zeroTestsEvent]).failures.failures =
      noFailures := by
    decide
  have hlength : sets.resolved.length = 0 := (congrArg DeltaFailures.totalResolved hcut).symm
  have hresolved : { kind := .test, name := "store::opens", file := none, line := none } ∈
      sets.resolved := (hsplits.mem_gone _).mpr ⟨by decide, by decide⟩
  rw [List.eq_nil_of_length_eq_zero hlength] at hresolved
  exact absurd hresolved List.not_mem_nil

end WebCodex.Validation.Delta
