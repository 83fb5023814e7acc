import WebCodex.Validation.Evidence
import WebCodex.Validation.TestSummaries

/-!
What a validation says about the tests that ran comes from two sources: counts that the tool
reported, and counts parsed from an output that was not cut. `mergedCounts` prefers the reported
ones and leaves all counts out when the two contradict each other. The parsers are a parameter. A
count is a 64-bit number, and sums stop at the largest.
-/

namespace WebCodex.Validation

variable {D V : Type} {α : Type}

/-- A member of a JSON object that is read as a value of one type. -/
inductive Member (α : Type) where
  | absent
  | null
  | value (x : α)
  /-- A value of another type. -/
  | other
deriving DecidableEq

def Member.get : Member α → Option α
  | .value x => some x
  | _ => none

def Member.isPresent : Member α → Bool
  | .absent => false
  | _ => true

def Member.isNull : Member α → Bool
  | .null => true
  | _ => false

/-- What is read of `validation_output_summary` for the counts. -/
structure TestCountMembers where
  testsDetected : Member Bool
  (testsRunCount testsPassed testsFailed : Member UInt64)
  zeroTestsRun : Member Bool
  (stdoutTruncated stderrTruncated : Option Bool)
deriving DecidableEq

def TestCountMembers.isTruncated (members : TestCountMembers) : Bool :=
  members.stdoutTruncated.getD false || members.stderrTruncated.getD false

/-- `explicit_test_metadata`. -/
def TestCountMembers.hasTestMetadata (members : TestCountMembers) : Bool :=
  members.testsDetected.isPresent || members.testsRunCount.isPresent ||
    members.testsPassed.isPresent || members.testsFailed.isPresent || members.zeroTestsRun.isPresent

def TestCountMembers.hasNullCount (members : TestCountMembers) : Bool :=
  members.testsRunCount.isNull || members.testsPassed.isNull || members.testsFailed.isNull ||
    members.zeroTestsRun.isNull

/-! ### Two sources of counts -/

/-- The counts of both sources. Those that would be parsed from a cut output are missing. -/
structure CountSources where
  includeIgnored : Bool
  (explicitRun explicitPassed explicitFailed : Option UInt64)
  explicitZero : Option Bool
  (parsedPassed parsedFailed parsedIgnored : Option UInt64)
deriving DecidableEq

structure RunCounts where
  (testsRunCount testsPassed testsFailed : Option UInt64)
  zeroTestsRun : Option Bool
deriving DecidableEq

def unprovenCounts : RunCounts :=
  { testsRunCount := none, testsPassed := none, testsFailed := none, zeroTestsRun := none }

def isPositive (count : Option UInt64) : Bool := count.any fun value ↦ value != 0

/-- Two values that are both there are equal. -/
def agree (explicit parsed : Option UInt64) : Bool := explicit.all fun x ↦ parsed.all fun y ↦ x == y

namespace CountSources

/-- `component_tests_run`: the run count that the parts make up. -/
def componentTestsRun (sources : CountSources) (passed failed : Option UInt64) : Option UInt64 :=
  match passed, failed with
  | some passed, some failed =>
    if sources.includeIgnored then
      sources.parsedIgnored.map (saturatingAdd (saturatingAdd passed failed))
    else some (saturatingAdd passed failed)
  | _, _ => none

def parsedRun (sources : CountSources) : Option UInt64 :=
  sources.componentTestsRun sources.parsedPassed sources.parsedFailed

def explicitComponentRun (sources : CountSources) : Option UInt64 :=
  sources.componentTestsRun sources.explicitPassed sources.explicitFailed

/-- A reported flag that a run count contradicts. -/
def flagFits (run : Option UInt64) (zero : Option Bool) : Bool :=
  run.all fun run ↦ zero.all fun zero ↦ zero == (run == 0)

def explicitCoherent (sources : CountSources) : Bool :=
  agree sources.explicitRun sources.explicitComponentRun &&
    flagFits (sources.explicitRun.or sources.explicitComponentRun) sources.explicitZero &&
    !(sources.explicitZero == some true &&
      (isPositive sources.explicitPassed || isPositive sources.explicitFailed))

def sourcesAgree (sources : CountSources) : Bool := agree sources.explicitRun sources.parsedRun &&
    agree sources.explicitPassed sources.parsedPassed &&
    agree sources.explicitFailed sources.parsedFailed

/-- The counts of the two sources put together. -/
def joinedCounts (sources : CountSources) : RunCounts :=
  let run := (sources.explicitRun.or sources.explicitComponentRun).or sources.parsedRun
  { testsRunCount := run
    testsPassed := sources.explicitPassed.or sources.parsedPassed
    testsFailed := sources.explicitFailed.or sources.parsedFailed
    zeroTestsRun := sources.explicitZero.or (run.map fun count ↦ count == 0) }

/-- The last check, of the counts put together. -/
def contradicts (sources : CountSources) (counts : RunCounts) : Bool :=
  !agree counts.testsRunCount (sources.componentTestsRun counts.testsPassed counts.testsFailed) ||
    (counts.zeroTestsRun == some true &&
      (isPositive counts.testsRunCount || isPositive counts.testsPassed ||
        isPositive counts.testsFailed))

def mergedCounts (sources : CountSources) : RunCounts :=
  if !sources.explicitCoherent || !sources.sourcesAgree then unprovenCounts
  else if sources.contradicts sources.joinedCounts then unprovenCounts
  else sources.joinedCounts

end CountSources

variable (toolName : String)

/-- The counts of an execution, before they are compared. -/
def countSources (summary : Option TestCountMembers) (parsed : Option CargoTestSummary) :
    CountSources :=
  let parsed := if summary.any TestCountMembers.isTruncated then none else parsed
  { includeIgnored := toolName == "go_test"
    explicitRun := summary.bind fun members ↦ members.testsRunCount.get
    explicitPassed := summary.bind fun members ↦ members.testsPassed.get
    explicitFailed := summary.bind fun members ↦ members.testsFailed.get
    explicitZero := summary.bind fun members ↦ members.zeroTestsRun.get
    parsedPassed := parsed.bind CargoTestSummary.passed
    parsedFailed := parsed.bind CargoTestSummary.failed
    parsedIgnored := parsed.bind CargoTestSummary.ignored }

/-- `validation_test_run_metadata`: whether tests were detected, and the counts. -/
def validationTestRunMetadata (adapter : Option ValidationAdapter)
    (summary : Option TestCountMembers) (parsed : Option CargoTestSummary) :
    Option Bool × RunCounts :=
  if !adapter.any ValidationAdapter.reportsTestRunMetadata &&
      !summary.any TestCountMembers.hasTestMetadata then
    (none, unprovenCounts)
  else
    let testsDetected := (summary.bind fun members ↦ members.testsDetected.get).or
      (some parsed.isSome)
    if summary.any TestCountMembers.hasNullCount then (testsDetected, unprovenCounts)
    else (testsDetected, (countSources toolName summary parsed).mergedCounts)

/-! ### Coherent counts -/

variable {x y run : UInt64}

theorem agree_some : agree (some x) (some y) = true ↔ x = y := by
  simp [agree]

theorem eq_of_agree {explicit parsed : Option UInt64} (h : agree explicit parsed = true)
    (hexplicit : explicit = some x) (hparsed : parsed = some y) : x = y := by
  rw [hexplicit, hparsed] at h
  exact agree_some.mp h

theorem or_eq_some_of_agree {explicit parsed : Option UInt64} (h : agree explicit parsed = true)
    (hmerged : explicit.or parsed = some x) (hparsed : parsed = some y) : x = y := by
  cases explicit with
  | none =>
    rw [Option.none_or, hparsed] at hmerged
    exact (Option.some.inj hmerged).symm
  | some =>
    exact eq_of_agree h hmerged hparsed

variable {sources : CountSources}

namespace CountSources

/-- A reported flag `false` next to a run count that is zero and only parsed: no check sees both. -/
def FlagOverlooked (sources : CountSources) : Prop :=
  sources.explicitZero = some false ∧ sources.explicitRun = none ∧
    sources.explicitComponentRun = none ∧ sources.parsedRun = some 0

/-- The counts that are reported fit each other and those that were parsed. -/
structure CoherentCounts (sources : CountSources) (counts : RunCounts) : Prop where
  zero_flag : ¬sources.FlagOverlooked → ∀ run zero, counts.testsRunCount = some run →
    counts.zeroTestsRun = some zero → (zero = true ↔ run.toNat = 0)
  sum : ∀ run passed failed, counts.testsRunCount = some run → counts.testsPassed = some passed →
    counts.testsFailed = some failed → sources.includeIgnored = false →
      run.toNat = min (passed.toNat + failed.toNat) maxU64
  sum_with_skipped : ∀ run passed failed skipped, counts.testsRunCount = some run →
    counts.testsPassed = some passed → counts.testsFailed = some failed →
      sources.includeIgnored = true → sources.parsedIgnored = some skipped →
        run.toNat = min (passed.toNat + failed.toNat + skipped.toNat) maxU64
  parsed_run : ∀ run parsed, counts.testsRunCount = some run → sources.parsedRun = some parsed →
    run = parsed
  parsed_passed : ∀ passed parsed, counts.testsPassed = some passed →
    sources.parsedPassed = some parsed → passed = parsed
  parsed_failed : ∀ failed parsed, counts.testsFailed = some failed →
    sources.parsedFailed = some parsed → failed = parsed

/-- Without counts there is nothing to contradict. -/
theorem coherentCounts_unproven (sources : CountSources) :
    sources.CoherentCounts unprovenCounts := by
  constructor <;> intros <;> simp_all [unprovenCounts]

/-- Counts are only kept when they passed every check. -/
theorem mergedCounts_cases (sources : CountSources) : sources.mergedCounts = unprovenCounts ∨
      (sources.mergedCounts = sources.joinedCounts ∧ sources.explicitCoherent = true ∧
        sources.sourcesAgree = true ∧ sources.contradicts sources.joinedCounts = false) := by
  unfold mergedCounts
  split_ifs with hchecks hcontradicts
  · exact .inl rfl
  · exact .inl rfl
  · simp only [Bool.or_eq_true, Bool.not_eq_true', not_or, Bool.not_eq_false] at hchecks
    exact .inr ⟨rfl, hchecks.1, hchecks.2, by simpa using hcontradicts⟩

/-- The parts of a run make up the same count whichever source names them. -/
theorem componentRun_eq_of_agree (h : sources.sourcesAgree = true)
    (hexplicit : sources.explicitComponentRun = some x) (hparsed : sources.parsedRun = some y) :
    x = y := by
  simp only [sourcesAgree, Bool.and_eq_true] at h
  obtain ⟨⟨-, hpassed⟩, hfailed⟩ := h
  have heq : sources.explicitComponentRun = sources.parsedRun := by
    cases hep : sources.explicitPassed with
    | none => simp [explicitComponentRun, componentTestsRun, hep] at hexplicit
    | some =>
      cases hef : sources.explicitFailed with
      | none => simp [explicitComponentRun, componentTestsRun, hep, hef] at hexplicit
      | some =>
        cases hpp : sources.parsedPassed with
        | none => simp [parsedRun, componentTestsRun, hpp] at hparsed
        | some =>
          cases hpf : sources.parsedFailed with
          | none => simp [parsedRun, componentTestsRun, hpp, hpf] at hparsed
          | some =>
            rw [hep, hpp, agree_some] at hpassed
            rw [hef, hpf, agree_some] at hfailed
            rw [explicitComponentRun, parsedRun, hep, hef, hpp, hpf, hpassed, hfailed]
  rw [hexplicit, hparsed] at heq
  exact Option.some.inj heq

/-- The flag of joined counts, whichever source it comes from. -/
theorem zero_flag_joined (hcoherent : sources.explicitCoherent = true)
    (hcontradicts : sources.contradicts sources.joinedCounts = false)
    (hoverlooked : ¬sources.FlagOverlooked) {zero : Bool}
    (hrun : sources.joinedCounts.testsRunCount = some run)
    (hzero : sources.joinedCounts.zeroTestsRun = some zero) : zero = (run == 0) := by
  have hflag : sources.joinedCounts.zeroTestsRun =
      sources.explicitZero.or (sources.joinedCounts.testsRunCount.map fun count ↦ count == 0) := rfl
  rw [hflag, hrun, Option.map_some] at hzero
  cases hexplicit : sources.explicitZero with
  | none =>
    rw [hexplicit, Option.none_or] at hzero
    exact (Option.some.inj hzero).symm
  | some flag =>
    rw [hexplicit, Option.some_or] at hzero
    obtain rfl := Option.some.inj hzero
    cases flag with
    | true =>
      simp only [contradicts, hflag, hexplicit, Option.some_or, hrun, isPositive, Option.any_some,
        Bool.or_eq_false_iff, beq_self_eq_true, Bool.true_and, bne_eq_false_iff_eq] at hcontradicts
      simp [hcontradicts.2.1.1]
    | false =>
      -- the flag was compared with the reported count or else with the sum of the reported parts
      cases hreported : sources.explicitRun.or sources.explicitComponentRun with
      | some reported =>
        have hsame : reported = run := by
          have hjoined : sources.joinedCounts.testsRunCount = some reported := by
            simp [joinedCounts, hreported]
          exact Option.some.inj (hjoined.symm.trans hrun)
        simp only [explicitCoherent, hreported, hexplicit, flagFits, Option.all_some,
          Bool.and_eq_true] at hcoherent
        rw [hsame] at hcoherent
        exact beq_iff_eq.mp hcoherent.1.2
      | none =>
        obtain ⟨hnorun, hnocomponent⟩ := Option.or_eq_none_iff.mp hreported
        have hparsed : sources.parsedRun = some run := by
          simpa [joinedCounts, hreported] using hrun
        have hne : run ≠ 0 := by
          rintro rfl
          exact hoverlooked ⟨hexplicit, hnorun, hnocomponent, hparsed⟩
        simp [hne]

theorem toNat_eq_zero_iff : run.toNat = 0 ↔ run = 0 :=
    ⟨fun h ↦ UInt64.toNat_inj.mp h, fun h ↦ h ▸ rfl⟩

/-- The parts of joined counts make up the run count. -/
theorem component_joined (hcontradicts : sources.contradicts sources.joinedCounts = false)
    {component : UInt64} (hrun : sources.joinedCounts.testsRunCount = some run)
    (hcomponent : sources.componentTestsRun sources.joinedCounts.testsPassed
      sources.joinedCounts.testsFailed = some component) :
    run = component := by
  simp only [contradicts, Bool.or_eq_false_iff, Bool.not_eq_false'] at hcontradicts
  exact eq_of_agree hcontradicts.1 hrun hcomponent

theorem coherentCounts_joined (hcoherent : sources.explicitCoherent = true)
    (hagree : sources.sourcesAgree = true)
    (hcontradicts : sources.contradicts sources.joinedCounts = false) :
    sources.CoherentCounts sources.joinedCounts := by
  have hsources := hagree
  simp only [sourcesAgree, Bool.and_eq_true] at hagree
  obtain ⟨⟨hagreeRun, hagreePassed⟩, hagreeFailed⟩ := hagree
  constructor
  case zero_flag =>
    intro hoverlooked run _ hrun hzero
    rw [zero_flag_joined hcoherent hcontradicts hoverlooked hrun hzero, beq_iff_eq,
      toNat_eq_zero_iff]
  case sum =>
    intro run passed failed hrun hpassed hfailed hcargo
    have hsum : sources.componentTestsRun sources.joinedCounts.testsPassed
        sources.joinedCounts.testsFailed = some (saturatingAdd passed failed) := by
      simp [componentTestsRun, hpassed, hfailed, hcargo]
    rw [component_joined hcontradicts hrun hsum, toNat_saturatingAdd]
  case sum_with_skipped =>
    intro run passed failed skipped hrun hpassed hfailed hgo hskipped
    have hsum : sources.componentTestsRun sources.joinedCounts.testsPassed
        sources.joinedCounts.testsFailed =
          some (saturatingAdd (saturatingAdd passed failed) skipped) := by
      simp [componentTestsRun, hpassed, hfailed, hgo, hskipped]
    rw [component_joined hcontradicts hrun hsum, toNat_saturatingAdd, toNat_saturatingAdd]
    omega
  case parsed_run =>
    intro run parsed hrun hparsed
    cases hexplicit : sources.explicitRun with
    | some =>
      rw [joinedCounts, hexplicit, Option.some_or, Option.some_or] at hrun
      obtain rfl := Option.some.inj hrun
      exact eq_of_agree hagreeRun hexplicit hparsed
    | none =>
      cases hcomponent : sources.explicitComponentRun with
      | some component =>
        have hsame : component = run := by simpa [joinedCounts, hexplicit, hcomponent] using hrun
        rw [← hsame]
        exact componentRun_eq_of_agree hsources hcomponent hparsed
      | none =>
        have hsame : sources.parsedRun = some run := by
          simpa [joinedCounts, hexplicit, hcomponent] using hrun
        exact Option.some.inj (hsame.symm.trans hparsed)
  case parsed_passed =>
    intro passed parsed hpassed hparsed
    exact or_eq_some_of_agree hagreePassed hpassed hparsed
  case parsed_failed =>
    intro failed parsed hfailed hparsed
    exact or_eq_some_of_agree hagreeFailed hfailed hparsed

theorem coherentCounts_merged (sources : CountSources) :
    sources.CoherentCounts sources.mergedCounts := by
  rcases mergedCounts_cases sources with hnone | ⟨hjoined, hcoherent, hagree, hcontradicts⟩
  · rw [hnone]
    exact coherentCounts_unproven sources
  · rw [hjoined]
    exact coherentCounts_joined hcoherent hagree hcontradicts

/-- A run count never comes without the flag. -/
theorem zeroTestsRun_isSome (hrun : sources.mergedCounts.testsRunCount = some run) :
    ∃ zero, sources.mergedCounts.zeroTestsRun = some zero := by
  rcases mergedCounts_cases sources with hnone | ⟨hjoined, -, -, -⟩
  · rw [hnone] at hrun
    exact absurd hrun (by simp [unprovenCounts])
  · rw [hjoined] at hrun ⊢
    have hflag : sources.joinedCounts.zeroTestsRun =
        sources.explicitZero.or (sources.joinedCounts.testsRunCount.map fun count ↦ count == 0) :=
          rfl
    rw [hflag, hrun]
    cases sources.explicitZero with
    | none => exact ⟨_, rfl⟩
    | some zero => exact ⟨zero, rfl⟩

end CountSources

/-- All counts that `validation_test_run_metadata` gives are merged ones. -/
theorem validationTestRunMetadata_counts (adapter : Option ValidationAdapter)
    (summary : Option TestCountMembers) (parsed : Option CargoTestSummary) :
    (validationTestRunMetadata toolName adapter summary parsed).2 = unprovenCounts ∨
      (validationTestRunMetadata toolName adapter summary parsed).2 =
        (countSources toolName summary parsed).mergedCounts := by
  simp only [validationTestRunMetadata]
  split_ifs
  · exact .inl rfl
  · exact .inl rfl
  · exact .inr rfl

/-! ### Proofs by a run of no tests -/

/-- How the output of an execution is read: its members, and the summary that the parser of an
adapter finds in it. -/
structure OutputReader (D : Type) where
  members : D → TestCountMembers
  testSummary : ValidationAdapter → D → Option CargoTestSummary

namespace OutputReader

variable (reader : OutputReader D) (finished : SessionEvent D)

/-- The reported output of a finish, when there is one. -/
def summaryOf : Option TestCountMembers :=
  finished.validationOutputSummary.map fun _ ↦ reader.members finished.rest

variable (adapter : Option ValidationAdapter)

def parsedOf : Option CargoTestSummary :=
  if finished.validationOutputSummary.isSome then
    adapter.bind fun adapter ↦ reader.testSummary adapter finished.rest
  else none

def sourcesOf : CountSources :=
  countSources finished.toolName (reader.summaryOf finished) (reader.parsedOf finished adapter)

def countsOf : RunCounts :=
  (validationTestRunMetadata finished.toolName adapter (reader.summaryOf finished)
    (reader.parsedOf finished adapter)).2

/-- The readings of a finish with the counts of this module. -/
def readings (base : Readings D V) : Readings D V :=
  { base with
    testRunMetadata := fun finished adapter ↦
      let counts := reader.countsOf finished adapter
      (counts.testsRunCount.map UInt64.toNat, counts.zeroTestsRun) }

end OutputReader

/-- The request said that a run of no tests is a proof: nothing was to be run, or no test was
required and no number of tests was asked for. -/
def ValidationEvent.AllowsZeroTests (event : ValidationEvent V) : Prop :=
  event.toolName = "cargo_test" ∧ (event.noRun = some true ∨
    (event.requireTests = some false ∧ event.testCountAssertion = none))

/-- The counts of a validation are those of its finish. -/
theorem counts_of_event {reader : OutputReader D} {base : Readings D V} {finished : SessionEvent D}
    {started : Option (SessionEvent D)} {event : ValidationEvent V}
    (hevent : validationEventFromFinished (reader.readings base) finished started = some event) :
    event.toolName = finished.toolName ∧ event.testsRunCount =
        (reader.countsOf finished event.adapterToolIdentity).testsRunCount.map UInt64.toNat ∧
      event.zeroTestsRun = (reader.countsOf finished event.adapterToolIdentity).zeroTestsRun := by
  obtain ⟨_, -, hevent⟩ := Option.bind_eq_some_iff.mp hevent
  cases hstatus : finished.status with
  | none => simp [hstatus] at hevent
  | some status =>
    cases status with
    | other => simp [hstatus] at hevent
    | succeeded | failed =>
      simp only [hstatus, Option.bind_eq_bind, Option.bind_some] at hevent
      split_ifs at hevent
      obtain rfl := Option.some.inj hevent
      exact ⟨rfl, rfl, rfl⟩

/-- A structured test tool has proved something by a run of no tests only when that was allowed. -/
theorem allowsZeroTests_of_structured {event : ValidationEvent V}
    (hproven : event.isProvenSuccess = true) (hzero : event.testsRunCount = some 0)
    (hstructured : event.structuredTestRequiresExecutionProof = true) : event.AllowsZeroTests := by
  unfold ValidationEvent.isProvenSuccess at hproven
  rw [hstructured, hzero] at hproven
  split_ifs at hproven with hfails hgeneric hneither hnoRun
  · exact absurd hneither (by simp)
  · simp only [Bool.and_eq_true, decide_eq_true_eq] at hnoRun
    exact ⟨hnoRun.1, .inl hnoRun.2⟩
  · cases hflag : event.zeroTestsRun with
    | none => simp [hflag] at hproven
    | some =>
      simp only [hflag] at hproven
      split_ifs at hproven
      simp only [lt_irrefl, decide_false, Bool.false_or, Bool.and_eq_true, decide_eq_true_eq,
        Option.isNone_iff_eq_none] at hproven
      exact ⟨hproven.1.1, .inr ⟨hproven.1.2, hproven.2⟩⟩

/-- What is reported about the tests of a validation is coherent, and a run of no tests is a proof
only when the request allowed it, for the test tools and for generic executions of `cargo test`. -/
theorem reported_test_counts_are_coherent (reader : OutputReader D) (base : Readings D V)
    {finished : SessionEvent D} {started : Option (SessionEvent D)} {event : ValidationEvent V}
    (hevent : validationEventFromFinished (reader.readings base) finished started = some event) :
    (reader.sourcesOf finished event.adapterToolIdentity).CoherentCounts
        (reader.countsOf finished event.adapterToolIdentity) ∧
      (event.isProvenSuccess = true → event.testsRunCount = some 0 →
        event.structuredTestRequiresExecutionProof = true ∨
          (event.adapterToolIdentity = some .cargoTest ∧
            ¬(reader.sourcesOf finished event.adapterToolIdentity).FlagOverlooked) →
        event.AllowsZeroTests) := by
  have hcounts := counts_of_event hevent
  have hmerged := validationTestRunMetadata_counts finished.toolName event.adapterToolIdentity
    (reader.summaryOf finished) (reader.parsedOf finished event.adapterToolIdentity)
  generalize hsources : reader.sourcesOf finished event.adapterToolIdentity = sources
  generalize htaken : reader.countsOf finished event.adapterToolIdentity = counts at hcounts ⊢
  replace hmerged : counts = unprovenCounts ∨ counts = sources.mergedCounts := by
    rw [← htaken, ← hsources]
    exact hmerged
  have hcoherent : sources.CoherentCounts counts := by
    rcases hmerged with hnone | hmerged
    · rw [hnone]
      exact sources.coherentCounts_unproven
    · rw [hmerged]
      exact sources.coherentCounts_merged
  refine ⟨hcoherent, fun hproven hzero hcase ↦ ?_⟩
  rcases hcase with hstructured | ⟨hcargo, hoverlooked⟩
  · exact allowsZeroTests_of_structured hproven hzero hstructured
  · by_cases htool : event.toolName = "cargo_test"
    · apply allowsZeroTests_of_structured hproven hzero
      simp [ValidationEvent.structuredTestRequiresExecutionProof, htool, validationAdapterForTool,
        ValidationAdapter.validationKind, ValidationAdapter.reportsTestRunMetadata]
    · -- the count comes with the flag, which is right, so the run is known to be one of no tests
      exfalso
      obtain ⟨-, hrunCount, hflagOf⟩ := hcounts
      rw [hzero, eq_comm, Option.map_eq_some_iff] at hrunCount
      obtain ⟨run, hrun, hrunZero⟩ := hrunCount
      have hflag : ∃ zero, counts.zeroTestsRun = some zero := by
        rcases hmerged with hnone | hmerged
        · simp [hnone, unprovenCounts] at hrun
        · rw [hmerged] at hrun ⊢
          exact CountSources.zeroTestsRun_isSome hrun
      obtain ⟨zero, hflag⟩ := hflag
      have htrue : zero = true := (hcoherent.zero_flag hoverlooked run zero hrun hflag).mpr hrunZero
      have hgeneric : event.genericCargoTestHasReliableZeroTestEvidence = true := by
        simp [ValidationEvent.genericCargoTestHasReliableZeroTestEvidence, htool, hcargo, hzero,
          hflagOf, hflag, htrue]
      simp [ValidationEvent.isProvenSuccess, hgeneric] at hproven

def sampleReader : OutputReader TestCountMembers where
  members := id
  testSummary _ _ := some { passed := some 0, failed := some 0, ignored := some 2 }

def sampleReadings : Readings TestCountMembers Unit where
  executionIdentity _ _ purpose := purpose
  testRunMetadata _ _ := (none, none)
  details _ _ := ()

/-- Two ignored tests and no other: nothing was run, and the output says so. -/
def noTestsRun : TestCountMembers where
  testsDetected := .value true
  testsRunCount := .value 0
  testsPassed := .value 0
  testsFailed := .value 0
  zeroTestsRun := .value true
  stdoutTruncated := some false
  stderrTruncated := some false

def sampleOutput (requireTests : Option Bool) : OutputSummary where
  purpose := some "test"
  executionState := some "completed"
  validationTool := none
  commandSummary := none
  requireTests := requireTests
  noRun := none
  testCountAssertion := none

/-- A finish that reports success and no tests. -/
def sampleFinish (requireTests : Option Bool) : SessionEvent TestCountMembers where
  eventId := "e"
  callId := some "c"
  logicalInvocationId := none
  logicalInvocationRole := none
  sessionId := "s"
  kind := .toolCallFinished
  toolName := toolName
  project := none
  resolvedProject := none
  startedAt := none
  status := some .succeeded
  exitCode := some 0
  resultExpectation := none
  acceptedExitCodes := []
  failureExpectationResult := none
  changedPaths := []
  jobId := none
  effectEvidence := none
  inputSummary := none
  validationOutputSummary := some (sampleOutput requireTests)
  rest := noTestsRun

/-- The request says that no test is required. -/
def toleratedZeroRun : SessionEvent TestCountMembers := sampleFinish "cargo_test" (some false)

/-- The call tolerates that no test is run, so its empty run is a proven success. -/
theorem sample_test_counts_are_coherent : ∃ event,
    validationEventFromFinished (sampleReader.readings sampleReadings) toleratedZeroRun none =
        some event ∧ event.isProvenSuccess = true ∧
      (sampleReader.sourcesOf toleratedZeroRun event.adapterToolIdentity).CoherentCounts
        (sampleReader.countsOf toleratedZeroRun event.adapterToolIdentity) ∧
      event.AllowsZeroTests := by
  refine ⟨_, rfl, by decide, ?_⟩
  obtain ⟨hcoherent, hallowed⟩ := reported_test_counts_are_coherent sampleReader sampleReadings
    (rfl : validationEventFromFinished (sampleReader.readings sampleReadings)
      toleratedZeroRun none =
      some _)
  exact ⟨hcoherent, hallowed (by decide) (by decide) (.inl (by decide))⟩

/-- A script whose tests were not recognised as `cargo test` proves something without a test run. -/
theorem zero_run_of_script_is_accepted : ∃ event,
    validationEventFromFinished (sampleReader.readings sampleReadings)
      (sampleFinish "run_script" none) none = some event ∧ event.testsRunCount = some 0 ∧
        event.zeroTestsRun = some true ∧
      event.isProvenSuccess = true ∧ ¬event.AllowsZeroTests := by
  refine ⟨_, rfl, by decide, by decide, by decide, ?_⟩
  rintro ⟨htool, -⟩
  exact absurd htool (by decide)

end WebCodex.Validation
