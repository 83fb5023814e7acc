import WebCodex.Validation.Verdict

/-!
Later proofs are looked for twice: over the current validations for failures that count as
unresolved, and over all validations for failed calls that are no obstacle. A validation that
began before the last change is not current, and when it outlives a newer failure of its key, that
failure is unresolved and no obstacle at once. Without reused call ids the two differ in no other
way (`live_failures_stay_actionable_iff`).
-/

namespace WebCodex.Validation

open Foundation

variable {D V : Type}

/-- The records of the failures that a list of records leaves unresolved. -/
def unresolvedRecords (records : List (ExtractedValidationEvent V)) :
    List (ExtractedValidationEvent V) :=
  (records.zipIdx.filter fun (record, index) ↦ record.event.isFailure &&
    !isResolvedFailure (records.map ExtractedValidationEvent.event) index record.event).map Prod.fst

section Records

variable {records : List (ExtractedValidationEvent V)} {record : ExtractedValidationEvent V}

end Records

section Projection

variable {readings : Readings D V} {summary : SessionSummary D}

/-- They are the failures that the summary of the evidence calls unresolved. -/
theorem unresolvedFailures_eq_counted (limit : ℕ) :
    (currentValidationEvidenceForSession readings summary
        limit).currentValidation.unresolvedFailures =
      (unresolvedRecords (countedValidations readings summary)).map fun record ↦
        { record.event with unresolvedFailure := true } := by
  have hrecords : ∀ records : List (ExtractedValidationEvent V),
      (unresolvedRecords records).map (fun record ↦
          { record.event with unresolvedFailure := true }) =
        (classifyValidationFailures (records.map ExtractedValidationEvent.event)).unresolved := by
    intro records
    simp only [unresolvedRecords, classifyValidationFailures, List.zipIdx_map, List.filter_map,
      List.map_map, List.filter_filter]
    refine congrArg (List.map _) (List.filter_congr fun pair _ ↦ ?_)
    exact Bool.and_comm _ _
  rw [hrecords]
  by_cases hcomplete : (currentAttemptEventView summary).complete = true
  all_goals
    simp only [currentValidationEvidenceForSession, currentValidationEvidenceForEvents, hcomplete,
      countedValidations, unresolvedFailures_eq, if_true, if_false, reduceCtorEq]
    rfl

end Projection

end WebCodex.Validation
