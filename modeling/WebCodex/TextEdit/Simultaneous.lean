import Mathlib.Data.List.ReduceOption
import WebCodex.Foundation.Fallible
import WebCodex.Foundation.Substitution
import WebCodex.TextEdit.EditPlan

/-!
Every edit of a batch is resolved to a range of the canonical original, whatever the other edits are
(`resolvedRange`). A batch is planned just when all its edits can be resolved and no two of their
ranges overlap, and the text that is planned is the original with all of the ranges substituted at
once (`edits_are_simultaneous`). So the order of the batch matters only where edits insert at one
position.
-/

namespace WebCodex.TextEdit

open String (utf8Len)
open Foundation Foundation.Occurrences Foundation.Substitution Foundation.Text

variable {original canonical needle : Str} {lineEnding : ApplyTextLineEnding}
    {edit : ApplyTextEditInput}
  {edits : List ApplyTextEditInput} {index : ℕ}

/-! ### Failures -/

/-- The failure is an error of the program's own. -/
def Failure.IsReported {E : Type} (failure : Failure E) : Prop := failure ≠ .panicked

theorem exists_conflictMessage {conflict : ApplyTextMatchConflict}
    (h : conflict.kind = .occurrenceOutsideLineScope → conflict.lineScope.isSome = true) :
    ∃ message, conflictMessage conflict = .ok message := by
  unfold conflictMessage
  split
  · split_ifs <;> exact ⟨_, rfl⟩
  · split_ifs <;> exact ⟨_, rfl⟩
  · exact ⟨_, rfl⟩
  · next hkind =>
    obtain ⟨_, hscope⟩ := Option.isSome_iff_exists.mp (h hkind)
    rw [hscope]
    exact ⟨_, rfl⟩

/-- An occurrence that is in range lies outside the lines only when there are some. -/
theorem isSome_lineScope {occurrence : Option ℕ} {lineScope : Option ApplyTextLineScope}
    (hnone : ∀ found,
      ¬ Requested original needle occurrence lineScope (occurrences needle original) found)
    (hkind : conflictKind original needle occurrence lineScope (occurrences needle original) =
      .occurrenceOutsideLineScope) : lineScope.isSome = true := by
  by_contra hno
  rw [Bool.not_eq_true, Option.isSome_eq_false_iff, Option.isNone_iff_eq_none] at hno
  subst hno
  unfold conflictKind at hkind
  cases occurrence with
  | none =>
    split_ifs at hkind
  | some number =>
    dsimp only at hkind
    split_ifs at hkind with hempty hrange
    obtain ⟨place, rfl⟩ := Nat.exists_eq_add_of_le' (show 1 ≤ number by omega)
    exact hnone _ ⟨mem_sourceMatches.mpr ⟨place, by omega, rfl⟩, rfl, by rintro _ ⟨⟩⟩

/-- The exact conflict has a message. -/
theorem isReported_matchFailure {occurrence : Option ℕ} {lineScope : Option ApplyTextLineScope}
    (hnone : ∀ found,
      ¬ Requested original needle occurrence lineScope (occurrences needle original) found)
    (kind : ApplyTextEditKind) :
    (matchFailure index kind (.reported
      (exactConflict original needle occurrence lineScope
        (occurrences needle original)))).IsReported := by
  obtain ⟨message, hmessage⟩ : ∃ message, conflictMessage
      (exactConflict original needle occurrence lineScope (occurrences needle original)) =
          .ok message :=
    exists_conflictMessage (isSome_lineScope hnone)
  rw [matchFailure, hmessage]
  exact nofun

/-- A match is resolved to a range between characters, and fails with an error that has a
message. -/
theorem ends_resolveApplyTextMatch (original needle : Str) (occurrence : Option ℕ)
    (lineScope : Option ApplyTextLineScope) (kind : ApplyTextEditKind) :
    Ends (fun failure ↦ (matchFailure index kind failure).IsReported)
      (fun range ↦ textBetween original range.1 range.2 = some needle)
      (resolveApplyTextMatch original needle occurrence lineScope) := by
  rcases resolveApplyTextMatch_cases original needle occurrence lineScope with
    ⟨found, hfound, hresult⟩ | ⟨hnone, hresult⟩ <;> rw [hresult]
  · refine textBetween_of_mem ?_
    cases occurrence with
    | some => exact hfound.1
    | none =>
      have hmem : found ∈ eligibleMatches original needle lineScope
          (occurrences needle original) := by
        rw [show eligibleMatches original needle lineScope (occurrences needle original) =
            [found] from
          hfound]
        exact List.mem_singleton_self found
      exact (List.mem_filter.mp hmem).1
  · exact isReported_matchFailure hnone kind

theorem isReported_plain (index : ℕ) (kind message : String) :
    (plain index kind message).IsReported :=
  nofun

theorem ends_editTexts (index : ℕ) (edit : ApplyTextEditInput) :
    Ends Failure.IsReported (fun _ ↦ True) (editTexts index edit) := by
  have hplain := isReported_plain index edit.kind.asStr
  unfold editTexts
  split
  · exact (Ends.required (hplain _)).skip fun _ ↦ (Ends.ensure (hplain _)).skip fun _ ↦
      .pure trivial
  · exact (Ends.required (hplain _)).skip fun _ ↦ (Ends.ensure (hplain _)).skip fun _ ↦
      .pure trivial
  · exact (Ends.required (hplain _)).skip fun _ ↦ (Ends.required (hplain _)).skip fun _ ↦
      (Ends.ensure (hplain _)).skip fun _ ↦ .pure trivial
  · exact (Ends.required (hplain _)).skip fun _ ↦ (Ends.required (hplain _)).skip fun _ ↦
      (Ends.ensure (hplain _)).skip fun _ ↦ .pure trivial

/-- The range of an edit lies where the text is that it looks for. -/
theorem textBetween_editRange {start stop : ℕ} (kind : ApplyTextEditKind)
    (h : textBetween original start stop = some needle) :
    ∃ replaced, textBetween original (editRange kind start stop).1 (editRange kind start stop).2 =
      some replaced := by
  obtain ⟨front, back, htext, hstart, hstop⟩ := textBetween_eq_some_iff.mp h
  cases kind with
  | insertBefore =>
    exact ⟨[], textBetween_eq_some_iff.mpr ⟨front, needle ++ back, by simpa using htext, hstart, by
      simpa [editRange] using hstart⟩⟩
  | insertAfter =>
    refine ⟨[], textBetween_eq_some_iff.mpr ⟨front ++ needle, back, by simpa using htext, ?_, ?_⟩⟩
    · rw [String.utf8Len_append]
      exact hstop
    · rw [String.utf8Len_append]
      simpa [editRange] using hstop
  | replaceExact | deleteExact => exact ⟨needle, h⟩

/-- An edit is resolved to a range between characters, or fails with an error. -/
theorem ends_resolveEdit (original : Str) (lineEnding : ApplyTextLineEnding)
    (edit : ApplyTextEditInput) (index : ℕ) :
    Ends Failure.IsReported (fun planned ↦ ∀ op ∈ planned, op.index = index ∧
        ∃ replaced, textBetween original op.start op.stop = some replaced)
      (resolveEdit original lineEnding edit index) := by
  have hplain := isReported_plain index edit.kind.asStr
  have hscope : Ends Failure.IsReported (fun _ ↦ True)
      (edit.lineScope.forM fun scope ↦ scope.validate.mapError (plain index edit.kind.asStr)) := by
    cases edit.lineScope with
    | none => exact .pure trivial
    | some => exact (Ends.mapError hplain).mono fun _ _ ↦ trivial
  refine (Ends.ensure (hplain _)).skip fun _ ↦ hscope.skip fun _ ↦ (ends_editTexts index edit).skip
    fun _ ↦ (Ends.ensure (hplain _)).skip fun _ ↦ (Ends.ensure (hplain _)).skip fun _ ↦
    (Ends.mapError hplain).skip fun needle ↦ (Ends.mapError hplain).skip fun _ ↦ ?_
  split_ifs
  · exact .pure nofun
  · refine (Ends.mapError_of (ends_resolveApplyTextMatch original needle _ _ _)).bind
      fun _ hrange ↦ .pure fun op hop ↦ ?_
    obtain rfl := Option.some.inj hop
    exact ⟨rfl, textBetween_editRange edit.kind hrange⟩

/-! ### Resolving a batch -/

def PlannedEdit.range (op : PlannedEdit) : Edit Char := ⟨op.start, op.stop, op.text⟩

def Resolvable (original : Str) (lineEnding : ApplyTextLineEnding) (edit : ApplyTextEditInput) :
    Prop :=
  ∃ planned, resolveEdit original lineEnding edit 0 = .ok planned

/-- The range of an edit for itself; an edit that puts in nothing has none. -/
def resolvedRange (original : Str) (lineEnding : ApplyTextLineEnding) (edit : ApplyTextEditInput) :
    Option (Edit Char) :=
  match resolveEdit original lineEnding edit 0 with
  | .ok planned => planned.map PlannedEdit.range
  | .error _ => none

/-- The ranges of a batch, each edit for itself, in the order of the batch. -/
def resolvedRanges (original : Str) (lineEnding : ApplyTextLineEnding)
    (edits : List ApplyTextEditInput) : List (Edit Char) :=
  edits.filterMap (resolvedRange original lineEnding)

def ApplyTextEditInput.lookedFor (edit : ApplyTextEditInput) : Str :=
  (if edit.kind.isInsertion then edit.anchorText else edit.oldText).getD []

/-- What an edit stands for: its new text goes in front of the occurrence that it asks for, behind
it, or in its place. An insertion of nothing stands for no range. -/
def ApplyTextEditInput.HasRange (edit : ApplyTextEditInput) (original : Str)
    (lineEnding : ApplyTextLineEnding) : Option (Edit Char) → Prop
  | none => edit.kind.isInsertion = true ∧
      canonicalizeApplyTextLineEndings (edit.newText.getD []) lineEnding = .ok []
  | some range => ∃ needle found,
      canonicalizeApplyTextLineEndings edit.lookedFor lineEnding = .ok needle ∧
        Requested original needle edit.occurrence edit.lineScope
          (occurrences needle original) found ∧
        canonicalizeApplyTextLineEndings (edit.newText.getD []) lineEnding = .ok range.content ∧
        match edit.kind with
        | .insertBefore => range.start = found.start ∧ range.stop = found.start
        | .insertAfter => range.start = found.stop ∧ range.stop = found.stop
        | .replaceExact | .deleteExact => range.start = found.start ∧ range.stop = found.stop

theorem mapError_eq_ok {D E A : Type} {f : D → E} {x : Except D A} {value : A} :
    x.mapError f = .ok value ↔ x = .ok value := by
  cases x <;> simp [Except.mapError]

theorem editTexts_reindex {texts : Str × Str} (other : ℕ) (h : editTexts index edit = .ok texts) :
    editTexts other edit = .ok texts := by
  unfold editTexts at h ⊢
  split at h <;> simpa only [bind_eq_ok, required_eq_ok, ensure_eq_ok] using h

/-- An edit looks for its anchor or its old text, and puts in the new text that it was given. -/
theorem eq_of_editTexts {texts : Str × Str} (h : editTexts index edit = .ok texts) :
    texts = (edit.lookedFor, edit.newText.getD []) := by
  unfold editTexts at h
  unfold ApplyTextEditInput.lookedFor ApplyTextEditKind.isInsertion
  split at h <;> rename_i hkind <;>
    simp only [bind_eq_ok, required_eq_ok, ensure_eq_ok, Option.filter_eq_some_iff] at h
  · obtain ⟨old, ⟨hold, -⟩, _, -, h⟩ := h
    rw [← Except.ok.inj h, hkind, hold]
    rfl
  · obtain ⟨old, ⟨hold, -⟩, _, hnone, h⟩ := h
    rw [← Except.ok.inj h, hkind, hold, Option.isNone_iff_eq_none.mp
      (Bool.and_eq_true_iff.mp hnone).1]
    rfl
  all_goals
    obtain ⟨_, ⟨hanchor, -⟩, newText, hnew, _, -, h⟩ := h
    rw [← Except.ok.inj h, hkind, hanchor, hnew]
    rfl

/-- The range of an edit is the one that it stands for. -/
theorem hasRange_resolvedRange (h : Resolvable original lineEnding edit) :
    edit.HasRange original lineEnding (resolvedRange original lineEnding edit) := by
  obtain ⟨_, hplanned⟩ := h
  rw [resolvedRange, hplanned]
  simp only [resolveEdit, bind_eq_ok, ensure_eq_ok, mapError_eq_ok] at hplanned
  obtain ⟨_, -, _, -, _, htexts, _, -, _, -, needle, hneedle, _, hreplacement, h⟩ := hplanned
  obtain rfl := eq_of_editTexts htexts
  split_ifs at h with hnothing
  · obtain rfl := Except.ok.inj h
    rw [Bool.and_eq_true_iff, List.isEmpty_iff] at hnothing
    exact ⟨hnothing.1, hnothing.2 ▸ hreplacement⟩
  · simp only [bind_eq_ok, mapError_eq_ok] at h
    obtain ⟨range, hrange, h⟩ := h
    obtain rfl := Except.ok.inj h
    rcases resolveApplyTextMatch_cases original needle edit.occurrence edit.lineScope with
      ⟨found, hfound, hresult⟩ | ⟨-, hresult⟩ <;> rw [hresult] at hrange
    · obtain rfl := Except.ok.inj hrange
      refine ⟨needle, found, hneedle, hfound, hreplacement, ?_⟩
      unfold editRange PlannedEdit.range
      split <;> simp [*]
    · cases hrange

/-- The place of an edit in the batch makes no difference to its range. -/
theorem resolveEdit_reindex {planned : Option PlannedEdit} (other : ℕ)
    (h : resolveEdit original lineEnding edit index = .ok planned) :
    resolveEdit original lineEnding edit other =
      .ok (planned.map fun op ↦ { op with index := other }) := by
  simp only [resolveEdit, bind_eq_ok, ensure_eq_ok, mapError_eq_ok] at h ⊢
  obtain ⟨_, hoccurrence, _, hscope, texts, htexts, _, hnul, _, hsize, needle, hneedle, replacement,
    hreplacement, h⟩ := h
  have hscope' : (edit.lineScope.forM fun scope ↦
      scope.validate.mapError (plain other edit.kind.asStr)) = .ok () := by
    cases hlines : edit.lineScope with
    | none => rfl
    | some =>
      rw [hlines] at hscope
      exact mapError_eq_ok.mpr (mapError_eq_ok.mp hscope)
  refine ⟨(), hoccurrence, (), hscope', texts, editTexts_reindex other htexts, (), hnul, (),
    hsize, needle, hneedle, replacement, hreplacement, ?_⟩
  split_ifs at h ⊢
  · obtain rfl := Except.ok.inj h
    rfl
  · simp only [bind_eq_ok, mapError_eq_ok] at h ⊢
    obtain ⟨range, hrange, h⟩ := h
    obtain rfl := Except.ok.inj h
    exact ⟨range, hrange, rfl⟩

theorem resolvedRange_of_ok {planned : Option PlannedEdit}
    (h : resolveEdit original lineEnding edit index = .ok planned) :
    Resolvable original lineEnding edit ∧
      resolvedRange original lineEnding edit = planned.map PlannedEdit.range := by
  have hzero := resolveEdit_reindex 0 h
  refine ⟨⟨_, hzero⟩, ?_⟩
  rw [resolvedRange, hzero]
  cases planned <;> rfl

/-- What the loop over the edits of a batch resolves, from some edit of the batch on. -/
theorem mapM_resolveEdit {planned : List (Option PlannedEdit)} (first : ℕ)
    (h : (edits.zipIdx first).mapM
      (fun (edit, index) ↦ resolveEdit original lineEnding edit index) = .ok planned) :
    (∀ edit ∈ edits, Resolvable original lineEnding edit) ∧
      planned.reduceOption.map PlannedEdit.range = resolvedRanges original lineEnding edits ∧
      planned.reduceOption.Pairwise (·.index < ·.index) ∧
      ∀ op ∈ planned.reduceOption, (first ≤ op.index ∧ op.index < first + edits.length) ∧
        ∃ replaced, textBetween original op.start op.stop = some replaced := by
  induction edits generalizing first planned with
  | nil =>
    obtain rfl := Except.ok.inj h
    exact ⟨nofun, rfl, .nil, nofun⟩
  | cons edit _ ih =>
    simp only [List.zipIdx_cons, List.mapM_cons, bind_eq_ok] at h
    obtain ⟨head, hhead, _, htail, h⟩ := h
    obtain rfl := Except.ok.inj h
    obtain ⟨hresolvable, hranges, hindexes, hops⟩ := ih (first + 1) htail
    obtain ⟨hedit, hrange⟩ := resolvedRange_of_ok hhead
    have hop := (ends_resolveEdit original lineEnding edit first).of_eq_ok hhead
    refine ⟨List.forall_mem_cons.mpr ⟨hedit, hresolvable⟩, ?_⟩
    rw [List.length_cons, resolvedRanges, List.filterMap_cons, hrange]
    cases head with
    | none =>
      exact ⟨hranges, hindexes, fun op hmem ↦ ⟨by have := (hops op hmem).1; omega,
        (hops op hmem).2⟩⟩
    | some op =>
      obtain ⟨_, hreplaced⟩ := hop op rfl
      refine ⟨congrArg (op.range :: ·) hranges, List.pairwise_cons.mpr ⟨fun other hother ↦
        ?_, hindexes⟩, List.forall_mem_cons.mpr ⟨⟨by omega, hreplaced⟩, fun other hother ↦ ?_⟩⟩
      · have := (hops other hother).1
        omega
      · exact ⟨by have := (hops other hother).1; omega, (hops other hother).2⟩

theorem exists_resolveEdits (h : ∀ edit ∈ edits, Resolvable original lineEnding edit) :
    ∃ ops, resolveEdits original lineEnding edits = .ok ops := by
  obtain ⟨planned, hplanned⟩ : ∃ planned, edits.zipIdx.mapM
      (fun (edit, index) ↦ resolveEdit original lineEnding edit index) = .ok planned := by
    refine exists_mapM_ok fun item hitem ↦ ?_
    obtain ⟨planned, hplanned⟩ := h item.1 (List.fst_mem_of_mem_zipIdx hitem)
    exact ⟨_, resolveEdit_reindex item.2 hplanned⟩
  exact ⟨planned.reduceOption, by rw [resolveEdits, hplanned]; rfl⟩

variable {ops : List PlannedEdit}

/-- The edits of a batch that are resolved. -/
theorem resolveEdits_eq_ok (h : resolveEdits original lineEnding edits = .ok ops) :
    (∀ edit ∈ edits, Resolvable original lineEnding edit) ∧
      ops.map PlannedEdit.range = resolvedRanges original lineEnding edits ∧
      ops.Pairwise (·.index < ·.index) ∧
      ∀ op ∈ ops, op.index < edits.length ∧
        ∃ replaced, textBetween original op.start op.stop = some replaced := by
  rw [resolveEdits, bind_eq_ok] at h
  obtain ⟨_, hplanned, h⟩ := h
  obtain rfl := Except.ok.inj h
  obtain ⟨hresolvable, hranges, hindexes, hops⟩ := mapM_resolveEdit 0 hplanned
  exact ⟨hresolvable, hranges, hindexes, fun op hop ↦
    ⟨by have := (hops op hop).1; omega, (hops op hop).2⟩⟩

theorem ends_resolveEdits (original : Str) (lineEnding : ApplyTextLineEnding)
    (edits : List ApplyTextEditInput) :
    Ends Failure.IsReported (fun ops ↦ resolveEdits original lineEnding edits = .ok ops)
      (resolveEdits original lineEnding edits) := by
  have h : Ends Failure.IsReported (fun planned ↦ edits.zipIdx.mapM
        (fun (edit, index) ↦ resolveEdit original lineEnding edit index) = .ok planned)
      (edits.zipIdx.mapM fun (edit, index) ↦ resolveEdit original lineEnding edit index) :=
    Ends.mapM fun item _ ↦ (ends_resolveEdit original lineEnding item.1 item.2).mono fun _ _ ↦
      trivial
  unfold resolveEdits
  exact h.bind fun planned hplanned ↦ .pure (by rw [hplanned]; rfl)

/-! ### Sorting and comparing -/

instance : IsTrans PlannedEdit PlannedEdit.KeyLe := ⟨fun _ _ _ _ _ ↦ by
  unfold PlannedEdit.KeyLe at *
  omega⟩

instance : Std.Total PlannedEdit.KeyLe := ⟨fun _ _ ↦ by
  unfold PlannedEdit.KeyLe
  omega⟩

theorem firstOverlap_eq_none :
    firstOverlap ops = none ↔ (ops.map PlannedEdit.range).IsChain Edit.Before := by
  fun_induction firstOverlap ops with
  | case1 first second =>
    refine iff_of_false nofun fun h ↦ ?_
    have hbefore : first.stop ≤ second.start := h.rel
    omega
  | case2 _ _ _ hbefore ih =>
    simp only [List.map_cons] at ih ⊢
    rw [ih, List.isChain_cons_cons]
    exact ⟨fun h ↦ ⟨Nat.not_lt.mp hbefore, h⟩, fun h ↦ h.2⟩
  | case3 ops hshort =>
    match ops with
    | [] => exact iff_of_true rfl .nil
    | [_] => exact iff_of_true rfl (.singleton _)
    | first :: second :: rest => exact absurd rfl (hshort first second rest)

/-- The edits that insert at a position are in the order of the batch, also when they are sorted. -/
theorem insertedAt_sorted (hindexes : ops.Pairwise (·.index < ·.index)) (p : ℕ) :
    insertedAt ((ops.insertionSort PlannedEdit.KeyLe).map PlannedEdit.range) p =
      insertedAt (ops.map PlannedEdit.range) p := by
  have hsorted := List.pairwise_insertionSort PlannedEdit.KeyLe ops
  have hperm := List.perm_insertionSort PlannedEdit.KeyLe ops
  have hsame : (ops.insertionSort PlannedEdit.KeyLe).filter (fun op ↦ op.range.InsertsAt p) =
      ops.filter fun op ↦ op.range.InsertsAt p := by
    -- Two edits of the batch with the same index are the same.
    have hunique : ∀ a b, a ∈ (ops.insertionSort PlannedEdit.KeyLe).filter
      (fun op ↦ op.range.InsertsAt p) →
        b ∈ ops.filter (fun op ↦ op.range.InsertsAt p) → a.index ≤ b.index → b.index ≤ a.index →
            a = b := by
      intro a b ha hb hab hba
      by_contra hne
      have : Std.Symm fun a b : PlannedEdit ↦ a.index ≠ b.index := ⟨fun _ _ ↦ Ne.symm⟩
      exact (hindexes.imp Nat.ne_of_lt).forall (hperm.mem_iff.mp (List.mem_of_mem_filter ha))
        (List.mem_of_mem_filter hb) hne (Nat.le_antisymm hab hba)
    refine List.Perm.eq_of_pairwise hunique ?_ ((hindexes.imp Nat.le_of_lt).filter _)
      (hperm.filter _)
    refine (hsorted.filter _).imp_of_mem fun {a b} ha hb hle ↦ ?_
    have hat : a.start = p ∧ a.stop = p := of_decide_eq_true (List.mem_filter.mp ha).2
    have hbt : b.start = p ∧ b.stop = p := of_decide_eq_true (List.mem_filter.mp hb).2
    unfold PlannedEdit.KeyLe at hle
    omega
  rw [insertedAt, insertedAt, List.filter_map, List.filter_map]
  exact congrArg (fun chosen ↦ (chosen.map PlannedEdit.range).flatMap Edit.content) hsame

/-! ### Putting the text together -/

theorem measure_utf8Size (text : Str) : measure Char.utf8Size text = utf8Len text := by
  induction text with
  | nil => rfl
  | cons _ _ ih => rw [measure_cons, ih, String.utf8Len_cons, Nat.add_comm]

/-- Of two cuts of a text, the later one cuts what is behind the earlier one. -/
theorem exists_gap {front rest before back : Str} (h : front ++ rest = before ++ back)
    (hle : utf8Len front ≤ utf8Len before) : ∃ gap, before = front ++ gap ∧ rest = gap ++ back := by
  rcases List.append_eq_append_iff.mp h with ⟨gap, rfl, rfl⟩ | ⟨common, rfl, rfl⟩
  · exact ⟨gap, rfl, rfl⟩
  · rw [String.utf8Len_append] at hle
    obtain rfl := String.utf8Len_eq_zero.mp (show utf8Len common = 0 by omega)
    exact ⟨[], by simp, by simp⟩

theorem exists_summarize {op : PlannedEdit} (hindex : op.index < edits.length)
    (hrange : ∃ replaced, textBetween original op.start op.stop = some replaced) :
    ∃ summary, summarize original edits op = some summary := by
  obtain ⟨replaced, hrange⟩ := hrange
  obtain ⟨front, back, htext, hstart, hstop⟩ := textBetween_eq_some_iff.mp hrange
  have hbefore : textBetween original 0 op.start = some front :=
    textBetween_eq_some_iff.mpr ⟨[], replaced ++ back, htext, rfl, by simpa using hstart⟩
  have hupTo : textBetween original 0 op.stop = some (front ++ replaced) :=
    textBetween_eq_some_iff.mpr ⟨[], back, by simpa using htext, rfl, by
      rw [String.utf8Len_nil, Nat.zero_add, String.utf8Len_append, hstop]⟩
  rw [summarize, hbefore, hupTo, List.getElem?_eq_getElem hindex]
  exact ⟨_, rfl⟩

/-- In order and between characters, the ranges are substituted from left to right. -/
theorem assemble_eq {ops : List PlannedEdit} {front rest : Str} (htext : original = front ++ rest)
    (hbefore : (ops.map PlannedEdit.range).Pairwise Edit.Before)
    (hcursor : ∀ op ∈ ops, utf8Len front ≤ op.start)
    (hops : ∀ op ∈ ops, op.index < edits.length ∧
      ∃ replaced, textBetween original op.start op.stop = some replaced) :
    ∃ summaries, assemble original edits (utf8Len front) ops =
      some (atOnce Char.utf8Size (ops.map PlannedEdit.range) (utf8Len front) rest, summaries) := by
  induction ops generalizing front rest with
  | nil =>
    have hrest : textBetween original (utf8Len front) (utf8Len original) = some rest :=
      textBetween_eq_some_iff.mpr ⟨front, [], by simpa using htext, rfl, by
        rw [htext, String.utf8Len_append]⟩
    exact ⟨[], by rw [assemble, hrest, List.map_nil, atOnce_nil]; rfl⟩
  | cons op ops ih =>
    obtain ⟨hop, hlater⟩ := List.forall_mem_cons.mp hops
    obtain ⟨hfirst, hpairwise⟩ := List.pairwise_cons.mp hbefore
    obtain ⟨replaced, hreplaced⟩ := hop.2
    obtain ⟨_, back, hsplit, hstart, hstop⟩ := textBetween_eq_some_iff.mp hreplaced
    obtain ⟨gap, rfl, rfl⟩ := exists_gap (htext.symm.trans hsplit)
      (hstart ▸ hcursor op List.mem_cons_self)
    have hafter : utf8Len (front ++ gap ++ replaced) = op.stop := by
      rw [String.utf8Len_append, hstop]
    have hranges : ∀ other ∈ ops.map PlannedEdit.range,
        op.stop ≤ other.start ∧ other.start ≤ other.stop := by
      intro other hother
      obtain ⟨later, hmem, rfl⟩ := List.mem_map.mp hother
      obtain ⟨-, _, htext'⟩ := hlater later hmem
      obtain ⟨_, _, _, _, _⟩ := textBetween_eq_some_iff.mp htext'
      exact ⟨hfirst _ hother, show later.start ≤ later.stop by omega⟩
    obtain ⟨summaries, hrest⟩ := @ih (front ++ gap ++ replaced) back
      (by rw [hsplit]; simp) hpairwise (fun later hmem ↦ hafter ▸
        hfirst _ (List.mem_map_of_mem hmem)) hlater
    obtain ⟨summary, hsummary⟩ := exists_summarize hop.1 hop.2
    have hgap : textBetween original (utf8Len front) op.start = some gap :=
      textBetween_eq_some_iff.mpr ⟨front, replaced ++ back, by rw [hsplit]; simp, rfl, by
        rw [← hstart, String.utf8Len_append]⟩
    rw [hafter] at hrest
    refine ⟨summary :: summaries, ?_⟩
    rw [assemble, hgap, hsummary, hrest]
    refine congrArg some (congrArg (·, summary :: summaries) ?_)
    have hsize : ∀ letter : Char, 0 < letter.utf8Size := Char.utf8Size_pos
    have hposition : utf8Len front + measure Char.utf8Size gap = op.start := by
      rw [measure_utf8Size, ← hstart, String.utf8Len_append]
    have hmeasure : op.stop = op.start + measure Char.utf8Size replaced := by
      rw [measure_utf8Size, ← hstop, hstart]
    rw [atOnce_gap hsize, hposition, List.map_cons]
    · refine congrArg (gap ++ ·) ?_
      rcases Nat.lt_or_ge op.start op.stop with hlt | hge
      · have hreplaces : op.range.ReplacesFrom op.start := ⟨rfl, hlt⟩
        exact (atOnce_replacement hsize hreplaces hmeasure hranges).symm
      · have hnone : replaced = [] := by
          rw [← String.utf8Len_eq_zero, ← measure_utf8Size]
          omega
        have hsame : op.stop = op.start := by
          rw [hmeasure, hnone, measure_nil, Nat.add_zero]
        have hinserts : op.range.InsertsAt op.start := ⟨rfl, hsame⟩
        rw [hnone, List.nil_append, hsame]
        exact (atOnce_insertion hsize hinserts).symm
    · intro other hother
      rw [hposition]
      rcases List.mem_cons.mp hother with rfl | hmem
      · exact ⟨le_rfl, show op.start ≤ op.stop by omega⟩
      · exact ⟨by have := (hranges other hmem).1; omega, (hranges other hmem).2⟩

/-! ### Batches -/

/-- What a batch needs to be planned: each of its edits is resolved for itself, and no two ranges
overlap. -/
structure Plannable (original : Str) (edits : List ApplyTextEditInput)
    (lineEnding : ApplyTextLineEnding) (canonical : Str) : Prop where
  count : edits ≠ [] ∧ edits.length ≤ applyTextEditsMaxEdits
  detected : detectApplyTextLineEnding original = .ok lineEnding
  canonicalized : canonicalizeApplyTextLineEndings original lineEnding = .ok canonical
  resolvable : ∀ edit ∈ edits, Resolvable canonical lineEnding edit
  apart : (resolvedRanges canonical lineEnding edits).Pairwise fun first second ↦
    ¬ first.Overlaps second

/-- The text with all the ranges of a batch substituted at once. -/
def substituted (canonical : Str) (lineEnding : ApplyTextLineEnding)
    (edits : List ApplyTextEditInput) :
    Str :=
  restoreApplyTextLineEndings
    (atOnce Char.utf8Size (resolvedRanges canonical lineEnding edits) 0 canonical) lineEnding

theorem Plannable.perm {others : List ApplyTextEditInput}
    (h : Plannable original edits lineEnding canonical) (hperm : others.Perm edits) :
    Plannable original others lineEnding canonical where
  count := ⟨fun hnil ↦ h.count.1 (List.nil_perm.mp (hnil ▸ hperm)), hperm.length_eq ▸ h.count.2⟩
  detected := h.detected
  canonicalized := h.canonicalized
  resolvable := fun edit hedit ↦ h.resolvable edit (hperm.mem_iff.mp hedit)
  apart := h.apart.perm (hperm.filterMap _).symm fun hapart hoverlap ↦ hapart hoverlap.symm

/-- What resolves in a batch, sorted: the ranges are in order just when no two of the batch
overlap. -/
theorem sorted_before_iff (h : resolveEdits canonical lineEnding edits = .ok ops) :
    ((ops.insertionSort PlannedEdit.KeyLe).map PlannedEdit.range).Pairwise Edit.Before ↔
      (resolvedRanges canonical lineEnding edits).Pairwise fun first second ↦
        ¬ first.Overlaps second := by
  obtain ⟨-, hranges, -, hops⟩ := resolveEdits_eq_ok h
  have hperm := List.perm_insertionSort PlannedEdit.KeyLe ops
  have hordered : ∀ range ∈ (ops.insertionSort PlannedEdit.KeyLe).map PlannedEdit.range,
      range.start ≤ range.stop := by
    intro range hrange
    obtain ⟨op, hop, rfl⟩ := List.mem_map.mp hrange
    obtain ⟨-, _, hreplaced⟩ := hops op (hperm.mem_iff.mp hop)
    obtain ⟨_, _, _, _, _⟩ := textBetween_eq_some_iff.mp hreplaced
    exact show op.start ≤ op.stop by omega
  have hsorted : ((ops.insertionSort PlannedEdit.KeyLe).map PlannedEdit.range).Pairwise
      Edit.RangeLe := by
    refine List.pairwise_map.mpr
      ((List.pairwise_insertionSort PlannedEdit.KeyLe ops).imp fun {a b} hle ↦ ?_)
    exact show a.start < b.start ∨ a.start = b.start ∧ a.stop ≤ b.stop by
      unfold PlannedEdit.KeyLe at hle
      omega
  rw [pairwise_before_iff hordered hsorted, ← hranges]
  exact (hperm.map PlannedEdit.range).pairwise_iff fun hapart hoverlap ↦ hapart hoverlap.symm

/-- Edits that do not overlap are put together to the text with all their ranges substituted at
once. -/
theorem exists_assemble (h : resolveEdits canonical lineEnding edits = .ok ops)
    (hbefore : ((ops.insertionSort PlannedEdit.KeyLe).map PlannedEdit.range).Pairwise Edit.Before) :
    ∃ summaries, assemble canonical edits 0 (ops.insertionSort PlannedEdit.KeyLe) =
      some (atOnce Char.utf8Size (resolvedRanges canonical lineEnding edits) 0 canonical,
        summaries) := by
  obtain ⟨-, hranges, hindexes, hops⟩ := resolveEdits_eq_ok h
  have hperm := List.perm_insertionSort PlannedEdit.KeyLe ops
  obtain ⟨summaries, hassemble⟩ := @assemble_eq canonical edits _ [] canonical rfl hbefore
    (fun op _ ↦ Nat.zero_le op.start) fun op hop ↦ hops op (hperm.mem_iff.mp hop)
  refine ⟨summaries, hassemble.trans (congrArg (fun text ↦ some (text, summaries)) ?_)⟩
  have hapart : ((ops.insertionSort PlannedEdit.KeyLe).map PlannedEdit.range).Pairwise
      fun first second ↦ ¬ first.Overlaps second :=
    hbefore.imp fun {first second} (hle : first.stop ≤ second.start) hoverlap ↦
      Nat.not_lt_of_le hle hoverlap.2
  rw [← hranges]
  exact atOnce_perm (hperm.map _) hapart fun p ↦ insertedAt_sorted hindexes p

/-- Sorted edits whose neighbours do not overlap are in order. -/
theorem pairwise_before_of_firstOverlap (h : resolveEdits canonical lineEnding edits = .ok ops)
    (hnone : firstOverlap (ops.insertionSort PlannedEdit.KeyLe) = none) :
    ((ops.insertionSort PlannedEdit.KeyLe).map PlannedEdit.range).Pairwise Edit.Before := by
  refine pairwise_before_of_neighbours (fun range hrange ↦ ?_) (firstOverlap_eq_none.mp hnone)
  obtain ⟨op, hop, rfl⟩ := List.mem_map.mp hrange
  have hmem := (List.perm_insertionSort PlannedEdit.KeyLe ops).mem_iff.mp hop
  obtain ⟨-, _, hreplaced⟩ := (resolveEdits_eq_ok h).2.2.2 op hmem
  obtain ⟨_, _, _, _, _⟩ := textBetween_eq_some_iff.mp hreplaced
  exact show op.start ≤ op.stop by omega

theorem mem_of_firstOverlap {pair : PlannedEdit × PlannedEdit} (h : firstOverlap ops = some pair) :
    pair.2 ∈ ops := by
  fun_induction firstOverlap ops with
  | case1 =>
    obtain rfl := Option.some.inj h
    exact List.mem_cons_of_mem _ List.mem_cons_self
  | case2 _ _ _ _ ih => exact List.mem_cons_of_mem _ (ih h)
  | case3 => cases h

/-- A batch that meets the conditions is planned. -/
theorem editPlan_of_plannable (h : Plannable original edits lineEnding canonical) :
    ∃ summaries, editPlan original edits = .ok (substituted canonical lineEnding edits,
      summaries) := by
  obtain ⟨ops, hops⟩ := exists_resolveEdits h.resolvable
  have hbefore := (sorted_before_iff hops).mpr h.apart
  obtain ⟨summaries, hassemble⟩ := exists_assemble hops hbefore
  have hnone : firstOverlap (ops.insertionSort PlannedEdit.KeyLe) = none :=
    firstOverlap_eq_none.mpr hbefore.isChain
  have hcount : (!(edits.isEmpty || decide (applyTextEditsMaxEdits < edits.length))) = true := by
    simpa using h.count
  refine ⟨summaries, ?_⟩
  rw [editPlan, hcount, ensure_true, ok_bind, h.detected, Except.mapError, ok_bind, h.canonicalized,
    Except.mapError, ok_bind, hops, ok_bind]
  dsimp only
  rw [hnone]
  rw [hassemble]
  rfl

/-- A batch that is planned meets the conditions, and any other one is refused with an error. -/
theorem ends_editPlan (original : Str) (edits : List ApplyTextEditInput) : Ends Failure.IsReported
      (fun _ ↦ ∃ lineEnding canonical, Plannable original edits lineEnding canonical)
      (editPlan original edits) := by
  have hplain := isReported_plain 0 "edit"
  refine (Ends.ensure (hplain _)).bind fun _ hcount ↦ (Ends.mapError hplain).bind fun lineEnding
      hdetected ↦
    (Ends.mapError hplain).bind fun canonical hcanonical ↦
    (ends_resolveEdits canonical lineEnding edits).bind fun ops hops ↦ ?_
  dsimp only
  split
  · next pair hpair =>
    have hmem := (List.perm_insertionSort PlannedEdit.KeyLe ops).mem_iff.mp
      (mem_of_firstOverlap hpair)
    rw [List.getElem?_eq_getElem ((resolveEdits_eq_ok hops).2.2.2 _ hmem).1]
    exact show Failure.IsReported _ from nofun
  · next hnone =>
    have hbefore := pairwise_before_of_firstOverlap hops hnone
    obtain ⟨_, hassemble⟩ := exists_assemble hops hbefore
    rw [hassemble]
    exact ⟨lineEnding, canonical, by simpa using hcount, hdetected, hcanonical,
      (resolveEdits_eq_ok hops).1, (sorted_before_iff hops).mp hbefore⟩

/-- The ranges of a batch lie between characters of the canonical original. -/
theorem textBetween_of_mem_resolvedRanges {range : Edit Char}
    (h : range ∈ resolvedRanges original lineEnding edits) :
    ∃ replaced, textBetween original range.start range.stop = some replaced := by
  obtain ⟨edit, -, hrange⟩ := List.mem_filterMap.mp h
  unfold resolvedRange at hrange
  split at hrange
  · next planned hplanned =>
    obtain ⟨op, hop, rfl⟩ := Option.map_eq_some_iff.mp hrange
    exact ((ends_resolveEdit original lineEnding edit 0).of_eq_ok hplanned op hop).2
  · cases hrange

/-- Batches are simultaneous substitutions. No batch makes the planning panic; a batch is planned
just when its edits are resolved and no two ranges overlap; what is planned is the original with all
ranges, which are those that the edits stand for and lie between characters, substituted at once,
and in any other order the batch is planned to the same text but for the order of insertions at one
position. -/
theorem edits_are_simultaneous (original : Str) (edits : List ApplyTextEditInput) :
    editPlan original edits ≠ .error .panicked ∧
      ((∃ output, editPlan original edits = .ok output) ↔
        ∃ lineEnding canonical, Plannable original edits lineEnding canonical) ∧
      ∀ lineEnding canonical, Plannable original edits lineEnding canonical →
        (∃ summaries,
          editPlan original edits = .ok (substituted canonical lineEnding edits, summaries)) ∧
        (∀ edit ∈ edits,
          edit.HasRange canonical lineEnding (resolvedRange canonical lineEnding edit)) ∧
        (∀ range ∈ resolvedRanges canonical lineEnding edits,
          ∃ replaced, textBetween canonical range.start range.stop = some replaced) ∧
        ∀ others : List ApplyTextEditInput, others.Perm edits →
          (∃ summaries,
            editPlan original others = .ok (substituted canonical lineEnding others, summaries)) ∧
          (resolvedRanges canonical lineEnding others).Perm
          (resolvedRanges canonical lineEnding edits) ∧
          ((∀ p, insertedAt (resolvedRanges canonical lineEnding others) p =
              insertedAt (resolvedRanges canonical lineEnding edits) p) →
            substituted canonical lineEnding others = substituted canonical lineEnding edits) := by
  refine ⟨fun hpanicked ↦ (ends_editPlan original edits).of_eq_error hpanicked rfl, ⟨?_, ?_⟩, ?_⟩
  · rintro ⟨output, houtput⟩
    exact (ends_editPlan original edits).of_eq_ok houtput
  · rintro ⟨lineEnding, canonical, h⟩
    obtain ⟨summaries, hplan⟩ := editPlan_of_plannable h
    exact ⟨_, hplan⟩
  · intro lineEnding canonical h
    refine ⟨editPlan_of_plannable h, fun edit hedit ↦ hasRange_resolvedRange
      (h.resolvable edit hedit), fun range ↦ textBetween_of_mem_resolvedRanges,
        fun others hothers ↦ ?_⟩
    have hperm : (resolvedRanges canonical lineEnding others).Perm
        (resolvedRanges canonical lineEnding edits) := hothers.filterMap _
    refine ⟨editPlan_of_plannable (h.perm hothers), hperm, fun hinserted ↦ ?_⟩
    rw [substituted, substituted, atOnce_perm hperm (h.perm hothers).apart hinserted]

/-- A line in front of one that is replaced, and a text behind the line above. -/
def mixedBatch : List ApplyTextEditInput :=
  [{ kind := .replaceExact, oldText := some "b".toList, newText := some "c".toList },
    { kind := .insertBefore, anchorText := some "b".toList, newText := some "new\n".toList },
    { kind := .insertAfter, anchorText := some "a".toList, newText := some "!".toList }]

/-- The batch is planned, so that its edits are resolved and their ranges do not overlap. -/
theorem mixed_batch_is_planned :
    editPlan "a\r\nb\r\n".toList mixedBatch = .ok ("a!\r\nnew\r\nc\r\n".toList,
        [⟨2, "insert_after", 1, 1, 1⟩, ⟨1, "insert_before", 2, 2, 1⟩,
          ⟨0, "replace_exact", 2, 2, 1⟩]) ∧
      ∃ lineEnding canonical, Plannable "a\r\nb\r\n".toList mixedBatch lineEnding canonical := by
  have hplan : editPlan "a\r\nb\r\n".toList mixedBatch = .ok ("a!\r\nnew\r\nc\r\n".toList,
      [⟨2, "insert_after", 1, 1, 1⟩, ⟨1, "insert_before", 2, 2, 1⟩,
          ⟨0, "replace_exact", 2, 2, 1⟩]) := by
    decide +kernel
  exact ⟨hplan, (edits_are_simultaneous _ mixedBatch).2.1.mp ⟨_, hplan⟩⟩

end WebCodex.TextEdit
