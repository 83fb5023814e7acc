import WebCodex.TextEdit.Simultaneous

/-!
A file with a convention keeps it: its canonical form and the canonical new texts hold no carriage
return, and restoring gives every line feed its own again. A file without a line break has no
convention that new texts could be brought to. They are put in as they are, so a batch that brings
both kinds of line endings leaves a file behind that no batch is accepted for any more
(`stays_editable_iff`).
-/

namespace WebCodex.TextEdit

open String (utf8Len)
open Foundation Foundation.Text

variable {original canonical text output : Str} {lineEnding : ApplyTextLineEnding}
  {edit : ApplyTextEditInput} {edits : List ApplyTextEditInput} {index : ℕ}

/-! ### Both kinds of line endings -/

/-- Some line feed of the text has no carriage return in front of it. -/
def HasLoneLf (text : Str) : Prop := ∃ front back, text = front ++ '\n' :: back ∧
    front.getLast? ≠ some '\r'

def HasCrlf (text : Str) : Prop := ['\r', '\n'] <:+: text

/-- A file that holds no line break gets both kinds of line endings from the texts of the batch. -/
def MixesLineEndings (original : Str) (edits : List ApplyTextEditInput) : Prop :=
  detectApplyTextLineEnding original = .ok .none ∧
    (∃ edit ∈ edits, HasLoneLf (edit.newText.getD [])) ∧
      ∃ edit ∈ edits, HasCrlf (edit.newText.getD [])

/-- The text that edits made of the original: it is accepted again, and what line breaks it holds
are of the convention of the original, if that has one. -/
def StaysEditable (original output : Str) : Prop :=
  (∃ lineEnding, detectApplyTextLineEnding output = .ok lineEnding) ∧
    ∀ lineEnding ≠ ApplyTextLineEnding.none, detectApplyTextLineEnding original = .ok lineEnding →
      detectApplyTextLineEnding output = .ok lineEnding ∨
        detectApplyTextLineEnding output = .ok .none

theorem not_hasLoneLf_nil : ¬ HasLoneLf [] := by
  rintro ⟨_, _, h, -⟩
  simp at h

variable {c : Char}

theorem hasLoneLf_cons (hcr : c ≠ '\r') (hlf : c ≠ '\n') :
    HasLoneLf (c :: text) ↔ HasLoneLf text := by
  constructor
  · rintro ⟨front, back, h, hlast⟩
    cases front with
    | nil => exact absurd (List.cons.inj h).1 hlf
    | cons _ front =>
      obtain ⟨rfl, rfl⟩ := List.cons.inj h
      refine ⟨front, back, rfl, fun hend ↦ hlast ?_⟩
      rw [List.getLast?_cons, hend]
      rfl
  · rintro ⟨front, back, rfl, hlast⟩
    refine ⟨c :: front, back, rfl, fun hend ↦ ?_⟩
    rw [List.getLast?_cons] at hend
    cases hfront : front.getLast? with
    | none =>
      rw [hfront] at hend
      exact hcr (Option.some.inj hend)
    | some =>
      rw [hfront] at hend hlast
      exact hlast hend

theorem hasLoneLf_crlf : HasLoneLf ('\r' :: '\n' :: text) ↔ HasLoneLf text := by
  constructor
  · rintro ⟨front, back, h, hlast⟩
    match front with
    | [] => simp at h
    | [first] =>
      obtain ⟨rfl, -⟩ := List.cons.inj h
      exact absurd rfl hlast
    | first :: second :: front =>
      obtain ⟨-, h⟩ := List.cons.inj h
      obtain ⟨rfl, rfl⟩ := List.cons.inj h
      refine ⟨front, back, rfl, fun hend ↦ hlast ?_⟩
      rw [List.getLast?_cons, List.getLast?_cons, hend]
      rfl
  · rintro ⟨front, back, rfl, hlast⟩
    refine ⟨'\r' :: '\n' :: front, back, rfl, fun hend ↦ hlast ?_⟩
    rw [List.getLast?_cons, List.getLast?_cons] at hend
    cases hfront : front.getLast? with
    | none => simp [hfront] at hend
    | some => simpa [hfront] using hend

theorem hasLoneLf_lf : HasLoneLf ('\n' :: text) := ⟨[], text, rfl, nofun⟩

theorem hasCrlf_cons (hcr : c ≠ '\r') : HasCrlf (c :: text) ↔ HasCrlf text := by
  rw [HasCrlf, HasCrlf, List.infix_cons_iff]
  refine ⟨fun h ↦ h.resolve_left fun hprefix ↦ hcr ?_, Or.inr⟩
  exact ((List.cons_prefix_cons.mp hprefix).1).symm

theorem hasCrlf_crlf : HasCrlf ('\r' :: '\n' :: text) := ⟨[], text, rfl⟩

/-! ### Scanning -/

/-- The scan of a text without a bare carriage return finds the line endings that there are. -/
theorem scanLineEndings_of_not_hasBareCr (h : hasBareCr text = false) (sawLf sawCrlf : Bool) :
    ∃ loneLf crlf : Bool, scanLineEndings text sawLf sawCrlf = .ok
      (sawLf || loneLf, sawCrlf || crlf) ∧
      (loneLf = true ↔ HasLoneLf text) ∧ (crlf = true ↔ HasCrlf text) := by
  fun_induction scanLineEndings text sawLf sawCrlf with
  | case1 =>
    exact ⟨false, false, by simp, by simp [not_hasLoneLf_nil], by simp [HasCrlf]⟩
  | case2 _ _ _ ih =>
    obtain ⟨loneLf, crlf, hscan, hlone, -⟩ := ih (by simpa [hasBareCr] using h)
    exact ⟨loneLf, true, by simpa using hscan, hlone.trans hasLoneLf_crlf.symm,
      iff_of_true rfl hasCrlf_crlf⟩
  | case3 rest _ _ hbare =>
    cases rest with
    | nil => simp [hasBareCr] at h
    | cons _ rest =>
      simp only [hasBareCr, List.head?_cons, Bool.or_eq_false_iff, bne_eq_false_iff_eq,
        Option.some.injEq] at h
      exact absurd (congrArg (· :: rest) h.1) (hbare rest)
  | case4 _ _ _ ih =>
    obtain ⟨loneLf, crlf, hscan, -, hcrlf⟩ := ih (by simpa [hasBareCr] using h)
    exact ⟨true, crlf, by simpa using hscan, iff_of_true rfl hasLoneLf_lf,
      hcrlf.trans (hasCrlf_cons (by decide)).symm⟩
  | case5 c rest _ _ _ hcr hlf ih =>
    obtain ⟨loneLf, crlf, hscan, hlone, hcrlf⟩ := ih (hasBareCr.eq_3 c rest hcr ▸ h)
    exact ⟨loneLf, crlf, hscan, hlone.trans (hasLoneLf_cons hcr hlf).symm,
      hcrlf.trans (hasCrlf_cons hcr).symm⟩

variable {sawLf sawCrlf : Bool}

/-- Behind a text that was scanned, the scan goes on. -/
theorem scanLineEndings_append {sawLf' sawCrlf' : Bool} (rest : Str)
    (h : scanLineEndings text sawLf sawCrlf = .ok (sawLf', sawCrlf')) :
    scanLineEndings (text ++ rest) sawLf sawCrlf = scanLineEndings rest sawLf' sawCrlf' := by
  fun_induction scanLineEndings text sawLf sawCrlf with
  | case1 =>
    obtain ⟨rfl, rfl⟩ := Prod.mk.inj (Except.ok.inj h)
    rfl
  | case2 _ _ _ ih => exact ih h
  | case3 => cases h
  | case4 _ _ _ ih => exact ih h
  | case5 _ _ _ _ _ hcr hlf ih =>
    rw [List.cons_append, scanLineEndings.eq_5 _ _ _ _ (fun _ hsame ↦ (hcr hsame).elim) hcr hlf]
    exact ih h

/-- A text without line breaks is passed over. -/
theorem scanLineEndings_of_notMem (hcr : '\r' ∉ text) (hlf : '\n' ∉ text) (sawLf sawCrlf : Bool) :
    scanLineEndings text sawLf sawCrlf = .ok (sawLf, sawCrlf) := by
  induction text with
  | nil => rfl
  | cons _ _ ih =>
    simp only [List.mem_cons, not_or] at hcr hlf
    rw [scanLineEndings.eq_5 _ _ _ _ (fun _ hsame ↦ absurd hsame.symm hcr.1) (fun hsame ↦
      hcr.1 hsame.symm) fun hsame ↦ hlf.1 hsame.symm]
    exact ih hcr.2 hlf.2

/-- What the scan has seen when it meets a line break. -/
theorem seen_of_scanLineEndings {sawLf' sawCrlf' : Bool}
    (h : scanLineEndings text sawLf sawCrlf = .ok (sawLf', sawCrlf')) :
    (sawLf = true → sawLf' = true) ∧ (sawCrlf = true → sawCrlf' = true) ∧
      ('\r' ∈ text → sawCrlf' = true) ∧ ('\n' ∈ text → sawLf' = true ∨ sawCrlf' = true) := by
  fun_induction scanLineEndings text sawLf sawCrlf with
  | case1 =>
    obtain ⟨rfl, rfl⟩ := Prod.mk.inj (Except.ok.inj h)
    exact ⟨id, id, nofun, nofun⟩
  | case2 _ _ _ ih =>
    obtain ⟨hlf, hcrlf, -, -⟩ := ih h
    exact ⟨hlf, fun _ ↦ hcrlf rfl, fun _ ↦ hcrlf rfl, fun _ ↦ .inr (hcrlf rfl)⟩
  | case3 => cases h
  | case4 _ _ _ ih =>
    obtain ⟨hlf, hcrlf, hmemCr, -⟩ := ih h
    refine ⟨fun _ ↦ hlf rfl, hcrlf, fun hmem ↦ hmemCr ?_, fun _ ↦ .inl (hlf rfl)⟩
    simpa using hmem
  | case5 _ _ _ _ _ hcr hlf ih =>
    obtain ⟨hsawLf, hsawCrlf, hmemCr, hmemLf⟩ := ih h
    exact ⟨hsawLf, hsawCrlf, fun hmem ↦ hmemCr ((List.mem_cons.mp hmem).resolve_left fun hsame ↦
      hcr hsame.symm), fun hmem ↦ hmemLf ((List.mem_cons.mp hmem).resolve_left fun hsame ↦
        hlf hsame.symm)⟩

theorem detectApplyTextLineEnding_eq_ok :
    detectApplyTextLineEnding text = .ok lineEnding ↔
      scanLineEndings text false false = .ok (lineEnding == .lf, lineEnding == .crlf) := by
  unfold detectApplyTextLineEnding
  cases hscan : scanLineEndings text false false with
  | error => exact iff_of_false nofun nofun
  | ok seen =>
    obtain ⟨sawLf, sawCrlf⟩ := seen
    cases sawLf <;> cases sawCrlf <;> cases lineEnding <;> simp

/-- A file is accepted unless both kinds of line endings were seen. -/
theorem exists_detectApplyTextLineEnding
    (h : scanLineEndings text false false = .ok (sawLf, sawCrlf)) :
    (∃ lineEnding, detectApplyTextLineEnding text = .ok lineEnding) ↔
      ¬ (sawLf = true ∧ sawCrlf = true) := by
  unfold detectApplyTextLineEnding
  rw [h]
  cases sawLf <;> cases sawCrlf <;> simp

theorem notMem_replaceCrlf (h : hasBareCr text = false) : '\r' ∉ replaceCrlf text := by
  fun_induction replaceCrlf text with
  | case1 text ih =>
    have hrest : '\r' ∉ replaceCrlf text := ih (by simpa [hasBareCr] using h)
    simpa using hrest
  | case2 c text hcrlf ih =>
    have hcr : c ≠ '\r' := by
      rintro rfl
      cases text with
      | nil => simp [hasBareCr] at h
      | cons _ text =>
        simp only [hasBareCr, List.head?_cons, Bool.or_eq_false_iff, bne_eq_false_iff_eq,
          Option.some.injEq] at h
        exact hcrlf text rfl (congrArg (· :: text) h.1)
    have hrest := ih (hasBareCr.eq_3 c text hcr ▸ h)
    exact fun hmem ↦ (List.mem_cons.mp hmem).elim (fun hsame ↦ hcr hsame.symm) hrest
  | case3 => exact nofun

/-- Canonical text has no carriage return where there is a convention. -/
theorem notMem_of_canonicalize (hconvention : lineEnding ≠ .none)
    (h : canonicalizeApplyTextLineEndings text lineEnding = .ok canonical) : '\r' ∉ canonical := by
  unfold canonicalizeApplyTextLineEndings at h
  split_ifs at h with hnone hbare hending
  · obtain rfl := Except.ok.inj h
    simpa using hnone
  · exact absurd (eq_of_beq hending) hconvention
  · obtain rfl := Except.ok.inj h
    exact notMem_replaceCrlf (Bool.not_eq_true _ ▸ hbare)

theorem hasBareCr_of_notMem (h : '\r' ∉ text) : hasBareCr text = false := by
  induction text with
  | nil => rfl
  | cons _ _ ih =>
    simp only [List.mem_cons, not_or] at h
    rw [hasBareCr.eq_3 _ _ fun hsame ↦ h.1 hsame.symm, ih h.2]

/-- Without a convention the text stays as it is. -/
theorem canonicalize_none (h : canonicalizeApplyTextLineEndings text .none = .ok canonical) :
    canonical = text ∧ hasBareCr text = false := by
  unfold canonicalizeApplyTextLineEndings at h
  split_ifs at h with hnone hbare hending
  · exact ⟨(Except.ok.inj h).symm, hasBareCr_of_notMem (by simpa using hnone)⟩
  · exact ⟨(Except.ok.inj h).symm, Bool.not_eq_true _ ▸ hbare⟩
  · exact absurd rfl hending

/-- What an edit puts in is its new text, canonicalized. -/
theorem text_of_resolveEdit {planned : Option PlannedEdit}
    (h : resolveEdit original lineEnding edit index = .ok planned) :
    canonicalizeApplyTextLineEndings (edit.newText.getD []) lineEnding =
      .ok ((planned.map PlannedEdit.text).getD []) := by
  simp only [resolveEdit, bind_eq_ok, ensure_eq_ok, mapError_eq_ok] at h
  obtain ⟨_, -, _, -, _, htexts, _, -, _, -, _, -, _, hreplacement, h⟩ := h
  obtain rfl := eq_of_editTexts htexts
  rw [hreplacement]
  split_ifs at h with hempty
  · rw [← Except.ok.inj h, List.isEmpty_iff.mp (Bool.and_eq_true_iff.mp hempty).2]
    rfl
  · simp only [bind_eq_ok] at h
    obtain ⟨_, -, h⟩ := h
    rw [← Except.ok.inj h]
    rfl

variable {ops : List PlannedEdit}

/-- The texts that a batch puts in are the new texts of its edits, and none that is not empty is
left out. -/
theorem texts_of_resolveEdits (h : resolveEdits original lineEnding edits = .ok ops) :
    (∀ op ∈ ops, ∃ edit ∈ edits,
        canonicalizeApplyTextLineEndings (edit.newText.getD []) lineEnding = .ok op.text) ∧
      ∀ edit ∈ edits, ∃ new,
        canonicalizeApplyTextLineEndings (edit.newText.getD []) lineEnding = .ok new ∧
          (new = [] ∨ ∃ op ∈ ops, op.text = new) := by
  rw [resolveEdits, bind_eq_ok] at h
  obtain ⟨_, hplanned, h⟩ := h
  obtain rfl := Except.ok.inj h
  have hall := mapM_eq_ok.mp hplanned
  constructor
  · intro op hop
    obtain ⟨item, hitem, hresolved⟩ := exists_of_forall₂_right hall
      (List.reduceOption_mem_iff.mp hop)
    exact ⟨item.1, List.fst_mem_of_mem_zipIdx hitem, text_of_resolveEdit hresolved⟩
  · intro edit hedit
    rw [← List.zipIdx_map_fst 0 edits] at hedit
    obtain ⟨item, hitem, rfl⟩ := List.mem_map.mp hedit
    obtain ⟨result, hresult, hresolved⟩ := exists_of_forall₂_left hall hitem
    refine ⟨_, text_of_resolveEdit hresolved, ?_⟩
    cases result with
    | none => exact .inl rfl
    | some op => exact .inr ⟨op, List.reduceOption_mem_iff.mpr hresult, rfl⟩

/-! ### The planned text -/

variable {summaries : List EditSummary}

/-- What was resolved and put together to the planned text. -/
theorem editPlan_eq_ok (h : editPlan original edits = .ok (output, summaries)) :
    ∃ lineEnding canonical ops replacement, detectApplyTextLineEnding original = .ok lineEnding ∧
      canonicalizeApplyTextLineEndings original lineEnding = .ok canonical ∧
      resolveEdits canonical lineEnding edits = .ok ops ∧
      assemble canonical edits 0 (ops.insertionSort PlannedEdit.KeyLe) = some
        (replacement, summaries) ∧
      output = restoreApplyTextLineEndings replacement lineEnding := by
  simp only [editPlan, bind_eq_ok, ensure_eq_ok, mapError_eq_ok] at h
  obtain ⟨_, -, lineEnding, hdetected, canonical, hcanonical, ops, hops, h⟩ := h
  split at h
  · simp only [bind_eq_ok] at h
    obtain ⟨_, -, h⟩ := h
    cases h
  · simp only [bind_eq_ok, required_eq_ok] at h
    obtain ⟨assembled, hassemble, h⟩ := h
    obtain ⟨rfl, rfl⟩ := Prod.mk.inj (Except.ok.inj h)
    exact ⟨lineEnding, canonical, ops, assembled.1, hdetected, hcanonical, hops, hassemble, rfl⟩

/-- The characters of a range are characters of the text. -/
theorem mem_of_mem_textBetween {start stop : ℕ} {between : Str}
    (h : textBetween text start stop = some between) (hc : c ∈ between) : c ∈ text := by
  obtain ⟨_, _, rfl, -, -⟩ := textBetween_eq_some_iff.mp h
  simp [hc]

variable {cursor : ℕ}

theorem assemble_cons_eq_some {op : PlannedEdit}
    (h : assemble original edits cursor (op :: ops) = some (text, summaries)) :
    ∃ gap rest summaries', textBetween original cursor op.start = some gap ∧
      assemble original edits op.stop ops = some (rest, summaries') ∧
        text = gap ++ (op.text ++ rest) := by
  simp only [assemble, Option.bind_eq_bind, Option.bind_eq_some_iff] at h
  obtain ⟨gap, hgap, _, -, assembled, hrest, h⟩ := h
  exact ⟨gap, assembled.1, assembled.2, hgap, hrest, (Prod.mk.inj (Option.some.inj h)).1.symm⟩

theorem assemble_nil_eq_some (h : assemble original edits cursor [] = some (text, summaries)) :
    textBetween original cursor (utf8Len original) = some text := by
  simp only [assemble, Option.bind_eq_bind, Option.bind_eq_some_iff] at h
  obtain ⟨_, hrest, h⟩ := h
  rw [hrest, (Prod.mk.inj (Option.some.inj h)).1]

/-- The characters of the new text are from the original and from the texts that are put in. -/
theorem mem_of_mem_assemble (h : assemble original edits cursor ops = some (text, summaries))
    (hc : c ∈ text) :
    c ∈ original ∨ ∃ op ∈ ops, c ∈ op.text := by
  induction ops generalizing cursor text summaries with
  | nil => exact .inl (mem_of_mem_textBetween (assemble_nil_eq_some h) hc)
  | cons op _ ih =>
    obtain ⟨_, _, _, hgap, hrest, rfl⟩ := assemble_cons_eq_some h
    rcases List.mem_append.mp hc with hin | hc
    · exact .inl (mem_of_mem_textBetween hgap hin)
    · rcases List.mem_append.mp hc with hin | hin
      · exact .inr ⟨op, List.mem_cons_self, hin⟩
      · rcases ih hrest hin with horiginal | ⟨other, hother, hin⟩
        · exact .inl horiginal
        · exact .inr ⟨other, List.mem_cons_of_mem op hother, hin⟩

/-- In an original without line breaks, the line endings that the scan finds in the new text are
those of the texts that are put in. -/
theorem scanLineEndings_assemble (hcr : '\r' ∉ original) (hlf : '\n' ∉ original)
    (hops : ∀ op ∈ ops, hasBareCr op.text = false)
    (h : assemble original edits cursor ops = some (text, summaries)) (sawLf sawCrlf : Bool) :
    ∃ loneLf crlf : Bool, scanLineEndings text sawLf sawCrlf = .ok
      (sawLf || loneLf, sawCrlf || crlf) ∧
      (loneLf = true ↔ ∃ op ∈ ops, HasLoneLf op.text) ∧
      (crlf = true ↔ ∃ op ∈ ops, HasCrlf op.text) := by
  have hkept : ∀ {start stop : ℕ} {between : Str} (a b : Bool),
      textBetween original start stop = some between → scanLineEndings between a b = .ok (a, b) :=
    fun a b hbetween ↦ scanLineEndings_of_notMem (fun hc ↦ hcr (mem_of_mem_textBetween hbetween hc))
      (fun hc ↦ hlf (mem_of_mem_textBetween hbetween hc)) a b
  induction ops generalizing cursor text summaries sawLf sawCrlf with
  | nil => exact ⟨false, false, by simpa using hkept _ _ (assemble_nil_eq_some h), by simp, by simp⟩
  | cons _ _ ih =>
    obtain ⟨_, _, _, hgap, hrest, rfl⟩ := assemble_cons_eq_some h
    obtain ⟨hop, hops⟩ := List.forall_mem_cons.mp hops
    obtain ⟨loneLf, crlf, hscan, hlone, hcrlf⟩ := scanLineEndings_of_not_hasBareCr hop sawLf sawCrlf
    obtain ⟨loneLf', crlf', hscan', hlone', hcrlf'⟩ := ih hops hrest (sawLf || loneLf)
      (sawCrlf || crlf)
    refine ⟨loneLf || loneLf', crlf || crlf', ?_, ?_, ?_⟩
    · rw [scanLineEndings_append _ (hkept _ _ hgap), scanLineEndings_append _ hscan, hscan',
        Bool.or_assoc, Bool.or_assoc]
    · rw [Bool.or_eq_true, hlone, hlone', List.exists_mem_cons_iff]
    · rw [Bool.or_eq_true, hcrlf, hcrlf', List.exists_mem_cons_iff]

/-- Expanded text has pairs and nothing else. -/
theorem scanLineEndings_expandLf (hcr : '\r' ∉ text) (sawLf sawCrlf : Bool) :
    scanLineEndings (expandLf text) sawLf sawCrlf = .ok (sawLf, sawCrlf || text.contains '\n') := by
  induction text generalizing sawCrlf with
  | nil => simp [expandLf, scanLineEndings]
  | cons c _ ih =>
    simp only [List.mem_cons, not_or] at hcr
    have hrest := ih hcr.2
    rw [expandLf] at hrest ⊢
    rw [List.flatMap_cons]
    by_cases hlf : c = '\n'
    · subst hlf
      rw [if_pos rfl, List.cons_append, List.cons_append, List.nil_append, scanLineEndings, hrest]
      simp
    · rw [if_neg hlf, List.singleton_append, scanLineEndings.eq_5 _ _ _ _
        (fun _ hsame ↦ absurd hsame.symm hcr.1) (fun hsame ↦ hcr.1 hsame.symm) hlf, hrest]
      simp [Ne.symm hlf]

/-- Restored text has the line endings of the convention and no others. -/
theorem scanLineEndings_restore (hcr : '\r' ∉ text) (hconvention : lineEnding ≠ .none) :
    ∃ breaks : Bool, scanLineEndings (restoreApplyTextLineEndings text lineEnding) false false =
      .ok (lineEnding == .lf && breaks, lineEnding == .crlf && breaks) := by
  cases lineEnding with
  | none => exact absurd rfl hconvention
  | lf =>
    obtain ⟨loneLf, crlf, hscan, -, hcrlf⟩ :=
      scanLineEndings_of_not_hasBareCr (hasBareCr_of_notMem hcr) false false
    have hnone : crlf = false := by
      by_contra hpair
      exact hcr ((hcrlf.mp (by simpa using hpair)).subset List.mem_cons_self)
    subst hnone
    exact ⟨loneLf, hscan⟩
  | crlf => exact ⟨text.contains '\n', scanLineEndings_expandLf hcr false false⟩

/-- Where the original has a convention, what is restored has the same one or no line break at
all. -/
theorem staysEditable_restore (hcr : '\r' ∉ text) (hconvention : lineEnding ≠ .none)
    (hdetected : detectApplyTextLineEnding original = .ok lineEnding) :
    StaysEditable original (restoreApplyTextLineEndings text lineEnding) := by
  obtain ⟨breaks, hscan⟩ := scanLineEndings_restore hcr hconvention
  have hsame : detectApplyTextLineEnding (restoreApplyTextLineEndings text lineEnding) =
      .ok (if breaks then lineEnding else .none) := by
    rw [detectApplyTextLineEnding_eq_ok, hscan]
    cases breaks <;> cases lineEnding <;> rfl
  refine ⟨⟨_, hsame⟩, fun other _ hother ↦ ?_⟩
  obtain rfl : other = lineEnding := Except.ok.inj (hother.symm.trans hdetected)
  cases breaks with
  | false => exact .inr hsame
  | true => exact .inl hsame

/-- In an original without a line break the new texts decide. -/
theorem staysEditable_iff_of_none (hdetected : detectApplyTextLineEnding original = .ok .none)
    (hops : resolveEdits original .none edits = .ok ops)
    (hassemble : assemble original edits 0 (ops.insertionSort PlannedEdit.KeyLe) =
      some (text, summaries)) :
    StaysEditable original text ↔ ¬ MixesLineEndings original edits := by
  obtain ⟨-, -, hcr, hlf⟩ := seen_of_scanLineEndings (detectApplyTextLineEnding_eq_ok.mp hdetected)
  obtain ⟨hfrom, hinto⟩ := texts_of_resolveEdits hops
  have hperm := List.perm_insertionSort PlannedEdit.KeyLe ops
  have htexts : ∀ op ∈ ops.insertionSort PlannedEdit.KeyLe, hasBareCr op.text = false := by
    intro op hop
    obtain ⟨edit, -, hnew⟩ := hfrom op (hperm.mem_iff.mp hop)
    obtain ⟨heq, _⟩ := canonicalize_none hnew
    rwa [heq]
  -- What holds of no empty text holds of a text that is put in just when it holds of a new text.
  have hany : ∀ {P : Str → Prop}, ¬ P [] →
      ((∃ op ∈ ops.insertionSort PlannedEdit.KeyLe, P op.text) ↔
          ∃ edit ∈ edits, P (edit.newText.getD [])) := by
    intro P hempty
    constructor
    · rintro ⟨op, hop, hholds⟩
      obtain ⟨edit, hedit, hnew⟩ := hfrom op (hperm.mem_iff.mp hop)
      exact ⟨edit, hedit, (canonicalize_none hnew).1 ▸ hholds⟩
    · rintro ⟨edit, hedit, hholds⟩
      obtain ⟨new, hnew, hput⟩ := hinto edit hedit
      rw [← (canonicalize_none hnew).1] at hholds
      rcases hput with rfl | ⟨op, hop, rfl⟩
      · exact absurd hholds hempty
      · exact ⟨op, hperm.mem_iff.mpr hop, hholds⟩
  obtain ⟨loneLf, crlf, hscan, hlone, hcrlf⟩ := scanLineEndings_assemble (by simpa using hcr)
    (by simpa using hlf) htexts hassemble false false
  rw [hany not_hasLoneLf_nil] at hlone
  rw [hany (by simp [HasCrlf])] at hcrlf
  rw [Bool.false_or, Bool.false_or] at hscan
  have hmixes : MixesLineEndings original edits ↔ loneLf = true ∧ crlf = true := by
    rw [MixesLineEndings, hlone, hcrlf]
    exact and_iff_right hdetected
  rw [hmixes, ← exists_detectApplyTextLineEnding hscan]
  refine and_iff_left fun _ hconvention hother ↦ ?_
  exact absurd (Except.ok.inj (hother.symm.trans hdetected)) hconvention

/-- A planned text stays editable, and keeps the convention of the original, except where a file
without a line break gets line endings of both kinds. -/
theorem stays_editable_iff {summaries : List EditSummary}
    (h : editPlan original edits = .ok (output, summaries)) :
    StaysEditable original output ↔ ¬ MixesLineEndings original edits := by
  obtain ⟨lineEnding, _, ops, _, hdetected, hcanonical, hops, hassemble, rfl⟩ :=
    editPlan_eq_ok h
  by_cases hconvention : lineEnding = .none
  · subst hconvention
    obtain ⟨rfl, -⟩ := canonicalize_none hcanonical
    exact staysEditable_iff_of_none hdetected hops hassemble
  · refine iff_of_true (staysEditable_restore (fun hmem ↦ ?_) hconvention hdetected) fun hmixes ↦
      hconvention (Except.ok.inj (hdetected.symm.trans hmixes.1))
    rcases mem_of_mem_assemble hassemble hmem with horiginal | ⟨op, hop, hin⟩
    · exact notMem_of_canonicalize hconvention hcanonical horiginal
    · obtain ⟨_, -, hnew⟩ := (texts_of_resolveEdits hops).1 op
        ((List.perm_insertionSort PlannedEdit.KeyLe ops).mem_iff.mp hop)
      exact notMem_of_canonicalize hconvention hnew hin

/-- A line that is added to a file with pairs ends with a pair. -/
theorem added_line_stays_editable : StaysEditable "a\r\n".toList "a\r\nb\r\n".toList := by
  have hplan : editPlan "a\r\n".toList
      [{ kind := .insertAfter, anchorText := some "a".toList, newText := some "\nb".toList }] =
        .ok ("a\r\nb\r\n".toList, [⟨0, "insert_after", 1, 1, 2⟩]) := by
    decide +kernel
  have hconvention : detectApplyTextLineEnding "a\r\n".toList ≠ .ok .none := by
    decide
  exact (stays_editable_iff hplan).mpr fun hmixes ↦ hconvention hmixes.1

/-- A batch that puts a line in front of the only line of a file and one behind it. -/
def twoConventions : List ApplyTextEditInput :=
  [{ kind := .insertAfter, anchorText := some "alpha".toList, newText := some "\nomega".toList },
    { kind := .insertBefore, anchorText := some "alpha".toList,
      newText := some "intro\r\n".toList }]

/-- The planned text is refused as a file to be edited. -/
theorem two_conventions_end_editing : ∃ output summaries,
    editPlan "alpha".toList twoConventions = .ok (output, summaries) ∧
      detectApplyTextLineEnding "alpha".toList = .ok .none ∧
        ¬ StaysEditable "alpha".toList output := by
  refine ⟨"intro\r\nalpha\nomega".toList,
    [⟨1, "insert_before", 1, 1, 1⟩, ⟨0, "insert_after", 1, 1, 2⟩], by decide +kernel, by decide, ?_⟩
  rintro ⟨⟨_, haccepted⟩, -⟩
  have hrefused : (detectApplyTextLineEnding "intro\r\nalpha\nomega".toList).toOption = none := by
    decide
  rw [haccepted] at hrefused
  cases hrefused

end WebCodex.TextEdit
