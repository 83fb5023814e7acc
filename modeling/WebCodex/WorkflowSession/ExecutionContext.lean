import Mathlib.Data.List.Infix
import WebCodex.Foundation.Components
import WebCodex.Foundation.Fallible
import WebCodex.Foundation.Layout

/-!
A session has defaults for what it executes: a working directory, a shell and the name of a
resource. Without a resource the directory is a path in the project, which is checked
(`validateProjectRelativePath`) and then normalised; with one it is a path on the remote side.
-/

namespace WebCodex.WorkflowSession

open Foundation Foundation.Text
open String (utf8Len)

def maxPathChars : ℕ := 512

def isPathSeparator (c : Char) : Bool := c == '/' || c == '\\'

/-- The second byte of a text is a colon: the character in front of it takes one byte. -/
def hasDrive : Str → Bool
  | c :: ':' :: _ => c.utf8Size == 1
  | _ => false

def validateProjectRelativePath (path : Str) : Except String Unit := do
  let trimmed := trim path
  ensure (!trimmed.isEmpty) "path cannot be empty"
  ensure (!trimmed.contains '\x00') "path cannot contain NUL bytes"
  ensure (!trimmed.any isControl) "path cannot contain control characters"
  ensure (!(['/'].isPrefixOf trimmed || ['\\'].isPrefixOf trimmed)) "path must be project-relative"
  ensure (!hasDrive trimmed) "path must be project-relative"
  ensure (!(['\\', '\\'].isPrefixOf trimmed || ['/', '/'].isPrefixOf trimmed))
    "path must be project-relative"
  ensure (!decide ([':', '/', '/'] <:+: trimmed)) "path must be project-relative"
  ensure (!(trimmed.splitOnP isPathSeparator).contains ['.', '.']) "path cannot contain '..'"
  ensure (!decide (maxPathChars < trimmed.length))
    ("path exceeds " ++ toString maxPathChars ++ " characters")

/-- The components of a path that are neither empty nor the directory itself. -/
def keptComponents (path : Str) : List Str :=
  (path.splitOnP isPathSeparator).filter fun component ↦ !component.isEmpty && component != ['.']

def normalizePath (path : Str) : Str :=
  let normalized := ['/'].intercalate (keptComponents path)
  if normalized.isEmpty then ['.'] else normalized

inductive ExecutionShell
  | sh | bash
  deriving DecidableEq

structure SessionExecutionContext where
  defaultCwd : Option Str := none
  defaultShell : Option ExecutionShell := none
  resource : Option Str := none
  deriving DecidableEq

/-- The characters of the name of a resource. -/
def isResourceChar (c : Char) : Bool := c.isAlphanum || c == '_' || c == '-' || c == '.'

def validatedResource (rawResource : Str) : Except String Str := do
  let resource := trim rawResource
  ensure (!(resource.isEmpty || decide (80 < utf8Len resource) ||
      decide (['.', '.'] <:+: resource) || !resource.all isResourceChar))
    "execution_context.resource must be a safe named SSH resource"
  return resource

/-- The working directory of a context, on the remote side or in the project. -/
def validatedCwd (remote : Bool) (rawCwd : Str) : Except String Str := do
  let cwd := trim rawCwd
  if remote then
    ensure (!(cwd.isEmpty || decide (4096 < utf8Len cwd) || cwd.any isControl))
      "execution_context.default_cwd must be a bounded remote path without control characters"
    return cwd
  else
    (validateProjectRelativePath cwd).mapError ("execution_context.default_cwd " ++ ·)
    return normalizePath cwd

/-- A check of a value that need not be there. -/
def validatedOption {A : Type} (check : A → Except String A) : Option A → Except String (Option A)
  | none => .ok none
  | some value => some <$> check value

def SessionExecutionContext.validated (context : SessionExecutionContext) :
    Except String SessionExecutionContext := do
  let resource ← validatedOption validatedResource context.resource
  let defaultCwd ← validatedOption (validatedCwd resource.isSome) context.defaultCwd
  return { context with resource := resource, defaultCwd := defaultCwd }

/-- The context with the fields that are valid by themselves. -/
def SessionExecutionContext.sanitizedForRestore (context : SessionExecutionContext) :
    SessionExecutionContext :=
  let resource := context.resource.bind fun rawResource ↦
    (SessionExecutionContext.validated { resource := some rawResource }).toOption.bind (·.resource)
  let defaultCwd := context.defaultCwd.bind fun rawCwd ↦
    (SessionExecutionContext.validated
      { defaultCwd := some rawCwd, resource := resource }).toOption.bind (·.defaultCwd)
  { context with resource := resource, defaultCwd := defaultCwd }

structure RelativePath (path : Str) : Prop where
  ne_nil : path ≠ []
  printable : ∀ c ∈ path, isControl c = false
  relative : ∀ c ∈ path.head?, isPathSeparator c = false
  noDrive : hasDrive path = false
  noScheme : ¬ [':', '/', '/'] <:+: path
  noParent : ['.', '.'] ∉ path.splitOnP isPathSeparator
  short : path.length ≤ maxPathChars

variable {path rawCwd cwd : Str}

theorem head_relative_iff : (['/'].isPrefixOf path || ['\\'].isPrefixOf path) = false ↔
      ∀ c ∈ path.head?, isPathSeparator c = false := by
  cases path with
  | nil => simp
  | cons =>
    simp only [List.isPrefixOf, Bool.and_true, List.head?_cons, Option.mem_some_iff, forall_eq',
      isPathSeparator]
    rw [BEq.comm (a := '/'), BEq.comm (a := '\\')]

/-- A second separator makes no difference. -/
theorem not_two_separators (h : ∀ c ∈ path.head?, isPathSeparator c = false) :
    (['\\', '\\'].isPrefixOf path || ['/', '/'].isPrefixOf path) = false := by
  rw [← head_relative_iff] at h
  cases path with
  | nil => rfl
  | cons =>
    simp only [List.isPrefixOf, Bool.or_eq_false_iff, Bool.and_true] at h ⊢
    simp [h.1, h.2]

theorem validateProjectRelativePath_iff :
    validateProjectRelativePath path = .ok () ↔ RelativePath (trim path) := by
  simp only [validateProjectRelativePath, bind_eq_ok, ensure_eq_ok, Bool.not_eq_true']
  constructor
  · rintro ⟨_, hne, _, -, _, hprintable, _, hrelative, _, hdrive, _, -, _, hscheme, _,
      hparent, hshort⟩
    refine ⟨by simpa using hne, ?_, head_relative_iff.mp hrelative, hdrive, by simpa using hscheme,
      by simpa using hparent, by simpa using hshort⟩
    simpa using hprintable
  · intro h
    refine ⟨(), by simpa using h.ne_nil, (), ?_, (), by simpa using h.printable, (),
      head_relative_iff.mpr h.relative, (), h.noDrive, (), not_two_separators h.relative, (),
      by simpa using h.noScheme, (), by simpa using h.noParent, by simpa using h.short⟩
    have hnul : '\x00' ∉ trim path := by
      intro hmem
      have hcontrol := h.printable _ hmem
      revert hcontrol
      decide
    simpa using hnul

/-! ### Normalising -/

/-- Neither end of the components that are kept is white space, and they do not start with a
drive. -/
def settledEnds (components : List Str) : Bool :=
  components.head?.all (fun first ↦ first.head?.all (!isWhitespace ·) && !hasDrive first) &&
    components.getLast?.all fun last ↦ last.getLast?.all (!isWhitespace ·)

theorem all_not_whitespace_iff {c : Option Char} :
    c.all (!isWhitespace ·) = true ↔ ∀ d ∈ c, isWhitespace d = false := by
  cases c <;> simp

theorem mem_keptComponents {component : Str} : component ∈ keptComponents path ↔
    component ∈ path.splitOnP isPathSeparator ∧ component ≠ [] ∧ component ≠ ['.'] := by
  simp [keptComponents]

theorem keptComponents_sublist (path : Str) :
    (keptComponents path).Sublist (path.splitOnP isPathSeparator) := List.filter_sublist

theorem normalizePath_of_nil (h : keptComponents path = []) : normalizePath path = ['.'] := by
  rw [normalizePath, h]
  rfl

/-- A text of components is split into them again. -/
theorem splitOnP_join_kept (h : keptComponents path ≠ []) :
    (['/'].intercalate (keptComponents path)).splitOnP isPathSeparator = keptComponents path := by
  refine splitOnP_join rfl h ?_
  intro _ hcomponent c hc
  exact (mem_component (mem_keptComponents.mp hcomponent).1 c hc).2

theorem normalizePath_of_ne_nil (h : keptComponents path ≠ []) :
    normalizePath path = ['/'].intercalate (keptComponents path) := by
  have hne : ['/'].intercalate (keptComponents path) ≠ [] := by
    intro hnil
    have hsplit := splitOnP_join_kept h
    rw [hnil, List.splitOnP_nil] at hsplit
    have hmem : [] ∈ keptComponents path := hsplit ▸ List.mem_singleton_self _
    exact (mem_keptComponents.mp hmem).2.1 rfl
  rw [normalizePath]
  simp [hne]

theorem splitOnP_normalizePath (h : keptComponents path ≠ []) :
    (normalizePath path).splitOnP isPathSeparator = keptComponents path := by
  rw [normalizePath_of_ne_nil h, splitOnP_join_kept h]

theorem keptComponents_normalizePath (path : Str) :
    keptComponents (normalizePath path) = keptComponents path := by
  by_cases h : keptComponents path = []
  · rw [normalizePath_of_nil h, h]
    decide
  · rw [keptComponents, splitOnP_normalizePath h]
    refine List.filter_eq_self.mpr fun _ hcomponent ↦ ?_
    simpa using (mem_keptComponents.mp hcomponent).2

/-- Normalising twice is normalising once. -/
theorem normalizePath_normalizePath (path : Str) :
    normalizePath (normalizePath path) = normalizePath path := by
  rw [normalizePath, keptComponents_normalizePath]
  rfl

theorem length_normalizePath_le (hne : path ≠ []) : (normalizePath path).length ≤ path.length := by
  by_cases h : keptComponents path = []
  · rw [normalizePath_of_nil h]
    exact List.length_pos_iff.mpr hne
  · rw [normalizePath_of_ne_nil h]
    exact length_join_le (keptComponents_sublist path)

/-- A drive of joined components is one of the first. -/
theorem hasDrive_join {first : Str} (hne : first ≠ []) (rest : List Str) :
    hasDrive (['/'].intercalate (first :: rest)) = hasDrive first := by
  cases rest with
  | nil => rw [List.intercalate_singleton]
  | cons =>
    cases first with
    | nil => exact absurd rfl hne
    | cons _ first =>
      cases first with
      | nil => rfl
      | cons d =>
        by_cases hd : d = ':'
        · subst hd
          rfl
        · simp [hasDrive, hd]

/-- The ends of a normalised path are those of the components that are kept. -/
theorem settledEnds_iff (h : keptComponents path ≠ []) : settledEnds (keptComponents path) = true ↔
      trim (normalizePath path) = normalizePath path ∧ hasDrive (normalizePath path) = false := by
  rw [normalizePath_of_ne_nil h, trim_eq_self_iff]
  have hnonempty : ∀ component ∈ keptComponents path, component ≠ [] := fun component hmem ↦
    (mem_keptComponents.mp hmem).2.1
  obtain ⟨first, rest, hfirst⟩ := List.exists_cons_of_ne_nil h
  obtain ⟨earlier, last, hlast⟩ : ∃ earlier last, keptComponents path = earlier ++ [last] :=
    ⟨_, _, (List.dropLast_concat_getLast h).symm⟩
  have hfirstne := hnonempty first (hfirst ▸ List.mem_cons_self)
  have hlastne := hnonempty last (hlast ▸ List.mem_append_right _ (List.mem_singleton_self _))
  have hhead : (['/'].intercalate (keptComponents path)).head? = first.head? := by
    obtain ⟨after, hafter⟩ : first <+: ['/'].intercalate (first :: rest) := prefix_join first rest
    rw [hfirst, ← hafter, List.head?_append_of_ne_nil _ hfirstne]
  have hend : (['/'].intercalate (keptComponents path)).getLast? = last.getLast? := by
    obtain ⟨before, hbefore⟩ : last <:+ ['/'].intercalate (earlier ++ [last]) :=
      suffix_join earlier last
    rw [hlast, ← hbefore, List.getLast?_append_of_ne_nil _ hlastne]
  have hdrive : hasDrive (['/'].intercalate (keptComponents path)) = hasDrive first := by
    rw [hfirst, hasDrive_join hfirstne]
  rw [hhead, hend, hdrive, settledEnds]
  have hkeptHead : (keptComponents path).head? = some first := by rw [hfirst]; rfl
  have hkeptLast : (keptComponents path).getLast? = some last := by rw [hlast]; simp
  rw [hkeptHead, hkeptLast]
  simp only [Option.all_some, Bool.and_eq_true, Bool.not_eq_true', all_not_whitespace_iff]
  constructor
  · rintro ⟨⟨hstart, hnone⟩, hfinish⟩
    exact ⟨⟨hstart, hfinish⟩, hnone⟩
  · rintro ⟨⟨hstart, hfinish⟩, hnone⟩
    exact ⟨⟨hstart, hnone⟩, hfinish⟩

theorem relativePath_dot : RelativePath ['.'] where
  ne_nil := by decide
  printable := by simp [isControl]
  relative := by simp [isPathSeparator]
  noDrive := rfl
  noScheme := by decide
  noParent := by decide
  short := by decide

theorem mem_normalizePath (h : keptComponents path ≠ []) {c : Char} (hc : c ∈ normalizePath path) :
    c = '/' ∨ c ∈ path ∧ isPathSeparator c = false := by
  rw [normalizePath_of_ne_nil h] at hc
  rcases mem_join hc with hslash | ⟨component, hcomponent, hmem⟩
  · exact Or.inl hslash
  · exact Or.inr (mem_component (mem_keptComponents.mp hcomponent).1 c hmem)

/-- A component that is kept does not start with a separator, and so the path does not. -/
theorem head_normalizePath (h : keptComponents path ≠ []) :
    ∀ c ∈ (normalizePath path).head?, isPathSeparator c = false := by
  intro c hc
  obtain ⟨first, rest, hfirst⟩ := List.exists_cons_of_ne_nil h
  have hkept := mem_keptComponents.mp (hfirst ▸ List.mem_cons_self : first ∈ keptComponents path)
  obtain ⟨after, hafter⟩ : first <+: ['/'].intercalate (first :: rest) := prefix_join first rest
  rw [normalizePath_of_ne_nil h, hfirst, ← hafter, List.head?_append_of_ne_nil _ hkept.2.1] at hc
  exact (mem_component hkept.1 c (List.mem_of_head? hc)).2

/-- Normalising keeps what the check says, as long as it brings forward no drive. -/
theorem RelativePath.normalize (h : RelativePath path)
    (hdrive : hasDrive (normalizePath path) = false) :
    RelativePath (normalizePath path) := by
  by_cases hkept : keptComponents path = []
  · rw [normalizePath_of_nil hkept]
    exact relativePath_dot
  · have hsplit := splitOnP_normalizePath hkept
    refine ⟨?_, ?_, head_normalizePath hkept, hdrive, ?_, ?_, ?_⟩
    · intro hnil
      rw [hnil, List.splitOnP_nil] at hsplit
      exact (mem_keptComponents.mp (hsplit ▸ List.mem_singleton_self [])).2.1 rfl
    · intro c hc
      rcases mem_normalizePath hkept hc with rfl | ⟨hold, -⟩
      · decide
      · exact h.printable c hold
    · rintro ⟨before, after, hinfix⟩
      have hslashes : ['/', '/'] <:+: normalizePath path :=
        ⟨before ++ [':'], after, by rw [← hinfix]; simp⟩
      have hempty : [] ∈ (normalizePath path).splitOnP isPathSeparator :=
        nil_mem_splitOnP rfl rfl hslashes
      rw [hsplit] at hempty
      exact (mem_keptComponents.mp hempty).2.1 rfl
    · rw [hsplit]
      exact fun hparent ↦ h.noParent ((keptComponents_sublist path).subset hparent)
    · exact (length_normalizePath_le h.ne_nil).trans h.short

/-- A path that stays as it is when it is trimmed and normalised has nothing to trim. -/
theorem trim_of_normalize_eq (hne : trim path ≠ []) (h : normalizePath (trim path) = path) :
    trim path = path := by
  have hlength := length_normalizePath_le hne
  rw [h] at hlength
  have hsuffix : trim path <:+ trimEnd path := List.dropWhile_suffix _
  have hfront : trimEnd path <+: path := List.rdropWhile_prefix _ path
  have hend : trimEnd path = path := hfront.eq_of_length_le (hlength.trans hsuffix.length_le)
  rw [hend] at hsuffix
  exact hsuffix.eq_of_length_le hlength

variable {A : Type}

theorem mapError_eq_ok {E F : Type} {x : Except E A} {f : E → F} {value : A} :
    x.mapError f = .ok value ↔ x = .ok value := by
  cases x <;> simp [Except.mapError]

theorem validatedCwd_project : validatedCwd false rawCwd = .ok cwd ↔
    RelativePath (trim rawCwd) ∧ cwd = normalizePath (trim rawCwd) := by
  simp only [validatedCwd, Bool.false_eq_true, if_false, bind_eq_ok, mapError_eq_ok, pure_eq_ok]
  constructor
  · rintro ⟨_, hvalid, heq⟩
    exact ⟨trim_trim rawCwd ▸ validateProjectRelativePath_iff.mp hvalid, heq.symm⟩
  · rintro ⟨hrelative, heq⟩
    exact ⟨(), validateProjectRelativePath_iff.mpr ((trim_trim rawCwd).symm ▸ hrelative), heq.symm⟩

/-- A path in the project that was accepted is accepted again as it is just when the ends of its
components are settled. -/
theorem validatedCwd_again_iff (h : validatedCwd false rawCwd = .ok cwd) :
    validatedCwd false cwd = .ok cwd ↔ settledEnds (keptComponents (trim rawCwd)) = true := by
  obtain ⟨hrelative, rfl⟩ := validatedCwd_project.mp h
  rw [validatedCwd_project]
  by_cases hkept : keptComponents (trim rawCwd) = []
  · rw [normalizePath_of_nil hkept, hkept]
    refine iff_of_true ⟨relativePath_dot, by decide⟩ ?_
    rfl
  · rw [settledEnds_iff hkept]
    constructor
    · rintro ⟨hagain, heq⟩
      have htrim := trim_of_normalize_eq hagain.ne_nil heq.symm
      rw [htrim] at hagain
      exact ⟨htrim, hagain.noDrive⟩
    · rintro ⟨htrim, hdrive⟩
      rw [htrim, normalizePath_normalizePath]
      exact ⟨hrelative.normalize hdrive, rfl⟩

theorem validatedCwd_remote (h : validatedCwd true rawCwd = .ok cwd) :
    validatedCwd true cwd = .ok cwd := by
  simp only [validatedCwd, if_true, bind_eq_ok, ensure_eq_ok, pure_eq_ok] at h ⊢
  obtain ⟨_, hchecks, rfl⟩ := h
  rw [trim_trim]
  exact ⟨(), hchecks, rfl⟩

theorem validatedResource_again {rawResource resource : Str}
    (h : validatedResource rawResource = .ok resource) :
    validatedResource resource = .ok resource := by
  simp only [validatedResource, bind_eq_ok, ensure_eq_ok, pure_eq_ok] at h ⊢
  obtain ⟨_, hchecks, rfl⟩ := h
  rw [trim_trim]
  exact ⟨(), hchecks, rfl⟩

/-! ### Contexts that are accepted again -/

/-- A path in the project in its normal form. -/
def IsProjectPath (cwd : Str) : Prop := cwd = ['.'] ∨
    (∀ component ∈ cwd.splitOn '/', component ≠ [] ∧ component ≠ ['.'] ∧ component ≠ ['.', '.']) ∧
      validateProjectRelativePath cwd = .ok ()

/-- A context that is accepted as it is, and restored as it is. -/
structure IsCanonical (context : SessionExecutionContext) : Prop where
  validated : context.validated = .ok context
  restored : context.sanitizedForRestore = context
  inProject : context.resource = none → ∀ cwd ∈ context.defaultCwd, IsProjectPath cwd

theorem validatedOption_eq_ok {check : A → Except String A} {value result : Option A} :
    validatedOption check value = .ok result ↔
      Option.Rel (fun raw checked ↦ check raw = .ok checked) value result := by
  cases value with
  | none => cases result <;> simp [validatedOption]
  | some => cases result <;> simp [validatedOption, map_eq_ok]

/-- What is checked value by value stays as it is when every value does. -/
theorem validatedOption_self {check : A → Except String A} {value : Option A} :
    validatedOption check value = .ok value ↔ ∀ raw ∈ value, check raw = .ok raw := by
  rw [validatedOption_eq_ok]
  cases value <;> simp

variable {context : SessionExecutionContext}

theorem validated_eq_ok {result : SessionExecutionContext} : context.validated = .ok result ↔
      validatedOption validatedResource context.resource = .ok result.resource ∧
      validatedOption (validatedCwd result.resource.isSome) context.defaultCwd =
        .ok result.defaultCwd ∧
      result.defaultShell = context.defaultShell := by
  simp only [SessionExecutionContext.validated, bind_eq_ok, pure_eq_ok]
  constructor
  · rintro ⟨resource, hresource, _, hcwd, rfl⟩
    exact ⟨hresource, hcwd, rfl⟩
  · rintro ⟨hresource, hcwd, _⟩
    refine ⟨_, hresource, _, hcwd, ?_⟩
    cases result
    simp_all

theorem validated_self_iff : context.validated = .ok context ↔
      (∀ resource ∈ context.resource, validatedResource resource = .ok resource) ∧
      ∀ cwd ∈ context.defaultCwd, validatedCwd context.resource.isSome cwd = .ok cwd := by
  rw [validated_eq_ok, validatedOption_self, validatedOption_self]
  simp

/-- What is accepted as it is is restored as it is. -/
theorem restored_of_validated (h : context.validated = .ok context) :
    context.sanitizedForRestore = context := by
  obtain ⟨hresource, hcwd⟩ := validated_self_iff.mp h
  have hresources : (context.resource.bind fun rawResource ↦ (SessionExecutionContext.validated
      { resource := some rawResource }).toOption.bind (·.resource)) = context.resource := by
    cases hsome : context.resource with
    | none => rfl
    | some resource =>
      have hself : SessionExecutionContext.validated { resource := some resource } =
          .ok { resource := some resource } :=
        validated_self_iff.mpr ⟨by simpa using hresource resource hsome, by simp⟩
      rw [Option.bind_some, hself]
      rfl
  have hcwds : (context.defaultCwd.bind fun rawCwd ↦ (SessionExecutionContext.validated
      { defaultCwd := some rawCwd, resource := context.resource }).toOption.bind (·.defaultCwd)) =
        context.defaultCwd := by
    cases hsome : context.defaultCwd with
    | none => rfl
    | some cwd =>
      have hself : SessionExecutionContext.validated
          { defaultCwd := some cwd, resource := context.resource } =
            .ok { defaultCwd := some cwd, resource := context.resource } :=
        validated_self_iff.mpr ⟨hresource, by simpa using hcwd cwd hsome⟩
      rw [Option.bind_some, hself]
      rfl
  simp [SessionExecutionContext.sanitizedForRestore, hresources, hcwds]

/-- A path in the project that is accepted as it is is in its normal form. -/
theorem isProjectPath_of_validatedCwd (h : validatedCwd false cwd = .ok cwd) :
    IsProjectPath cwd := by
  obtain ⟨hrelative, heq⟩ := validatedCwd_project.mp h
  have htrim := trim_of_normalize_eq hrelative.ne_nil heq.symm
  rw [htrim] at heq
  by_cases hkept : keptComponents cwd = []
  · exact Or.inl (heq.trans (normalizePath_of_nil hkept))
  · refine Or.inr ⟨?_, validateProjectRelativePath_iff.mpr hrelative⟩
    have hsplit : cwd.splitOn '/' = keptComponents cwd := by
      have hjoin := heq.trans (normalizePath_of_ne_nil hkept)
      refine (congrArg (List.splitOn '/') hjoin).trans (List.splitOn_intercalate '/' ?_ hkept)
      intro component hcomponent hslash
      have hnot := (mem_component (mem_keptComponents.mp hcomponent).1 '/' hslash).2
      revert hnot
      decide
    rw [hsplit]
    intro component hcomponent
    obtain ⟨hmem, hempty, hdot⟩ := mem_keptComponents.mp hcomponent
    refine ⟨hempty, hdot, ?_⟩
    rintro rfl
    exact (htrim ▸ hrelative.noParent) hmem

theorem isCanonical_iff_validated : IsCanonical context ↔ context.validated = .ok context := by
  constructor
  · exact IsCanonical.validated
  · intro h
    refine ⟨h, restored_of_validated h, fun hresource cwd hcwd ↦ isProjectPath_of_validatedCwd ?_⟩
    have hself := (validated_self_iff.mp h).2 cwd hcwd
    rwa [hresource] at hself

/-- What was accepted is canonical just when, in a context without a resource, the components that
are kept of its path are settled at their ends. -/
theorem canonical_iff_settled {context result : SessionExecutionContext}
    (h : context.validated = .ok result) :
    IsCanonical result ↔
      (context.resource = none →
        ∀ cwd ∈ context.defaultCwd, settledEnds (keptComponents (trim cwd)) = true) := by
  obtain ⟨hresource, hcwd, -⟩ := validated_eq_ok.mp h
  rw [isCanonical_iff_validated, validated_self_iff]
  rw [validatedOption_eq_ok] at hresource hcwd
  cases hraw : context.resource with
  | some rawResource =>
    -- with a resource, both fields are only trimmed
    obtain ⟨resource, hsome, hvalid⟩ : ∃ resource, result.resource = some resource ∧
        validatedResource rawResource = .ok resource := by
      cases hresult : result.resource <;> simp_all
    refine iff_of_true ⟨?_, ?_⟩ (by simp)
    · intro other hother
      obtain rfl : resource = other := by simpa [hsome] using hother
      exact validatedResource_again hvalid
    · intro cwd hmem
      rw [hsome, hmem] at hcwd
      cases hrawCwd : context.defaultCwd with
      | none => simp [hrawCwd] at hcwd
      | some =>
        rw [hrawCwd, Option.rel_some_some] at hcwd
        rw [hsome]
        exact validatedCwd_remote hcwd
  | none =>
    have hnone : result.resource = none := by
      cases hresult : result.resource <;> simp_all
    rw [hnone] at hcwd ⊢
    cases hrawCwd : context.defaultCwd with
    | none =>
      have hnocwd : result.defaultCwd = none := by
        cases hresult : result.defaultCwd <;> simp_all
      simp [hnocwd]
    | some rawCwd =>
      obtain ⟨cwd, hsome, hvalid⟩ : ∃ cwd, result.defaultCwd = some cwd ∧
          validatedCwd false rawCwd = .ok cwd := by
        cases hresult : result.defaultCwd <;> simp_all
      simpa [hsome] using validatedCwd_again_iff hvalid

/-- The source directory of a frontend, written with a component that is dropped. -/
theorem sample_canonical :
    IsCanonical { defaultCwd := some "frontend/src".toList, defaultShell := some .bash } := by
  have hvalid : SessionExecutionContext.validated
      { defaultCwd := some "frontend/./src".toList, defaultShell := some .bash } =
        .ok { defaultCwd := some "frontend/src".toList, defaultShell := some .bash } := by
    decide +kernel
  refine (canonical_iff_settled hvalid).mpr fun _ cwd hcwd ↦ ?_
  obtain rfl : "frontend/./src".toList = cwd := by simpa using hcwd
  decide +kernel

/-- Dropping the directory itself from the front brings a drive forward. -/
theorem dropped_component_exposes_drive :
    ¬ ∀ context result : SessionExecutionContext, context.validated = .ok result →
      IsCanonical result := by
  intro h
  have hcanonical := h { defaultCwd := some "./C:/x".toList } { defaultCwd := some "C:/x".toList }
    (by decide +kernel)
  have hrefused : SessionExecutionContext.validated { defaultCwd := some "C:/x".toList } ≠
      .ok { defaultCwd := some "C:/x".toList } := by
    decide +kernel
  exact hrefused hcanonical.validated

end WebCodex.WorkflowSession
