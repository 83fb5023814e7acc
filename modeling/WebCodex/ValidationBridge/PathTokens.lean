import Mathlib.Tactic.IntervalCases
import WebCodex.Foundation.Redaction
import WebCodex.ValidationBridge.Sanitize

/-!
What the sanitizer asks about an index of a text is a question about the bytes on both sides of it
(`startsPath`, `startsAbsolutePath_append`), and the length of a token depends on what follows
(`absolutePathTokenEnd_append`). In this form absolute paths are tokens in the sense of a redaction,
and the closing bytes separate them (`separated_pathTokens`).
-/

namespace WebCodex.ValidationBridge

open Foundation.Text (Str)
open Foundation.Framing (Bytes utf8Bytes)
open Foundation.Redaction

def matchesFirst : List (UInt8 → Bool) → Bytes → Bool
  | [], _ => true
  | _ :: _, [] => false
  | test :: tests, b :: rest => test b && matchesFirst tests rest

def isByte (c : Char) (b : UInt8) : Bool := b == c.toUInt8

def fileUriTests : List (UInt8 → Bool) :=
  (asciiBytes "file://").map fun c b ↦ toAsciiLowercase b == toAsciiLowercase c

def driveTests : List (UInt8 → Bool) :=
  [isAsciiAlphabetic, isByte ':', fun b ↦ isByte '/' b || isByte '\\' b]

def slashTests : List (UInt8 → Bool) := [isByte '/', isByte '/']

def backslashTests : List (UInt8 → Bool) := [isByte '\\', isByte '\\']

def pathTests : List (List (UInt8 → Bool)) := [fileUriTests, driveTests, slashTests, backslashTests]

def isInert (b : UInt8) : Bool :=
  !(isAsciiAlphabetic b || isByte ':' b || isByte '/' b || isByte '\\' b)

section Matches

variable {tests : List (UInt8 → Bool)} {first rest other : Bytes} {b : UInt8}

/-- A match that could only go on with a byte that passes no test ends before it. -/
theorem matchesFirst_of_inert (htests : ∀ test ∈ tests, test b = false)
    (h : matchesFirst tests (first ++ b :: rest) = true) :
    matchesFirst tests (first ++ other) = true := by
  induction first generalizing tests with
  | nil =>
    cases tests with
    | nil => cases other <;> rfl
    | cons test =>
      rw [List.nil_append, matchesFirst, htests test List.mem_cons_self] at h
      cases h
  | cons _ _ ih =>
    cases tests with
    | nil => rfl
    | cons test =>
      simp only [List.cons_append, matchesFirst, Bool.and_eq_true] at h ⊢
      exact ⟨h.1, ih (fun test htest ↦ htests test (List.mem_cons_of_mem _ htest)) h.2⟩

/-- The first byte of a match. -/
theorem matchesFirst_cons_eq_false {test : UInt8 → Bool} (htest : test b = false) :
    matchesFirst (test :: tests) (b :: rest) = false := by
  rw [matchesFirst, htest, Bool.false_and]

end Matches

def boundaryBehind (past : Bytes) : Bool :=
  past.head?.all fun prev ↦ isPathStartBoundary prev || isByte ':' prev

/-- A URI scheme other than that of files lies before a position, with its colon. -/
def schemeBehind : Bytes → Bool
  | [] => false
  | colon :: label =>
    isByte ':' colon && (label.takeWhile isSchemeByte).getLast?.any isAsciiAlphabetic &&
      !eqIgnoreAsciiCase (label.takeWhile isSchemeByte).reverse (asciiBytes "file")

/-- An absolute path starts between what lies behind, read backwards, and what follows. -/
def startsPath (past rest : Bytes) : Bool := boundaryBehind past &&
      (matchesFirst fileUriTests rest || (matchesFirst [isByte '/'] rest &&
        !matchesFirst slashTests rest) ||
      matchesFirst driveTests rest || matchesFirst backslashTests rest ||
      (matchesFirst slashTests rest && !schemeBehind past))

/-- The length of the token at the start of a text. -/
def tokenLength (rest : Bytes) : ℕ :=
  ((rest.takeWhile fun b ↦ !endsPathToken b).reverse.dropWhile (isByte '.')).length

def pathTokens : Tokens UInt8 where
  starts := startsPath
  length := tokenLength
  mark := utf8Bytes pathMark

/-- What a computation finds of every byte. -/
theorem forall_byte {P : UInt8 → Prop} (h : ∀ n : Fin 256, P (UInt8.ofFin n)) (b : UInt8) : P b :=
  h b.toFin

/-- How the classes of bytes lie to each other. -/
theorem classes_of_byte : ∀ b : UInt8,
    (isInert b = true → pathTests.all (fun tests ↦ tests.all fun test ↦ !test b) = true) ∧
      (endsPathToken b = true → isInert b = true ∧ isSchemeByte b = false ∧ isByte '.' b = false) ∧
      (isByte '.' b = true → isInert b = true) ∧ (128 ≤ b → isInert b = true) ∧
      (endsPathToken b = true ∨ isByte '.' b = true → b < 128) :=
  forall_byte (by decide +kernel)

/-- An inert byte passes none of the tests. -/
theorem test_of_isInert {b : UInt8} (h : isInert b = true) {tests : List (UInt8 → Bool)}
    (htests : tests ∈ pathTests) {test : UInt8 → Bool} (htest : test ∈ tests) : test b = false := by
  have hall := (classes_of_byte b).1 h
  simpa using List.all_eq_true.mp (List.all_eq_true.mp hall tests htests) test htest

/-- What is known of the bytes that end a token. -/
theorem of_endsPathToken {b : UInt8} (h : endsPathToken b = true) :
    isInert b = true ∧ isSchemeByte b = false ∧ isByte '.' b = false :=
  (classes_of_byte b).2.1 h

theorem isInert_of_isByte_dot {b : UInt8} (h : isByte '.' b = true) : isInert b = true :=
  (classes_of_byte b).2.2.1 h

theorem matchesFirst_of_isInert {b : UInt8} (h : isInert b = true) {tests : List (UInt8 → Bool)}
    (htests : tests ∈ pathTests) (rest : Bytes) : matchesFirst tests (b :: rest) = false := by
  have hall : pathTests.all (fun tests ↦ !tests.isEmpty) = true := by decide
  have hne := List.all_eq_true.mp hall tests htests
  cases tests with
  | nil => cases hne
  | cons =>
    exact matchesFirst_cons_eq_false (test_of_isInert h htests List.mem_cons_self)

/-- No path starts with an inert byte. -/
theorem startsPath_of_isInert {b : UInt8} (h : isInert b = true) (past rest : Bytes) :
    startsPath past (b :: rest) = false := by
  have hnone : ∀ tests ∈ pathTests, matchesFirst tests (b :: rest) = false :=
    fun _ htests ↦ matchesFirst_of_isInert h htests rest
  have hslashes : slashTests ∈ pathTests := by simp [pathTests]
  have hslash : matchesFirst [isByte '/'] (b :: rest) = false :=
    matchesFirst_cons_eq_false (test_of_isInert h hslashes List.mem_cons_self)
  rw [startsPath, hslash, hnone fileUriTests (by simp [pathTests]),
    hnone driveTests (by simp [pathTests]), hnone slashTests hslashes,
    hnone backslashTests (by simp [pathTests])]
  exact Bool.and_false _

@[simp] theorem startsPath_nil (past : Bytes) : startsPath past [] = false := Bool.and_false _

/-- The first byte of a path belongs to a token. -/
theorem tokenLength_pos {past rest : Bytes} (h : startsPath past rest = true) :
    0 < tokenLength rest := by
  cases rest with
  | nil =>
    rw [startsPath_nil] at h
    cases h
  | cons b =>
    have hinert : ¬ isInert b = true := by
      intro hinert
      rw [startsPath_of_isInert hinert] at h
      cases h
    have hends : endsPathToken b = false := by
      by_contra hends
      exact hinert (of_endsPathToken (by simpa using hends)).1
    have hdot : isByte '.' b = false := by
      by_contra hdot
      exact hinert (isInert_of_isByte_dot (by simpa using hdot))
    rw [tokenLength, List.takeWhile_cons_of_pos (by simp [hends]), List.reverse_cons,
      List.length_pos_iff]
    intro hnil
    have hall := List.dropWhile_eq_nil_iff.mp hnil b (by simp)
    rw [hdot] at hall
    cases hall

theorem takeWhile_append_stop {A : Type} {p : A → Bool} {item : A} (h : p item = false)
    (between past : List A) : (between ++ item :: past).takeWhile p = between.takeWhile p := by
  induction between with
  | nil => rw [List.nil_append, List.takeWhile_cons_of_neg (by simp [h]), List.takeWhile_nil]
  | cons _ _ ih => rw [List.cons_append, List.takeWhile_cons, List.takeWhile_cons, ih]

/-- A closing byte hides what came before it. -/
theorem schemeBehind_of_closed {item : UInt8} (h : endsPathToken item = true)
    (between past other : Bytes) :
    schemeBehind (between ++ item :: past) = schemeBehind (between ++ item :: other) := by
  obtain ⟨hinert, hscheme, _⟩ := of_endsPathToken h
  cases between with
  | nil =>
    have hcolon : isByte ':' item = false := by
      simp only [isInert, Bool.not_eq_true', Bool.or_eq_false_iff] at hinert
      exact hinert.1.1.2
    rw [List.nil_append, List.nil_append, schemeBehind, schemeBehind, hcolon]
    rfl
  | cons =>
    rw [List.cons_append, List.cons_append, schemeBehind, schemeBehind,
      takeWhile_append_stop hscheme, takeWhile_append_stop hscheme]

theorem startsPath_of_closed {item : UInt8} (h : endsPathToken item = true)
    (between past other rest : Bytes) :
    startsPath (between ++ item :: past) rest = startsPath (between ++ item :: other) rest := by
  have hboundary : boundaryBehind (between ++ item :: past) =
      boundaryBehind (between ++ item :: other) := by
    cases between <;> rfl
  rw [startsPath, startsPath, hboundary, schemeBehind_of_closed h between past other]

/-- Behind the token of a path come full stops and then a byte that ends the token. -/
theorem ended_of_tokenLength {token rest : Bytes} (h : token.length = tokenLength (token ++ rest)) :
    ∃ dots more, rest = dots ++ more ∧ (∀ b ∈ dots, isByte '.' b = true) ∧
      ∀ b, more.head? = some b → endsPathToken b = true := by
  have hwhole := List.takeWhile_append_dropWhile (p := fun b ↦ !endsPathToken b)
    (l := token ++ rest)
  rw [tokenLength] at h
  generalize hraw : (token ++ rest).takeWhile (fun b ↦ !endsPathToken b) = raw at h hwhole
  have hsplit := List.takeWhile_append_dropWhile (p := isByte '.') (l := raw.reverse)
  have hraw' : (raw.reverse.dropWhile (isByte '.')).reverse ++
      (raw.reverse.takeWhile (isByte '.')).reverse = raw := by
    rw [← List.reverse_append, hsplit, List.reverse_reverse]
  rw [← hraw', List.append_assoc] at hwhole
  obtain ⟨_, hrest⟩ := List.append_inj hwhole.symm (by rw [List.length_reverse]; exact h)
  refine ⟨_, _, hrest, fun b hb ↦ ?_, fun b hb ↦ ?_⟩
  · exact List.mem_takeWhile_imp (List.mem_reverse.mp hb)
  · have hhead := List.head?_dropWhile_not (fun b ↦ !endsPathToken b) (token ++ rest)
    rw [hb] at hhead
    simpa using hhead

/-- No path starts in the mark. -/
theorem startsPath_mark {first second : Bytes} (h : utf8Bytes pathMark = first ++ second)
    (hne : second ≠ []) (past rest : Bytes) :
    startsPath (first.reverse ++ past) (second ++ rest) = false := by
  have hmark : utf8Bytes pathMark = asciiBytes "<path>" := by decide
  have hfirst : first = (asciiBytes "<path>").take first.length := by
    rw [← hmark, h, List.take_left]
  have hsecond : second = (asciiBytes "<path>").drop first.length := by
    rw [← hmark, h, List.drop_left]
  have hlength : first.length < 6 := by
    have hsum : (asciiBytes "<path>").length = first.length + second.length := by
      rw [← hmark, h, List.length_append]
    have hpos := List.length_pos_iff.mpr hne
    have hsix : (asciiBytes "<path>").length = 6 := by decide
    omega
  generalize first.length = k at hfirst hsecond hlength
  subst hfirst hsecond
  cases k with
  | zero =>
    have hinert : isInert '<'.toUInt8 = true := by decide
    exact startsPath_of_isInert hinert past _
  | succ k =>
    have hk : k < 5 := by omega
    interval_cases k <;> rfl

/-- A path that starts before a mark starts before the path that was there. -/
theorem startsPath_before_mark {past between token rest out : Bytes} (hbetween : between ≠ [])
    (htoken : startsPath (between.reverse ++ past) (token ++ rest) = true)
    (h : startsPath past (between ++ (utf8Bytes pathMark ++ out)) = true) :
    startsPath past (between ++ (token ++ rest)) = true := by
  have hmark : ∃ b mark, utf8Bytes pathMark ++ out = b :: mark ∧ isInert b = true :=
    ⟨_, _, rfl, by decide⟩
  obtain ⟨b, mark, hmark, hinert⟩ := hmark
  have hfollows : ∀ tests ∈ pathTests, matchesFirst tests
    (between ++ (utf8Bytes pathMark ++ out)) = true →
      matchesFirst tests (between ++ (token ++ rest)) = true := by
    intro tests htests hmatch
    rw [hmark] at hmatch
    exact matchesFirst_of_inert (fun _ htest ↦ test_of_isInert hinert htests htest) hmatch
  have hunix : (matchesFirst [isByte '/'] (between ++ (utf8Bytes pathMark ++ out)) &&
        !matchesFirst slashTests (between ++ (utf8Bytes pathMark ++ out))) = true →
      (matchesFirst [isByte '/'] (between ++ (token ++ rest)) &&
        !matchesFirst slashTests (between ++ (token ++ rest))) = true := by
    intro hslash
    match between, hbetween with
    | [slash], _ =>
      -- The path behind the slash would start at no boundary.
      have hbyte : isByte '/' slash = true := by
        have hfirst := (Bool.and_eq_true_iff.mp hslash).1
        simpa [matchesFirst] using hfirst
      rw [isByte, beq_iff_eq] at hbyte
      subst hbyte
      cases (Bool.and_eq_true_iff.mp htoken).1
    | first :: second :: between, _ => exact hslash
  rw [startsPath, Bool.and_eq_true] at h ⊢
  refine ⟨h.1, ?_⟩
  have hrest := h.2
  simp only [Bool.or_eq_true] at hrest ⊢
  rcases hrest with (((hfile | hslash) | hdrive) | hbackslash) | hslashes
  · exact Or.inl (Or.inl (Or.inl (Or.inl (hfollows _ (by simp [pathTests]) hfile))))
  · exact Or.inl (Or.inl (Or.inl (Or.inr (hunix hslash))))
  · exact Or.inl (Or.inl (Or.inr (hfollows _ (by simp [pathTests]) hdrive)))
  · exact Or.inl (Or.inr (hfollows _ (by simp [pathTests]) hbackslash))
  · obtain ⟨hslashes, hscheme⟩ := Bool.and_eq_true_iff.mp hslashes
    exact Or.inr (Bool.and_eq_true_iff.mpr ⟨hfollows _ (by simp [pathTests]) hslashes, hscheme⟩)

theorem separated_pathTokens : Separated pathTokens (isByte '.') endsPathToken where
  proper := ⟨startsPath_nil, fun _ _ h ↦ tokenLength_pos h⟩
  hides h between past other rest := startsPath_of_closed h between past other rest
  idle h past rest := by
    rcases h with h | h
    · exact startsPath_of_isInert (isInert_of_isByte_dot h) past rest
    · exact startsPath_of_isInert (of_endsPathToken h).1 past rest
  ended _ h := ended_of_tokenLength h
  mark_clean h hne past rest := startsPath_mark h hne past rest
  mark_follows hbetween htoken h := startsPath_before_mark hbetween htoken h

end WebCodex.ValidationBridge
