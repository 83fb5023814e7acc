import Mathlib.Data.List.Basic
import Mathlib.Tactic.Common

/-!
A text is read from left to right. Where a token starts, the whole token is replaced by a mark, and
everything else is copied (`Redacts`). Whether a token starts somewhere may depend on what comes
before and on what follows, so it is a question about the text on both sides, the left side read
backwards.
-/

namespace WebCodex.Foundation.Redaction

variable {A : Type*}

/-- Tokens: where they start, how long they are, and the mark that takes their place. -/
structure Tokens (A : Type*) where
  starts : List A → List A → Bool
  length : List A → ℕ
  mark : List A

/-- The text that follows `past` is redacted: its tokens are replaced, the rest is copied. -/
inductive Redacts (tokens : Tokens A) : List A → List A → List A → Prop
  | done (past : List A) : Redacts tokens past [] []
  | copied {past rest out : List A} {item : A} (hstarts : tokens.starts past (item :: rest) = false)
      (htail : Redacts tokens (item :: past) rest out) :
      Redacts tokens past (item :: rest) (item :: out)
  | redacted {past token rest out : List A} (hstarts : tokens.starts past (token ++ rest) = true)
      (hlength : token.length = tokens.length (token ++ rest))
      (htail : Redacts tokens (token.reverse ++ past) rest out) :
      Redacts tokens past (token ++ rest) (tokens.mark ++ out)

def Clean (tokens : Tokens A) (text : List A) : Prop :=
  ∀ before rest, text = before ++ rest → tokens.starts before.reverse rest = false

/-- Nothing but a token is read at the start of an empty text, and tokens are not empty. -/
structure Tokens.Proper (tokens : Tokens A) : Prop where
  nil : ∀ past, tokens.starts past [] = false
  length_pos : ∀ past rest, tokens.starts past rest = true → 0 < tokens.length rest

variable {past rest out other : List A}

section Deterministic

variable {tokens : Tokens A} (hproper : tokens.Proper)

include hproper

theorem Redacts.unique {first second : List A} (hfirst : Redacts tokens past rest first)
    (hsecond : Redacts tokens past rest second) : second = first := by
  induction hfirst generalizing second with
  | done =>
    generalize hrest : ([] : List A) = rest at hsecond
    cases hsecond with
    | done => rfl
    | copied => cases hrest
    | redacted hstarts =>
      rw [← hrest, hproper.nil] at hstarts
      cases hstarts
  | @copied past rest out item hstarts htail ih =>
    generalize hrest : item :: rest = text at hsecond
    cases hsecond with
    | done => cases hrest
    | copied _ htail =>
      obtain ⟨rfl, rfl⟩ := List.cons.inj hrest
      rw [ih htail]
    | redacted hother =>
      rw [← hrest, hstarts] at hother
      cases hother
  | @redacted past token rest out hstarts hlength htail ih =>
    generalize hrest : token ++ rest = text at hsecond
    cases hsecond with
    | done =>
      rw [hrest, hproper.nil] at hstarts
      cases hstarts
    | copied hother =>
      rw [hrest, hother] at hstarts
      cases hstarts
    | redacted _ hother htail =>
      have hsame := hlength.trans ((congrArg tokens.length hrest).trans hother.symm)
      obtain ⟨rfl, rfl⟩ := List.append_inj hrest hsame
      rw [ih htail]

end Deterministic

/-- What ends a token and what the mark is made of. Behind a token come `quiet` items and then an
item that `closes` it, which hides what came before. -/
structure Separated (tokens : Tokens A) (quiet closes : A → Bool) : Prop where
  proper : tokens.Proper
  /-- A closing item hides what came before it. -/
  hides : ∀ {item}, closes item = true → ∀ between past other rest,
    tokens.starts (between ++ item :: past) rest = tokens.starts (between ++ item :: other) rest
  /-- No token starts with a quiet or a closing item. -/
  idle : ∀ {item}, quiet item = true ∨ closes item = true → ∀ past rest,
    tokens.starts past (item :: rest) = false
  /-- What follows a token. -/
  ended : ∀ {past token rest}, tokens.starts past (token ++ rest) = true →
    token.length = tokens.length (token ++ rest) →
      ∃ quietItems more, rest = quietItems ++ more ∧ (∀ item ∈ quietItems, quiet item = true) ∧
        ∀ item, more.head? = some item → closes item = true
  /-- No token starts in the mark. -/
  mark_clean : ∀ {first second}, tokens.mark = first ++ second → second ≠ [] → ∀ past rest,
    tokens.starts (first.reverse ++ past) (second ++ rest) = false
  /-- A token that starts before a mark starts before the token that was there. -/
  mark_follows : ∀ {past between token rest out}, between ≠ [] →
    tokens.starts (between.reverse ++ past) (token ++ rest) = true →
      tokens.starts past (between ++ (tokens.mark ++ out)) = true →
        tokens.starts past (between ++ (token ++ rest)) = true

namespace Separated

variable {tokens : Tokens A} {quiet closes : A → Bool} (h : Separated tokens quiet closes)

include h in
/-- What starts before the redacted text starts before the text. -/
theorem starts_of_redacts {between : List A}
    (hredacts : Redacts tokens (between.reverse ++ past) rest out) (hbetween : between ≠ [])
    (hstarts : tokens.starts past (between ++ out) = true) :
    tokens.starts past (between ++ rest) = true := by
  generalize hpast : between.reverse ++ past = whole at hredacts
  induction hredacts generalizing between with
  | done => exact hstarts
  | @copied past' rest out item _ _ ih =>
    have hstarts : tokens.starts past ((between ++ [item]) ++ out) = true := by simpa using hstarts
    simpa using ih (by simp) hstarts (by simp [hpast])
  | redacted htoken => exact h.mark_follows hbetween (hpast ▸ htoken) hstarts

/-- The text before a position, as it was and as it is in the redacted text: the same from the last
closing item on. -/
inductive Fits (quiet closes : A → Bool) : List A → List A → List A → Prop
  | same (past rest : List A) : Fits quiet closes past past rest
  | hidden (between past other rest : List A) {item : A} (hcloses : closes item = true) :
      Fits quiet closes (between ++ item :: past) (between ++ item :: other) rest
  | ended (past other quietItems more : List A) (hquiet : ∀ item ∈ quietItems, quiet item = true)
      (hcloses : ∀ item, more.head? = some item → closes item = true) :
      Fits quiet closes past other (quietItems ++ more)

/-- The next item was copied. -/
theorem Fits.copied {item : A} (hfits : Fits quiet closes past other (item :: rest)) :
    Fits quiet closes (item :: past) (item :: other) rest := by
  generalize htext : item :: rest = text at hfits
  cases hfits with
  | same => exact .same _ _
  | hidden between past other _ hcloses => exact .hidden (item :: between) past other rest hcloses
  | ended _ _ quietItems more hquiet hcloses =>
    cases quietItems with
    | nil => exact .hidden [] past other rest (hcloses item (congrArg List.head? htext.symm))
    | cons _ quietItems =>
      obtain ⟨rfl, rfl⟩ := List.cons.inj htext
      exact .ended _ _ quietItems more (fun item hitem ↦ hquiet item (List.mem_cons_of_mem _ hitem))
        hcloses

include h

/-- Where the redacted text goes on like the text, it starts no token that the text does not. -/
theorem starts_of_fits {item : A} (hredacts : Redacts tokens (item :: past) rest out)
    (hfits : Fits quiet closes past other (item :: rest))
    (hstarts : tokens.starts other (item :: out) = true) :
    tokens.starts past (item :: rest) = true := by
  have hsame : tokens.starts past (item :: out) = true := by
    generalize htext : item :: rest = text at hfits
    cases hfits with
    | same => exact hstarts
    | hidden between past other _ hcloses =>
      rw [h.hides hcloses between past other]
      exact hstarts
    | ended _ _ quietItems _ hquiet hcloses =>
      have hidle : quiet item = true ∨ closes item = true := by
        cases quietItems with
        | nil => exact Or.inr (hcloses item (congrArg List.head? htext.symm))
        | cons =>
          obtain ⟨rfl, _⟩ := List.cons.inj htext
          exact Or.inl (hquiet item List.mem_cons_self)
      rw [h.idle hidle] at hstarts
      cases hstarts
  have hone : Redacts tokens ([item].reverse ++ past) rest out := hredacts
  exact h.starts_of_redacts hone (List.cons_ne_nil _ _) hsame

theorem clean_of_fits (hredacts : Redacts tokens past rest out)
    (hfits : Fits quiet closes past other rest) (before after : List A)
    (hout : out = before ++ after) :
    tokens.starts (before.reverse ++ other) after = false := by
  induction hredacts generalizing other before with
  | done =>
    obtain ⟨rfl, rfl⟩ := List.append_eq_nil_iff.mp hout.symm
    exact h.proper.nil _
  | @copied past rest out item hstarts htail ih =>
    cases before with
    | nil =>
      rw [List.nil_append] at hout
      rw [← hout]
      by_contra hother
      rw [h.starts_of_fits htail hfits (by simpa using hother)] at hstarts
      cases hstarts
    | cons _ before =>
      obtain ⟨rfl, hrest⟩ := List.cons.inj hout
      have hrest := ih hfits.copied before hrest
      simpa using hrest
  | @redacted past token rest out hstarts hlength htail ih =>
    have hbehind : ∀ between, out = between ++ after →
        tokens.starts ((tokens.mark ++ between).reverse ++ other) after = false := by
      intro between hout
      obtain ⟨quietItems, more, rfl, hquiet, hcloses⟩ := h.ended hstarts hlength
      have hrest := ih (.ended _ (tokens.mark.reverse ++ other) quietItems more hquiet hcloses)
        between hout
      simpa using hrest
    rcases List.append_eq_append_iff.mp hout with ⟨between, rfl, hrest⟩ | ⟨inside, hmark, rfl⟩
    · exact hbehind between hrest
    · cases inside with
      | nil =>
        rw [List.append_nil] at hmark
        have hrest := hbehind [] rfl
        rw [List.append_nil, hmark] at hrest
        exact hrest
      | cons => exact h.mark_clean hmark (List.cons_ne_nil _ _) other out

/-- No token starts in the redacted text. -/
theorem clean {text : List A} (hredacts : Redacts tokens [] text out) : Clean tokens out := by
  intro before after hout
  have hclean := h.clean_of_fits hredacts (.same [] text) before after hout
  rwa [List.append_nil] at hclean

end Separated

end WebCodex.Foundation.Redaction
