import Mathlib.Data.List.Forall2
import Mathlib.Tactic.Common

/-!
A function that checks its argument step by step ends well only when every step does; the first
lemmas take such a chain apart from the front. Most errors are refusals that a caller has to
expect, some would be defects: `Ends allowed post` says that a chain fails with an allowed error
only and that what it ends well with satisfies a condition.
-/

namespace WebCodex.Foundation

section

universe u v

variable {E : Type u} {A B : Type v}

variable {x : Except E A} {f : A → Except E B} {result : B}

/-- A chain ends well when its first step and the rest do. -/
theorem bind_eq_ok : (x >>= f) = .ok result ↔ ∃ value, x = .ok value ∧ f value = .ok result := by
  cases x with
  | error | ok => simp [bind, Except.bind]

/-- A function of the result of a step. -/
theorem map_eq_ok {f : A → B} : f <$> x = .ok result ↔ ∃ value, x = .ok value ∧
    f value = result := by
  cases x with
  | error | ok => simp [Functor.map, Except.map]

theorem pure_eq_ok {value other : A} : (pure value : Except E A) = .ok other ↔ value = other := by
  simp [pure, Except.pure]

theorem ok_bind (value : A) (f : A → Except E B) : (Except.ok value >>= f) = f value := rfl

theorem error_bind (error : E) (f : A → Except E B) : (Except.error error >>= f) = .error error :=
    rfl

/-- A step that ends well for every item of a list. -/
theorem exists_mapM_ok {items : List A} (h : ∀ item ∈ items, ∃ result, f item = .ok result) :
    ∃ results, items.mapM f = .ok results := by
  induction items with
  | nil => exact ⟨[], rfl⟩
  | cons item _ ih =>
    obtain ⟨result, hresult⟩ := h item List.mem_cons_self
    obtain ⟨results, hresults⟩ := ih fun other hother ↦ h other (List.mem_cons_of_mem _ hother)
    exact ⟨result :: results, by rw [List.mapM_cons, hresult, ok_bind, hresults]; rfl⟩

/-- The same step for every item of a list. -/
theorem mapM_eq_ok {items : List A} {results : List B} :
    items.mapM f = .ok results ↔ List.Forall₂ (fun item result ↦ f item = .ok result) items
      results := by
  induction items generalizing results with
  | nil => simp [pure, Except.pure, eq_comm]
  | cons _ _ ih =>
    rw [List.mapM_cons, List.forall₂_cons_left_iff]
    simp only [bind_eq_ok, ih, pure_eq_ok]
    constructor
    · rintro ⟨result, hresult, rest, hrest, rfl⟩
      exact ⟨result, rest, hresult, hrest, rfl⟩
    · rintro ⟨result, rest, hresult, hrest, rfl⟩
      exact ⟨result, hresult, rest, hrest, rfl⟩

/-- Items that are paired off with results: each one has its own. -/
theorem exists_of_forall₂_left {C D : Type*} {R : C → D → Prop} {items : List C} {results : List D}
    (h : List.Forall₂ R items results) {item : C} (hitem : item ∈ items) :
    ∃ result ∈ results, R item result := by
  induction h with
  | nil => cases hitem
  | cons hfirst _ ih =>
    obtain rfl | hrest := List.mem_cons.mp hitem
    · exact ⟨_, List.mem_cons_self, hfirst⟩
    · obtain ⟨result, hresult, hpair⟩ := ih hrest
      exact ⟨result, List.mem_cons_of_mem _ hresult, hpair⟩

theorem exists_of_forall₂_right {C D : Type*} {R : C → D → Prop} {items : List C}
    {results : List D} (h : List.Forall₂ R items results) {result : D}
    (hresult : result ∈ results) :
    ∃ item ∈ items, R item result :=
  exists_of_forall₂_left (R := flip R) (List.Forall₂.flip h) hresult

/-- A guard in front of a chain. -/
theorem guard_eq_ok {p : Prop} [Decidable p] {message : E} {rest : Except E B} :
    (if p then Except.error message >>= f else rest) = .ok result ↔ ¬ p ∧ rest = .ok result := by
  by_cases h : p
  · simp [h, bind, Except.bind]
  · simp [h]

def ensure (condition : Bool) (error : E) : Except E Unit :=
  if condition then .ok () else .error error

def required (value : Option A) (error : E) : Except E A :=
  match value with
  | some found => .ok found
  | none => .error error

theorem exists_ok_of_isOk (h : x.isOk = true) : ∃ value, x = .ok value := by
  cases x with
  | error => cases h
  | ok value => exact ⟨value, rfl⟩

theorem toOption_eq_some {value : A} : x.toOption = some value ↔ x = .ok value := by
  cases x <;> simp [Except.toOption]

@[simp] theorem ensure_eq_ok {condition : Bool} {error : E} {value : Unit} :
    ensure condition error = .ok value ↔ condition = true := by
  cases condition <;> simp [ensure]

theorem ensure_true (error : E) : ensure true error = .ok () := rfl

theorem ensure_of_false {condition : Bool} {error : E} (h : condition = false) :
    ensure condition error = .error error := by
  rw [h]
  rfl

@[simp] theorem required_eq_ok {value : Option A} {error : E} {found : A} :
    required value error = .ok found ↔ value = some found := by
  cases value <;> simp [required]

end

universe u v

variable {E : Type u} {A B : Type v}

/-- The chain ends well with a value that satisfies the condition, or with an error that is
allowed. -/
def Ends (allowed : E → Prop) (post : A → Prop) : Except E A → Prop
  | .ok value => post value
  | .error error => allowed error

namespace Ends

variable {allowed : E → Prop} {post : A → Prop} {x : Except E A}

theorem of_eq_ok (h : Ends allowed post x) {value : A} (hvalue : x = .ok value) : post value := by
  rw [hvalue] at h
  exact h

theorem of_eq_error (h : Ends allowed post x) {error : E} (herror : x = .error error) :
    allowed error := by
  rw [herror] at h
  exact h

theorem mono {weaker : A → Prop} (h : Ends allowed post x)
    (hpost : ∀ value, post value → weaker value) : Ends allowed weaker x := by
  cases x with
  | ok value => exact hpost value h
  | error => exact h

/-- More errors are allowed. -/
theorem allow {more : E → Prop} (h : Ends allowed post x)
    (hmore : ∀ error, allowed error → more error) :
    Ends more post x := by
  cases x with
  | ok => exact h
  | error error => exact hmore error h

theorem pure {value : A} (h : post value) : Ends allowed post (Pure.pure value : Except E A) := h

theorem bind {f : A → Except E B} {after : B → Prop} (h : Ends allowed post x)
    (hf : ∀ value, post value → Ends allowed after (f value)) : Ends allowed after (x >>= f) := by
  cases x with
  | ok value => exact hf value h
  | error => exact h

/-- The first step of the chain makes no difference to the condition. -/
theorem skip {f : A → Except E B} {after : B → Prop} (h : Ends allowed post x)
    (hf : ∀ value, Ends allowed after (f value)) : Ends allowed after (x >>= f) :=
  h.bind fun value _ ↦ hf value

theorem map {f : A → B} {after : B → Prop} (h : Ends allowed post x)
    (hf : ∀ value, post value → after (f value)) : Ends allowed after (f <$> x) := by
  cases x with
  | ok value => exact hf value h
  | error => exact h

/-- Any error is allowed, and nothing is said of the result. -/
theorem any (x : Except E A) : Ends (fun _ ↦ True) (fun _ ↦ True) x := by
  cases x <;> trivial

theorem ensure {condition : Bool} {error : E} (herror : allowed error) :
    Ends allowed (fun _ ↦ condition = true) (Foundation.ensure condition error) := by
  cases condition with
  | true => exact rfl
  | false => exact herror

theorem required {value : Option A} {error : E} (herror : allowed error) :
    Ends allowed (fun found ↦ value = some found) (Foundation.required value error) := by
  cases value with
  | some => exact rfl
  | none => exact herror

/-- A check with errors of another kind. -/
theorem mapError {D : Type u} {g : D → E} {y : Except D A} (hg : ∀ error, allowed (g error)) :
    Ends allowed (fun value ↦ y = .ok value) (y.mapError g) := by
  cases y with
  | ok => exact rfl
  | error error => exact hg error

/-- A chain whose errors are replaced. -/
theorem mapError_of {D : Type u} {g : D → E} {y : Except D A}
    (h : Ends (fun error ↦ allowed (g error)) post y) : Ends allowed post (y.mapError g) := by
  cases y with
  | ok | error => exact h

/-- A step for every item of a list. -/
theorem foldlM {S I : Type v} {step : S → I → Except E S} {invariant : S → Prop}
    (hstep : ∀ state item, invariant state → Ends allowed invariant (step state item))
    (items : List I) {state : S} (h : invariant state) :
    Ends allowed invariant (items.foldlM step state) := by
  induction items generalizing state with
  | nil => exact h
  | cons item _ ih =>
    exact (hstep state item h).bind fun _ hnext ↦ ih hnext

/-- A step for every item of a list, with a result for each. -/
theorem mapM {I : Type v} {step : I → Except E A} {items : List I}
    (h : ∀ item ∈ items, Ends allowed (fun _ ↦ True) (step item)) :
    Ends allowed (fun results ↦ items.mapM step = .ok results) (items.mapM step) := by
  induction items with
  | nil => exact .pure rfl
  | cons item rest ih =>
    have hrest := ih fun other hother ↦ h other (List.mem_cons_of_mem item hother)
    have hitem := h item List.mem_cons_self
    rw [List.mapM_cons]
    cases hone : step item with
    | error => exact hitem.of_eq_error hone
    | ok =>
      cases hmany : rest.mapM step with
      | error => exact hrest.of_eq_error hmany
      | ok => exact .pure rfl

end Ends

end WebCodex.Foundation
