import Mathlib.Data.List.Induction

/-!
A separator ends a segment; what stands behind the last separator is a segment too, unless it is
empty (`segments`). A fold that treats the separator and all other letters apart goes over the list
one segment after another (`foldl_segments`), and an encoding that keeps the separator apart from
all other letters encodes segment by segment (`segments_flatMap`).
-/

namespace WebCodex.Foundation.Segments

variable {α β S : Type*} [DecidableEq α] [DecidableEq β] {sep mark : α} {xs line : List α}
  {done : List (List α)}

/-- The segments that are ended, and the one that is not, if there is something of it. -/
def withOpen (done : List (List α)) (line : List α) : List (List α) :=
  if line.isEmpty then done else done ++ [line]

def segments (sep : α) (xs : List α) : List (List α) :=
  withOpen (xs.splitOn sep).dropLast ((xs.splitOn sep).getLastD [])

def strip (mark : α) (xs : List α) : List α := if xs.getLast? = some mark then xs.dropLast else xs

omit [DecidableEq α] in
@[simp] theorem withOpen_nil : withOpen done [] = done := rfl

omit [DecidableEq α] in
theorem withOpen_of_ne (h : line ≠ []) : withOpen done line = done ++ [line] :=
    if_neg (by simpa using h)

theorem notMem_of_mem_splitOn (h : line ∈ xs.splitOn sep) : sep ∉ line := by
  induction xs generalizing line with
  | nil =>
    rw [List.splitOn_nil, List.mem_singleton] at h
    subst h
    exact List.not_mem_nil
  | cons _ xs ih =>
    rw [List.splitOn_cons_eq_if_modifyHead] at h
    split_ifs at h with hsep
    · rcases List.mem_cons.mp h with rfl | h
      · exact List.not_mem_nil
      · exact ih h
    · obtain ⟨_, _, hsplit⟩ := List.exists_cons_of_ne_nil (List.splitOn_ne_nil sep xs)
      rw [hsplit, List.modifyHead_cons] at h
      rw [hsplit] at ih
      rcases List.mem_cons.mp h with rfl | h
      · exact List.not_mem_cons_of_ne_of_not_mem (fun hsame ↦ hsep (by simp [hsame]))
          (ih List.mem_cons_self)
      · exact ih (List.mem_cons_of_mem _ h)

omit [DecidableEq α] in
theorem mem_withOpen (h : xs ∈ withOpen done line) : xs ∈ done ∨ xs = line := by
  unfold withOpen at h
  split_ifs at h
  · exact .inl h
  · simpa using h

theorem notMem_of_mem_segments (h : line ∈ segments sep xs) : sep ∉ line := by
  rcases mem_withOpen h with hdone | rfl
  · exact notMem_of_mem_splitOn (List.dropLast_subset _ hdone)
  · have hmem : (xs.splitOn sep).getLastD [] ∈ xs.splitOn sep := by
      rw [List.getLastD_eq_getLast?, List.getLast?_eq_some_getLast (List.splitOn_ne_nil sep xs)]
      exact List.getLast_mem _
    exact notMem_of_mem_splitOn hmem

/-- A state that says which segments are ended and what there is of the next one. -/
theorem foldl_segments {step : S → α → S} {state : List (List α) → List α → S}
    (hopen : ∀ done line a, a ≠ sep → step (state done line) a = state done (line ++ [a]))
    (hend : ∀ done line, step (state done line) sep = state (done ++ [line]) []) (xs : List α) :
    xs.foldl step (state [] []) = state (xs.splitOn sep).dropLast
      ((xs.splitOn sep).getLastD []) := by
  have hgeneral : ∀ (xs : List α) (done : List (List α)) (line : List α),
      xs.foldl step (state done line) =
        state (done ++ ((xs.splitOn sep).modifyHead (line ++ ·)).dropLast)
          (((xs.splitOn sep).modifyHead (line ++ ·)).getLastD []) := by
    intro xs
    induction xs with
    | nil => simp
    | cons a xs ih =>
      intro done line
      obtain ⟨head, tail, hsplit⟩ := List.exists_cons_of_ne_nil (List.splitOn_ne_nil sep xs)
      rw [List.foldl_cons, List.splitOn_cons_eq_if_modifyHead]
      by_cases ha : a = sep
      · subst ha
        rw [hend, ih, if_pos (by simp), hsplit]
        simp
      · rw [hopen done line a ha, ih, if_neg (by simpa using ha), hsplit]
        simp
  obtain ⟨head, tail, hsplit⟩ := List.exists_cons_of_ne_nil (List.splitOn_ne_nil sep xs)
  simpa [hsplit] using hgeneral xs [] []

omit [DecidableEq α] in
theorem intercalate_concat (lines : List (List α)) (line : List α) :
    List.intercalate [sep] (lines ++ [line]) =
      if lines = [] then line else List.intercalate [sep] lines ++ sep :: line := by
  induction lines with
  | nil => simp
  | cons _ lines ih =>
    rw [if_neg (List.cons_ne_nil _ _), List.cons_append]
    cases lines with
    | nil => simp
    | cons =>
      rw [List.cons_append, List.intercalate_cons_cons, ← List.cons_append, ih,
        List.intercalate_cons_cons]
      simp

variable {f : α → List β} {code : β}

theorem splitOn_append_of_notMem {front : List α} (h : sep ∉ front) :
    (front ++ xs).splitOn sep = (xs.splitOn sep).modifyHead (front ++ ·) := by
  obtain ⟨_, _, hsplit⟩ := List.exists_cons_of_ne_nil (List.splitOn_ne_nil sep xs)
  induction front with
  | nil => simp [hsplit]
  | cons _ _ ih =>
    obtain ⟨ha, hfront⟩ := not_or.mp (mt List.mem_cons.mpr h)
    rw [List.cons_append, List.splitOn_cons_eq_if_modifyHead, if_neg (by simpa using Ne.symm ha),
      ih hfront, hsplit]
    rfl

theorem splitOn_flatMap (hsep : f sep = [code]) (hother : ∀ a, a ≠ sep → code ∉ f a) :
    (xs.flatMap f).splitOn code = (xs.splitOn sep).map (·.flatMap f) := by
  induction xs with
  | nil => simp
  | cons a xs ih =>
    obtain ⟨_, _, hsplit⟩ := List.exists_cons_of_ne_nil (List.splitOn_ne_nil sep xs)
    rw [List.flatMap_cons, List.splitOn_cons_eq_if_modifyHead]
    by_cases ha : a = sep
    · subst ha
      rw [if_pos (by simp), hsep, List.singleton_append, List.splitOn_cons_eq_if_modifyHead,
        if_pos (by simp), ih]
      rfl
    · rw [if_neg (by simpa using ha), splitOn_append_of_notMem (hother a ha), ih, hsplit]
      rfl

omit [DecidableEq α] [DecidableEq β] in
theorem withOpen_map_flatMap (hne : ∀ a, f a ≠ []) :
    withOpen (done.map (·.flatMap f)) (line.flatMap f) = (withOpen done line).map
      (·.flatMap f) := by
  cases line with
  | nil => simp
  | cons a =>
    rw [withOpen_of_ne (List.cons_ne_nil _ _), withOpen_of_ne (by simp [hne a]), List.map_append]
    rfl

theorem segments_flatMap (hne : ∀ a, f a ≠ []) (hsep : f sep = [code])
    (hother : ∀ a, a ≠ sep → code ∉ f a) :
    segments code (xs.flatMap f) = (segments sep xs).map (·.flatMap f) := by
  rw [segments, segments, splitOn_flatMap hsep hother, ← withOpen_map_flatMap hne,
    List.map_dropLast]
  refine congrArg (withOpen _) ?_
  rw [List.getLastD_eq_getLast?, List.getLastD_eq_getLast?, List.getLast?_map]
  cases (xs.splitOn sep).getLast? <;> rfl

theorem strip_flatMap (hne : ∀ a, f a ≠ []) (hmark : f mark = [code])
    (hother : ∀ a, a ≠ mark → code ∉ f a) :
    strip code (xs.flatMap f) = (strip mark xs).flatMap f := by
  induction xs using List.reverseRecOn with
  | nil => rfl
  | append_singleton xs a =>
    rw [List.flatMap_append, List.flatMap_singleton]
    by_cases ha : a = mark
    · subst ha
      simp [strip, hmark]
    · have hlast : (xs.flatMap f ++ f a).getLast? ≠ some code := by
        rw [List.getLast?_append, List.getLast?_eq_some_getLast (hne a), Option.some_or]
        exact fun h ↦ hother a ha (Option.some.inj h ▸ List.getLast_mem (hne a))
      rw [strip, if_neg hlast, strip, if_neg (by simpa using ha), List.flatMap_append,
        List.flatMap_singleton]

omit [DecidableEq α] [DecidableEq β] in
theorem intercalate_flatMap (hsep : f sep = [code]) (lines : List (List α)) :
    (List.intercalate [sep] lines).flatMap f = List.intercalate [code]
    (lines.map (·.flatMap f)) := by
  induction lines with
  | nil => rfl
  | cons _ lines ih =>
    cases lines with
    | nil => simp
    | cons =>
      rw [List.map_cons] at ih ⊢
      rw [List.map_cons, List.intercalate_cons_cons, List.intercalate_cons_cons, ← ih]
      simp [hsep]

end WebCodex.Foundation.Segments
