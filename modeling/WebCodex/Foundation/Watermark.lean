import Mathlib.Data.List.Basic
import Mathlib.Order.Basic
import Mathlib.Order.Lattice
import Mathlib.Tactic.Common

/-!
Items stand in a list in the order of their keys. Those up to a mark have been delivered, those
above it wait. Taking some items from the front of those that wait and moving the mark to the last
of them delivers exactly these, and new items above the mark wait.
-/

namespace WebCodex.Foundation.Watermark

variable {A K : Type*} [LinearOrder K] (key : A → K)

def Ascending (items : List A) : Prop := items.Pairwise fun first second ↦ key first < key second

def upTo (mark : K) (items : List A) : List A := items.filter fun item ↦ decide (key item ≤ mark)

def above (mark : K) (items : List A) : List A := items.filter fun item ↦ decide (mark < key item)

section Items

variable {key} {mark : K} {items : List A}

theorem mem_above {item : A} : item ∈ above key mark items ↔ item ∈ items ∧ mark < key item := by
  simp [above]

theorem mem_upTo {item : A} : item ∈ upTo key mark items ↔ item ∈ items ∧ key item ≤ mark := by
  simp [upTo]

theorem upTo_append (first second : List A) :
    upTo key mark (first ++ second) = upTo key mark first ++ upTo key mark second :=
  List.filter_append _ _

theorem above_append (first second : List A) :
    above key mark (first ++ second) = above key mark first ++ above key mark second :=
  List.filter_append _ _

theorem upTo_eq_self (h : ∀ item ∈ items, key item ≤ mark) : upTo key mark items = items :=
  List.filter_eq_self.mpr fun item hmem ↦ decide_eq_true (h item hmem)

theorem upTo_eq_nil (h : ∀ item ∈ items, mark < key item) : upTo key mark items = [] :=
  List.filter_eq_nil_iff.mpr fun item hmem ↦ by simpa using h item hmem

theorem above_eq_self (h : ∀ item ∈ items, mark < key item) : above key mark items = items :=
  List.filter_eq_self.mpr fun item hmem ↦ decide_eq_true (h item hmem)

theorem above_eq_nil (h : ∀ item ∈ items, key item ≤ mark) : above key mark items = [] :=
  List.filter_eq_nil_iff.mpr fun item hmem ↦ by simpa using h item hmem

/-- What has been delivered comes before what waits. -/
theorem upTo_append_above (h : Ascending key items) (mark : K) :
    upTo key mark items ++ above key mark items = items := by
  induction items with
  | nil => rfl
  | cons head rest ih =>
    obtain ⟨hhead, hrest⟩ := List.pairwise_cons.mp h
    by_cases hle : key head ≤ mark
    · have hdelivered : upTo key mark (head :: rest) = head :: upTo key mark rest := by
        simp [upTo, hle]
      have hwaits : above key mark (head :: rest) = above key mark rest := by
        simp [above, not_lt.mpr hle]
      rw [hdelivered, hwaits, List.cons_append, ih hrest]
    · have hwait : ∀ item ∈ head :: rest, mark < key item := by
        intro item hmem
        rcases List.mem_cons.mp hmem with rfl | hmem
        · exact not_le.mp hle
        · exact (not_le.mp hle).trans (hhead item hmem)
      rw [upTo_eq_nil hwait, above_eq_self hwait, List.nil_append]

/-- Moving the mark to the last of the items that were taken from the front delivers these. -/
theorem upTo_max {taken rest : List A} {last : K} (h : Ascending key items)
    (hsplit : above key mark items = taken ++ rest) (hmem : last ∈ taken.map key)
    (hlast : ∀ item ∈ taken, key item ≤ last) :
    upTo key (max mark last) items = upTo key mark items ++ taken ∧
      above key (max mark last) items = rest := by
  obtain ⟨final, hfinal, rfl⟩ := List.mem_map.mp hmem
  have hwait : ∀ item ∈ taken ++ rest, mark < key item := by
    intro item hitem
    rw [← hsplit] at hitem
    exact (mem_above.mp hitem).2
  have hmark : mark < key final := hwait final (List.mem_append_left _ hfinal)
  have hitems : items = (upTo key mark items ++ taken) ++ rest := by
    rw [List.append_assoc, ← hsplit, upTo_append_above h]
  have hafter : ∀ item ∈ rest, key final < key item := by
    have hascending : Ascending key ((upTo key mark items ++ taken) ++ rest) := hitems ▸ h
    intro item hitem
    exact (List.pairwise_append.mp hascending).2.2 final (List.mem_append_right _ hfinal) item hitem
  have hbefore : ∀ item ∈ upTo key mark items ++ taken, key item ≤ key final := by
    intro item hitem
    rcases List.mem_append.mp hitem with hold | htaken
    · exact (mem_upTo.mp hold).2.trans hmark.le
    · exact hlast item htaken
  rw [max_eq_right hmark.le]
  constructor
  · rw [hitems, upTo_append, upTo_eq_self hbefore, upTo_eq_nil hafter, List.append_nil, ← hitems]
  · rw [hitems, above_append, above_eq_nil hbefore, above_eq_self hafter, List.nil_append]

end Items

end WebCodex.Foundation.Watermark
