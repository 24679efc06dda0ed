import Mathlib.Data.List.Basic
import Mathlib.Data.List.Pairwise

/-! # Walking through an ordered list

    A list in increasing order, gone through by asking for the next element behind
    the one at hand. -/

namespace SortedWalk

variable {α : Type} [LE α] [LT α] [DecidableLT α] [Std.IsLinearOrder α] [Std.LawfulOrderLT α]
  {l : List α}

/-- What is behind the first element found is what is left. -/
theorem filter_after [DecidableLE α] {a x : α} {xs : List α} (hl : l.Pairwise (· < ·))
    (h : l.filter (a ≤ ·) = x :: xs) : l.filter (x < ·) = xs := by
  have hx : a ≤ x := by
    have hmem : x ∈ l.filter (a ≤ ·) := by
      rw [h]
      exact List.mem_cons_self
    simpa using (List.mem_filter.mp hmem).2
  have hsorted : (x :: xs).Pairwise (· < ·) := by
    rw [← h]
    exact hl.sublist List.filter_sublist
  calc l.filter (x < ·)
      = (l.filter (a ≤ ·)).filter (x < ·) := by
        rw [List.filter_filter]
        refine List.filter_congr ?_
        intro y _
        rw [eq_comm, Bool.and_eq_left_iff_imp, decide_eq_true_eq, decide_eq_true_eq]
        exact fun hy => Std.le_trans hx (Std.le_of_lt hy)
    _ = (x :: xs).filter (x < ·) := by rw [h]
    _ = xs := by
        rw [List.filter_cons_of_neg (by simp [Std.lt_irrefl]), List.filter_eq_self]
        intro y hy
        exact decide_eq_true ((List.pairwise_cons.mp hsorted).1 y hy)

/-- What is behind an element is what follows it in the list. -/
theorem filter_after_getElem (hl : l.Pairwise (· < ·)) {j : Nat} (hj : j < l.length) :
    l.filter (l[j] < ·) = l.drop (j + 1) := by
  have hsplit : l.filter (l[j] < ·)
      = (l.take (j + 1)).filter (l[j] < ·) ++ (l.drop (j + 1)).filter (l[j] < ·) := by
    rw [← List.filter_append, List.take_append_drop]
  have hbefore : (l.take (j + 1)).filter (l[j] < ·) = [] := by
    rw [List.filter_eq_nil_iff]
    intro y hy
    obtain ⟨i, hi, rfl⟩ := List.mem_take_iff_getElem.mp hy
    rw [decide_eq_true_eq, Std.not_lt]
    rcases Nat.eq_or_lt_of_le (show i ≤ j by omega) with rfl | hlt
    · exact Std.le_refl _
    · exact Std.le_of_lt (List.pairwise_iff_getElem.mp hl _ _ _ _ hlt)
  have hbehind : (l.drop (j + 1)).filter (l[j] < ·) = l.drop (j + 1) := by
    rw [List.filter_eq_self]
    intro y hy
    obtain ⟨i, hi, rfl⟩ := List.mem_drop_iff_getElem.mp hy
    exact decide_eq_true (List.pairwise_iff_getElem.mp hl _ _ _ _ (by omega))
  rw [hsplit, hbefore, hbehind, List.nil_append]

end SortedWalk
