import Mathlib.Algebra.Group.Nat.Defs
import Mathlib.Data.List.Basic
import Mathlib.Logic.Function.Basic

/-! # Counted loops over arrays

    An array is a function from indices, of which the first so many cells are
    in use.  `forLoop` is the C loop `for (i = 0; i < n; i++)`; its rule is
    induction on the iterations done.  Writing cells one after the other
    (`scatter`) leaves each index with the value computed for it, in whatever
    order and however often it is written. -/

namespace Slots

variable {α σ ι : Type}

/-- `for (i = 0; i < n; i++) s = body(i, s)`. -/
def forLoop (body : Nat → σ → σ) : Nat → σ → σ
  | 0, s => s
  | n + 1, s => body n (forLoop body n s)

/-- **LOOP RULE**: what holds before the first iteration and is carried
    through each of them holds behind the last. -/
theorem forLoop_inv (P : Nat → σ → Prop) {body : Nat → σ → σ} {n : Nat} {s : σ}
    (h0 : P 0 s) (hstep : ∀ i t, i < n → P i t → P (i + 1) (body i t)) :
    P n (forLoop body n s) := by
  induction n with
  | zero => exact h0
  | succ n ih =>
      show P (n + 1) (body n (forLoop body n s))
      exact hstep n _ (Nat.lt_succ_self n)
        (ih (fun i t hi => hstep i t (Nat.lt_succ_of_lt hi)))

/-- The cells in use. -/
def cells (a : Nat → α) (n : Nat) : List α := (List.range n).map a

theorem cells_congr {a b : Nat → α} {n : Nat} (h : ∀ i, i < n → a i = b i) :
    cells a n = cells b n := by
  refine List.map_congr_left ?_
  intro i hi
  exact h i (List.mem_range.mp hi)

/-- One more index joins a filtered range when it passes. -/
theorem filter_range_succ (p : Nat → Bool) (n : Nat) :
    (List.range (n + 1)).filter p
      = (List.range n).filter p ++ if p n then [n] else [] := by
  rw [List.range_succ, List.filter_append, List.filter_singleton,
    Bool.cond_eq_ite]

/-- Write the value of every listed index into its cell. -/
def scatter (g : Nat → α) (l : List Nat) (a : Nat → α) : Nat → α :=
  l.foldl (fun a i => Function.update a i (g i)) a

/-- **SCATTER**: a listed cell has its value, any other is as it was. -/
theorem scatter_apply (g : Nat → α) (l : List Nat) (a : Nat → α) (k : Nat) :
    scatter g l a k = if k ∈ l then g k else a k := by
  induction l generalizing a with
  | nil => rfl
  | cons i l ih =>
      show scatter g l (Function.update a i (g i)) k = _
      rw [ih]
      by_cases hk : k ∈ l
      · rw [if_pos hk, if_pos (List.mem_cons_of_mem i hk)]
      · rw [if_neg hk]
        by_cases hi : k = i
        · subst hi
          rw [if_pos List.mem_cons_self, Function.update_self]
        · rw [Function.update_of_ne hi, if_neg]
          intro h
          rcases List.mem_cons.mp h with h | h
          · exact hi h
          · exact hk h

end Slots
