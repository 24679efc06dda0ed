import Mathlib.Algebra.BigOperators.Group.Finset.Basic
import Mathlib.Algebra.Order.BigOperators.Group.Multiset
import Mathlib.Data.Multiset.Count

/-! # Contents that move between places

    Places hold amounts of a commutative monoid.  A transfer takes one amount
    from outside and gives another away, and touches finitely many places only:
    added up over those it is in balance (`Transfers`).  One transfer behind the
    other is a transfer of both, whichever places the two touch. -/

namespace Transfer

open Finset

variable {κ M : Type}

section Monoid

variable [AddCommMonoid M]

/-- The contents `f` become `f'`, while `a` comes in and `b` goes out. -/
def Transfers (f : κ → M) (a b : M) (f' : κ → M) : Prop :=
  ∃ S : Finset κ, (∀ k, k ∉ S → f' k = f k) ∧ ∑ k ∈ S, f' k + b = ∑ k ∈ S, f k + a

variable {f f' f'' : κ → M} {a a' b b' : M}

/-- What comes in goes out. -/
theorem Transfers.pass (f : κ → M) (a : M) : Transfers f a a f :=
  ⟨∅, fun _ _ => rfl, rfl⟩

/-- More places may be added up. -/
theorem widen {S T : Finset κ} (hsub : S ⊆ T) (hrest : ∀ k, k ∉ S → f' k = f k)
    (hsum : ∑ k ∈ S, f' k + b = ∑ k ∈ S, f k + a) :
    ∑ k ∈ T, f' k + b = ∑ k ∈ T, f k + a := by
  classical
  have hout : ∑ k ∈ T \ S, f' k = ∑ k ∈ T \ S, f k :=
    sum_congr rfl fun k hk => hrest k (mem_sdiff.mp hk).2
  rw [← sum_sdiff hsub, ← sum_sdiff hsub, hout, add_assoc, hsum, add_assoc]

/-- **ONE TRANSFER** behind the other. -/
theorem Transfers.trans (h : Transfers f a b f') (h' : Transfers f' a' b' f'') :
    Transfers f (a + a') (b + b') f'' := by
  classical
  obtain ⟨S, hS, hsum⟩ := h
  obtain ⟨T, hT, hsum'⟩ := h'
  refine ⟨S ∪ T, ?_, ?_⟩
  · intro k hk
    obtain ⟨hkS, hkT⟩ := not_or.mp fun hin => hk (mem_union.mpr hin)
    exact (hT k hkT).trans (hS k hkS)
  · have hfirst := widen (subset_union_left : S ⊆ S ∪ T) hS hsum
    have hsecond := widen (subset_union_right : T ⊆ S ∪ T) hT hsum'
    rw [add_comm b, ← add_assoc, hsecond, add_assoc, add_comm a', ← add_assoc, hfirst,
      add_assoc]

/-- What goes out and comes in again need not be mentioned. -/
theorem Transfers.cancel [IsRightCancelAdd M] {c : M} (h : Transfers f (a + c) (b + c) f') :
    Transfers f a b f' := by
  obtain ⟨S, hS, hsum⟩ := h
  refine ⟨S, hS, ?_⟩
  rw [← add_assoc, ← add_assoc] at hsum
  exact add_right_cancel hsum

/-- One place changes. -/
theorem Transfers.single (k : κ) (hrest : ∀ j, j ≠ k → f' j = f j) (hk : f' k + b = f k + a) :
    Transfers f a b f' := by
  refine ⟨{k}, fun j hj => hrest j fun h => hj (mem_singleton.mpr h), ?_⟩
  rw [sum_singleton, sum_singleton]
  exact hk

/-- Two places change. -/
theorem Transfers.between {k l : κ} (hne : k ≠ l)
    (hrest : ∀ j, j ≠ k → j ≠ l → f' j = f j)
    (hsum : f' k + f' l + b = f k + f l + a) : Transfers f a b f' := by
  classical
  refine ⟨{k, l}, ?_, ?_⟩
  · intro j hj
    rw [mem_insert, mem_singleton, not_or] at hj
    exact hrest j hj.1 hj.2
  · rw [sum_pair hne, sum_pair hne]
    exact hsum

end Monoid

/-! ## Single things -/

variable {α : Type} [DecidableEq α] {f f' : κ → Multiset α} {a b : Multiset α} {x : α}

/-- A thing of which one copy comes in, and none has been at a place, is not at a
    place and outside as well. -/
theorem Transfers.once (h : Transfers f a b f') (hfresh : ∀ k, x ∉ f k)
    (hone : a.count x = 1) :
    (b.count x = 1 ∧ ∀ k, x ∉ f' k)
      ∨ x ∉ b ∧ ∃ k, (f' k).count x = 1 ∧ ∀ j, j ≠ k → x ∉ f' j := by
  classical
  obtain ⟨S, hrest, hsum⟩ := h
  have hcount := congrArg (Multiset.count x) hsum
  rw [Multiset.count_add, Multiset.count_add, Multiset.count_sum', Multiset.count_sum', hone,
    sum_eq_zero fun k _ => Multiset.count_eq_zero.mpr (hfresh k)] at hcount
  have hout : ∀ k, k ∉ S → x ∉ f' k := by
    intro k hk
    rw [hrest k hk]
    exact hfresh k
  rcases Nat.eq_zero_or_pos (b.count x) with hb | hb
  · rw [hb] at hcount
    -- the places add up to one copy
    obtain ⟨k, hkS, hk⟩ : ∃ k ∈ S, (f' k).count x ≠ 0 := by
      by_contra hnone
      rw [sum_eq_zero fun k hk => by_contra fun h => hnone ⟨k, hk, h⟩] at hcount
      cases hcount
    rw [← add_sum_erase S _ hkS] at hcount
    refine .inr ⟨Multiset.count_eq_zero.mp hb, k, by omega, ?_⟩
    intro j hj
    by_cases hjS : j ∈ S
    · have hzero : ∑ k ∈ S.erase k, (f' k).count x = 0 := by omega
      exact Multiset.count_eq_zero.mp
        (sum_eq_zero_iff.mp hzero j (mem_erase.mpr ⟨hj, hjS⟩))
    · exact hout j hjS
  · refine .inl ⟨by omega, ?_⟩
    intro k
    by_cases hk : k ∈ S
    · have hzero : ∑ k ∈ S, (f' k).count x = 0 := by omega
      exact Multiset.count_eq_zero.mp (sum_eq_zero_iff.mp hzero k hk)
    · exact hout k hk

end Transfer
