import IpsecSecgw.Lib.Slots

/-! # Filtering an array in place

    The loop `for (i = 0, j = 0; i < n; i++) if (…) a[j++] = a[i];`, with some
    state beside the array.  The write position never passes the read position,
    so the loop sees every element as it was, and leaves the list a recursion
    over the elements keeps (`sweep_eq`). -/

namespace Sweep

open Slots

variable {α σ : Type}

/-- The array, the write position and the state beside. -/
structure Cursor (α σ : Type) where
  arr : List α
  out : Nat
  state : σ

/-- One round: the element is looked at, and kept at the write position or
    not. -/
def round (body : Nat → α → σ → Bool × σ) (i : Nat) (c : Cursor α σ) :
    Cursor α σ :=
  match c.arr[i]? with
  | none => c
  | some a =>
      let r := body i a c.state
      if r.1 then ⟨c.arr.set c.out a, c.out + 1, r.2⟩ else ⟨c.arr, c.out, r.2⟩

/-- The loop, with the used part of the array behind it. -/
def sweep (body : Nat → α → σ → Bool × σ) (arr : List α) (s : σ) : List α × σ :=
  let c := forLoop (round body) arr.length ⟨arr, 0, s⟩
  (c.arr.take c.out, c.state)

/-- The elements kept from index `i` on. -/
def keptFrom (body : Nat → α → σ → Bool × σ) : Nat → List α → σ → List α × σ
  | _, [], s => ([], s)
  | i, a :: l, s =>
      let r := body i a s
      let t := keptFrom body (i + 1) l r.2
      (if r.1 then a :: t.1 else t.1, t.2)

/-- One more element at the end. -/
theorem keptFrom_concat (body : Nat → α → σ → Bool × σ) (i : Nat) (l : List α)
    (a : α) (s : σ) :
    keptFrom body i (l ++ [a]) s
      = let t := keptFrom body i l s
        let r := body (i + l.length) a t.2
        (t.1 ++ (if r.1 then [a] else []), r.2) := by
  induction l generalizing i s with
  | nil => rfl
  | cons b l ih =>
      rw [List.cons_append, keptFrom, keptFrom]
      dsimp only
      rw [ih, List.length_cons, Nat.add_assoc, Nat.add_comm 1]
      dsimp only
      by_cases h : (body i b s).1 = true
      · rw [if_pos h, if_pos h, List.cons_append]
      · rw [if_neg h, if_neg h]

/-- **COUNTING**: when every round keeps its element or counts it, the loop
    keeps or counts them all. -/
theorem keptFrom_count {body : Nat → α → σ → Bool × σ} (count : σ → Nat)
    (h : ∀ i a s, count (body i a s).2 + (if (body i a s).1 then 1 else 0)
      = count s + 1) (i : Nat) (l : List α) (s : σ) :
    count (keptFrom body i l s).2 + (keptFrom body i l s).1.length
      = count s + l.length := by
  induction l generalizing i s with
  | nil => rfl
  | cons a l ih =>
      have hone := h i a s
      have hrest := ih (i + 1) (body i a s).2
      rw [keptFrom]
      dsimp only
      rw [List.length_cons]
      split
      · rename_i hkept
        rw [if_pos hkept] at hone
        rw [List.length_cons]
        omega
      · rename_i hkept
        rw [if_neg hkept] at hone
        omega

/-- What the loop has done when it comes to element `i`: nothing behind it has
    been written. -/
structure Swept (body : Nat → α → σ → Bool × σ) (arr : List α) (s : σ) (i : Nat)
    (c : Cursor α σ) : Prop where
  kept : (c.arr.take c.out, c.state) = keptFrom body 0 (arr.take i) s
  behind : c.out ≤ i
  ahead : c.arr.drop i = arr.drop i
  length : c.arr.length = arr.length

theorem Swept.round {body : Nat → α → σ → Bool × σ} {arr : List α} {s : σ}
    {i : Nat} {c : Cursor α σ} (hi : i < arr.length) (h : Swept body arr s i c) :
    Swept body arr s (i + 1) (round body i c) := by
  obtain ⟨hkept, hbehind, hahead, hlength⟩ := h
  have hget : c.arr[i]? = some arr[i] := by
    rw [← List.head?_drop, hahead, List.head?_drop]
    exact List.getElem?_eq_getElem hi
  have hdrop : c.arr.drop (i + 1) = arr.drop (i + 1) := by
    rw [← List.drop_drop, ← List.drop_drop, hahead]
  have hnext := keptFrom_concat body 0 (arr.take i) arr[i] s
  rw [← hkept, Nat.zero_add, List.length_take, Nat.min_eq_left (Nat.le_of_lt hi),
    List.take_append_getElem hi] at hnext
  dsimp only at hnext
  rw [Sweep.round, hget]
  dsimp only
  split
  · rename_i hr
    rw [if_pos hr] at hnext
    refine ⟨?_, Nat.succ_le_succ hbehind, ?_, ?_⟩
    · rw [hnext]
      have hout : c.out < c.arr.length :=
        Nat.lt_of_le_of_lt hbehind (hlength ▸ hi)
      dsimp only
      rw [List.take_add_one, List.take_set_of_le (Nat.le_refl _), List.getElem?_set_self hout]
      rfl
    · dsimp only
      rw [List.drop_set_of_lt (Nat.lt_succ_of_le hbehind), hdrop]
    · dsimp only
      rw [List.length_set, hlength]
  · rename_i hr
    rw [if_neg hr, List.append_nil] at hnext
    exact ⟨hnext.symm, Nat.le_succ_of_le hbehind, hdrop, hlength⟩

/-- **IN PLACE**: the loop keeps what the recursion keeps. -/
theorem sweep_eq (body : Nat → α → σ → Bool × σ) (arr : List α) (s : σ) :
    sweep body arr s = keptFrom body 0 arr s := by
  have hstart : Swept body arr s 0 ⟨arr, 0, s⟩ := ⟨rfl, Nat.le_refl _, rfl, rfl⟩
  have hend := forLoop_inv (Swept body arr s) hstart
    fun i c hi h => Swept.round hi h
  have hkept := hend.kept
  rw [List.take_length] at hkept
  exact hkept

end Sweep
